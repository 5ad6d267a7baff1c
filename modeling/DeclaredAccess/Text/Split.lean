/-! Text cut at a mark. -/

namespace DeclaredAccess.Text

/-- The parts between the marks, empty ones included: one more than there are marks. -/
def split (mark : Char) : List Char → List (List Char)
  | [] => [[]]
  | c :: r =>
    if c = mark then [] :: split mark r
    else match split mark r with
      | [] => [[c]]
      | w :: ws => (c :: w) :: ws

/-- What stands before the first mark and what follows it; without a mark nothing follows. -/
def cut (mark : Char) (cs : List Char) : List Char × List Char :=
  (cs.takeWhile (· != mark), (cs.dropWhile (· != mark)).drop 1)

/-- The parts with a mark between each two. -/
def join (mark : Char) : List (List Char) → List Char
  | [] => []
  | [w] => w
  | w :: v :: r => w ++ mark :: join mark (v :: r)

theorem split_ne_nil (mark : Char) (cs : List Char) : split mark cs ≠ [] := by
  cases cs with
  | nil => simp [split]
  | cons c r =>
    simp only [split]
    split
    · simp
    · split <;> simp

/-- Nothing is lost by cutting. -/
theorem join_split (mark : Char) (cs : List Char) : join mark (split mark cs) = cs := by
  induction cs with
  | nil => rfl
  | cons c r ih =>
    simp only [split]
    split
    · rename_i h
      subst h
      cases hs : split c r with
      | nil => exact absurd hs (split_ne_nil c r)
      | cons w ws => rw [hs] at ih; simp [join, ih]
    · cases hs : split mark r with
      | nil => exact absurd hs (split_ne_nil mark r)
      | cons w ws =>
        rw [hs] at ih
        cases ws with
        | nil => simpa [join] using ih
        | cons v vs => simpa [join] using ih

theorem split_append_mark {mark : Char} {w : List Char} (h : ¬mark ∈ w) (r : List Char) :
    split mark (w ++ mark :: r) = w :: split mark r := by
  induction w with
  | nil => simp [split]
  | cons c w ih =>
    have hc : c ≠ mark := fun e => h (by simp [e])
    simp [split, hc, ih fun hm => h (by simp [hm])]

theorem split_of_not_mem {mark : Char} {w : List Char} (h : ¬mark ∈ w) : split mark w = [w] := by
  induction w with
  | nil => rfl
  | cons c w ih =>
    have hc : c ≠ mark := fun e => h (by simp [e])
    simp [split, hc, ih fun hm => h (by simp [hm])]

/-- Parts without the mark are found again. -/
theorem split_join {mark : Char} {ws : List (List Char)} (hn : ws ≠ [])
    (h : ∀ w ∈ ws, ¬mark ∈ w) : split mark (join mark ws) = ws := by
  induction ws with
  | nil => exact absurd rfl hn
  | cons w ws ih =>
    have hw : ¬mark ∈ w := h w (by simp)
    cases ws with
    | nil => exact split_of_not_mem hw
    | cons v ws =>
      show split mark (w ++ mark :: join mark (v :: ws)) = _
      rw [split_append_mark hw, ih (by simp) fun u hu => h u (by simp [hu])]

theorem not_mem_join {mark c : Char} {ws : List (List Char)} (hc : c ≠ mark)
    (h : ∀ w ∈ ws, ¬c ∈ w) : ¬c ∈ join mark ws := by
  induction ws with
  | nil => simp [join]
  | cons w ws ih =>
    have hw : ¬c ∈ w := h w (by simp)
    cases ws with
    | nil => exact hw
    | cons v ws =>
      have hr : ¬c ∈ join mark (v :: ws) := ih fun u hu => h u (by simp [hu])
      show ¬c ∈ w ++ mark :: join mark (v :: ws)
      simp [hw, hc, hr]

theorem cut_append_mark {mark : Char} {w : List Char} (h : ¬mark ∈ w) (r : List Char) :
    cut mark (w ++ mark :: r) = (w, r) := by
  induction w with
  | nil => simp [cut]
  | cons c w ih =>
    have hc : (c != mark) = true := by simpa using fun e : c = mark => h (by simp [e])
    have := ih fun hm => h (by simp [hm])
    simp only [cut, Prod.mk.injEq] at this
    simp [cut, hc, this.1, this.2]

end DeclaredAccess.Text
