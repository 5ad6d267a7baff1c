import DeclaredAccess.Error

/-! Sets of values, and their order. Lists and objects cannot be members of a set, and only values
of one type have an order: texts by code points, numbers by size. -/

namespace DeclaredAccess.Value

/-- Whether the first of two comparable values does not come after the second. -/
def le? : Value → Value → Option Bool
  | text a, text b => some (decide (a ≤ b))
  | a, b => do
    let (p, q) ← a.quotient?
    let (r, s) ← b.quotient?
    return decide (p * s ≤ r * q)

/-- The values in order. A value on its own need not be comparable. -/
def sorted? : List Value → Option (List Value)
  | [] => some []
  | [v] => some [v]
  | v :: r =>
    if r.all fun w => (v.le? w).isSome then some ((v :: r).mergeSort fun a b => (a.le? b).getD false)
    else none

/-- The members of a set, each where it first came. -/
def distinct (vs : List Value) : Except Error (List Value) := match vs.find? isCollection with
  | some v => .error (.shape (.notAMember v))
  | none => .ok vs.eraseDups

def inOrder (vs : List Value) : Except Error (List Value) := match sorted? vs with
  | some sorted => .ok sorted
  | none => .error (.shape .noOrder)

theorem le?_text (a b : String) : le? (text a) (text b) = some (decide (a ≤ b)) := rfl

theorem eraseDups_texts (names : List String) :
    (names.map text).eraseDups = names.eraseDups.map text := by
  match names with
  | [] => simp
  | a :: r =>
    have hf : (r.map text).filter (fun v => !(v == text a)) =
        (r.filter fun b => !(b == a)).map text := by
      rw [List.filter_map]
      congr 1
    rw [List.map_cons, List.eraseDups_cons, List.eraseDups_cons, List.map_cons, hf,
      eraseDups_texts]
termination_by names.length
decreasing_by exact Nat.lt_succ_of_le (List.length_filter_le _ _)

theorem distinct_texts (names : List String) :
    distinct (names.map text) = .ok (names.eraseDups.map text) := by
  have h : (names.map text).find? isCollection = none := by
    simp [List.find?_eq_none, isCollection]
  simp only [distinct, h, eraseDups_texts]

/-- Texts always have an order, which is that of names. -/
theorem inOrder_texts (names : List String) :
    inOrder (names.map text) = .ok ((sortNames names).map text) := by
  match names with
  | [] => simp [inOrder, sorted?, sortNames]
  | [a] => simp [inOrder, sorted?, sortNames]
  | a :: b :: r =>
    have h : ((b :: r).map text).all (fun w => ((text a).le? w).isSome) = true := by
      simp [le?_text]
    have hs : (sortNames (a :: b :: r)).map text =
        ((a :: b :: r).map text).mergeSort fun v w => (v.le? w).getD false :=
      List.map_mergeSort fun x _ y _ => by simp [le?_text]
    simp only [List.map_cons] at h hs
    simp only [inOrder, sorted?, List.map_cons, h, hs, if_true]

end DeclaredAccess.Value
