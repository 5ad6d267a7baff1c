/-! Lists of values by name, in the order in which the names first came. Looking a name up sees
only the last value put under it. -/

namespace DeclaredAccess

/-- Names in code point order. -/
def sortNames (names : List String) : List String := names.mergeSort fun a b => decide (a ≤ b)

/-- Names in code point order, each once. -/
def sortedSet (names : List String) : List String := sortNames names.eraseDups

abbrev Keyed (α : Type) := List (String × α)

namespace Keyed

variable {α : Type}

def get? (m : Keyed α) (k : String) : Option α := List.lookup k m

/-- Replaces the value under `k` where it stands, or appends a new entry. -/
def put (m : Keyed α) (k : String) (v : α) : Keyed α := match m with
  | [] => [(k, v)]
  | (k', w) :: r => if k' = k then (k, v) :: r else (k', w) :: put r k v

def keys (m : Keyed α) : List String := m.map (·.1)

def contains (m : Keyed α) (k : String) : Bool := (m.get? k).isSome

/-- The entries in the code point order of their names. -/
def sorted (m : Keyed α) : Keyed α := m.mergeSort fun a b => decide (a.1 ≤ b.1)

/-- The entries of a list by key, where entries with one key are merged in order. -/
def gather {ε : Type} (key : α → String) (merge : α → α → Except ε α) (xs : List α) :
    Except ε (Keyed α) :=
  xs.foldlM (fun m x => match m.get? (key x) with
    | some y => (merge y x).map (m.put (key x))
    | none => .ok (m.put (key x) x)) []

@[simp] theorem get?_nil (k : String) : get? ([] : Keyed α) k = none := rfl

theorem get?_cons (k' : String) (w : α) (r : Keyed α) (k : String) :
    get? ((k', w) :: r) k = if k = k' then some w else get? r k := by
  by_cases h : k = k'
  · simp [get?, h]
  · simp [get?, List.lookup_cons, h, beq_eq_false_iff_ne.mpr h]

theorem get?_put (m : Keyed α) (k : String) (v : α) (j : String) :
    (m.put k v).get? j = if j = k then some v else m.get? j := by
  induction m with
  | nil => simp [put, get?_cons]
  | cons e r ih =>
    obtain ⟨k', w⟩ := e
    by_cases hk : k' = k
    · subst hk; by_cases hj : j = k' <;> simp [put, get?_cons, hj]
    · by_cases hj : j = k'
      · subst hj; simp [put, get?_cons, hk]
      · simp [put, get?_cons, hk, hj, ih]

theorem mem_keys_put (m : Keyed α) (k : String) (v : α) (j : String) :
    j ∈ (m.put k v).keys ↔ j = k ∨ j ∈ m.keys := by
  induction m with
  | nil => simp [put, keys]
  | cons e r ih =>
    obtain ⟨k', w⟩ := e
    by_cases hk : k' = k
    · subst hk; simp [put, keys]
    · simp only [put, hk, if_false, keys, List.map_cons, List.mem_cons] at ih ⊢
      rw [ih]
      exact ⟨fun h => by rcases h with h | h | h <;> simp [h],
        fun h => by rcases h with h | h | h <;> simp [h]⟩

theorem nodup_keys_put {m : Keyed α} (h : m.keys.Nodup) (k : String) (v : α) :
    (m.put k v).keys.Nodup := by
  induction m with
  | nil => simp [put, keys]
  | cons e r ih =>
    obtain ⟨k', w⟩ := e
    simp only [keys, List.map_cons, List.nodup_cons] at h
    by_cases hk : k' = k
    · subst hk; simpa [put, keys] using h
    · have hr : (put r k v).keys.Nodup := ih h.2
      simp only [put, hk, if_false, keys, List.map_cons, List.nodup_cons]
      refine ⟨fun hm => ?_, hr⟩
      rcases (mem_keys_put r k v k').mp hm with hj | hj
      · exact hk hj
      · exact h.1 hj

end Keyed

end DeclaredAccess
