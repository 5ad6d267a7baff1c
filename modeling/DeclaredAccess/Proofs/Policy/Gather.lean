import DeclaredAccess.Proofs.Checks
import DeclaredAccess.Proofs.Policy.Merge
import Mathlib.Data.List.Basic
import Mathlib.Data.List.Induction

/-! What gathering elements by key makes of a list. The keys come in the order in which the elements
first have them, and what merging leaves of a first element stays as it came. Where any two neighbours
of three elements may be merged first, a list can be cut in two and each part be gathered before: what
is gathered then has the same entries in the same order. -/

namespace DeclaredAccess

namespace Keyed

variable {α β ε : Type} {key : α → String} {merge : α → α → Except ε α} {P : α → Prop}
  {m m' u u' : Keyed α} {xs ys : List α}

/-- The entries without the keys under which they stand. -/
def values (m : Keyed α) : List α := m.map (·.2)

theorem map_key_values (hm : m.Indexed key P) : m.values.map key = m.keys := by
  rw [values, List.map_map]
  exact List.map_congr_left fun e he => (hm.entry e he).1

/-- Among the entries only the one that stands under a key has it. -/
theorem filter_values (hm : m.Indexed key P) (k : String) :
    (m.values.filter fun x => key x = k) = (m.get? k).toList := by
  have own : (m.values.filter fun x => key x = k) = (m.filter fun e => e.1 = k).map (·.2) := by
    rw [values, List.filter_map]
    exact congrArg _ (List.filter_congr fun e he => by simp [(hm.entry e he).1])
  rw [own, filter_key hm.nodup]
  cases m.get? k <;> rfl

theorem eq_filterMap_keys (hm : m.keys.Nodup) :
    (m.keys.filterMap fun k => (m.get? k).map fun v => (k, v)) = m := by
  rw [keys, List.filterMap_map]
  refine (List.filterMap_congr fun e he => ?_).trans List.filterMap_some
  rw [Function.comp_apply, get?_of_mem hm he]
  rfl

/-- Lists of values by name are the same where the same names come in the same order, each with the
same value. -/
theorem eq_of_get? (hm : m.keys.Nodup) (hk : m.keys = m'.keys) (h : ∀ k, m.get? k = m'.get? k) :
    m = m' := by
  calc m = m.keys.filterMap fun k => (m.get? k).map fun v => (k, v) := (eq_filterMap_keys hm).symm
    _ = m'.keys.filterMap fun k => (m'.get? k).map fun v => (k, v) := by simp only [hk, h]
    _ = m' := eq_filterMap_keys (hk ▸ hm)

/-! ## Names in the order in which they first come -/

/-- Takes a name down, unless it stands there already. -/
def note (names : List String) (k : String) : List String :=
  if k ∈ names then names else names ++ [k]

theorem mem_note {names : List String} {k j : String} : j ∈ note names k ↔ j ∈ names ∨ j = k := by
  unfold note
  split
  · exact ⟨.inl, fun h => h.elim id fun hj => hj ▸ ‹_›⟩
  · simp

theorem mem_foldl_note {ks names : List String} {j : String} :
    j ∈ ks.foldl note names ↔ j ∈ names ∨ j ∈ ks := by
  induction ks generalizing names with
  | nil => simp
  | cons k ks ih => rw [List.foldl_cons, ih, mem_note, List.mem_cons, or_assoc]

/-- Names that were taken down before are taken down in the same order as at first. -/
theorem foldl_note_note (ks names : List String) :
    (ks.foldl note []).foldl note names = ks.foldl note names := by
  induction ks using List.reverseRecOn with
  | nil => rfl
  | append_singleton ks k ih =>
    rw [List.foldl_append, List.foldl_append]
    show (note (ks.foldl note []) k).foldl note names = note (ks.foldl note names) k
    by_cases hk : k ∈ ks
    · rw [note, if_pos (mem_foldl_note.mpr (.inr hk)), note,
        if_pos (mem_foldl_note.mpr (.inr hk)), ih]
    · rw [note, if_neg (by simpa [mem_foldl_note] using hk), List.foldl_append, ih]
      rfl

theorem keys_put (m : Keyed α) (k : String) (v : α) : (m.put k v).keys = note m.keys k := by
  induction m with
  | nil => rfl
  | cons e r ih =>
    obtain ⟨j, w⟩ := e
    have hcons : keys ((j, w) :: r) = j :: keys r := rfl
    by_cases hj : j = k
    · rw [put, if_pos hj, hcons, note, if_pos (by simp [hj]), ← hj]
      rfl
    · rw [put, if_neg hj, hcons]
      show j :: (put r k v).keys = _
      rw [ih]
      by_cases hk : k ∈ keys r
      · rw [note, if_pos hk, note, if_pos (List.mem_cons_of_mem j hk)]
      · rw [note, if_neg hk, note, if_neg (by simp [Ne.symm hj, hk]), List.cons_append]

theorem keys_mergeIn {x : α} (h : mergeIn key merge m x = .ok m') :
    m'.keys = note m.keys (key x) := by
  obtain ⟨_, rfl, _⟩ := exists_of_mergeIn h
  exact keys_put ..

theorem keys_foldlM (h : xs.foldlM (mergeIn key merge) m = .ok m') :
    m'.keys = (xs.map key).foldl note m.keys := by
  induction xs generalizing m with
  | nil =>
    cases h
    rfl
  | cons x xs ih =>
    rw [List.foldlM_cons] at h
    obtain ⟨m₁, hx, h⟩ := exists_of_bind_eq_ok h
    rw [ih h, keys_mergeIn hx]
    rfl

/-- The keys come in the order in which the elements first have them. -/
theorem keys_gather (h : gather key merge xs = .ok m) : m.keys = (xs.map key).foldl note [] :=
  keys_foldlM (gather_eq xs ▸ h)

theorem mem_keys_gather (h : gather key merge xs = .ok m) {k : String} :
    k ∈ m.keys ↔ ∃ x ∈ xs, key x = k := by
  rw [keys_gather h, mem_foldl_note, List.mem_map]
  simp

/-! ## What the first element decides -/

theorem foldlM_accumulate_first {f : α → β} (hf : ∀ a b c, merge a b = .ok c → f c = f a) {a : α}
    {found : Option α} (h : xs.foldlM (accumulate merge) (some a) = .ok found) :
    found.map f = some (f a) := by
  induction xs generalizing a with
  | nil =>
    cases h
    rfl
  | cons x xs ih =>
    rw [List.foldlM_cons] at h
    cases hc : merge a x with
    | error e => simp only [accumulate, hc] at h; cases h
    | ok c =>
      simp only [accumulate, hc] at h
      rw [ih h, hf a x c hc]

/-- What merging leaves of the first element stays as the first element with the key has it. -/
theorem first_of_gather {f : α → β} (hf : ∀ a b c, merge a b = .ok c → f c = f a)
    (h : gather key merge xs = .ok m) (k : String) :
    (m.get? k).map f = (xs.find? fun x => key x = k).map f := by
  have hg := get?_gather h k
  rw [← List.head?_filter]
  cases hl : xs.filter fun x => key x = k with
  | nil =>
    rw [hl] at hg
    rw [← Except.ok.inj hg]
    rfl
  | cons x l =>
    rw [hl, List.foldlM_cons] at hg
    exact foldlM_accumulate_first hf hg

/-! ## Merging in parts -/

/-- Of three elements any two neighbours may be merged first. -/
def Associates (merge : α → α → Except ε α) : Prop :=
  ∀ a b c ab bc, merge a b = .ok ab → merge b c = .ok bc → merge ab c = merge a bc

theorem foldlM_accumulate_assoc (ha : Associates merge) {a b c : α} {l : List α}
    {found found' : Option α} (hm : merge a b = .ok c)
    (h : l.foldlM (accumulate merge) (some b) = .ok found)
    (h' : l.foldlM (accumulate merge) (some c) = .ok found') :
    ∃ d, found = some d ∧ (merge a d).map some = .ok found' := by
  induction l generalizing b c with
  | nil =>
    cases h
    cases h'
    exact ⟨b, rfl, by rw [hm]; rfl⟩
  | cons x l ih =>
    rw [List.foldlM_cons] at h h'
    cases hb : merge b x with
    | error e => simp only [accumulate, hb] at h; cases h
    | ok bx =>
      cases hc : merge c x with
      | error e => simp only [accumulate, hc] at h'; cases h'
      | ok cx =>
        simp only [accumulate, hb] at h
        simp only [accumulate, hc] at h'
        exact ih ((ha a b x c bx hm hb).symm.trans hc) h h'

/-- Elements that are merged among themselves first make the same of what is there. -/
theorem foldlM_accumulate_toList (ha : Associates merge) {l : List α} {found o r : Option α}
    (h : l.foldlM (accumulate merge) none = .ok found)
    (h' : l.foldlM (accumulate merge) o = .ok r) :
    found.toList.foldlM (accumulate merge) o = .ok r := by
  cases l with
  | nil =>
    cases h
    exact h'
  | cons x l =>
    rw [List.foldlM_cons] at h h'
    cases o with
    | none =>
      cases h.symm.trans h'
      cases hf : found with
      | none => rfl
      | some d => rfl
    | some a =>
      cases hm : merge a x with
      | error e => simp only [accumulate, hm] at h'; cases h'
      | ok c =>
        simp only [accumulate, hm] at h'
        obtain ⟨d, rfl, hd⟩ := foldlM_accumulate_assoc ha hm h h'
        show (accumulate merge (some a) d >>= fun o => pure o) = _
        rw [bind_pure]
        exact hd

/-- Two lists in a row are merged as what is left of each of them. -/
theorem gather_append (ha : Associates merge) (hk : Keeps key merge P) (hxs : ∀ x ∈ xs, P x)
    (hys : ∀ y ∈ ys, P y) (hx : gather key merge xs = .ok m) (hy : gather key merge ys = .ok m')
    (hu : gather key merge (xs ++ ys) = .ok u)
    (hu' : gather key merge (m.values ++ m'.values) = .ok u') : u = u' := by
  have hm : m.Indexed key P := indexed_gather hk hxs hx
  have hm' : m'.Indexed key P := indexed_gather hk hys hy
  have nodup : u.keys.Nodup :=
    (indexed_gather hk (List.forall_mem_append.mpr ⟨hxs, hys⟩) hu).nodup
  refine eq_of_get? nodup ?_ fun k => ?_
  · rw [keys_gather hu, keys_gather hu', List.map_append, List.map_append, map_key_values hm,
      map_key_values hm', List.foldl_append, List.foldl_append, keys_gather hx, keys_gather hy,
      foldl_note_note, foldl_note_note]
  · have whole := get?_gather hu k
    have parts := get?_gather hu' k
    rw [List.filter_append, List.foldlM_append] at whole parts
    rw [filter_values hm, filter_values hm'] at parts
    have first : (m.get? k).toList.foldlM (accumulate merge) none = .ok (m.get? k) := by
      cases m.get? k <;> rfl
    rw [get?_gather hx k] at whole
    rw [first] at parts
    have merged := foldlM_accumulate_toList ha (get?_gather hy k) whole
    exact Except.ok.inj (merged.symm.trans parts)

end Keyed

end DeclaredAccess
