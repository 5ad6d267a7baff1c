import DeclaredAccess.Resource

/-! What is known once a chain of checks has gone through. -/

namespace DeclaredAccess

variable {ε α β : Type} {b : β}

theorem exists_of_bind_eq_ok {x : Except ε α} {f : α → Except ε β} (h : x >>= f = .ok b) :
    ∃ a, x = .ok a ∧ f a = .ok b := by
  cases x with
  | ok a => exact ⟨a, rfl, h⟩
  | error e => cases h

/-- A computation that goes on only where a condition does not hold. -/
theorem of_guard_eq_ok {p : Prop} [Decidable p] {e : ε} {f : Unit → Except ε β}
    (h : (if p then throw e >>= f else f ()) = .ok b) : ¬p ∧ f () = .ok b := by
  split at h
  · cases h
  · exact ⟨‹_›, h⟩

theorem of_guards_eq_ok {p q₁ q₂ : Prop} [Decidable p] [Decidable q₁] [Decidable q₂] {e₁ e₂ : ε}
    {f : Unit → Except ε β} (h : (if p then if q₁ then throw e₁ >>= f else f ()
      else if q₂ then throw e₂ >>= f else f ()) = .ok b) :
    (p → ¬q₁) ∧ (¬p → ¬q₂) ∧ f () = .ok b := by
  split at h
  · obtain ⟨hq, hf⟩ := of_guard_eq_ok h
    exact ⟨fun _ => hq, fun hn => absurd ‹p› hn, hf⟩
  · obtain ⟨hq, hf⟩ := of_guard_eq_ok h
    exact ⟨fun hp => absurd hp ‹¬p›, fun _ => hq, hf⟩

theorem bind_eq_ok {a : α} {x : Except ε α} {f : α → Except ε β} (hx : x = .ok a)
    (h : f a = .ok b) : x >>= f = .ok b := by
  rw [hx]
  exact h

theorem guard_eq_ok {p : Prop} [Decidable p] {e : ε} {f : Unit → Except ε β} (hp : ¬p)
    (h : f () = .ok b) : (if p then throw e >>= f else f ()) = .ok b :=
  (if_neg hp).trans h

theorem guards_eq_ok {p q₁ q₂ : Prop} [Decidable p] [Decidable q₁] [Decidable q₂] {e₁ e₂ : ε}
    {f : Unit → Except ε β} (h₁ : p → ¬q₁) (h₂ : ¬p → ¬q₂) (h : f () = .ok b) :
    (if p then if q₁ then throw e₁ >>= f else f ()
      else if q₂ then throw e₂ >>= f else f ()) = .ok b := by
  split
  · exact guard_eq_ok (h₁ ‹_›) h
  · exact guard_eq_ok (h₂ ‹_›) h

/-- A computation that succeeds at each item succeeds at all of them. -/
theorem mapM_map_ok {γ : Type} {f : α → Except ε β} {g : γ → α} {h : γ → β} {l : List γ}
    (hf : ∀ c ∈ l, f (g c) = .ok (h c)) : (l.map g).mapM f = .ok (l.map h) := by
  induction l with
  | nil => rfl
  | cons c l ih =>
    rw [List.map_cons, List.mapM_cons, hf c List.mem_cons_self,
      ih fun d hd => hf d (List.mem_cons_of_mem _ hd)]
    rfl

/-- What comes out of a computation that succeeds at all items is made of one of them. -/
theorem exists_of_mem_mapM_ok {f : α → Except ε β} {l : List α} {bs : List β}
    (h : l.mapM f = .ok bs) (hb : b ∈ bs) : ∃ a ∈ l, f a = .ok b := by
  induction l generalizing bs with
  | nil =>
    cases h
    cases hb
  | cons a l ih =>
    rw [List.mapM_cons] at h
    obtain ⟨c, hc, h⟩ := exists_of_bind_eq_ok h
    obtain ⟨cs, hcs, h⟩ := exists_of_bind_eq_ok h
    cases h
    rcases List.mem_cons.mp hb with rfl | hb
    · exact ⟨a, List.mem_cons_self, hc⟩
    · obtain ⟨d, hd, hfd⟩ := ih hcs hb
      exact ⟨d, List.mem_cons_of_mem a hd, hfd⟩

/-- A computation that succeeds at all items succeeds at each of them. -/
theorem exists_ok_of_mapM_ok {f : α → Except ε β} {l : List α} {bs : List β}
    (h : l.mapM f = .ok bs) {a : α} (ha : a ∈ l) : ∃ b, f a = .ok b := by
  induction l generalizing bs with
  | nil => cases ha
  | cons c l ih =>
    rw [List.mapM_cons] at h
    obtain ⟨b, hb, h⟩ := exists_of_bind_eq_ok h
    obtain ⟨cs, hcs, _⟩ := exists_of_bind_eq_ok h
    rcases List.mem_cons.mp ha with rfl | ha
    · exact ⟨b, hb⟩
    · exact ih hcs ha

theorem forall_of_mapM_ok {f : α → Except ε β} {p : β → Prop} (hf : ∀ a b, f a = .ok b → p b)
    {l : List α} {bs : List β} (h : l.mapM f = .ok bs) : ∀ b ∈ bs, p b := by
  intro b hb
  obtain ⟨a, _, ha⟩ := exists_of_mem_mapM_ok h hb
  exact hf a b ha

/-- A computation that succeeds at all items does so in whatever order they come. -/
theorem exists_perm_of_mapM_ok {f : α → Except ε β} {l l' : List α} {bs : List β}
    (hp : l.Perm l') (h : l.mapM f = .ok bs) : ∃ bs', l'.mapM f = .ok bs' ∧ bs.Perm bs' := by
  induction hp generalizing bs with
  | nil => exact ⟨bs, h, .refl _⟩
  | cons a _ ih =>
    rw [List.mapM_cons] at h
    obtain ⟨b, hb, h⟩ := exists_of_bind_eq_ok h
    obtain ⟨cs, hcs, h⟩ := exists_of_bind_eq_ok h
    cases h
    obtain ⟨cs', hcs', hperm⟩ := ih hcs
    exact ⟨b :: cs', List.mapM_cons.trans (bind_eq_ok hb (bind_eq_ok hcs' rfl)), hperm.cons b⟩
  | swap a a' l =>
    rw [List.mapM_cons] at h
    obtain ⟨b', hb', h⟩ := exists_of_bind_eq_ok h
    obtain ⟨cs', h', h⟩ := exists_of_bind_eq_ok h
    cases h
    rw [List.mapM_cons] at h'
    obtain ⟨b, hb, h⟩ := exists_of_bind_eq_ok h'
    obtain ⟨cs, hcs, h⟩ := exists_of_bind_eq_ok h
    cases h
    have rest : (a' :: l).mapM f = .ok (b' :: cs) :=
      List.mapM_cons.trans (bind_eq_ok hb' (bind_eq_ok hcs rfl))
    exact ⟨b :: b' :: cs, List.mapM_cons.trans (bind_eq_ok hb (bind_eq_ok rest rfl)), .swap b b' cs⟩
  | trans _ _ ih ih' =>
    obtain ⟨cs, hcs, hperm⟩ := ih h
    obtain ⟨cs', hcs', hperm'⟩ := ih' hcs
    exact ⟨cs', hcs', hperm.trans hperm'⟩

/-- What every step of a fold keeps holds at the end of it. -/
theorem of_foldlM_ok {σ : Type} {f : σ → α → Except ε σ} {P : σ → Prop} {l : List α} {s s' : σ}
    (hf : ∀ a ∈ l, ∀ s s', P s → f s a = .ok s' → P s') (hs : P s) (h : l.foldlM f s = .ok s') :
    P s' := by
  induction l generalizing s with
  | nil =>
    cases h
    exact hs
  | cons a l ih =>
    rw [List.foldlM_cons] at h
    obtain ⟨s₁, h₁, h₂⟩ := exists_of_bind_eq_ok h
    exact ih (fun b hb => hf b (List.mem_cons_of_mem a hb)) (hf a List.mem_cons_self s s₁ hs h₁) h₂

theorem exists_map_of_forall {p : β → Prop} {f : β → α} {l : List α}
    (h : ∀ a ∈ l, ∃ b, p b ∧ a = f b) : ∃ bs : List β, l = bs.map f ∧ ∀ b ∈ bs, p b := by
  induction l with
  | nil => exact ⟨[], rfl, by simp⟩
  | cons a l ih =>
    obtain ⟨b, hb, rfl⟩ := h a List.mem_cons_self
    obtain ⟨bs, rfl, hbs⟩ := ih fun a ha => h a (List.mem_cons_of_mem _ ha)
    exact ⟨b :: bs, rfl, List.forall_mem_cons.mpr ⟨hb, hbs⟩⟩

namespace Resource

variable {r r' : Resource} {kind : ResourceKind} {key : String}

theorem required_ne_empty {s : String} (h : r.required kind key = .ok s) : s ≠ "" := by
  unfold required at h
  split at h
  · split at h
    · cases h
    · rename_i hs
      cases h
      simpa using hs
  · cases h

theorem required_congr (h : r'.get? key = r.get? key) :
    r'.required kind key = r.required kind key := by
  rw [required, required, h]

theorem optional_congr {default : String} (h : r'.get? key = r.get? key) :
    r'.optional key default = r.optional key default := by
  rw [optional, optional, h]

theorem flag_congr {default : Bool} (h : r'.get? key = r.get? key) :
    r'.flag key default = r.flag key default := by
  rw [flag, flag, getD, getD, h]

end Resource

end DeclaredAccess
