import DeclaredAccess.Proofs.Session.Block
import DeclaredAccess.Proofs.Session.Brackets

/-! What holds of every run. The exchanges fix what a task does. A block that only asks leaves
everything as it is, and any block ends in the transaction it began in. -/

namespace DeclaredAccess

variable {σ α : Type} {s s' : Standing σ} {t : List Exchange} {a : Allowance}

/-- Two beginnings of the same exchanges that both end a dialogue are the same. -/
theorem Dialogue.Path.eq_of_append {d : Dialogue α} {t₁ t₂ u₁ u₂ : List Exchange} {a₁ a₂ : α}
    (h₁ : Path d t₁ a₁) (h₂ : Path d t₂ a₂) (h : t₁ ++ u₁ = t₂ ++ u₂) : t₁ = t₂ ∧ a₁ = a₂ := by
  induction h₁ generalizing t₂ with
  | done a =>
    obtain ⟨rfl, rfl⟩ := path_done_iff.mp h₂
    exact ⟨rfl, rfl⟩
  | ask x _ ih =>
    obtain ⟨y, u, rfl, hy⟩ := path_ask_iff.mp h₂
    obtain ⟨hx, hu⟩ := List.cons.inj h
    cases hx
    obtain ⟨rfl, rfl⟩ := ih hy hu
    exact ⟨rfl, rfl⟩

namespace Task

theorem Goes.eq_of_append {x : Task σ α} {t₁ t₂ u₁ u₂ : List Exchange} {r₁ r₂ : Except Failure α}
    {s₁ s₂ : Standing σ} (h₁ : Goes x s t₁ r₁ s₁) (h₂ : Goes x s t₂ r₂ s₂)
    (h : t₁ ++ u₁ = t₂ ++ u₂) : t₁ = t₂ ∧ r₁ = r₂ ∧ s₁ = s₂ := by
  obtain ⟨ht, ha⟩ := Dialogue.Path.eq_of_append h₁ h₂ h
  obtain ⟨hr, hs⟩ := Prod.mk.inj ha
  exact ⟨ht, hr, hs⟩

theorem Block.asks {x : Task σ α} (h : Block .asking x) {r : Except Failure α}
    (hg : Goes x s t r s') : s' = s ∧ ∀ y ∈ t, y.isQuestion = true := by
  induction h generalizing s s' t with
  | pure v =>
    obtain ⟨rfl, _, rfl⟩ := goes_pure.mp hg
    exact ⟨rfl, by simp⟩
  | fail _ =>
    obtain ⟨rfl, _, rfl⟩ := goes_fail.mp hg
    exact ⟨rfl, by simp⟩
  | bindOf _ _ ihx ihf =>
    rcases goes_bind.mp hg with ⟨t₁, t₂, v, s₁, rfl, h₁, h₂⟩ | ⟨f, h₁, rfl⟩
    · obtain ⟨rfl, ha⟩ := ihx h₁
      obtain ⟨rfl, hb⟩ := ihf v ⟨_, _, _, h₁⟩ h₂
      refine ⟨rfl, fun y hy => ?_⟩
      exact (List.mem_append.mp hy).elim (ha y) (hb y)
    · exact ihx h₁
  | query q intent =>
    obtain ⟨rfl, ⟨e, _, rfl, _⟩ | ⟨_, b, hq, rfl, _⟩⟩ := goes_execute.mp hg
    · exact ⟨rfl, by simp⟩
    · exact ⟨rfl, by simp [Exchange.isQuestion, Sql.isSelect_query hq]⟩
  -- what does more than ask is not allowed
  | change h _ => exact h.elim
  | elevated h _ _ _ _ => exact h.elim
  | version h _ => exact h.elim
  | changeWork h _ => exact h.elim

/-- `Elevates role actor block s t r s'`: a way in which the block can go with an elevation. -/
inductive Elevates (role actor : Value) (block : Task σ α) (s : Standing σ) :
    List Exchange → Except Failure α → Standing σ → Prop
  /-- It cannot be told whether a membership is needed. -/
  | failed {t : List Exchange} {f : Failure} (h₀ : Goes (elevationFor role actor) s t (.error f) s) :
    Elevates role actor block s t (.error f) s
  /-- No membership is needed. -/
  | needless {t₀ t : List Exchange} {r : Except Failure α} {s' : Standing σ}
    (h₀ : Goes (elevationFor role actor) s t₀ (.ok none) s) (h : Goes block s t r s') :
    Elevates role actor block s (t₀ ++ t) r s'
  | refused {t₀ : List Exchange} {group member : String} {e : DriverError}
    (h₀ : Goes (elevationFor role actor) s t₀ (.ok (some (group, member))) s) :
    Elevates role actor block s
      (t₀ ++ [⟨.execute (.change (.grantMembership [group] member)), .error e⟩])
      (.error (Failure.of (e.toError (grantIntent group member)))) s
  | held {t₀ t : List Exchange} {group member : String} {rows : List Row}
    {o : Except Failure α} {b : Except DriverError (List Row)} {s' : Standing σ}
    (h₀ : Goes (elevationFor role actor) s t₀ (.ok (some (group, member))) s)
    (h : Goes (savepoint block) s t o s') :
    Elevates role actor block s
      (t₀ ++ ⟨.execute (.change (.grantMembership [group] member)), .ok rows⟩ ::
        (t ++ [⟨.execute (.change (.revokeMembership [group] member)), b⟩]))
      (takenBack (revokeIntent group member) b o) s'

theorem goes_elevated {role actor : Value} {block : Task σ α} {r : Except Failure α}
    (h : Goes (elevated role actor block) s t r s') : Elevates role actor block s t r s' := by
  rw [elevated_eq] at h
  rcases goes_bind.mp h with ⟨t₁, t₂, m, s₁, rfl, h₀, h₁⟩ | ⟨f, h₀, rfl⟩
  · obtain ⟨rfl, _⟩ := (Block.elevationFor role actor).asks h₀
    cases m with
    | none => exact .needless h₀ h₁
    | some m =>
      obtain ⟨group, member⟩ := m
      rcases goes_asMember.mp h₁ with ⟨e, rfl, rfl, rfl⟩ | ⟨rows, u, o, b, rfl, hs, rfl⟩
      · exact .refused h₀
      · exact .held h₀ hs
  · obtain ⟨rfl, _⟩ := (Block.elevationFor role actor).asks h₀
    exact .failed h₀

theorem Elevates.goes {role actor : Value} {block : Task σ α} {r : Except Failure α}
    (h : Elevates role actor block s t r s') : Goes (elevated role actor block) s t r s' := by
  rw [elevated_eq, goes_bind]
  cases h with
  | failed h₀ => exact .inr ⟨_, h₀, rfl⟩
  | needless h₀ h => exact .inl ⟨_, _, none, s, rfl, h₀, h⟩
  | refused h₀ =>
    exact .inl ⟨_, _, _, s, rfl, h₀, goes_asMember.mpr (.inl ⟨_, rfl, rfl, rfl⟩)⟩
  | held h₀ h =>
    exact .inl ⟨_, _, _, s, rfl, h₀, goes_asMember.mpr (.inr ⟨_, _, _, _, rfl, h, rfl⟩)⟩

/-! ## Frame -/

theorem setUp_frame {c : Client} {name : String} (h : EngineSetUp c name s t s') :
    s'.work = s.work ∧ s'.session.inTransaction = s.session.inTransaction := by
  cases h with
  | known _ => exact ⟨rfl, rfl⟩
  | new _ => exact ⟨rfl, rfl⟩

theorem version_frame {c : Client} {r : Except Failure Version}
    (h : Goes (c.version : Task σ Version) s t r s') :
    s'.work = s.work ∧ s'.session.inTransaction = s.session.inTransaction := by
  rcases goes_version h with ⟨v, _, _, _, rfl⟩ | ⟨t₀, s₀, _, hs, h⟩
  · exact ⟨rfl, rfl⟩
  · rcases h with ⟨e, _, rfl, _⟩ | ⟨peer, v, _, _, rfl⟩
    · exact setUp_frame hs
    · obtain ⟨hw, ht⟩ := setUp_frame hs
      exact ⟨hw, ht⟩

/-- A block leaves what it can see of the standing as it is, if the version and what is written down
leave it so where these are allowed. -/
theorem Block.keeps {γ : Type} {v : Standing σ → γ} (hi : a.inquires → ∀ (c : Client) s t r s',
      Goes (c.version : Task σ Version) s t r s' → v s' = v s)
    (hr : a.records → ∀ (f : σ → σ) s, v { s with work := f s.work } = v s)
    {x : Task σ α} (h : Block a x) {r : Except Failure α} (hg : Goes x s t r s') : v s' = v s :=
  Kept.block (P := fun x => ∀ s t r s', Goes x s t r s' → v s' = v s) {
    pure _ := fun _ _ _ _ hg => by rw [(goes_pure.mp hg).2.2]
    fail _ := fun _ _ _ _ hg => by rw [(goes_fail.mp hg).2.2]
    bindOf hx hf := by
      intro s t r s' hg
      rcases goes_bind.mp hg with ⟨t₁, t₂, v, s₁, _, h₁, h₂⟩ | ⟨f, h₁, _⟩
      · exact (hf v ⟨_, _, _, h₁⟩ _ _ _ _ h₂).trans (hx _ _ _ _ h₁)
      · exact hx _ _ _ _ h₁
    query _ _ := fun _ _ _ _ hg => by rw [(goes_execute.mp hg).1]
    change _ _ := fun _ _ _ _ hg => by rw [(goes_execute.mp hg).1]
    elevated _ _ _ hb := by
      intro s t r s' hg
      cases goes_elevated hg with
      | failed _ => rfl
      | needless _ h => exact hb _ _ _ _ h
      | refused _ => rfl
      | held _ h =>
        rcases goes_savepoint.mp h with ⟨e, _, rfl, _⟩ | ⟨u, v, b, _, hu, _⟩ | ⟨u, f, b, _, hu, _⟩
        · rfl
        · exact hb _ _ _ _ hu
        · exact hb _ _ _ _ hu
    version := hi
    changeWork h f := fun _ _ _ _ hg => by
      rw [(goes_changeWork.mp hg).2.2]
      exact hr h f _ } h _ _ _ _ hg

/-- A block neither ends its transaction nor begins another one. -/
theorem Block.inTransaction_eq {x : Task σ α} (h : Block a x) {r : Except Failure α}
    (hg : Goes x s t r s') : s'.session.inTransaction = s.session.inTransaction :=
  h.keeps (v := (·.session.inTransaction)) (fun _ _ _ _ _ _ hg => (version_frame hg).2)
    (fun _ _ _ => rfl) hg

/-- What a block works on stays as it is, unless it may write down what it found. -/
theorem Block.work_eq (ha : ¬a.records) {x : Task σ α} (h : Block a x) {r : Except Failure α}
    (hg : Goes x s t r s') : s'.work = s.work :=
  h.keeps (v := (·.work)) (fun _ _ _ _ _ _ hg => (version_frame hg).1) (fun hr => absurd hr ha) hg

end Task

end DeclaredAccess
