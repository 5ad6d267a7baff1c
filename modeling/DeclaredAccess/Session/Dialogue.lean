import DeclaredAccess.Session.Request

/-! A dialogue is a computation that asks requests and goes on with their answers. It gives the
requests no meaning: a server that answers them runs it, and its paths are all the ways it can go.
Every dialogue ends, since each answer leads to a smaller one. -/

namespace DeclaredAccess

inductive Dialogue (α : Type) : Type
  | done (a : α)
  | ask (q : Request) (next : q.Answer → Dialogue α)

/-- A request with the answer it got. -/
structure Exchange where
  request : Request
  answer : request.Answer

namespace Dialogue

variable {α β γ ω : Type}

def bind : Dialogue α → (α → Dialogue β) → Dialogue β
  | done a, f => f a
  | ask q next, f => ask q fun x => (next x).bind f

instance : Monad Dialogue where
  pure := done
  bind := bind

/-- The dialogue with a server that answers from a state of its own. -/
def run (serve : (q : Request) → ω → q.Answer × ω) : Dialogue α → ω → α × ω
  | done a, w => (a, w)
  | ask q next, w =>
    let (x, w) := serve q w
    (next x).run serve w

/-- `Path d t a`: with the exchanges `t` the dialogue `d` ends in `a`. -/
inductive Path : Dialogue α → List Exchange → α → Prop
  | done (a : α) : Path (.done a) [] a
  | ask {q : Request} {next : q.Answer → Dialogue α} {t : List Exchange} {a : α}
      (x : q.Answer) (h : Path (next x) t a) : Path (.ask q next) (⟨q, x⟩ :: t) a

@[simp] theorem pure_eq (a : α) : (pure a : Dialogue α) = done a := rfl

@[simp] theorem bind_eq (d : Dialogue α) (f : α → Dialogue β) : d >>= f = d.bind f := rfl

@[simp] theorem done_bind (a : α) (f : α → Dialogue β) : (done a).bind f = f a := rfl

theorem bind_done (d : Dialogue α) : d.bind done = d := by
  induction d with
  | done a => rfl
  | ask q next ih => simp [bind, ih]

theorem bind_assoc (d : Dialogue α) (f : α → Dialogue β) (g : β → Dialogue γ) :
    (d.bind f).bind g = d.bind fun a => (f a).bind g := by
  induction d with
  | done a => rfl
  | ask q next ih => simp [bind, ih]

theorem path_done_iff {a b : α} {t : List Exchange} : Path (done a) t b ↔ t = [] ∧ b = a := by
  constructor
  · intro h
    cases h with
    | done => exact ⟨rfl, rfl⟩
  · intro h
    obtain ⟨rfl, rfl⟩ := h
    exact .done _

theorem path_ask_iff {q : Request} {next : q.Answer → Dialogue α} {t : List Exchange} {a : α} :
    Path (ask q next) t a ↔ ∃ x u, t = ⟨q, x⟩ :: u ∧ Path (next x) u a := by
  constructor
  · intro h
    cases h with
    | ask x h => exact ⟨x, _, rfl, h⟩
  · intro h
    obtain ⟨x, u, rfl, h⟩ := h
    exact .ask x h

/-- A path through two dialogues in a row is a path through each. -/
theorem path_bind {d : Dialogue α} {f : α → Dialogue β} {t : List Exchange} {b : β} :
    Path (d.bind f) t b ↔ ∃ t₁ t₂ a, t = t₁ ++ t₂ ∧ Path d t₁ a ∧ Path (f a) t₂ b := by
  constructor
  · intro h
    induction d generalizing t with
    | done a => exact ⟨[], t, a, rfl, .done a, h⟩
    | ask q next ih =>
      cases h with
      | ask x h =>
        obtain ⟨t₁, t₂, a, rfl, h₁, h₂⟩ := ih x h
        exact ⟨⟨q, x⟩ :: t₁, t₂, a, rfl, .ask x h₁, h₂⟩
  · intro h
    obtain ⟨t₁, t₂, a, rfl, h₁, h₂⟩ := h
    induction h₁ with
    | done a => exact h₂
    | ask x _ ih => exact .ask x (ih h₂)

/-- What a server makes of a dialogue is one of its paths. -/
theorem path_run (serve : (q : Request) → ω → q.Answer × ω) (d : Dialogue α) (w : ω) :
    ∃ t, Path d t (d.run serve w).1 := by
  induction d generalizing w with
  | done a => exact ⟨[], .done a⟩
  | ask q next ih =>
    obtain ⟨t, h⟩ := ih (serve q w).1 (serve q w).2
    exact ⟨⟨q, (serve q w).1⟩ :: t, .ask _ h⟩

end Dialogue

end DeclaredAccess
