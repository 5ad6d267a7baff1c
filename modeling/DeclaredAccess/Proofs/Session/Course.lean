import DeclaredAccess.Proofs.Session.Runs

/-! How a whole operation is put together. It may ask for the server's version, it takes the
catalog lock, and under the lock it opens transactions: those that only look, and in write mode at
most one that is committed once its block has succeeded. What holds of every operation is shown
once, by induction on how it is built. -/

namespace DeclaredAccess

variable {σ α β : Type}

/-- A block that asks, and may write down what it found. -/
def Allowance.looking : Allowance := ⟨fun _ => False, False, False, True⟩

namespace Task

/-- `Course mode a held n x`: the task takes the catalog lock in this mode alone, and only where it
is not `held` already; it opens transactions only under the lock, commits at most `n` of them, and
changes the catalog only as `a` allows. -/
inductive Course (mode : LockMode) (a : Allowance) : Bool → Nat → {α : Type} → Task σ α → Prop
  | settled {held : Bool} {α : Type} (r : Except Failure α) : Course mode a held 0 (settled r)
  | bind {held : Bool} {m n : Nat} {α β : Type} {x : Task σ α} {f : α → Task σ β}
    (hx : Course mode a held m x) (hf : ∀ v, Course mode a held n (f v)) :
    Course mode a held (m + n) (x >>= f)
  | mono {held : Bool} {m n : Nat} {α : Type} {x : Task σ α} (hx : Course mode a held m x)
    (h : m ≤ n) : Course mode a held n x
  | work {held : Bool} : Course mode a held 0 work
  | changeWork {held : Bool} (f : σ → σ) : Course mode a held 0 (changeWork f)
  | attempt {held : Bool} {n : Nat} {α : Type} {x : Task σ α} (hx : Course mode a held n x) :
    Course mode a held n (attempt x)
  | version {held : Bool} (c : Client) : Course mode a held 0 c.version
  | look {α : Type} {body : Task σ α} (c : Client) (name : String) (hb : Block .looking body) :
    Course mode a true 0 (c.transaction name body)
  | committed {body : Task σ Unit} (hm : mode = .write) (c : Client) (name : String)
    (hb : Block a body) : Course mode a true 1 (c.committed name body)
  | locked {n : Nat} {α : Type} {x : Task σ α} (hx : Course mode a true n x) :
    Course mode a false n (locked mode x)

namespace Course

variable {mode : LockMode} {a : Allowance} {held : Bool} {n : Nat}

/-- What comes first commits nothing. -/
theorem after {x : Task σ α} {f : α → Task σ β} (hx : Course mode a held 0 x)
    (hf : ∀ v, Course mode a held n (f v)) : Course mode a held n (x >>= f) :=
  (hx.bind hf).mono (Nat.le_of_eq (Nat.zero_add n))

/-- What comes last commits nothing. -/
theorem before {x : Task σ α} {f : α → Task σ β} (hx : Course mode a held n x)
    (hf : ∀ v, Course mode a held 0 (f v)) : Course mode a held n (x >>= f) :=
  hx.bind hf

theorem whenThen {p : Prop} [Decidable p] {x : Task σ Unit} {f : Unit → Task σ α}
    (hx : Course mode a held 0 x) (hf : ∀ v, Course mode a held n (f v)) :
    Course mode a held n (if p then x >>= f else f ()) := by
  split
  · exact .after hx hf
  · exact hf ()

theorem closed (mode : LockMode) (a : Allowance) (held : Bool) :
    Closed (fun _ => True) fun {α} (x : Task σ α) => Course mode a held 0 x where
  pure v := .settled (.ok v)
  fail _ := .settled _
  bind := .after

theorem pure (v : α) : Course mode a held 0 (pure v : Task σ α) := .settled _

theorem ofExcept (x : Except Error α) : Course mode a held 0 (ofExcept x : Task σ α) :=
  (closed mode a held).ofExcept fun _ _ => trivial

theorem require (c : Client) (f : Feature) (resource : String) :
    Course mode a held 0 (c.require f resource : Task σ Unit) :=
  (closed mode a held).require (.version c) fun _ => trivial

theorem unlessMissing {x : Task σ Unit} (hx : Course mode a held n x) :
    Course mode a held n (unlessMissing x) := by
  refine .before (.attempt hx) fun outcome => ?_
  split
  · exact .pure _
  · split
    · exact .pure _
    · exact .settled _

/-- The blocks of an operation may be allowed more than they do. -/
theorem weaken {b : Allowance} {x : Task σ α} (h : Course mode a held n x)
    (hs : ∀ c, a.sends c → b.sends c) (he : a.elevates → b.elevates)
    (hi : a.inquires → b.inquires) (hr : a.records → b.records) : Course mode b held n x := by
  induction h with
  | settled r => exact .settled r
  | bind _ _ ihx ihf => exact .bind ihx ihf
  | mono _ hn ih => exact .mono ih hn
  | work => exact .work
  | changeWork f => exact .changeWork f
  | attempt _ ih => exact .attempt ih
  | version c => exact .version c
  | look c name hb => exact .look c name hb
  | committed hm c name hb => exact .committed hm c name (hb.weaken hs he hi hr)
  | locked _ ih => exact .locked ih

/-- An asking block in a transaction of its own. -/
theorem asks {body : Task σ α} (c : Client) (name : String) (hb : Block .asking body) :
    Course mode a true 0 (c.transaction name body) :=
  .look c name (hb.weaken (fun _ h => h) id id False.elim)

end Course

end Task

end DeclaredAccess
