import Mathlib.Logic.Basic

/-! A transaction as the code that runs its statements sees it: a statement that fails aborts the
transaction, an aborted one refuses every statement, and a savepoint undoes an abort within it. -/
namespace Transaction

/-- A computation that may raise; the state says whether the transaction is aborted. -/
abbrev Tx (α : Type) := ExceptT String (StateM Bool) α

variable {α β : Type}

def refusal : String :=
  "current transaction is aborted, commands ignored until end of transaction block"

/-- A statement, with the server's error if it fails. -/
def statement (error : Option String) : Tx Unit := fun aborted =>
  if aborted then (.error refusal, true)
  else match error with
    | some e => (.error e, true)
    | none => (.ok (), false)

/-- A block under a savepoint: released where it returns, rolled back where it raises or cannot
be released. -/
def nested (body : Tx α) : Tx α := fun aborted =>
  if aborted then (.error refusal, true)
  else match body false with
    | (.ok a, false) => (.ok a, false)
    | (.ok _, true) => (.error refusal, false)
    | (.error e, _) => (.error e, false)

/-- `try body except Exception as exc: rescue(exc)`. -/
def rescuing (body : Tx α) (rescue : String → Tx α) : Tx α := fun aborted =>
  match body aborted with
  | (.ok a, s) => (.ok a, s)
  | (.error e, s) => rescue e s

/-- The computation leaves an open transaction open, whether it returns or raises. -/
def KeepsOpen (t : Tx α) : Prop := (t false).2 = false

instance (t : Tx α) : Decidable (KeepsOpen t) := by unfold KeepsOpen; infer_instance

@[simp] theorem statement_open (error : Option String) :
    statement error false = match error with
      | some e => (.error e, true)
      | none => (.ok (), false) := rfl

@[simp] theorem statement_aborted (error : Option String) :
    statement error true = (.error refusal, true) := rfl

theorem bind_apply (t : Tx α) (f : α → Tx β) (aborted : Bool) :
    (t >>= f) aborted = match t aborted with
      | (.ok a, s) => f a s
      | (.error e, s) => (.error e, s) := by
  change (ExceptT.bindCont f (t aborted).1 : StateM Bool (Except String β)) (t aborted).2 = _
  rcases t aborted with ⟨r, s⟩
  cases r <;> rfl

theorem keepsOpen_pure (a : α) : KeepsOpen (pure a : Tx α) := rfl

theorem keepsOpen_throw (e : String) : KeepsOpen (throw e : Tx α) := rfl

theorem keepsOpen_statement : KeepsOpen (statement none) := rfl

theorem KeepsOpen.bind {t : Tx α} {f : α → Tx β} (h : KeepsOpen t) (hf : ∀ a, KeepsOpen (f a)) :
    KeepsOpen (t >>= f) := by
  unfold KeepsOpen at h ⊢
  rw [bind_apply]
  rcases ht : t false with ⟨r, s⟩
  rw [ht] at h
  obtain rfl : s = false := h
  cases r with
  | ok a => exact hf a
  | error e => rfl

theorem KeepsOpen.rescuing {body : Tx α} {rescue : String → Tx α} (h : KeepsOpen body)
    (hr : ∀ e, KeepsOpen (rescue e)) : KeepsOpen (rescuing body rescue) := by
  unfold KeepsOpen Transaction.rescuing at *
  rcases hb : body false with ⟨r, s⟩
  rw [hb] at h
  obtain rfl : s = false := h
  cases r with
  | ok a => rfl
  | error e => exact hr e

/-- Under a savepoint nothing aborts the transaction around it. -/
theorem keepsOpen_nested (body : Tx α) : KeepsOpen (nested body) := by
  unfold KeepsOpen nested
  rcases body false with ⟨r, s⟩
  cases r with
  | ok a => cases s <;> rfl
  | error e => rfl

end Transaction
