import SocTalk.Proposals.Store

/-! The outbox of one tenant. The tables keep what each row was set to, in order. -/
namespace SocTalk.Outbox
open ReadCommitted Proposals

/-- An outbox row, over the type of its payloads. -/
structure OutboxRow (P : Type) where
  kind : String
  idempotencyKey : String
  payload : P
  status : OutboxStatus := .pending
  attempts : ℕ := 0
  maxAttempts : ℕ := 5
  nextAttemptAt : Time
  claimedAt : Option Time := none
  deriving DecidableEq

structure Tables (P : Type) where
  rows : OutboxId → Option (OutboxRow P)
  ids : List OutboxId
  history : OutboxId → List (OutboxRow P)

def Tables.empty {P : Type} : Tables P := ⟨fun _ => none, [], fun _ => []⟩

inductive Resource where
  | row (id : OutboxId)
  | key (idempotencyKey : String)
  deriving DecidableEq

/-- Updates carry the whole new row: the row is locked when it is read. -/
inductive Write (P : Type) where
  | set (id : OutboxId) (row : OutboxRow P)
  | insert (id : OutboxId) (row : OutboxRow P)
  | lock (r : Resource)

variable {P : Type}

def Write.apply : Write P → Tables P → Tables P
  | .set id row, t =>
    { t with
      rows := Function.update t.rows id (some row)
      history := Function.update t.history id (t.history id ++ [row]) }
  | .insert id row, t =>
    { t with
      rows := Function.update t.rows id (some row)
      ids := t.ids ++ [id]
      history := Function.update t.history id (t.history id ++ [row]) }
  | .lock _, t => t

def Write.locks : Write P → List Resource
  | .set id _ => [.row id]
  | .insert id row => [.row id, .key row.idempotencyKey]
  | .lock r => [r]

/-- The committed value behind a resource: a row with its history. -/
def rowOf (r : Resource) (t : Tables P) : Option (OutboxRow P) × List (OutboxRow P) :=
  match r with
  | .row id => (t.rows id, t.history id)
  | .key _ => (none, [])

theorem Write.frame (w : Write P) (r : Resource) (t : Tables P) (h : r ∉ w.locks) :
    rowOf r (w.apply t) = rowOf r t := by
  cases r with
  | key k => rfl
  | row id =>
    cases w with
    | lock r => rfl
    | set id' row =>
      have hne : id ≠ id' := by simpa [Write.locks] using h
      simp [rowOf, Write.apply, Function.update_of_ne hne]
    | insert id' row =>
      have hne : id ≠ id' := by simpa [Write.locks] using h
      simp [rowOf, Write.apply, Function.update_of_ne hne]

def store (P : Type) :
    Store (Tables P) (Write P) Resource (Option (OutboxRow P) × List (OutboxRow P)) where
  apply := Write.apply
  locks := Write.locks
  row := rowOf
  frame := Write.frame

/-- What a write sets the row to. -/
def Write.row? (id : OutboxId) : Write P → Option (OutboxRow P)
  | .set id' row => if id' = id then some row else none
  | .insert id' row => if id' = id then some row else none
  | .lock _ => none

theorem rows_apply (id : OutboxId) (w : Write P) (t : Tables P) :
    ((store P).apply w t).rows id = (w.row? id).or (t.rows id) := by
  cases w with
  | lock r => rfl
  | set id' row =>
    by_cases h : id' = id
    · simp [store, Write.apply, Write.row?, h]
    · simp [store, Write.apply, Write.row?, h, Function.update_of_ne (Ne.symm h)]
  | insert id' row =>
    by_cases h : id' = id
    · simp [store, Write.apply, Write.row?, h]
    · simp [store, Write.apply, Write.row?, h, Function.update_of_ne (Ne.symm h)]

theorem history_apply (id : OutboxId) (w : Write P) (t : Tables P) :
    ((store P).apply w t).history id = t.history id ++ (w.row? id).toList := by
  cases w with
  | lock r => simp [store, Write.apply, Write.row?]
  | set id' row =>
    by_cases h : id' = id
    · subst h
      simp [store, Write.apply, Write.row?]
    · simp [store, Write.apply, Write.row?, h, Function.update_of_ne (Ne.symm h)]
  | insert id' row =>
    by_cases h : id' = id
    · subst h
      simp [store, Write.apply, Write.row?]
    · simp [store, Write.apply, Write.row?, h, Function.update_of_ne (Ne.symm h)]

theorem history_applyAll (id : OutboxId) (ws : List (Write P)) (t : Tables P) :
    ((store P).applyAll ws t).history id = t.history id ++ ws.filterMap (Write.row? id) :=
  @Store.appended_applyAll _ _ _ _ (store P) _ (fun t => t.history id) _ (history_apply id) ws t

/-- A row after the writes is what the last of them that set it says. -/
theorem rows_applyAll (id : OutboxId) (ws : List (Write P)) (t : Tables P) :
    ((store P).applyAll ws t).rows id = (ws.filterMap (Write.row? id)).getLast?.or (t.rows id) := by
  induction ws generalizing t with
  | nil => rfl
  | cons w ws ih =>
    rw [Store.applyAll_cons, ih, rows_apply, List.filterMap_cons]
    cases w.row? id with
    | none => rfl
    | some row => cases h : (ws.filterMap (Write.row? id)).getLast? <;> simp [List.getLast?_cons, h]

/-- The outbox already has a row under the key. -/
def queued (t : Tables P) (idempotencyKey : String) : Bool :=
  t.ids.any fun id => match t.rows id with
    | some row => row.idempotencyKey == idempotencyKey
    | none => false

end SocTalk.Outbox
