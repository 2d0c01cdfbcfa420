import Mathlib.Algebra.Order.Ring.Rat
import Mathlib.Data.Prod.Lex
import Mathlib.Data.String.Basic
import Mathlib.Order.WithBot
import SocTalk.Adapter.TokenBucket
import SocTalk.Lib.Keyset
import SocTalk.Lib.Value

/-! One poll of the adapter: the page behind the cursor, what the limiter admits of it, the delivery
and the cursor's move. -/
namespace SocTalk.Adapter
open Py

/-- A document of the indexer. The search returns only those with an `@timestamp`. -/
structure Hit where
  timestamp : String
  id : Option String
  /-- The indexer's own `_id`. -/
  docId : String
  /-- Whether the conversion raises on it. -/
  raises : Bool := false
  deriving DecidableEq

structure Cursor where
  ts : String
  id : Option String
  deriving DecidableEq

structure Event where
  sourceEventId : String
  ts : String
  /-- The document it was made of. -/
  hit : Hit

/-- `defer` leaves what the limiter does not admit on the indexer, `shed` discards it. -/
inductive RateLimitMode where
  | defer
  | shed
  deriving DecidableEq

structure Settings where
  mode : RateLimitMode := .defer
  batchSize : ℕ
  /-- How the indexer reads a timestamp. -/
  instant : String → ℚ

variable (A : Settings)

/-! ## The query -/

/-- The sort of the search: the time, then the id, a missing one last. -/
def Settings.sortKey (h : Hit) : ℚ ×ₗ WithTop String := toLex (A.instant h.timestamp, h.id)

/-- What the indexer holds when it is asked: sorted, every document under an `_id` of the indexer's
own and with a time. -/
structure Index where
  hits : List Hit
  sorted : hits.Pairwise fun h k => A.sortKey h ≤ A.sortKey k
  nodup : hits.Nodup
  named : ∀ h ∈ hits, h.docId ≠ ""
  stamped : ∀ h ∈ hits, h.timestamp ≠ ""

/-- The document is still ahead: not before the cursor's time, and with an id in the cursor behind
its key. -/
def Settings.ahead (c : Cursor) (h : Hit) : Bool :=
  match c.id with
  | none => A.instant c.ts ≤ A.instant h.timestamp
  | some id => (toLex (A.instant c.ts, (id : WithTop String)) : ℚ ×ₗ WithTop String) < A.sortKey h

def Index.ahead {A : Settings} (index : Index A) (c : Cursor) : List Hit :=
  index.hits.filter (A.ahead c)

/-- The first page behind the cursor. -/
def Settings.queryAlerts (c : Cursor) (index : Index A) : List Hit :=
  (index.ahead c).take A.batchSize

/-! ## The conversion -/

/-- `src.get("id") or hit.get("_id")`. -/
def Hit.sourceId (h : Hit) : String :=
  match h.id with
  | some id => if id = "" then h.docId else id
  | none => h.docId

def hitToEvent (h : Hit) : M (Option Event) :=
  if h.sourceId = "" then return none
  else if h.raises then throw .attributeError
  else return some ⟨prefixOf 128 h.sourceId, h.timestamp, h⟩

/-- The cursor behind an event. -/
def Event.cursor (e : Event) (c : Cursor) : Cursor :=
  ⟨if e.ts = "" then c.ts else e.ts, some e.sourceEventId⟩

/-! ## The poll -/

/-- How a delivery ends: with an answer that counts duplicates, refused, or taken in with the answer
lost on the way. -/
inductive Reply where
  | answered (duplicates : ℕ)
  | lost
  | failed

/-- What a poll meets: the search's result, where it does not fail, the clock at the limiter and the
end of the delivery. -/
structure PollInput where
  answer : Option (Index A)
  now : ℚ
  reply : Reply

/-- The process, with what the control plane has accepted, how many deliveries it has answered for,
and the documents that the cursor has moved past. -/
structure State where
  cursor : Cursor
  bucket : TokenBucket
  queried : ℕ := 0
  forwarded : ℤ := 0
  duplicate : ℕ := 0
  dropped : ℕ := 0
  deferred : ℕ := 0
  batchSeq : ℕ := 0
  accepted : List Hit := []
  acknowledged : ℕ := 0
  passed : List Hit := []

/-- What a poll has in hand once the limiter has answered. -/
structure Batch where
  events : List Event
  allowed : ℕ
  excess : ℕ
  bucket : TokenBucket

/-- The events that the limiter admits. -/
def Batch.sent (b : Batch) : List Event := b.events.take b.allowed

/-- Nothing where the search or a conversion fails, or there is nothing to forward. -/
def Settings.batch? (s : State) (p : PollInput A) : Option (Index A × Batch) := do
  let index ← p.answer
  match (A.queryAlerts s.cursor index).mapM hitToEvent with
  | .error _ => none
  | .ok found =>
    let events := found.reduceOption
    if events.isEmpty then none
    else
      let (split, bucket) := s.bucket.take p.now events.length
      some (index, ⟨events, split.1, split.2, bucket⟩)

/-- Part of the batch is discarded. -/
def Settings.sheds (b : Batch) : Bool := A.mode = .shed && 0 < b.excess

/-- The cursor behind the last of some events. -/
def lastCursor (c : Cursor) (events : List Event) : Cursor :=
  match events.getLast? with
  | some e => e.cursor c
  | none => c

def State.moveTo {A : Settings} (s : State) (index : Index A) (c : Cursor) : State :=
  { s with
    cursor := c
    passed := s.passed ++ index.hits.filter fun h => A.ahead s.cursor h && !A.ahead c h }

/-- The tokens are taken and the excess is counted before anything is sent. -/
def Settings.countExcess (s : State) (b : Batch) : State :=
  { s with
    bucket := b.bucket
    dropped := if A.sheds b then s.dropped + b.excess else s.dropped
    deferred := if A.sheds b then s.deferred else s.deferred + b.excess }

/-- The delivery, and the cursor's move behind an answer. -/
def Settings.deliver (s : State) (index : Index A) (b : Batch) (reply : Reply) : State :=
  if b.sent.isEmpty then
    s.moveTo index (if A.sheds b then lastCursor s.cursor b.events else s.cursor)
  else
    let s := { s with batchSeq := s.batchSeq + 1 }
    match reply with
    | .failed => s
    | .lost => { s with accepted := s.accepted ++ b.sent.map (·.hit) }
    | .answered duplicates =>
      State.moveTo
        { s with
          accepted := s.accepted ++ b.sent.map (·.hit)
          acknowledged := s.acknowledged + b.sent.length
          duplicate := s.duplicate + duplicates
          forwarded := s.forwarded + (b.sent.length - duplicates) }
        index (lastCursor s.cursor (if A.sheds b then b.events else b.sent))

/-- One poll. -/
def Settings.ingestOnce (s : State) (p : PollInput A) : State :=
  let queried := match p.answer with
    | some index => (A.queryAlerts s.cursor index).length
    | none => 0
  let s := { s with queried := s.queried + queried }
  match A.batch? s p with
  | none => s
  | some (index, b) => A.deliver (A.countExcess s b) index b p.reply

end SocTalk.Adapter
