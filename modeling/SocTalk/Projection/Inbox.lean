import SocTalk.Lib.Json
import SocTalk.Lib.KeyedLog
import SocTalk.Projection.Reducer

/-! The inbox of one investigation: its events under idempotency keys, an append under a key that is
taken being dropped. -/
namespace SocTalk.Projection
open Py

mutual

/-- `sort_keys=True`. -/
def sortKeys : Value → Value
  | .list xs => .list (sortKeysItems xs)
  | .dict kvs => .dict ((sortKeysPairs kvs).insertionSort fun a b => a.1 ≤ b.1)
  | v => v

def sortKeysItems : List Value → List Value
  | [] => []
  | x :: xs => sortKeys x :: sortKeysItems xs

def sortKeysPairs : List (String × Value) → List (String × Value)
  | [] => []
  | (k, v) :: kvs => (k, sortKeys v) :: sortKeysPairs kvs

end

def canonical_json (obj : Value) : String := Json.dumps (sortKeys obj)

/-- Python's `or` on an optional text. -/
def textOr (text : Option String) (dflt : String) : String :=
  match text with
  | some s => if s = "" then dflt else s
  | none => dflt

/-- `sha256` is the digest in hexadecimal. -/
def event_idempotency_key (sha256 : String → String) (investigation_id kind : String)
    (payload : Dict) (producer : Option String) : String :=
  sha256 (canonical_json (.dict [
    ("investigation_id", .str investigation_id),
    ("kind", .str kind),
    ("payload", .dict payload),
    ("producer", .str (textOr producer "app"))]))

/-- `next` is what the sequence hands out next. -/
structure Inbox where
  investigation_id : String
  log : KeyedLog String Event := .empty
  next : ℕ := 1

namespace Inbox

def events (I : Inbox) : List Event := I.log.entries.map Prod.snd

/-- An append as a caller asks for it. -/
structure Append where
  kind : String
  payload : Dict
  visibility : Visibility := .mssp_only
  idempotency_key : Option String := none
  producer : Option String := none

variable (sha256 : String → String)

def key (I : Inbox) (a : Append) : String :=
  textOr a.idempotency_key
    (event_idempotency_key sha256 I.investigation_id a.kind a.payload a.producer)

/-- The insert of `append_event` with `ON CONFLICT DO NOTHING`; nothing where the cast refuses the
payload. -/
def append_event (I : Inbox) (a : Append) : Option Inbox :=
  (Event.append_event I.next a.kind a.payload a.visibility).map fun e =>
    { I with log := I.log.append (I.key sha256 a) e, next := I.next + 1 }

end Inbox

end SocTalk.Projection
