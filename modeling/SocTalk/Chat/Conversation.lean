import Mathlib.Algebra.BigOperators.Group.Finset.Basic
import Mathlib.Logic.Function.Basic
import SocTalk.Chat.Turn
import SocTalk.Lib.Transition

/-! One conversation, with any number of messages posted to it: the prelude of each post, its
turn, and the locks that both hold on the conversation's row. -/
namespace SocTalk.Chat

/-! ## The row's locks -/

inductive Lock where
  | keyShare
  | noKeyUpdate
  | forUpdate
  deriving DecidableEq

def Lock.conflicts : Lock → Lock → Bool
  | .keyShare, .keyShare => false
  | .keyShare, .noKeyUpdate => false
  | .noKeyUpdate, .keyShare => false
  | _, _ => true

/-- Where a post is: its prelude has the row locked, its turn is about to begin, hears the
model, handles the calls of a response, has left the loop, has written all it writes, or has
failed with its transaction intact. -/
inductive Phase where
  | prelude (row : ConversationRow) (text : String)
  | accepted (ctx : TurnContext)
  | hearing (ctx : TurnContext) (iterations : ℕ) (focused : Bool) (s : Loop)
  | acting (ctx : TurnContext) (iterations : ℕ) (focused : Bool) (s : Loop) (r : Round)
  | closing (ctx : TurnContext) (focused : Bool) (s : Loop)
  | committing (s : Loop)
  | failing (focused : Bool) (s : Loop)
  | ended

/-- A message row locks the conversation that it refers to; `focused` says that
`set_fleet_focus` has updated the conversation. -/
def turnLock (focused : Bool) (s : Loop) : Option Lock :=
  if focused then some .noKeyUpdate
  else if s.writes.isEmpty then none
  else some .keyShare

def Phase.lock : Phase → Option Lock
  | .prelude _ _ => some .forUpdate
  | .hearing _ _ focused s => turnLock focused s
  | .acting _ _ focused s _ => turnLock focused s
  | .closing _ focused s => turnLock focused s
  | .committing _ => some .noKeyUpdate
  | .failing focused s => turnLock focused s
  | _ => none

/-- What the turn has received and not yet committed, as far as it is enforceable. -/
def Phase.inFlight : Phase → ℚ
  | .hearing _ _ _ s => s.enforceable
  | .acting _ _ _ s _ => s.enforceable
  | .closing _ _ s => s.enforceable
  | .committing s => s.enforceable
  | .failing _ s => s.enforceable
  | _ => 0

/-- `run_turn` has begun. -/
def Phase.running : Phase → Bool
  | .hearing _ _ _ _ => true
  | .acting _ _ _ _ _ => true
  | .closing _ _ _ => true
  | .committing _ => true
  | .failing _ _ => true
  | _ => false

/-- Its post has been accepted and its stream has not ended. -/
def Phase.underWay : Phase → Bool
  | .accepted _ => true
  | phase => phase.running

/-! ## Steps -/

/-- The committed rows, the posts in the order they came, and every response that a turn of the
conversation has received. -/
structure Sys where
  db : Tables
  costTracking : Bool
  opened : ℕ := 0
  posts : ℕ → Phase := fun _ => .ended
  received : List Response := []

/-- A step of a post, or of `delete_conversation`. -/
inductive Op where
  | post (text : String)
  | refuse (i : ℕ)
  | accept (i : ℕ)
  | start (i : ℕ)
  | hear (i : ℕ) (r : Round)
  | act (i : ℕ) (focus : Bool)
  | persist (i : ℕ) (closing : Closing)
  | commit (i : ℕ)
  | drop (i : ℕ)
  | close

/-- No other post holds a lock on the row that this one would wait for. -/
def Sys.free (sys : Sys) (i : ℕ) (lock : Lock) : Bool :=
  (List.range sys.opened).all fun j =>
    j = i || ((sys.posts j).lock.map lock.conflicts).getD false == false

def Sys.set (sys : Sys) (i : ℕ) (phase : Phase) : Sys :=
  { sys with posts := Function.update sys.posts i phase }

/-- The figures that the prelude takes from the row it locked. -/
def ConversationRow.context (c : ConversationRow) (costTracking : Bool) : TurnContext where
  modelName := c.modelName
  budgetDollars := c.budgetDollars
  totalDollars := c.totalDollars
  totalDollarsUnpriced := c.dollarsUnpriced
  costTracking := costTracking

/-- A turn that is left: its transaction is kept after an exception that did not abort it. -/
def Phase.leave (focused : Bool) (s : Loop) : Leave → Phase
  | .raised _ false => .failing focused s
  | _ => .ended

/-- The turn after a part of its loop: `next` says where it goes on. -/
def Phase.follow (ctx : TurnContext) (focused : Bool) (next : Loop → Phase) : Flow → Phase
  | .next s => next s
  | .finished s => .closing ctx focused s
  | .left leave s => .leave focused s leave

/-- After as many iterations the turn hears the model again or leaves the loop. -/
def Phase.again (ctx : TurnContext) (iterations : ℕ) (focused : Bool) (s : Loop) : Phase :=
  if iterations < maxToolIterations then .hearing ctx iterations focused s
  else .closing ctx focused s

/-- A post's `SELECT … FOR UPDATE NOWAIT` and the check of the status; a post that fails either
is gone. -/
def Sys.read (sys : Sys) (text : String) : Sys :=
  if sys.free sys.opened .forUpdate ∧ sys.db.conversation.status = .active then
    { sys.set sys.opened (.prelude sys.db.conversation text) with opened := sys.opened + 1 }
  else sys

def userMessage (text : String) : MessageRow where
  role := .user
  content := .dict [("text", .str text)]

/-- The lock that a turn needs for what its calls have written, beside those it holds. -/
def actLock (focus : Bool) (s s' : Loop) : Option Lock :=
  if focus then some .noKeyUpdate
  else if s'.writes.length = s.writes.length then none
  else some .keyShare

/-- A step waits, and changes nothing, while another post holds a lock in its way. -/
def Sys.step (sys : Sys) : Op → Sys
  | .post text => sys.read text
  | .refuse i =>
    match sys.posts i with
    | .prelude _ _ => sys.set i .ended
    | _ => sys
  | .accept i =>
    match sys.posts i with
    | .prelude row text =>
      { sys.set i (.accepted (row.context sys.costTracking)) with
        db := (Write.insertMessage (userMessage text)).apply sys.db }
    | _ => sys
  | .start i =>
    match sys.posts i with
    | .accepted ctx =>
      if ctx.exhaustedBy 0 then sys.set i .ended else sys.set i (.hearing ctx 0 false {})
    | _ => sys
  | .hear i r =>
    match sys.posts i with
    | .hearing ctx n focused s =>
      { sys.set i (.follow ctx focused (fun s => .acting ctx n focused s r) (s.hear r)) with
        received := sys.received ++ r.responses }
    | _ => sys
  | .act i focus =>
    match sys.posts i with
    | .acting ctx n focused s r =>
      let flow := s.act ctx r
      if ((actLock focus s flow.state).map (sys.free i)).getD true then
        sys.set i (.follow ctx (focused || focus)
          (Phase.again ctx (n + 1) (focused || focus)) flow)
      else sys
    | _ => sys
  | .persist i closing =>
    match sys.posts i with
    | .closing ctx focused s =>
      if sys.free i .noKeyUpdate then
        sys.set i (match s.persist ctx sys.db.conversation closing with
          | .left leave s => .leave focused s leave
          | flow => .committing flow.state)
      else sys
    | _ => sys
  | .commit i =>
    match sys.posts i with
    | .committing s => { sys.set i .ended with db := applyAll s.writes sys.db }
    | .failing _ s => { sys.set i .ended with db := applyAll s.writes sys.db }
    | _ => sys
  | .drop i => sys.set i .ended
  | .close =>
    if sys.free sys.opened .noKeyUpdate then
      { sys with db := { sys.db with
          conversation := { sys.db.conversation with status := .closed } } }
    else sys

/-- A conversation as `create_conversation` inserts it. -/
def Sys.create (modelName : String) (budget : ℚ) (costTracking : Bool) : Sys where
  db := ⟨{ modelName := modelName, budgetDollars := budget }, []⟩
  costTracking := costTracking

end SocTalk.Chat
