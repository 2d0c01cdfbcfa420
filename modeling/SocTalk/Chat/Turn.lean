import Mathlib.Algebra.BigOperators.Group.List.Basic
import Mathlib.Algebra.Order.Ring.Unbundled.Rat
import SocTalk.Lib.Float
import SocTalk.Lib.Value

/-! One chat turn: the tool loop, what it writes at its end, and the stream that commits it. -/
namespace SocTalk.Chat

open Py (strip)

/-! ## What the turn meets -/

/-- How the stream is left before its end: by an exception, with or without the transaction
aborted, or because the client is gone. -/
inductive Leave where
  | raised (category : String) (aborted : Bool)
  | dropped
  deriving DecidableEq

/-- What `track` and `extract_usage` read off a response. -/
structure Usage where
  tokensIn : ℤ := 0
  tokensOut : ℤ := 0
  dollars : ℚ := 0
  /-- The price source is `unknown`. -/
  unknown : Bool := false
  deriving DecidableEq

/-- `enforceable_dollars` of a state that tracked this response alone. -/
def Usage.enforceable (u : Usage) : ℚ := max 0 (u.dollars - if u.unknown then u.dollars else 0)

/-- A content block: a `text` block, a bare string, or one without text. -/
inductive Block where
  | text (s : String)
  | plain (s : String)
  | other
  deriving DecidableEq

/-- `response.content`. -/
inductive Content where
  | text (s : String)
  | blocks (bs : List Block)
  deriving DecidableEq

def Block.flatten : Block → String
  | .text s => s
  | .plain s => s
  | .other => ""

def Content.flatten : Content → String
  | .text s => s
  | .blocks bs => String.join (bs.map Block.flatten)

structure Response where
  usage : Usage := {}
  content : Content := .text ""
  deriving DecidableEq

/-- `display_text`. -/
def Response.displayText (r : Response) : String := strip r.content.flatten

structure ToolResult where
  data : Py.Value
  truncated : Bool := false
  hint : Option String := none

/-- What a tool call asks for: the payload that the arguments of a proposal build, if they are
accepted, or a data tool with what its dispatch does. -/
inductive CallKind where
  | propose (payload : Option Py.Value)
  | tool (name : String) (args : Py.Value) (dispatch : Except Leave ToolResult)

/-- One tool call of a response: whether the client is seen to be gone before it, which frames
it is dropped at, and whether the insert of its message fails. -/
structure Call where
  id : String := ""
  kind : CallKind
  gone : Bool := false
  callDropped : Bool := false
  resultDropped : Bool := false
  insert : Option Leave := none

/-- One iteration: the two looks at `ctx.disconnected` and what lies between. -/
structure Round where
  gone : Bool := false
  reply : Except Leave Response
  deltaDropped : Bool := false
  calls : List Call := []
  goneAfter : Bool := false

/-- The response of an iteration, if one comes. -/
def Round.responses (r : Round) : List Response :=
  if r.gone then [] else r.reply.toOption.toList

/-- What becomes of the statements, frames and the commit after the loop. -/
structure Closing where
  assistant : Option Leave := none
  action : Option Leave := none
  totals : Option Leave := none
  usageDropped : Bool := false
  doneDropped : Bool := false
  commits : Bool := true

structure TurnContext where
  modelName : String := ""
  budgetDollars : ℚ
  totalDollars : ℚ := 0
  totalDollarsUnpriced : ℚ := 0
  costTracking : Bool := true

/-- A turn with all it meets: what the set-up before the loop ends in, the iterations, of which
`rounds i` is met only if the loop comes to it, and the end. -/
structure Turn where
  ctx : TurnContext
  setup : Option Leave := none
  rounds : ℕ → Round
  closing : Closing := {}

/-! ## The rows -/

inductive Role where
  | user
  | assistant
  | tool
  | action
  deriving DecidableEq

/-- A row of `chat_messages`. -/
structure MessageRow where
  role : Role
  content : Py.Value
  tokensIn : ℤ := 0
  tokensOut : ℤ := 0
  dollars : ℚ := 0
  dollarsUnpriced : ℚ := 0
  modelName : Option String := none

inductive ConversationStatus where
  | active
  | closed
  | budgetExhausted
  deriving DecidableEq

structure ConversationRow where
  modelName : String := ""
  status : ConversationStatus := .active
  totalTokens : ℤ := 0
  totalDollars : ℚ := 0
  dollarsUnpriced : ℚ := 0
  budgetDollars : ℚ
  deriving DecidableEq

structure Tables where
  conversation : ConversationRow
  messages : List MessageRow := []

inductive Write where
  | insertMessage (row : MessageRow)
  | addTotals (tokens : ℤ) (dollars unpriced : ℚ) (status : Option ConversationStatus)

/-- The `UPDATE` of `_update_conversation_totals`. -/
def ConversationRow.addTotals (c : ConversationRow) (tokens : ℤ) (dollars unpriced : ℚ)
    (status : Option ConversationStatus) : ConversationRow :=
  { c with
    totalTokens := c.totalTokens + tokens
    totalDollars := c.totalDollars + dollars
    dollarsUnpriced := c.dollarsUnpriced + unpriced
    status := status.getD c.status }

def Write.apply : Write → Tables → Tables
  | .insertMessage row, t => { t with messages := t.messages ++ [row] }
  | .addTotals tokens dollars unpriced status, t =>
    { t with conversation := t.conversation.addTotals tokens dollars unpriced status }

def applyAll (ws : List Write) (t : Tables) : Tables := ws.foldl (fun t w => w.apply t) t

/-! ## The loop -/

inductive StopReason where
  | endTurn
  | disconnected
  | budgetExhausted
  deriving DecidableEq

def StopReason.text : StopReason → String
  | .endTurn => "end_turn"
  | .disconnected => "disconnected"
  | .budgetExhausted => "budget_exhausted"

inductive Frame where
  | delta (text : String)
  | toolCall (id name : String) (args : Py.Value)
  | toolResult (id : String) (result : ToolResult)
  | proposedAction (payload : Py.Value)
  | usage (tokensIn tokensOut : ℤ) (dollars convTotalDollars : ℚ)
  | error (category message : String)
  | done (stopReason : String)

/-- The locals of `run_turn`, the frames handed out and the uncommitted writes; `received` is
the responses among `messages`. -/
structure Loop where
  frames : List Frame := []
  writes : List Write := []
  received : List Response := []
  assistantText : String := ""
  tokensIn : ℤ := 0
  tokensOut : ℤ := 0
  dollars : ℚ := 0
  enforceable : ℚ := 0
  stopReason : StopReason := .endTurn
  actionPayload : Option Py.Value := none

/-- What comes after a part of the loop: its next part, the end of the loop, or the end of the
stream. -/
inductive Flow where
  | next (s : Loop)
  | finished (s : Loop)
  | left (leave : Leave) (s : Loop)

def Flow.state : Flow → Loop
  | .next s => s
  | .finished s => s
  | .left _ s => s

/-- MAX_TOOL_ITERATIONS -/
def maxToolIterations : ℕ := 6

def Loop.emit (s : Loop) (f : Frame) : Loop := { s with frames := s.frames ++ [f] }

def Loop.write (s : Loop) (w : Write) : Loop := { s with writes := s.writes ++ [w] }

/-- The response is appended to the messages and its usage added up. -/
def Loop.receive (s : Loop) (r : Response) : Loop :=
  { s with
    received := s.received ++ [r]
    tokensIn := s.tokensIn + r.usage.tokensIn
    tokensOut := s.tokensOut + r.usage.tokensOut
    dollars := s.dollars + r.usage.dollars
    enforceable := s.enforceable + r.usage.enforceable }

def ToolResult.toDict (r : ToolResult) : Py.Value :=
  .dict ([("data", r.data), ("truncated", .bool r.truncated)] ++
    match r.hint with
    | some hint => if hint = "" then [] else [("hint", .str hint)]
    | none => [])

def toolMessage (id name : String) (args : Py.Value) (result : ToolResult) : MessageRow where
  role := .tool
  content := .dict
    [("name", .str name), ("args", args), ("result", result.toDict), ("call_id", .str id)]

def Loop.call (s : Loop) (c : Call) : Flow :=
  if c.gone then .finished { s with stopReason := .disconnected }
  else
    match c.kind with
    | .propose none => .next s
    | .propose (some payload) =>
      let s := { s with actionPayload := some payload }.emit (.proposedAction payload)
      if c.callDropped then .left .dropped s else .next s
    | .tool name args dispatch =>
      let s := s.emit (.toolCall c.id name args)
      if c.callDropped then .left .dropped s
      else
        match dispatch with
        | .error leave => .left leave s
        | .ok result =>
          let s := s.emit (.toolResult c.id result)
          if c.resultDropped then .left .dropped s
          else
            match c.insert with
            | some leave => .left leave s
            | none => .next (s.write (.insertMessage (toolMessage c.id name args result)))

def Loop.calls (s : Loop) : List Call → Flow
  | [] => .next s
  | c :: cs =>
    match s.call c with
    | .next s => s.calls cs
    | flow => flow

/-- The check between iterations. -/
def TurnContext.exhaustedBy (ctx : TurnContext) (enforceable : ℚ) : Bool :=
  ctx.costTracking &&
    decide (ctx.totalDollars - ctx.totalDollarsUnpriced + enforceable ≥ ctx.budgetDollars)

/-- The text of a response as one delta frame, if there is any. -/
def Loop.speak (s : Loop) (text : String) : Loop :=
  if text = "" then s
  else { s with assistantText := s.assistantText ++ text }.emit (.delta text)

/-- The tool calls of a response, if any, and the checks after them. -/
def Loop.act (ctx : TurnContext) (s : Loop) (r : Round) : Flow :=
  if r.calls.isEmpty then .finished s
  else
    match s.calls r.calls with
    | .next s =>
      if r.goneAfter then .finished { s with stopReason := .disconnected }
      else if ctx.exhaustedBy s.enforceable then .finished { s with stopReason := .budgetExhausted }
      else .next s
    | flow => flow

/-- The look at the client, the response and its text. -/
def Loop.hear (s : Loop) (r : Round) : Flow :=
  if r.gone then .finished { s with stopReason := .disconnected }
  else
    match r.reply with
    | .error leave => .left leave s
    | .ok response =>
      let s := (s.receive response).speak response.displayText
      if response.displayText ≠ "" ∧ r.deltaDropped then .left .dropped s else .next s

def Loop.round (ctx : TurnContext) (s : Loop) (r : Round) : Flow :=
  match s.hear r with
  | .next s => s.act ctx r
  | flow => flow

/-- `while iterations < MAX_TOOL_ITERATIONS`, with as many iterations left. -/
def Turn.loop (t : Turn) : ℕ → ℕ → Loop → Flow
  | 0, _, s => .finished s
  | left + 1, i, s =>
    match s.round t.ctx (t.rounds i) with
    | .next s => t.loop left (i + 1) s
    | flow => flow

/-! ## After the loop -/

def assistantMessage (ctx : TurnContext) (s : Loop) : MessageRow where
  role := .assistant
  content := .dict [("text", .str s.assistantText)]
  tokensIn := s.tokensIn
  tokensOut := s.tokensOut
  dollars := s.dollars
  dollarsUnpriced := s.dollars - s.enforceable
  modelName := some ctx.modelName

def actionMessage (payload : Py.Value) : MessageRow where
  role := .action
  content := payload

/-- The new status of the conversation; `none` leaves it. -/
def StopReason.newStatus : StopReason → Option ConversationStatus
  | .budgetExhausted => some .budgetExhausted
  | _ => none

/-- An insert, if there is a row. -/
def Loop.insert (s : Loop) (row : Option MessageRow) (outcome : Option Leave) : Flow :=
  match row with
  | none => .next s
  | some row =>
    match outcome with
    | some leave => .left leave s
    | none => .next (s.write (.insertMessage row))

def Loop.assistantRow (ctx : TurnContext) (s : Loop) : Option MessageRow :=
  if s.assistantText ≠ "" ∨ s.stopReason ≠ .endTurn then some (assistantMessage ctx s) else none

def Loop.actionRow (s : Loop) : Option MessageRow :=
  if s.stopReason ≠ .disconnected then s.actionPayload.map actionMessage else none

/-- The totals' update and the last two frames. -/
def Loop.finish (s : Loop) (c : ConversationRow) (closing : Closing) : Flow :=
  match closing.totals with
  | some leave => .left leave s
  | none =>
    let s := s.write (.addTotals (s.tokensIn + s.tokensOut) s.dollars (s.dollars - s.enforceable)
      s.stopReason.newStatus)
    let s := s.emit (.usage s.tokensIn s.tokensOut s.dollars (c.totalDollars + s.dollars))
    if closing.usageDropped then .left .dropped s
    else
      let s := s.emit (.done s.stopReason.text)
      if closing.doneDropped then .left .dropped s else .finished s

def Loop.persist (ctx : TurnContext) (s : Loop) (c : ConversationRow) (closing : Closing) :
    Flow :=
  match s.insert (s.assistantRow ctx) closing.assistant with
  | .next s =>
    match s.insert s.actionRow closing.action with
    | .next s => s.finish c closing
    | flow => flow
  | flow => flow

/-- The frames of a turn, the responses it received and the writes it hands to the commit. -/
structure Outcome where
  frames : List Frame
  received : List Response
  writes : List Write

/-- The two frames of `except Exception`; the transaction is kept unless it was aborted. -/
def Loop.fail (s : Loop) (category : String) (aborted : Bool) (closing : Closing) : Outcome :=
  let s := s.emit (.error category "LLM turn failed.")
  if closing.usageDropped then ⟨s.frames, s.received, []⟩
  else
    let s := s.emit (.done "error")
    ⟨s.frames, s.received, if aborted || closing.doneDropped then [] else s.writes⟩

/-- A dropped stream closes its session without a commit. -/
def Flow.outcome (closing : Closing) : Flow → Outcome
  | .next s => ⟨s.frames, s.received, s.writes⟩
  | .finished s => ⟨s.frames, s.received, s.writes⟩
  | .left .dropped s => ⟨s.frames, s.received, []⟩
  | .left (.raised category aborted) s => s.fail category aborted closing

def Turn.body (t : Turn) (c : ConversationRow) : Flow :=
  match t.loop maxToolIterations 0 {} with
  | .finished s => s.persist t.ctx c t.closing
  | flow => flow

/-- `"%.2f" % dollars`. -/
def twoDecimals (dollars : ℚ) : String :=
  let cents := (Py.FloatVal.roundHalfEven (|dollars| * 100)).toNat
  (if dollars < 0 then "-" else "") ++ toString (cents / 100) ++ "." ++
    (if cents % 100 < 10 then "0" else "") ++ toString (cents % 100)

def budgetMessage (ctx : TurnContext) : String :=
  "This conversation has reached its $" ++ twoDecimals ctx.budgetDollars ++ " cap."

/-- `run_turn`. What the set-up raises leaves the generator, and there is no commit. -/
def Turn.run (t : Turn) (c : ConversationRow) : Outcome :=
  if t.ctx.exhaustedBy 0 then
    ⟨[.error "budget_exhausted" (budgetMessage t.ctx), .done StopReason.budgetExhausted.text], [], []⟩
  else if t.setup.isSome then ⟨[], [], []⟩
  else (t.body c).outcome t.closing

/-- `_stream`: the rows after the turn, whose last step is the commit. -/
def Turn.stream (t : Turn) (db : Tables) : Tables :=
  if t.closing.commits then applyAll (t.run db.conversation).writes db else db

end SocTalk.Chat
