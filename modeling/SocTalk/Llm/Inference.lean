import SocTalk.Graph.Usage
import SocTalk.Llm.ColdStart

/-! One inference request: the calls that its decoding mode and its extraction policy make, the
retries of a structured call, and where each reply's usage is counted. -/
namespace SocTalk.Llm.Inference
open Py
open Graph (TrackEnv TrackState)

inductive ExtractionPolicy where
  | singleCall
  | reasonThenExtract
  deriving DecidableEq

/-- A request with a budget state of its own; a schema is a pydantic model. -/
structure InferenceRequest where
  tier : InferenceTier
  decodingMode : DecodingMode := .auto
  extractionPolicy : ExtractionPolicy := .singleCall
  hasSchema : Bool := false
  grammar : Option String := none
  hasTools : Bool := false
  retrySchemaValidation : ℤ := 1
  modelOverride : Option String := none

/-- What a call brings: the raw message, whether it parses into the schema, and whether the messages
that tell the model what was wrong with it can be built. -/
structure Reply where
  raw : Option Graph.Response
  conforms : Bool
  feedback : M Unit := .ok ()

inductive Failure where
  | schemaValidation
  /-- Raised by the program itself. -/
  | raised (e : Exc)
  /-- Raised by the client: there is no reply. -/
  | backend

/-- The replies to come, those received, and the request's budget state. -/
structure World where
  replies : List Reply
  received : List Reply := []
  budget : TrackState

/-- A computation that may call the model; what it has done so far stays when it raises. -/
def Call (α : Type) : Type := World → Except Failure α × World

instance : Monad Call where
  pure a w := (.ok a, w)
  bind x f w :=
    match x w with
    | (.ok a, w) => f a w
    | (.error e, w) => (.error e, w)

def Call.fail {α : Type} (e : Failure) : Call α := fun w => (.error e, w)

def Call.lift {α : Type} (x : M α) : Call α := fun w =>
  match x with
  | .ok a => (.ok a, w)
  | .error e => (.error (.raised e), w)

theorem Call.bind_ok {α β : Type} {x : Call α} {f : α → Call β} {w w' : World} {a : α}
    (h : x w = (.ok a, w')) : (x >>= f) w = f a w' := by
  simp only [bind, h]

theorem Call.bind_error {α β : Type} {x : Call α} {f : α → Call β} {w w' : World} {e : Failure}
    (h : x w = (.error e, w')) : (x >>= f) w = (.error e, w') := by
  simp only [bind, h]

theorem Call.lift_ok {α : Type} {x : M α} {a : α} (h : x = .ok a) (w : World) :
    Call.lift x w = (.ok a, w) := by
  simp only [Call.lift, h]

theorem Call.lift_error {α : Type} {x : M α} {e : Exc} (h : x = .error e) (w : World) :
    Call.lift x w = (.error (.raised e), w) := by
  simp only [Call.lift, h]

variable (round : ℚ → FloatVal) (env : TrackEnv)

/-! ## The calls -/

/-- `ainvoke`. -/
def invoke : Call Reply := fun w =>
  match w.replies with
  | [] => (.error .backend, w)
  | r :: rest => (.ok r, { w with replies := rest, received := w.received ++ [r] })

/-- `_track`. -/
def track (r : Reply) : Call Unit := fun w =>
  match r.raw with
  | none => (.ok (), w)
  | some raw =>
    match Graph.track round env w.budget raw with
    | .ok s => (.ok (), { w with budget := s })
    | .error e => (.error (.raised e), { w with budget := Graph.afterTrack round env w.budget raw })

/-- Every call of the model is followed by its accounting. -/
def ask : Call Reply := do
  let r ← invoke
  track round env r
  return r

@[ext]
structure UsageDelta where
  inputTokens : ℤ
  outputTokens : ℤ
  deriving DecidableEq

instance : Add UsageDelta := ⟨fun a b => ⟨a.inputTokens + b.inputTokens, a.outputTokens + b.outputTokens⟩⟩

/-- `_usage_of`. -/
def usageOf (r : Reply) : M UsageDelta :=
  match r.raw with
  | none => return ⟨0, 0⟩
  | some raw => do
    let (i, o) ← Graph.extractUsage raw
    return ⟨i, o⟩

/-- The turns that are left after a reply that did not conform. -/
def retry : ℕ → Reply → ℕ → Call (Reply × ℕ)
  | 0, _, _ => Call.fail .schemaValidation
  | n + 1, previous, attempts => do
    Call.lift previous.feedback
    let r ← ask round env
    if r.conforms then return (r, attempts + 1)
    else retry n r (attempts + 1)

/-- `_invoke_structured`: the reply that conforms, and the attempts. The Anthropic client has no
JSON mode. -/
def invokeStructured (req : InferenceRequest) (resolved : ResolvedModel) (mode : DecodingMode) :
    Call (Reply × ℕ) :=
  if mode = .jsonObject ∧ resolved.provider = .anthropic then Call.fail (.raised .valueError)
  else do
    let r ← ask round env
    if r.conforms then return (r, 1)
    else retry round env req.retrySchemaValidation.toNat r 1

structure InferenceResult where
  parsed : Bool
  usage : UsageDelta
  decodingMode : DecodingMode
  attempts : ℕ

/-- `guided_request_kwargs`. -/
def guidedRequestKwargs (mode : DecodingMode) (engine : Engine) (req : InferenceRequest) : M Unit :=
  if engine.selfHosted = false then throw .valueError
  else
    match mode with
    | .guidedJson => if req.hasSchema then return () else throw .valueError
    | .guidedGrammar => if req.grammar.getD "" = "" then throw .valueError else return ()
    | _ => throw .valueError

/-- What `_invoke_guided` asks for before its call. -/
def guidedReady (req : InferenceRequest) (resolved : ResolvedModel) (mode : DecodingMode) : M Unit :=
  if resolved.provider ≠ .openai then throw .valueError
  else if req.hasTools then throw .valueError
  else do
    guidedRequestKwargs mode resolved.engine req
    createChatModel resolved.llmConfig

/-- `_invoke_guided`. -/
def invokeGuided (req : InferenceRequest) (resolved : ResolvedModel) (mode : DecodingMode) :
    Call InferenceResult := do
  Call.lift (guidedReady req resolved mode)
  let r ← ask round env
  if mode = .guidedJson && req.hasSchema && !r.conforms then Call.fail .schemaValidation
  else do
    let usage ← Call.lift (usageOf r)
    return ⟨mode = .guidedJson && req.hasSchema, usage, mode, 1⟩

/-- `_dispatch`. -/
def dispatch (req : InferenceRequest) (resolved : ResolvedModel) (mode : DecodingMode) :
    Call InferenceResult :=
  if mode.guided then invokeGuided round env req resolved mode
  else do
    Call.lift (createChatModel resolved.llmConfig)
    if req.extractionPolicy = .reasonThenExtract ∧ req.hasSchema then do
      let reasoning ← ask round env
      let extracted ← invokeStructured round env req resolved mode
      let ru ← Call.lift (usageOf reasoning)
      let eu ← Call.lift (usageOf extracted.1)
      return ⟨true, ru + eu, mode, extracted.2 + 1⟩
    else if mode = .none ∨ req.hasSchema = false then do
      let r ← ask round env
      let usage ← Call.lift (usageOf r)
      return ⟨false, usage, mode, 1⟩
    else do
      let structured ← invokeStructured round env req resolved mode
      let usage ← Call.lift (usageOf structured.1)
      return ⟨true, usage, mode, structured.2⟩

/-! ## `ainvoke_request` -/

structure UsageRecord where
  inputTokens : ℤ
  outputTokens : ℤ
  cacheReadTokens : ℤ := 0
  cacheCreationTokens : ℤ := 0
  backendId : String
  backendKind : String

def usageRecord (result : InferenceResult) (profile : DeliveryProfile) : UsageRecord :=
  { inputTokens := result.usage.inputTokens, outputTokens := result.usage.outputTokens
    backendId := profile.backendId, backendKind := profile.kind.value }

/-- How a request ends. -/
inductive Outcome where
  | returned (result : InferenceResult) (record : UsageRecord)
  /-- Before the backend is invoked, or in the handler. -/
  | raised (e : Exc)
  | reraised (e : Failure) (r : Reraised)

variable (T : Url.Tables)

/-- The mode of a request: its own, or else that of its tier. -/
def requestMode (req : InferenceRequest) (resolved : ResolvedModel) : M DecodingMode :=
  resolveDecodingMode
    (if req.decodingMode = .auto then resolved.decodingMode else req.decodingMode)
    resolved.engine resolved.provider req.hasSchema req.grammar.isSome

/-- What is settled before the backend is invoked. -/
def prepare (cfg : LLMConfig) (req : InferenceRequest) :
    M (ResolvedBackend T × DecodingMode) := do
  let resolved ← resolveTier T cfg req.tier req.modelOverride
  match h : deliveryProfileFor T resolved with
  | .error e => throw e
  | .ok profile =>
    let mode ← requestMode req resolved
    return (⟨resolved, profile, h⟩, mode)

/-- `ainvoke_request`; `describe` is what its handler sees of what the backend raised. -/
def ainvokeRequest (probe : Probe) (describe : Failure → ClientError) (cfg : LLMConfig)
    (req : InferenceRequest) (w : World) : Outcome × World :=
  match prepare T cfg req with
  | .error e => (.raised e, w)
  | .ok (rb, mode) =>
    match dispatch round env req rb.resolved mode w with
    | (.ok result, w) => (.returned result (usageRecord result rb.profile), w)
    | (.error f, w) =>
      match handle T rb probe (describe f) with
      | .ok r => (.reraised f r, w)
      | .error e => (.raised e, w)

end SocTalk.Llm.Inference
