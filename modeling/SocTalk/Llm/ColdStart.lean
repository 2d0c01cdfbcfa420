import SocTalk.Llm.Delivery
import SocTalk.TriagePolicy.Gate

/-! What becomes of an exception that a backend raises: it is passed on, or taken for the cold
start of a serverless endpoint, after a look at the endpoint's health where it has any. -/
namespace SocTalk.Llm
open Py
open TriagePolicy (toInt)

/-- An exception of a client: its own status, that of its response, and its text. -/
structure ClientError where
  statusCode : Value := .none
  responseStatusCode : Value := .none
  text : String

/-- `_http_status_of`. -/
def ClientError.httpStatus (e : ClientError) : Value := e.statusCode.orElse e.responseStatusCode

/-- `_COLD_START_STATUSES`. -/
def coldStartStatuses : List ℤ := [408, 425, 500, 502, 503, 504]

/-- `status in _COLD_START_STATUSES`: the members of a set are hashed. -/
def isColdStartStatus : Value → M Bool
  | .list _ | .dict _ => throw .typeError
  | .int n => return n ∈ coldStartStatuses
  | .float (.fin q) => return coldStartStatuses.any fun n => q = n
  | _ => return false

/-- `_COLD_START_MARKERS`. -/
def coldStartMarkers : List String :=
  ["no workers", "no ready workers", "worker is starting", "initializing",
    "not ready", "cold start", "endpoint is starting", "please try again",
    "temporarily unavailable", "502 bad gateway", "503 service unavailable",
    "connection refused", "connection reset", "timed out", "timeout"]

def isColdStartError (e : ClientError) : M Bool := do
  if ← isColdStartStatus e.httpStatus then return true
  return coldStartMarkers.any fun m => isInfix m.toList (lower e.text).toList

/-! ## The health of a RunPod endpoint -/

/-- What asking the endpoint comes to. -/
inductive HealthReply where
  /-- The request raises. -/
  | failed
  /-- An answer, with its body where that is JSON. -/
  | answered (status : ℤ) (json : Option Value)

structure Probe where
  /-- `RUNPOD_HEALTH_TIMEOUT_SECONDS`. -/
  timeoutSeconds : Option String := none
  reply : HealthReply

/-- `v.get(key, dflt)`. -/
def getOr (v : Value) (key : String) (dflt : Value) : M Value :=
  match v with
  | .dict d => return Dict.getOr d key dflt
  | _ => throw .attributeError

/-- `int(counts.get(key, 0))`. -/
def count (counts : Value) (key : String) : M ℤ := do
  let v ← getOr counts key (.int 0)
  toInt v

/-- The verdict of an answered probe. -/
def verdictOf (body : Value) : M (Option Bool) := do
  let workers ← getOr body "workers" (.dict [])
  let jobs ← getOr body "jobs" (.dict [])
  let ready ← count workers "ready"
  let idle ← count workers "idle"
  if 0 < ready + idle then return some false
  let initializing ← count workers "initializing"
  let running ← count workers "running"
  let inQueue ← count jobs "inQueue"
  let inProgress ← count jobs "inProgress"
  if 0 < initializing + running + inQueue + inProgress then return some true
  return none

variable (T : Url.Tables)

/-- `_runpod_health_verdict`: only the request itself is guarded. -/
def runpodHealthVerdict (resolved : ResolvedModel) (probe : Probe) : M (Option Bool) := do
  match ← runpodEndpointId T resolved.baseUrl with
  | none => return none
  | some _ =>
    if !resolved.llmConfig.openaiApiKey then return none
    let _ ← floatOfText (probe.timeoutSeconds.getD "2.0")
    match probe.reply with
    | .failed => return none
    | .answered status json =>
      if status ≠ 200 then return none
      else
        match json with
        | none => return none
        | some body => verdictOf body

/-! ## The handler of `ainvoke_request` -/

/-- What the handler raises on purpose. -/
inductive Reraised where
  /-- The exception itself. -/
  | original
  /-- `ServerlessUnavailableError`, caused by it. -/
  | serverlessUnavailable (message : String)
  deriving DecidableEq

def serverless (e : ClientError) : Reraised := .serverlessUnavailable (prefixOf 500 e.text)

def byHeuristic (e : ClientError) : M Reraised := do
  if ← isColdStartError e then return serverless e else return .original

def handle (rb : ResolvedBackend T) (probe : Probe) (e : ClientError) : M Reraised :=
  if rb.profile.readiness ≠ .scaleToZero then return .original
  else if rb.profile.kind ≠ .runpodJob then byHeuristic e
  else do
    let warming ← runpodHealthVerdict T rb.resolved probe
    if warming = some true then return serverless e
    else if warming = some false ∧ e.httpStatus.isSome then return .original
    else byHeuristic e

/-! ## What the health report has to look like -/

/-- The workers that could serve. -/
def capacityOf (body : Value) : M ℤ := do
  let workers ← getOr body "workers" (.dict [])
  let ready ← count workers "ready"
  let idle ← count workers "idle"
  return ready + idle

/-- The workers and the jobs on their way. -/
def activityOf (body : Value) : M ℤ := do
  let workers ← getOr body "workers" (.dict [])
  let jobs ← getOr body "jobs" (.dict [])
  let initializing ← count workers "initializing"
  let running ← count workers "running"
  let inQueue ← count jobs "inQueue"
  let inProgress ← count jobs "inProgress"
  return initializing + running + inQueue + inProgress

theorem verdictOf_eq (body : Value) : verdictOf body = do
    let capacity ← capacityOf body
    if 0 < capacity then return some false
    else do
      let activity ← activityOf body
      if 0 < activity then return some true else return none := by
  cases body with
  | dict d =>
    simp only [verdictOf, capacityOf, activityOf, getOr, pure_bind, bind_assoc]
  | _ => rfl

/-- The report can be read as far as the verdict needs it. -/
def Readable (body : Value) : Prop :=
  ∃ capacity, capacityOf body = .ok capacity ∧ (0 < capacity ∨ Returns (activityOf body))

/-- Some worker or job is reported. -/
def Definite (body : Value) : Prop :=
  ∃ capacity, capacityOf body = .ok capacity ∧
    (0 < capacity ∨ ∃ activity, activityOf body = .ok activity ∧ 0 < activity)

theorem returns_verdictOf_iff (body : Value) : Returns (verdictOf body) ↔ Readable body := by
  rw [verdictOf_eq, returns_bind_iff]
  constructor
  · rintro ⟨capacity, hcapacity, hrest⟩
    refine ⟨capacity, hcapacity, ?_⟩
    by_cases hpos : 0 < capacity
    · exact .inl hpos
    · rw [if_neg hpos, returns_bind_iff] at hrest
      obtain ⟨activity, hactivity, -⟩ := hrest
      exact .inr ⟨activity, hactivity⟩
  · rintro ⟨capacity, hcapacity, hpos | ⟨activity, hactivity⟩⟩
    · refine ⟨capacity, hcapacity, ?_⟩
      rw [if_pos hpos]
      exact returns_pure _
    · refine ⟨capacity, hcapacity, ?_⟩
      split
      · exact returns_pure _
      · refine (returns_bind_iff _ _).mpr ⟨activity, hactivity, ?_⟩
        split <;> exact returns_pure _

theorem verdictOf_eq_some_iff (body : Value) :
    (∃ b, verdictOf body = .ok (some b)) ↔ Definite body := by
  rw [verdictOf_eq]
  constructor
  · rintro ⟨b, h⟩
    obtain ⟨capacity, hcapacity, hrest⟩ := (bind_eq_ok _ _ _).mp h
    refine ⟨capacity, hcapacity, ?_⟩
    by_cases hpos : 0 < capacity
    · exact .inl hpos
    · rw [if_neg hpos] at hrest
      obtain ⟨activity, hactivity, hlast⟩ := (bind_eq_ok _ _ _).mp hrest
      by_cases hbusy : 0 < activity
      · exact .inr ⟨activity, hactivity, hbusy⟩
      · rw [if_neg hbusy] at hlast
        cases hlast
  · rintro ⟨capacity, hcapacity, hpos | ⟨activity, hactivity, hbusy⟩⟩
    · exact ⟨false, by rw [hcapacity]; simp [bind, Except.bind, hpos]⟩
    · by_cases hpos : 0 < capacity
      · exact ⟨false, by rw [hcapacity]; simp [bind, Except.bind, hpos]⟩
      · exact ⟨true, by rw [hcapacity, hactivity]; simp [bind, Except.bind, hpos, hbusy]⟩

theorem verdictOf_of_capacity {body : Value} {capacity : ℤ} (h : capacityOf body = .ok capacity)
    (hpos : 0 < capacity) : verdictOf body = .ok (some false) := by
  rw [verdictOf_eq, h]
  simp [bind, Except.bind, hpos]

section

variable {T} {rb : ResolvedBackend T} {probe : Probe} {e : ClientError}

/-- The endpoint is asked: its identifier is in the base URL, and there is a key. -/
def Probed (rb : ResolvedBackend T) : Prop :=
  (∃ id, runpodEndpointId T rb.resolved.baseUrl = .ok (some id)) ∧
    rb.resolved.llmConfig.openaiApiKey = true

/-- The JSON that an answered probe yields. -/
def Probe.json (probe : Probe) : Option Value :=
  match probe.reply with
  | .failed => none
  | .answered status json => if status = 200 then json else none

/-- The health report that the handler sees. -/
def Reports (rb : ResolvedBackend T) (probe : Probe) (body : Value) : Prop :=
  Probed rb ∧ probe.json = some body

def Probe.timeout (probe : Probe) : M FloatVal := floatOfText (probe.timeoutSeconds.getD "2.0")

theorem runpodHealthVerdict_of_not_probed (h : ¬Probed rb) :
    runpodHealthVerdict T rb.resolved probe = .ok none := by
  obtain ⟨host, hhost, -⟩ := profile_spec T rb.profile_eq
  obtain ⟨endpoint, hendpoint⟩ := returns_runpodEndpointId T hhost
  unfold runpodHealthVerdict
  rw [hendpoint]
  cases endpoint with
  | none => rfl
  | some id =>
    cases hkey : rb.resolved.llmConfig.openaiApiKey with
    | false => simp [bind, Except.bind, pure, Except.pure]
    | true => exact absurd ⟨⟨id, hendpoint⟩, hkey⟩ h

theorem runpodHealthVerdict_of_probed (h : Probed rb) :
    runpodHealthVerdict T rb.resolved probe =
      (probe.timeout >>= fun _ => probe.json.elim (.ok none) verdictOf) := by
  obtain ⟨⟨id, hid⟩, hkey⟩ := h
  unfold runpodHealthVerdict Probe.timeout Probe.json
  rw [hid]
  cases floatOfText (probe.timeoutSeconds.getD "2.0") with
  | error x => simp [bind, Except.bind, hkey]
  | ok timeout =>
    cases probe.reply with
    | failed => simp [bind, Except.bind, pure, Except.pure, hkey]
    | answered status json =>
      by_cases hstatus : status = 200
      · cases json <;> simp [bind, Except.bind, pure, Except.pure, hkey, hstatus]
      · simp [bind, Except.bind, pure, Except.pure, hkey, hstatus]

/-- The probe can be made, and its report be read. -/
structure ProbeReadable (rb : ResolvedBackend T) (probe : Probe) : Prop where
  timeout : Probed rb → Returns probe.timeout
  report : ∀ body, Reports rb probe body → Readable body

theorem returns_runpodHealthVerdict_iff :
    Returns (runpodHealthVerdict T rb.resolved probe) ↔ ProbeReadable rb probe := by
  by_cases hprobed : Probed rb
  · rw [runpodHealthVerdict_of_probed hprobed, returns_bind_iff]
    constructor
    · rintro ⟨timeout, htimeout, hrest⟩
      refine ⟨fun _ => ⟨timeout, htimeout⟩, ?_⟩
      intro body hbody
      rw [hbody.2] at hrest
      exact (returns_verdictOf_iff body).mp hrest
    · intro h
      obtain ⟨timeout, htimeout⟩ := h.timeout hprobed
      refine ⟨timeout, htimeout, ?_⟩
      cases hjson : probe.json with
      | none => exact returns_ok _
      | some body => exact (returns_verdictOf_iff body).mpr (h.report body ⟨hprobed, hjson⟩)
  · rw [runpodHealthVerdict_of_not_probed hprobed]
    constructor
    · intro _
      exact ⟨fun h => absurd h hprobed, fun _ hbody => absurd hbody.1 hprobed⟩
    · intro _
      exact returns_ok _

/-- A definite verdict comes from a report. -/
theorem verdict_eq_some_iff (h : ProbeReadable rb probe) :
    (∃ b, runpodHealthVerdict T rb.resolved probe = .ok (some b)) ↔
      ∃ body, Reports rb probe body ∧ Definite body := by
  by_cases hprobed : Probed rb
  · obtain ⟨timeout, htimeout⟩ := h.timeout hprobed
    have hverdict : runpodHealthVerdict T rb.resolved probe =
        probe.json.elim (.ok none) verdictOf := by
      rw [runpodHealthVerdict_of_probed hprobed, htimeout]
      rfl
    rw [hverdict]
    constructor
    · rintro ⟨b, hb⟩
      cases hjson : probe.json with
      | none =>
        rw [hjson] at hb
        cases hb
      | some body =>
        rw [hjson] at hb
        exact ⟨body, ⟨hprobed, hjson⟩, (verdictOf_eq_some_iff body).mp ⟨b, hb⟩⟩
    · rintro ⟨body, ⟨-, hjson⟩, hdefinite⟩
      rw [hjson]
      exact (verdictOf_eq_some_iff body).mpr hdefinite
  · rw [runpodHealthVerdict_of_not_probed hprobed]
    constructor
    · rintro ⟨b, hb⟩
      cases hb
    · rintro ⟨body, hbody, -⟩
      exact absurd hbody.1 hprobed

theorem returns_byHeuristic_iff : Returns (byHeuristic e) ↔ e.httpStatus.hashable = true := by
  have hstatus : Returns (isColdStartStatus e.httpStatus) ↔ e.httpStatus.hashable = true := by
    cases e.httpStatus with
    | list xs => simp [isColdStartStatus, Value.hashable, throw, throwThe, MonadExceptOf.throw]
    | dict d => simp [isColdStartStatus, Value.hashable, throw, throwThe, MonadExceptOf.throw]
    | float x => cases x <;> simp [isColdStartStatus, Value.hashable]
    | _ => simp [isColdStartStatus, Value.hashable]
  rw [← hstatus]
  unfold byHeuristic isColdStartError
  cases isColdStartStatus e.httpStatus with
  | error x => simp [bind, Except.bind]
  | ok found =>
    cases found with
    | true => simp [bind, Except.bind, pure, Except.pure]
    | false =>
      simp only [bind, Except.bind, pure, Except.pure, Bool.false_eq_true, if_false, returns_ok,
        iff_true]
      split <;> exact returns_ok _

/-! ## The handler -/

/-- What the handler may make of an exception. -/
structure Unmasked (rb : ResolvedBackend T) (probe : Probe) (e : ClientError) : Prop where
  reraised : Returns (handle T rb probe e)
  scaleToZero : ∀ message, handle T rb probe e = .ok (.serverlessUnavailable message) →
    rb.profile.readiness = .scaleToZero
  capacity : rb.profile.kind = .runpodJob → ∀ body workers, Reports rb probe body →
    capacityOf body = .ok workers → 0 < workers → e.httpStatus.isSome = true →
    handle T rb probe e = .ok .original

/-- Whether the handler gets by without raising an exception of its own. -/
structure Handles (rb : ResolvedBackend T) (probe : Probe) (e : ClientError) : Prop where
  readable : rb.profile.kind = .runpodJob → ProbeReadable rb probe
  /-- Else the status is not looked up in the set. -/
  status : e.httpStatus.hashable = true ∨
    rb.profile.kind = .runpodJob ∧ ∃ body, Reports rb probe body ∧ Definite body

theorem isSome_of_not_hashable {v : Value} (h : ¬v.hashable = true) : v.isSome = true := by
  cases v with
  | list xs => rfl
  | dict d => rfl
  | _ => exact absurd rfl h

theorem handle_runpodJob (hready : rb.profile.readiness = .scaleToZero)
    (hkind : rb.profile.kind = .runpodJob) : handle T rb probe e =
      (runpodHealthVerdict T rb.resolved probe >>= fun warming =>
        if warming = some true then pure (serverless e)
        else if warming = some false ∧ e.httpStatus.isSome then pure .original
        else byHeuristic e) := by
  unfold handle
  rw [if_neg (by simp [hready]), if_neg (by simp [hkind])]

theorem returns_handle_iff (hready : rb.profile.readiness = .scaleToZero) :
    Returns (handle T rb probe e) ↔ Handles rb probe e := by
  by_cases hkind : rb.profile.kind = .runpodJob
  · rw [handle_runpodJob hready hkind, returns_bind_iff]
    constructor
    · rintro ⟨warming, hwarming, hrest⟩
      have hreadable := returns_runpodHealthVerdict_iff.mp ⟨warming, hwarming⟩
      refine ⟨fun _ => hreadable, ?_⟩
      by_cases hhash : e.httpStatus.hashable = true
      · exact .inl hhash
      · right
        refine ⟨hkind, (verdict_eq_some_iff hreadable).mp ?_⟩
        cases warming with
        | some b => exact ⟨b, hwarming⟩
        | none =>
          rw [if_neg (by simp), if_neg (by simp)] at hrest
          exact absurd (returns_byHeuristic_iff.mp hrest) hhash
    · intro h
      obtain ⟨warming, hwarming⟩ := returns_runpodHealthVerdict_iff.mpr (h.readable hkind)
      refine ⟨warming, hwarming, ?_⟩
      by_cases hhash : e.httpStatus.hashable = true
      · split
        · exact returns_pure _
        · split
          · exact returns_pure _
          · exact returns_byHeuristic_iff.mpr hhash
      · have hdefinite : ∃ body, Reports rb probe body ∧ Definite body := by
          rcases h.status with hhash' | ⟨-, hdefinite⟩
          · exact absurd hhash' hhash
          · exact hdefinite
        obtain ⟨b, hb⟩ := (verdict_eq_some_iff (h.readable hkind)).mpr hdefinite
        obtain rfl := Except.ok.inj (hwarming.symm.trans hb)
        cases b with
        | true => exact returns_pure _
        | false =>
          rw [if_neg (by simp), if_pos ⟨rfl, isSome_of_not_hashable hhash⟩]
          exact returns_pure _
  · have hhandle : handle T rb probe e = byHeuristic e := by
      unfold handle
      rw [if_neg (by simp [hready]), if_pos hkind]
    rw [hhandle, returns_byHeuristic_iff]
    constructor
    · intro hhash
      exact ⟨fun h => absurd h hkind, .inl hhash⟩
    · intro h
      rcases h.status with hhash | ⟨hjob, -⟩
      · exact hhash
      · exact absurd hjob hkind

theorem handle_capacity (hprobe : ProbeReadable rb probe) (hkind : rb.profile.kind = .runpodJob)
    {body : Value} {workers : ℤ} (hbody : Reports rb probe body)
    (hworkers : capacityOf body = .ok workers) (hpos : 0 < workers)
    (hstatus : e.httpStatus.isSome = true) : handle T rb probe e = .ok .original := by
  obtain ⟨host, -, -, hready⟩ := profile_spec T rb.profile_eq
  rw [hkind] at hready
  obtain ⟨timeout, htimeout⟩ := hprobe.timeout hbody.1
  have hverdict : runpodHealthVerdict T rb.resolved probe = .ok (some false) := by
    rw [runpodHealthVerdict_of_probed hbody.1, htimeout, hbody.2]
    exact verdictOf_of_capacity hworkers hpos
  rw [handle_runpodJob hready hkind, hverdict]
  simp [bind, Except.bind, pure, Except.pure, hstatus]

end

/-! ## A health report that is a list -/

def runpodConfig : LLMConfig :=
  { provider := .openai, fastModel := "qwen3", reasoningModel := "qwen3"
    engine := some .openaiCompatible, openaiApiKey := true
    openaiBaseUrl := some "https://api.runpod.ai/v2/abc/openai/v1", temperature := 0
    maxTokens := 4096 }

def runpodModel : ResolvedModel :=
  { provider := .openai, engine := .openaiCompatible, model := "qwen3", decodingMode := .auto
    llmConfig := runpodConfig }

theorem backendHost_runpodModel :
    backendHost asciiTables runpodModel.baseUrl = .ok "api.runpod.ai" := by
  decide +kernel

theorem runpodEndpointId_runpodModel :
    runpodEndpointId asciiTables runpodModel.baseUrl = .ok (some "abc") := by
  decide +kernel

def runpodProfile : DeliveryProfile :=
  { backendId := "runpod_job:qwen3", kind := .runpodJob, readiness := .scaleToZero
    lifecycle := .selfDeployed, scaling := .scaleToZero, billing := .perGpuSecond
    batching := .continuousWorker
    capabilities := { guidedJson := false, grammar := false, promptCache := false, batchApi := false } }

theorem profile_runpodModel :
    deliveryProfileFor asciiTables runpodModel = .ok runpodProfile := by
  unfold deliveryProfileFor
  rw [backendHost_runpodModel]
  rfl

def runpodBackend : ResolvedBackend asciiTables := ⟨runpodModel, runpodProfile, profile_runpodModel⟩

end SocTalk.Llm
