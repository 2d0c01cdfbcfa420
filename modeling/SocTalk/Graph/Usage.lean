import SocTalk.Graph.Track
import SocTalk.TriagePolicy.Gate

/-! What a response says it used: the canonical reading, which cuts what does not fit, and the older
extractors that stay authoritative for the totals. -/
namespace SocTalk.Graph
open Py
open TriagePolicy (toInt)

/-- A message with its two attributes (`None` where it lacks one), or the raw body of a reply. -/
inductive Response where
  | message (usageMetadata responseMetadata : Value)
  | body (body : Dict)

/-! ## `canonical_usage` -/

structure CanonicalUsage where
  inputTokens : ℤ := 0
  outputTokens : ℤ := 0
  cacheReadTokens : ℤ := 0
  cacheWriteTokens : ℤ := 0
  reasoningTokens : ℤ := 0
  actualCostUsd : Option FloatVal := none
  reportedProvider : Option String := none

/-- A count; what is no number counts nothing, and nothing counts below zero. -/
def asInt (v : Value) : M ℤ := do
  let out ← attempt [.typeError, .valueError] (toInt (v.orElse (.int 0)))
  return max 0 (out.getD 0)

/-- `current or _as_int(v)`. -/
def orInt (current : ℤ) (v : Value) : M ℤ := if current ≠ 0 then return current else asInt v

/-- Every place a provider might have put its usage block, in order. -/
def usageDicts : Response → List Dict
  | .message usageMetadata responseMetadata =>
    usageMetadata.dict?.toList ++
      match responseMetadata.dict? with
      | some rm => (["usage", "token_usage"].filterMap fun key => (Dict.get rm key).dict?) ++
          [rm.filter fun p => p.1 = "provider" ∨ p.1 = "model_name"]
      | none => []
  | .body body =>
    (Dict.get body "usage").dict?.toList ++
      match Dict.get body "provider" with
      | .str provider => [[("provider", .str provider)]]
      | _ => []

/-- The total under one of two names. -/
def readTotal (block : Dict) (keys : List String) (current : ℤ) : M ℤ :=
  keys.foldlM (fun current key =>
    match Dict.get block key with
    | .none => return current
    | v => orInt current v) current

/-- A count in one of the detail blocks. -/
def readDetail (block : Dict) (key : String) (count : Dict → Value) (current : ℤ) : M ℤ :=
  match (Dict.get block key).dict? with
  | none => return current
  | some details => orInt current (count details)

/-- The cost that a block reports, unless it is negative, infinite or no number. -/
def readCost (block : Dict) (current : Option FloatVal) : M (Option FloatVal) :=
  match current, Dict.get block "cost" with
  | some cost, _ => return some cost
  | none, .none => return none
  | none, v => do
    match ← attempt [.typeError, .valueError] v.toFloat with
    | none => return none
    | some cost =>
      return if cost.eq cost && (FloatVal.fin 0).le cost && !cost.eq .posInf then some cost else none

def readProvider (block : Dict) : Option String → Option String
  | some provider => some provider
  | none =>
    match Dict.get block "provider" with
    | .str provider => some provider
    | _ => none

def readBlock (u : CanonicalUsage) (block : Dict) : M CanonicalUsage := do
  let inputTokens ← readTotal block ["input_tokens", "prompt_tokens"] u.inputTokens
  let outputTokens ← readTotal block ["output_tokens", "completion_tokens"] u.outputTokens
  let cacheRead ← readDetail block "prompt_tokens_details" (Dict.get · "cached_tokens")
    u.cacheReadTokens
  let cacheWrite ← readDetail block "prompt_tokens_details" (Dict.get · "cache_write_tokens")
    u.cacheWriteTokens
  let reasoning ← readDetail block "completion_tokens_details" (Dict.get · "reasoning_tokens")
    u.reasoningTokens
  let cacheReadTokens ← readDetail block "input_token_details" (Dict.get · "cache_read") cacheRead
  let cacheWriteTokens ← readDetail block "input_token_details" (Dict.get · "cache_creation")
    cacheWrite
  let reasoningTokens ← readDetail block "output_token_details"
    (fun d => (Dict.get d "reasoning").orElse (Dict.get d "thinking_tokens")) reasoning
  let actualCostUsd ← readCost block u.actualCostUsd
  return {
    inputTokens, outputTokens, cacheReadTokens, cacheWriteTokens, reasoningTokens, actualCostUsd
    reportedProvider := readProvider block u.reportedProvider }

/-- The details are a part of the totals. -/
def CanonicalUsage.cut (u : CanonicalUsage) : CanonicalUsage :=
  let cacheReadTokens := min u.cacheReadTokens u.inputTokens
  { u with
    cacheReadTokens
    cacheWriteTokens := min u.cacheWriteTokens (max 0 (u.inputTokens - cacheReadTokens))
    reasoningTokens := min u.reasoningTokens u.outputTokens }

def canonicalUsage (r : Response) : M CanonicalUsage := do
  return (← (usageDicts r).foldlM readBlock {}).cut

/-! ## The older extractors -/

/-- The input and the output total that a response reports. -/
def reported : Response → Value × Value
  | .message usageMetadata responseMetadata =>
    match usageMetadata.dict?, responseMetadata.dict? with
    | some um, _ =>
      ((Dict.get um "input_tokens").orElse (.int 0), (Dict.get um "output_tokens").orElse (.int 0))
    | none, some rm =>
      match ((Dict.get rm "usage").orElse ((Dict.get rm "token_usage").orElse (.dict []))).dict? with
      | some usage =>
        ((Dict.get usage "input_tokens").orElse ((Dict.get usage "prompt_tokens").orElse (.int 0)),
          (Dict.get usage "output_tokens").orElse
            ((Dict.get usage "completion_tokens").orElse (.int 0)))
      | none => (.int 0, .int 0)
    | none, none => (.int 0, .int 0)
  | .body _ => (.int 0, .int 0)

/-- Unlike the canonical reading, this one takes negative counts as they are. -/
def extractUsage (r : Response) : M (ℤ × ℤ) := do
  let input ← toInt (reported r).1
  let output ← toInt (reported r).2
  return (input, output)

def extractCacheDetails : Response → M (ℤ × ℤ)
  | .message usageMetadata _ =>
    match usageMetadata.dict? with
    | none => return (0, 0)
    | some um =>
      match ((Dict.get um "input_token_details").orElse (.dict [])).dict? with
      | none => return (0, 0)
      | some details => do
        let read ← toInt ((Dict.get details "cache_read").orElse (.int 0))
        let creation ← toInt ((Dict.get details "cache_creation").orElse (.int 0))
        return (read, creation)
  | .body _ => return (0, 0)

/-- The model identifier that the response carries. -/
def modelName : Response → Option String
  | .message _ responseMetadata => do
    let rm ← responseMetadata.dict?
    ["model_name", "model", "model_id"].findSome? fun key =>
      match Dict.get rm key with
      | .str m => if m = "" then none else some m
      | _ => none
  | .body _ => none

/-! ## `track` -/

/-- The extracted totals, unless both are zero. -/
def CanonicalUsage.totals (usage : CanonicalUsage) (extracted : ℤ × ℤ) : ℤ × ℤ :=
  if extracted.1 = 0 ∧ extracted.2 = 0 then (usage.inputTokens, usage.outputTokens) else extracted

/-- What a call is accounted with. -/
def readUsage (r : Response) : M CallUsage := do
  let usage ← canonicalUsage r
  let extracted ← extractUsage r
  let (legacyRead, legacyWrite) ← extractCacheDetails r
  return {
    inputTokens := (usage.totals extracted).1
    outputTokens := (usage.totals extracted).2
    cacheRead := if usage.cacheReadTokens ≠ 0 then usage.cacheReadTokens else legacyRead
    cacheCreation := if usage.cacheWriteTokens ≠ 0 then usage.cacheWriteTokens else legacyWrite
    reasoning := usage.reasoningTokens
    actualCost := usage.actualCostUsd }

def track (round : ℚ → FloatVal) (env : TrackEnv) (s : TrackState) (r : Response) :
    M TrackState := do
  let u ← readUsage r
  account round env s (modelName r) u

/-- The state after a call; one that raises has only filled in the defaults. -/
def afterTrack (round : ℚ → FloatVal) (env : TrackEnv) (s : TrackState) (r : Response) :
    TrackState :=
  match track round env s r with
  | .ok s' => s'
  | .error _ => { s with toBudgetState := ensure env.toBudgetEnv s.toBudgetState }

def trackAll (round : ℚ → FloatVal) (env : TrackEnv) (s : TrackState) (rs : List Response) :
    TrackState :=
  rs.foldl (afterTrack round env) s

end SocTalk.Graph
