import Mathlib.Data.List.Infix
import SocTalk.Llm.Config

/-! The values that a configuration is rendered to, and the worker's environment that the tenant
chart builds from them. -/
namespace SocTalk.Llm
open Py

/-! ## The values -/

structure TierValues where
  provider : Provider
  baseUrl : String
  model : String
  engine : Option Engine
  decodingMode : Option DecodingMode
  temperature : Option ℚ
  maxTokens : Option ℤ
  /-- The tier is one of `tierKeys`. -/
  ownKey : Bool

/-- The part of the chart's values that comes from the LLM columns. -/
structure Values where
  provider : Provider
  baseUrl : String
  model : String
  engine : Option Engine
  temperature : ℚ
  maxTokens : ℤ
  fast : Option TierValues
  reasoning : Option TierValues
  fastModel : String
  reasoningModel : String
  allowedLlmHosts : List String
  llmEgressPort : ℕ
  extraLlmEgressPorts : List ℕ

variable (T : Url.Tables)

/-- `u.port or (80 if u.scheme == "http" else 443)`. -/
def egressPort (u : Url.SplitResult) : M ℕ := do
  let port ← u.port
  .ok (match port with
    | some (n + 1) => n + 1
    | _ => if u.scheme = "http".toList then 80 else 443)

/-- The block as the row holds it. -/
def LLMTierConfig.asBlock (b : LLMTierConfig) : TierBlock :=
  { provider := some b.provider, baseUrl := some b.baseUrl, model := some b.model
    engine := b.engine.map Engine.value, decodingMode := b.decodingMode
    temperature := b.temperature, maxTokens := b.maxTokens, apiKeyPlain := b.apiKeyPlain }

/-- A served engine at a hosted authority is dropped, and its decoding mode with it. -/
def renderableTier (b : LLMTierConfig) : M LLMTierConfig := do
  let effective ← effectiveLlmEngine T b.provider b.engine b.baseUrl
  if b.engine.any Engine.served && effective.isNone then
    let hosted ← hostedProviderKindForBaseUrl T b.baseUrl
    .ok (if hosted.isSome then
        { b with
          engine := none
          decodingMode := b.decodingMode.filter fun mode => !mode.guided }
      else b)
  else .ok { b with engine := effective }

/-- One block of `_render_llm_tiers`: its values, and the port it needs. -/
def renderTier (b : LLMTierConfig) : M (TierValues × ℕ) := do
  let renderable ← renderableTier T b
  let b ← renderable.asBlock.validate T
  let u ← Url.urlsplit T b.baseUrl
  let port ← egressPort u
  .ok ({ provider := b.provider.canonical, baseUrl := b.baseUrl, model := b.model
         engine := b.engine, decodingMode := b.decodingMode, temperature := b.temperature
         maxTokens := b.maxTokens, ownKey := b.apiKeyPlain.any (· ≠ "") }, port)

def renderOptionalTier : Option LLMTierConfig → M (Option (TierValues × ℕ))
  | none => .ok none
  | some b => do
    let rendered ← renderTier T b
    .ok (some rendered)

def primaryLlmEngineForRender (cfg : IntegrationConfig) : M (Option Engine) := do
  let effective ← effectiveLlmEngine T cfg.llmProvider cfg.llmEngine cfg.llmBaseUrl
  if cfg.llmEngine.any Engine.served && effective.isNone then .ok none
  else do
    checkPrimaryLlmEngineConfig T cfg.llmProvider effective cfg.llmBaseUrl
    .ok effective

/-- `render_tenant_values`, as far as the LLM columns go. -/
def renderTenantValues (cfg : IntegrationConfig) : M Values := do
  let u ← Url.urlsplit T cfg.llmBaseUrl
  let port ← egressPort u
  let fast ← renderOptionalTier T cfg.llmTiers.fast
  let reasoning ← renderOptionalTier T cfg.llmTiers.reasoning
  let engine ← primaryLlmEngineForRender T cfg
  .ok { provider := cfg.llmProvider, baseUrl := cfg.llmBaseUrl, model := cfg.llmModel
        engine, temperature := cfg.llmTemperature, maxTokens := cfg.llmMaxTokens
        fast := fast.map Prod.fst, reasoning := reasoning.map Prod.fst
        fastModel := orElse cfg.llmFastModel cfg.llmModel
        reasoningModel := orElse cfg.llmReasoningModel cfg.llmModel
        allowedLlmHosts := u.hostname.toList, llmEgressPort := port
        extraLlmEgressPorts :=
          ((fast.toList ++ reasoning.toList).map Prod.snd).dedup.filter (· ≠ port) }

/-! ## The chart -/

/-- What Helm's validator says of `format: uri` and of the pattern of
`hostedVendorServedBaseUrl`. -/
structure Helm where
  isUri : String → Bool
  isHostedServed : String → Bool

/-- The conditions that the schema has for the primary block and for the tiers alike. -/
def Helm.allowsBackend (helm : Helm) (provider : Provider) (baseUrl model : String)
    (engine : Option Engine) : Bool :=
  helm.isUri baseUrl && model ≠ "" && !(provider = .anthropic && engine.any Engine.served) &&
    !(engine.any Engine.served && helm.isHostedServed baseUrl)

def Helm.allowsTier (helm : Helm) (t : TierValues) : Bool :=
  helm.allowsBackend t.provider t.baseUrl t.model t.engine && t.provider ≠ .openaiCompatible &&
    samplingInBounds t.temperature t.maxTokens

/-- `values.schema.json` admits the values. -/
def Helm.allows (helm : Helm) (v : Values) : Bool :=
  helm.allowsBackend v.provider v.baseUrl v.model v.engine && v.provider ≠ .openai &&
    samplingInBounds (some v.temperature) (some v.maxTokens) &&
    v.fast.all helm.allowsTier && v.reasoning.all helm.allowsTier

/-- The environment of the worker: texts, numbers, and the variables that hold a credential. -/
structure Env where
  text : String → Option String
  number : String → Option ℚ
  secret : String → Bool

def Provider.value : Provider → String
  | .openai => "openai"
  | .openaiCompatible => "openai-compatible"
  | .anthropic => "anthropic"

def DecodingMode.value : DecodingMode → String
  | .auto => "auto"
  | .none => "none"
  | .toolUse => "tool_use"
  | .jsonSchemaStrict => "json_schema_strict"
  | .jsonObject => "json_object"
  | .guidedJson => "guided_json"
  | .guidedGrammar => "guided_grammar"

def isTrimmed (c : Char) : Bool := c == ' ' || (9 ≤ c.toNat && c.toNat ≤ 13)

/-- `trim` of the templates. -/
def trimSpace (s : String) : String :=
  String.ofList ((s.toList.dropWhile isTrimmed).rdropWhile isTrimmed)

/-- `default`: an empty text is not set. -/
def orDefault (s default : String) : String := if s = "" then default else s

/-- `$bu`, where it is passed on for the provider. -/
def Values.passedBaseUrl (v : Values) : Option String :=
  let bu := trimSpace v.baseUrl
  if v.provider.canonical = .openai then
    if bu ≠ "" ∧ bu ≠ openaiSentinelBaseUrl then some bu else none
  else if bu ≠ "" ∧ "anthropic".toList <:+: bu.toList then some bu else none

def workerText (v : Values) : String → Option String
  | "SOCTALK_LLM_PROVIDER" => some v.provider.canonical.value
  | "SOCTALK_LLM_ENGINE" => v.engine.map Engine.value
  | "SOCTALK_FAST_PROVIDER" => v.fast.map fun t => t.provider.value
  | "SOCTALK_FAST_MODEL" =>
    some (match v.fast with
      | some t => t.model
      | none => orDefault v.fastModel v.model)
  | "SOCTALK_FAST_BASE_URL" => v.fast.map fun t => t.baseUrl
  | "SOCTALK_FAST_ENGINE" => v.fast.bind fun t => t.engine.map Engine.value
  | "SOCTALK_FAST_DECODING_MODE" => v.fast.bind fun t => t.decodingMode.map DecodingMode.value
  | "SOCTALK_REASONING_PROVIDER" => v.reasoning.map fun t => t.provider.value
  | "SOCTALK_REASONING_MODEL" =>
    some (match v.reasoning with
      | some t => t.model
      | none => orDefault v.reasoningModel v.model)
  | "SOCTALK_REASONING_BASE_URL" => v.reasoning.map fun t => t.baseUrl
  | "SOCTALK_REASONING_ENGINE" => v.reasoning.bind fun t => t.engine.map Engine.value
  | "SOCTALK_REASONING_DECODING_MODE" =>
    v.reasoning.bind fun t => t.decodingMode.map DecodingMode.value
  | "OPENAI_BASE_URL" => if v.provider.canonical = .openai then v.passedBaseUrl else none
  | "OPENAI_API_BASE" => if v.provider.canonical = .openai then v.passedBaseUrl else none
  | "ANTHROPIC_BASE_URL" => if v.provider.canonical = .openai then none else v.passedBaseUrl
  | _ => none

def workerNumber (v : Values) : String → Option ℚ
  | "SOCTALK_LLM_TEMPERATURE" => some v.temperature
  | "SOCTALK_LLM_MAX_TOKENS" => some v.maxTokens
  | "SOCTALK_FAST_TEMPERATURE" => v.fast.bind fun t => t.temperature
  | "SOCTALK_FAST_MAX_TOKENS" => v.fast.bind fun t => t.maxTokens.map fun n : ℤ => (n : ℚ)
  | "SOCTALK_REASONING_TEMPERATURE" => v.reasoning.bind fun t => t.temperature
  | "SOCTALK_REASONING_MAX_TOKENS" => v.reasoning.bind fun t => t.maxTokens.map fun n : ℤ => (n : ℚ)
  | _ => none

/-- The mounted credentials are there. -/
def workerSecret (v : Values) : String → Bool
  | "OPENAI_API_KEY" => v.provider.canonical = .openai
  | "ANTHROPIC_API_KEY" => v.provider.canonical ≠ .openai
  | "SOCTALK_FAST_API_KEY" => v.fast.any fun t => t.ownKey
  | "SOCTALK_REASONING_API_KEY" => v.reasoning.any fun t => t.ownKey
  | _ => false

/-- The environment that the chart builds, unless Helm refuses the values. -/
def workerEnv (helm : Helm) (v : Values) : M Env :=
  if helm.allows v then .ok ⟨workerText v, workerNumber v, workerSecret v⟩
  else .error .valueError

end SocTalk.Llm
