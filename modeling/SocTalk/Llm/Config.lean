import SocTalk.Llm.Provider

/-! A tenant's LLM configuration and the updates of it that are accepted. -/
namespace SocTalk.Llm
open Py

inductive DecodingMode where
  | auto
  | none
  | toolUse
  | jsonSchemaStrict
  | jsonObject
  | guidedJson
  | guidedGrammar
  deriving DecidableEq

/-- `_ENGINE_NATIVE_DECODING_MODES`. -/
def DecodingMode.guided (mode : DecodingMode) : Bool := mode = .guidedJson || mode = .guidedGrammar

structure LLMTierConfig where
  provider : Provider
  baseUrl : String
  model : String
  engine : Option Engine := none
  decodingMode : Option DecodingMode := none
  temperature : Option ℚ := none
  maxTokens : Option ℤ := none
  apiKeyPlain : Option String := none
  deriving DecidableEq

/-- The tiers that a tenant may configure. -/
inductive Tier where
  | fast
  | reasoning
  deriving DecidableEq

def Tier.key : Tier → String
  | .fast => "fast"
  | .reasoning => "reasoning"

/-- `llm_tiers`; NULL is no tier. -/
structure LlmTiers where
  fast : Option LLMTierConfig := none
  reasoning : Option LLMTierConfig := none
  deriving DecidableEq

def LlmTiers.get (tiers : LlmTiers) : Tier → Option LLMTierConfig
  | .fast => tiers.fast
  | .reasoning => tiers.reasoning

def LlmTiers.blocks (tiers : LlmTiers) : List LLMTierConfig :=
  tiers.fast.toList ++ tiers.reasoning.toList

theorem LlmTiers.mem_blocks {tiers : LlmTiers} {block : LLMTierConfig} :
    block ∈ tiers.blocks ↔ ∃ tier, tiers.get tier = some block := by
  simp only [blocks, List.mem_append, Option.mem_toList]
  constructor
  · rintro (h | h)
    · exact ⟨.fast, h⟩
    · exact ⟨.reasoning, h⟩
  · rintro ⟨tier, h⟩
    cases tier with
    | fast => exact Or.inl h
    | reasoning => exact Or.inr h

/-- The LLM columns of `integration_configs`, with their defaults. -/
structure IntegrationConfig where
  llmProvider : Provider := .openaiCompatible
  llmBaseUrl : String := openaiSentinelBaseUrl
  llmModel : String := "gpt-4o"
  llmFastModel : Option String := none
  llmReasoningModel : Option String := none
  llmEngine : Option Engine := none
  llmTiers : LlmTiers := {}
  llmTemperature : ℚ := 0
  llmMaxTokens : ℤ := 4096
  llmApiKeyPlain : Option String := none

/-! ## Tier blocks -/

variable (T : Url.Tables)

def normalizeLlmEngine (engine : String) : M (Option Engine) :=
  let normalized := lower (strip engine)
  if normalized = "" then .ok none
  else do
    let e ← Engine.ofValue normalized
    .ok (some e)

def hasHttpScheme (url : String) : Bool :=
  "http://".toList.isPrefixOf url.toList || "https://".toList.isPrefixOf url.toList

/-- `_check_combo`. -/
def LLMTierConfig.checkCombo (b : LLMTierConfig) : M Unit :=
  if !hasHttpScheme b.baseUrl then .error .valueError
  else if b.provider = .anthropic && b.engine.any Engine.served then .error .valueError
  else if b.provider = .anthropic && b.decodingMode = some .jsonObject then .error .valueError
  else if b.decodingMode.any DecodingMode.guided && !b.engine.any Engine.selfHosted then
    .error .valueError
  else if b.engine.any Engine.served then do
    let usable ← hasUsableServedBaseUrl T b.baseUrl
    if usable then .ok () else .error .valueError
  else .ok ()

def samplingInBounds (temperature : Option ℚ) (maxTokens : Option ℤ) : Bool :=
  temperature.all (fun t => 0 ≤ t ∧ t ≤ 2) && maxTokens.all (fun n => 1 ≤ n ∧ n ≤ 8192)

/-- A tier block of a request. -/
structure TierBlock where
  provider : Option Provider := none
  baseUrl : Option String := none
  model : Option String := none
  engine : Option String := none
  decodingMode : Option DecodingMode := none
  temperature : Option ℚ := none
  maxTokens : Option ℤ := none
  /-- Null is the same as blank. -/
  apiKeyPlain : Option String := none
  hasUnknownField : Bool := false

/-- `normalize_llm_engine`. -/
def normalizeOptionalEngine : Option String → M (Option Engine)
  | none => .ok none
  | some engine => normalizeLlmEngine engine

/-- `LLMTierConfig(**block)`. -/
def TierBlock.validate (b : TierBlock) : M LLMTierConfig :=
  match b.provider, b.baseUrl, b.model with
  | some provider, some baseUrl, some model =>
    if b.hasUnknownField || provider = .openai || !samplingInBounds b.temperature b.maxTokens then
      .error .valueError
    else do
      let engine ← normalizeOptionalEngine b.engine
      let block : LLMTierConfig :=
        { provider, baseUrl := strip baseUrl, model, engine, decodingMode := b.decodingMode
          temperature := b.temperature, maxTokens := b.maxTokens, apiKeyPlain := b.apiKeyPlain }
      block.checkCombo T
      .ok block
  | _, _, _ => .error .valueError

/-- `_merge_tier_keys`: an absent key is kept, a blank one cleared. -/
def mergeTierKey (prior : Option LLMTierConfig) (block : TierBlock) : TierBlock :=
  { block with
    apiKeyPlain :=
      match block.apiKeyPlain with
      | none => (prior.bind (·.apiKeyPlain)).filter (· ≠ "")
      | some key => if strip key = "" then none else some key }

def validateTier (prior : Option LLMTierConfig) : Option TierBlock → M (Option LLMTierConfig)
  | none => .ok none
  | some block => do
    let validated ← (mergeTierKey prior block).validate T
    .ok (some validated)

/-- `validate_llm_tiers` of the merged blocks. -/
def validateLlmTiers (prior : LlmTiers) (raw : List (String × TierBlock)) : M LlmTiers :=
  if raw.any fun entry => entry.1 ≠ "fast" ∧ entry.1 ≠ "reasoning" then .error .valueError
  else do
    let fast ← validateTier T prior.fast (raw.lookup "fast")
    let reasoning ← validateTier T prior.reasoning (raw.lookup "reasoning")
    .ok ⟨fast, reasoning⟩

/-! ## Roles and the price gate -/

inductive Role where
  | fast
  | reasoning
  | chat
  deriving DecidableEq

structure RoleBackend where
  model : String
  providerKind : ProviderKind
  providerId : Option String
  deriving DecidableEq

def IntegrationConfig.tierOf (cfg : IntegrationConfig) : Role → Option LLMTierConfig
  | .fast => cfg.llmTiers.fast
  | .reasoning => cfg.llmTiers.reasoning
  | .chat => none

/-- `override or default`. -/
def orElse (override : Option String) (default : String) : String :=
  match override with
  | some s => if s = "" then default else s
  | none => default

def IntegrationConfig.fallbackModel (cfg : IntegrationConfig) (chatModel : Option String) :
    Role → String
  | .fast => orElse cfg.llmFastModel cfg.llmModel
  | .reasoning => orElse cfg.llmReasoningModel cfg.llmModel
  | .chat => orElse chatModel cfg.llmModel

/-- A tier's own engine, or the primary's. -/
def roleEngine (own primary : Option Engine) (provider : Provider) (baseUrl : String) :
    M (Option Engine) :=
  if own.isSome then effectiveLlmEngine T provider own baseUrl else .ok primary

/-- One turn of the loop of `roles_for_config`; no entry where there is no model. -/
def roleBackend (cfg : IntegrationConfig) (chatModel : Option String) (role : Role) :
    M (Option RoleBackend) := do
  let primaryEngine ← effectiveLlmEngine T cfg.llmProvider cfg.llmEngine cfg.llmBaseUrl
  let tier := cfg.tierOf role
  let provider := (tier.map (·.provider)).getD cfg.llmProvider
  let baseUrl := orElse (tier.map (·.baseUrl)) cfg.llmBaseUrl
  let model := orElse (tier.map (·.model)) (cfg.fallbackModel chatModel role)
  let engine ← roleEngine T (tier.bind (·.engine)) primaryEngine provider baseUrl
  if model = "" then .ok none
  else do
    let kind ← providerKindFor T provider baseUrl engine
    let id ← providerIdFor T baseUrl
    .ok (some ⟨model, kind, id⟩)

/-! ### Families of models -/

/-- The suffixes of `VERSION_SUFFIX_RE`, with `d` for a digit. -/
def versionShapes : List String := ["-dddd-dd-dd", "-dddddddd", "-latest"]

def hasShape (shape : String) (cs : List Char) : Bool :=
  cs.length = shape.length &&
    (cs.zip shape.toList).all fun (c, s) => if s = 'd' then c.isDigit else c = s

def stripVersion (cs : List Char) : List Char :=
  match versionShapes.find? fun shape => hasShape shape (cs.drop (cs.length - shape.length)) with
  | some shape => cs.take (cs.length - shape.length)
  | none => cs

/-- `base_model_id`; the pattern also ends before a final newline. -/
def baseModelId (model : String) : String :=
  let cs := model.toList
  if cs.getLast? = some '\n' then String.ofList (stripVersion cs.dropLast ++ ['\n'])
  else String.ofList (stripVersion cs)

example : ["claude-haiku-4-5-20251001", "gpt-4o-2024-08-06", "gpt-4-32k"].map baseModelId =
    ["claude-haiku-4-5", "gpt-4o", "gpt-4-32k"] := by decide +kernel

/-- A chat model of a family that a triage role has already is not listed again. -/
def rolesForConfig (cfg : IntegrationConfig) (chatModel : Option String) :
    M (List (Role × RoleBackend)) := do
  let fast ← roleBackend T cfg chatModel .fast
  let reasoning ← roleBackend T cfg chatModel .reasoning
  let chat ← roleBackend T cfg chatModel .chat
  let triage := (fast.map (Role.fast, ·)).toList ++ (reasoning.map (Role.reasoning, ·)).toList
  let listed (b : RoleBackend) := triage.any fun e => baseModelId e.2.model = baseModelId b.model
  .ok (triage ++ ((chat.filter (!listed ·)).map (Role.chat, ·)).toList)

/-- What the gate reads: the accounting switch, and whether a backend has a price. -/
structure PriceGate where
  costTracking : Bool
  priced : RoleBackend → Bool

/-- `unpriced_config` finds nothing. -/
def PriceGate.passes (gate : PriceGate) (cfg : IntegrationConfig) : M Bool :=
  if !gate.costTracking then .ok true
  else do
    let roles ← rolesForConfig T cfg none
    .ok (roles.all fun entry => strip entry.2.model = "" || gate.priced entry.2)

/-! ## Updates -/

/-- The worker's name of a provider. -/
def Provider.canonical : Provider → Provider
  | .openaiCompatible => .openai
  | p => p

/-- `normalize_provider`. -/
def Provider.normalize : Provider → Provider
  | .openai => .openaiCompatible
  | p => p

/-- A tier on another provider than the primary brings its own key. -/
def crossProviderTiersWithoutKey (provider : Provider) (tiers : LlmTiers) : List LLMTierConfig :=
  tiers.blocks.filter fun b =>
    b.provider.canonical ≠ provider.canonical && !b.apiKeyPlain.any (· ≠ "")

structure LlmConfigUpdate where
  provider : Option Provider := none
  baseUrl : Option String := none
  model : Option String := none
  engine : Option String := none
  fastModel : Option String := none
  reasoningModel : Option String := none
  temperature : Option ℚ := none
  maxTokens : Option ℤ := none
  apiKey : Option String := none
  tiers : Option (List (String × TierBlock)) := none

def atMost (n : ℕ) (text : Option String) : Bool := text.all (·.length ≤ n)

def LlmConfigUpdate.inBounds (u : LlmConfigUpdate) : Bool :=
  atMost 500 u.baseUrl && atMost 255 u.model && atMost 32 u.engine && atMost 255 u.fastModel &&
    atMost 255 u.reasoningModel && atMost 4096 u.apiKey && u.apiKey.all (· ≠ "") &&
    samplingInBounds u.temperature u.maxTokens

/-- `_validate_url`. -/
def validateUrl (url : String) : M String :=
  if hasHttpScheme (strip url) then .ok (strip url) else .error .valueError

/-- A blank override is cleared. -/
def overrideOf (stored : Option String) : Option String → Option String
  | none => stored
  | some s => if strip s = "" then none else some (strip s)

/-- An update that names the provider, the URL or the engine is checked for all three. -/
def checkPrimary (u : LlmConfigUpdate) (provider : Provider) (engine : Option Engine)
    (baseUrl : String) : M Unit :=
  if u.provider.isSome || u.baseUrl.isSome || u.engine.isSome then
    checkPrimaryLlmEngineConfig T provider engine baseUrl
  else .ok ()

def updatedTiers (prior : LlmTiers) : Option (List (String × TierBlock)) → M LlmTiers
  | none => .ok prior
  | some raw => validateLlmTiers T prior raw

/-- What an update with its validated parts makes of the row. -/
def IntegrationConfig.apply (cfg : IntegrationConfig) (u : LlmConfigUpdate) (provider : Provider)
    (baseUrl : String) (engine : Option Engine) (tiers : LlmTiers) : IntegrationConfig :=
  { llmProvider := provider
    llmBaseUrl := baseUrl
    llmModel := u.model.getD cfg.llmModel
    llmFastModel := overrideOf cfg.llmFastModel u.fastModel
    llmReasoningModel := overrideOf cfg.llmReasoningModel u.reasoningModel
    llmEngine := engine
    llmTiers := tiers
    llmTemperature := u.temperature.getD cfg.llmTemperature
    llmMaxTokens := u.maxTokens.getD cfg.llmMaxTokens
    llmApiKeyPlain := u.apiKey.or cfg.llmApiKeyPlain }

/-- `update_tenant_llm`: the row it leaves. -/
def updateTenantLlm (gate : PriceGate) (cfg : IntegrationConfig) (u : LlmConfigUpdate) :
    M IntegrationConfig :=
  if !u.inBounds then .error .valueError
  else do
    let newUrl ← u.baseUrl.mapM validateUrl
    let newEngine ← u.engine.mapM normalizeLlmEngine
    -- A historical `openai` row is healed first.
    let priorProvider := cfg.llmProvider.normalize
    let provider := (u.provider.map Provider.normalize).getD priorProvider
    let baseUrl := newUrl.getD cfg.llmBaseUrl
    let engine := newEngine.getD cfg.llmEngine
    checkPrimary T u provider engine baseUrl
    let tiers ← updatedTiers T cfg.llmTiers u.tiers
    let next := cfg.apply u provider baseUrl engine tiers
    let passes ← gate.passes T next
    if !passes then .error .valueError
    else if (provider ≠ priorProvider || tiers ≠ cfg.llmTiers) &&
        crossProviderTiersWithoutKey provider tiers ≠ [] then .error .valueError
    else .ok next

/-- The configurations that accepted updates lead to from a new row. -/
inductive Reachable : IntegrationConfig → Prop
  | created : Reachable {}
  | updated {cfg next} (gate : PriceGate) (u : LlmConfigUpdate) : Reachable cfg →
      updateTenantLlm T gate cfg u = .ok next → Reachable next
  | keyCleared {cfg} : Reachable cfg → Reachable { cfg with llmApiKeyPlain := none }

end SocTalk.Llm
