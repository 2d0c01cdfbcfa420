import SocTalk.Llm.Render

/-! The worker's side: loading its environment, resolving a tier, and dispatching a structured
request. -/
namespace SocTalk.Llm
open Py

/-! ## Loading the environment -/

/-- A stripped variable, where something is left of it. -/
def Env.optional (env : Env) (name : String) : Option String :=
  (env.text name).bind fun value => if strip value = "" then none else some (strip value)

def Provider.ofValue (value : String) : M Provider :=
  if value = "anthropic" then .ok .anthropic
  else if value = "openai" then .ok .openai
  else .error .valueError

def DecodingMode.ofValue (value : String) : M DecodingMode :=
  if value = "auto" then .ok .auto
  else if value = "none" then .ok .none
  else if value = "tool_use" then .ok .toolUse
  else if value = "json_schema_strict" then .ok .jsonSchemaStrict
  else if value = "json_object" then .ok .jsonObject
  else if value = "guided_json" then .ok .guidedJson
  else if value = "guided_grammar" then .ok .guidedGrammar
  else .error .valueError

inductive InferenceTier where
  | router
  | reasoning
  | chat
  | extraction
  deriving DecidableEq

/-- `_TIER_ENV_PREFIXES`. -/
def InferenceTier.envPrefix : InferenceTier → String
  | .router => "SOCTALK_FAST"
  | .reasoning => "SOCTALK_REASONING"
  | .chat => "SOCTALK_CHAT"
  | .extraction => "SOCTALK_EXTRACTION"

/-- The overlay of one tier. -/
structure TierEntry where
  provider : Option Provider := none
  model : Option String := none
  baseUrl : Option String := none
  apiKey : Bool := false
  engine : Option Engine := none
  defaultDecodingMode : Option DecodingMode := none
  temperature : Option ℚ := none
  maxTokens : Option ℤ := none

variable (T : Url.Tables)

/-- `int(value)`, with its bounds. -/
def boundedTokens (value : ℚ) : M ℤ :=
  if value.den = 1 ∧ 1 ≤ value ∧ value ≤ 8192 then .ok value.num else .error .valueError

def boundedTemperature (value : ℚ) : M ℚ :=
  if 0 ≤ value ∧ value ≤ 2 then .ok value else .error .valueError

/-- A served engine needs an endpoint of the tier or of the primary. -/
def checkTierEngine (env : Env) (engine : Option Engine) (baseUrl : Option String) : M Unit :=
  if engine.any Engine.served then do
    let globalBase := orElse (env.text "OPENAI_BASE_URL") ((env.text "OPENAI_API_BASE").getD "")
    let usable ← hasUsableServedBaseUrl T (baseUrl.getD globalBase)
    if usable then .ok () else .error .valueError
  else .ok ()

/-- One turn of the loop of `_load_tier_configs`. -/
def loadTierConfig (env : Env) (tier : InferenceTier) : M (Option TierEntry) :=
  let var (suffix : String) := tier.envPrefix ++ suffix
  let provider := env.optional (var "_PROVIDER")
  let baseUrl := env.optional (var "_BASE_URL")
  let engine := env.optional (var "_ENGINE")
  if provider.isNone && baseUrl.isNone && engine.isNone then .ok none
  else do
    let provider ← provider.mapM Provider.ofValue
    let engine ← engine.mapM Engine.ofValue
    checkTierEngine T env engine baseUrl
    let mode ← (env.optional (var "_DECODING_MODE")).mapM DecodingMode.ofValue
    let temperature ← (env.number (var "_TEMPERATURE")).mapM boundedTemperature
    let maxTokens ← (env.number (var "_MAX_TOKENS")).mapM boundedTokens
    .ok (some
      { provider, model := env.optional (var "_MODEL"), baseUrl, engine
        apiKey := env.secret (var "_API_KEY"), defaultDecodingMode := mode
        temperature, maxTokens })

/-- The LLM settings of a process. The keys are given by whether they are set. -/
structure LLMConfig where
  provider : Provider
  fastModel : String
  reasoningModel : String
  chatModel : String := ""
  router : Option TierEntry := none
  reasoning : Option TierEntry := none
  chat : Option TierEntry := none
  extraction : Option TierEntry := none
  engine : Option Engine := none
  anthropicApiKey : Bool := false
  anthropicBaseUrl : Option String := none
  openaiApiKey : Bool := false
  openaiBaseUrl : Option String := none
  temperature : ℚ
  maxTokens : ℤ

def LLMConfig.tier (cfg : LLMConfig) : InferenceTier → Option TierEntry
  | .router => cfg.router
  | .reasoning => cfg.reasoning
  | .chat => cfg.chat
  | .extraction => cfg.extraction

def LLMConfig.tiers (cfg : LLMConfig) : List TierEntry :=
  [cfg.router, cfg.reasoning, cfg.chat, cfg.extraction].flatMap Option.toList

/-- The provider that the preference and the keys make. -/
def chooseProvider (preference : Option Provider) (anthropicApiKey openaiApiKey : Bool) : Provider :=
  let provider := match preference with
    | some p => p
    | none =>
      if anthropicApiKey && openaiApiKey then .anthropic
      else if openaiApiKey then .openai
      else .anthropic
  if anthropicApiKey && openaiApiKey then provider
  else if provider = .anthropic && !anthropicApiKey && openaiApiKey then .openai
  else if provider = .openai && !openaiApiKey && anthropicApiKey then .anthropic
  else provider

/-- The primary engine; inert at a hosted authority. -/
def loadPrimaryEngine (provider : Provider) (engine : Option Engine)
    (openaiBaseUrl : Option String) : M (Option Engine) :=
  if engine.any Engine.served then
    if provider = .anthropic then .error .valueError
    else do
      let effective ← effectiveLlmEngine T provider engine
        (openaiBaseUrl.getD openaiSentinelBaseUrl)
      if effective.isNone then .ok none
      else do
        let usable ← hasUsableServedBaseUrl T (openaiBaseUrl.getD "")
        if usable then .ok engine else .error .valueError
  else .ok engine

/-- `load_config`, as far as the LLM settings go. -/
def loadConfig (env : Env) : M LLMConfig := do
  let anthropicApiKey := env.secret "ANTHROPIC_API_KEY"
  let openaiApiKey := env.secret "OPENAI_API_KEY"
  let openaiBaseUrl := (env.optional "OPENAI_BASE_URL").or (env.optional "OPENAI_API_BASE")
  let preference ← (((env.text "SOCTALK_LLM_PROVIDER").map fun v => lower (strip v)).filter
    (· ≠ "")).mapM Provider.ofValue
  let primaryEngine ← (env.optional "SOCTALK_LLM_ENGINE").mapM Engine.ofValue
  let router ← loadTierConfig T env .router
  let reasoning ← loadTierConfig T env .reasoning
  let chat ← loadTierConfig T env .chat
  let extraction ← loadTierConfig T env .extraction
  let mixed := [router, reasoning, chat, extraction].any fun entry => entry.any fun t =>
    t.provider.isSome || t.engine.any Engine.served
  if anthropicApiKey && openaiApiKey && !mixed then .error .valueError
  else do
    let provider := chooseProvider preference anthropicApiKey openaiApiKey
    let engine ← loadPrimaryEngine T provider primaryEngine openaiBaseUrl
    if !mixed && provider = .anthropic && !anthropicApiKey then .error .valueError
    else if !mixed && provider = .openai && !openaiApiKey then .error .valueError
    else do
      let temperature ← boundedTemperature ((env.number "SOCTALK_LLM_TEMPERATURE").getD 0)
      let maxTokens ← boundedTokens ((env.number "SOCTALK_LLM_MAX_TOKENS").getD 4096)
      .ok { provider
            fastModel := (env.text "SOCTALK_FAST_MODEL").getD "claude-sonnet-4-6"
            reasoningModel := (env.text "SOCTALK_REASONING_MODEL").getD "claude-sonnet-4-6"
            chatModel := (env.text "SOCTALK_CHAT_MODEL").getD ""
            router, reasoning, chat, extraction, engine, anthropicApiKey
            anthropicBaseUrl := env.optional "ANTHROPIC_BASE_URL"
            openaiApiKey, openaiBaseUrl, temperature, maxTokens }

/-! ## Resolving a tier -/

structure ResolvedModel where
  provider : Provider
  engine : Engine
  model : String
  decodingMode : DecodingMode
  llmConfig : LLMConfig

def legacyModelForTier (cfg : LLMConfig) : InferenceTier → String
  | .reasoning => cfg.reasoningModel
  | .chat => orDefault cfg.chatModel cfg.fastModel
  | .router | .extraction => cfg.fastModel

/-- `_scoped_config`: only the chosen provider's key and base URL are left. -/
def scopedConfig (cfg : LLMConfig) (provider : Provider) (baseUrl : Option String) (key : Bool) :
    LLMConfig :=
  if provider = .anthropic then
    { cfg with
      provider := provider
      anthropicApiKey := key || cfg.anthropicApiKey
      anthropicBaseUrl := baseUrl.or cfg.anthropicBaseUrl
      openaiApiKey := false
      openaiBaseUrl := none }
  else
    { cfg with
      provider := provider
      openaiApiKey := key || cfg.openaiApiKey
      openaiBaseUrl := baseUrl.or cfg.openaiBaseUrl
      anthropicApiKey := false
      anthropicBaseUrl := none }

/-- The base URL of a provider, the vendor's own where OpenAI has none. -/
def LLMConfig.engineBaseUrl (cfg : LLMConfig) (provider : Provider) (own : Option String) :
    String :=
  if provider = .anthropic then (own.or cfg.anthropicBaseUrl).getD ""
  else (own.or cfg.openaiBaseUrl).getD openaiSentinelBaseUrl

/-- The provider whose client speaks to the engine, unless the tier names one. -/
def providerFor (explicit : Option Provider) (engine : Engine) (provider : Provider) : Provider :=
  match explicit with
  | some p => p
  | none => if engine.served then .openai else provider

def resolveTier (cfg : LLMConfig) (tier : InferenceTier) (modelOverride : Option String) :
    M ResolvedModel := do
  let entry := (cfg.tier tier).getD {}
  let primaryEngine ← effectiveLlmEngine T cfg.provider cfg.engine
    (cfg.engineBaseUrl cfg.provider none)
  let baseProvider := entry.provider.getD cfg.provider
  let effective ← effectiveLlmEngine T baseProvider (entry.engine.or primaryEngine)
    (cfg.engineBaseUrl baseProvider entry.baseUrl)
  let engine := effective.getD .frontier
  let provider := providerFor entry.provider engine cfg.provider
  .ok { provider, engine
        model := orElse modelOverride (entry.model.getD (legacyModelForTier cfg tier))
        decodingMode := entry.defaultDecodingMode.getD .auto
        llmConfig := scopedConfig cfg provider entry.baseUrl entry.apiKey }

/-! ## Structured requests -/

def resolveDecodingMode (requested : DecodingMode) (engine : Engine) (provider : Provider)
    (hasSchema hasGrammar : Bool) : M DecodingMode :=
  if hasSchema && hasGrammar then .error .valueError
  else if requested ≠ .auto then
    if requested.guided && engine = .frontier then .error .valueError
    else if requested = .jsonSchemaStrict && provider = .anthropic then .ok .toolUse
    else .ok requested
  else if !hasSchema && !hasGrammar then .ok .none
  else if engine.selfHosted then .ok (if hasGrammar then .guidedGrammar else .guidedJson)
  else if hasGrammar then .error .valueError
  else if provider = .anthropic then .ok .toolUse
  else .ok .jsonSchemaStrict

/-- What `create_chat_model` asks of the keys. -/
def createChatModel (cfg : LLMConfig) : M Unit :=
  if cfg.anthropicApiKey && cfg.openaiApiKey then .error .valueError
  else if cfg.provider = .anthropic then
    if cfg.anthropicApiKey then .ok () else .error .valueError
  else if cfg.openaiApiKey then .ok () else .error .valueError

/-- `guided_request_kwargs` of a request with a schema and no grammar. -/
def guidedRequestKwargs (mode : DecodingMode) (engine : Engine) : M Unit :=
  if engine.selfHosted && mode = .guidedJson then .ok () else .error .valueError

/-- `_dispatch` of a request with a schema, no grammar and no tools, up to the call itself. The
Anthropic client has no JSON mode. -/
def dispatch (resolved : ResolvedModel) (mode : DecodingMode) : M Unit :=
  if mode.guided then
    if resolved.provider ≠ .openai then .error .valueError
    else do
      guidedRequestKwargs mode resolved.engine
      createChatModel resolved.llmConfig
  else do
    createChatModel resolved.llmConfig
    if mode = .jsonObject && resolved.provider = .anthropic then .error .valueError else .ok ()

/-- `ainvoke_request` of a structured request without a mode of its own, up to the call. -/
def structuredRequest (cfg : LLMConfig) (tier : InferenceTier) : M Unit := do
  let resolved ← resolveTier T cfg tier none
  let mode ← resolveDecodingMode resolved.decodingMode resolved.engine resolved.provider true false
  dispatch resolved mode

/-! ## From the row to the worker -/

/-- The settings of the worker that a configuration makes. -/
def workerConfig (helm : Helm) (cfg : IntegrationConfig) : M LLMConfig := do
  let values ← renderTenantValues T cfg
  let env ← workerEnv helm values
  loadConfig T env

end SocTalk.Llm
