import SocTalk.Llm.Rendered

/-! The settings that the worker of an accepted configuration loads. -/
namespace SocTalk.Llm
open Py

variable {T : Url.Tables}

/-! ## Variables and tiers -/

theorem Env.optional_none {env : Env} {name : String} (h : env.text name = none) :
    env.optional name = none := by
  rw [Env.optional, h]
  rfl

theorem Env.optional_trimmed {env : Env} {name s : String} (h : env.text name = some s)
    (htrim : strip s = s) (hs : s ≠ "") : env.optional name = some s := by
  rw [Env.optional, h]
  simp [htrim, hs]

theorem boundedTemperature_ok {t : ℚ} (h : 0 ≤ t ∧ t ≤ 2) : boundedTemperature t = .ok t :=
  if_pos h

theorem boundedTokens_ok {n : ℤ} (h : 1 ≤ n ∧ n ≤ 8192) : boundedTokens (n : ℚ) = .ok n := by
  have hlow : (1 : ℚ) ≤ n := by exact_mod_cast h.1
  have hhigh : (n : ℚ) ≤ 8192 := by exact_mod_cast h.2
  rw [boundedTokens, if_pos ⟨Rat.den_intCast n, hlow, hhigh⟩]
  rfl

def LLMTierConfig.entry (b : LLMTierConfig) : TierEntry :=
  { provider := some b.provider.canonical
    model := if strip b.model = "" then none else some (strip b.model)
    baseUrl := some b.baseUrl
    apiKey := b.apiKeyPlain.any (· ≠ "")
    engine := b.engine
    defaultDecodingMode := b.decodingMode
    temperature := b.temperature
    maxTokens := b.maxTokens }

/-- The environment carries the block as the variables of a tier. -/
structure Carries (env : Env) (tier : InferenceTier) (b : LLMTierConfig) : Prop where
  provider : env.text (tier.envPrefix ++ "_PROVIDER") = some b.provider.canonical.value
  model : env.text (tier.envPrefix ++ "_MODEL") = some b.model
  baseUrl : env.text (tier.envPrefix ++ "_BASE_URL") = some b.baseUrl
  engine : env.text (tier.envPrefix ++ "_ENGINE") = b.engine.map Engine.value
  mode : env.text (tier.envPrefix ++ "_DECODING_MODE") = b.decodingMode.map DecodingMode.value
  temperature : env.number (tier.envPrefix ++ "_TEMPERATURE") = b.temperature
  maxTokens : env.number (tier.envPrefix ++ "_MAX_TOKENS") = b.maxTokens.map fun n : ℤ => (n : ℚ)
  key : env.secret (tier.envPrefix ++ "_API_KEY") = b.apiKeyPlain.any (· ≠ "")

theorem Provider.ofValue_canonical {p : Provider} (h : p ≠ .openai) :
    Provider.ofValue p.canonical.value = .ok p.canonical := by
  cases p with
  | openai => exact absurd rfl h
  | _ => rfl

theorem DecodingMode.ofValue_value (mode : DecodingMode) :
    DecodingMode.ofValue mode.value = .ok mode := by
  cases mode <;> rfl

theorem optional_engine {env : Env} {name : String} {engine : Option Engine}
    (h : env.text name = engine.map Engine.value) :
    (env.optional name).mapM Engine.ofValue = .ok engine := by
  cases engine with
  | none =>
    rw [Env.optional_none h]
    rfl
  | some e =>
    have htrim : strip e.value = e.value := by cases e <;> decide +kernel
    have hne : e.value ≠ "" := by cases e <;> decide
    rw [Env.optional_trimmed h htrim hne]
    simp only [Option.mapM_some, Engine.ofValue_value]
    rfl

theorem optional_mode {env : Env} {name : String} {mode : Option DecodingMode}
    (h : env.text name = mode.map DecodingMode.value) :
    (env.optional name).mapM DecodingMode.ofValue = .ok mode := by
  cases mode with
  | none =>
    rw [Env.optional_none h]
    rfl
  | some m =>
    have htrim : strip m.value = m.value := by cases m <;> decide +kernel
    have hne : m.value ≠ "" := by cases m <;> decide
    rw [Env.optional_trimmed h htrim hne]
    simp only [Option.mapM_some, DecodingMode.ofValue_value]
    rfl

theorem loadTierConfig_absent {env : Env} {tier : InferenceTier}
    (hprovider : env.text (tier.envPrefix ++ "_PROVIDER") = none)
    (hurl : env.text (tier.envPrefix ++ "_BASE_URL") = none)
    (hengine : env.text (tier.envPrefix ++ "_ENGINE") = none) :
    loadTierConfig T env tier = .ok none := by
  unfold loadTierConfig
  simp only [Env.optional_none hprovider, Env.optional_none hurl, Env.optional_none hengine]
  rfl

theorem AcceptedTier.loadTierConfig {b : LLMTierConfig} (h : AcceptedTier T b) {env : Env}
    {tier : InferenceTier} (hc : Carries env tier b) :
    loadTierConfig T env tier = .ok (some b.entry) := by
  have hprovider : env.optional (tier.envPrefix ++ "_PROVIDER") = some b.provider.canonical.value := by
    refine Env.optional_trimmed hc.provider ?_ ?_
    · cases b.provider <;> decide +kernel
    · cases b.provider <;> decide
  have hurl : env.optional (tier.envPrefix ++ "_BASE_URL") = some b.baseUrl :=
    Env.optional_trimmed hc.baseUrl h.trimmed (ne_empty_of_hasHttpScheme h.scheme)
  have hmodel : env.optional (tier.envPrefix ++ "_MODEL") =
      if strip b.model = "" then none else some (strip b.model) := by
    rw [Env.optional, hc.model]
    rfl
  have hcheck : checkTierEngine T env b.engine (some b.baseUrl) = .ok () := by
    unfold checkTierEngine
    split_ifs with hserved
    · simp [(h.usable hserved).2, bind, Except.bind]
    · rfl
  have hsampling := h.sampling
  simp only [samplingInBounds, Bool.and_eq_true] at hsampling
  have htemperature : b.temperature.mapM boundedTemperature = .ok b.temperature := by
    cases ht : b.temperature with
    | none => rfl
    | some t =>
      have hb : 0 ≤ t ∧ t ≤ 2 := by simpa [ht] using hsampling.1
      simp only [Option.mapM_some, boundedTemperature_ok hb]
      rfl
  have hmaxTokens : (b.maxTokens.map fun n : ℤ => (n : ℚ)).mapM boundedTokens = .ok b.maxTokens := by
    cases hn : b.maxTokens with
    | none => rfl
    | some n =>
      have hb : 1 ≤ n ∧ n ≤ 8192 := by simpa [hn] using hsampling.2
      simp only [Option.map_some, Option.mapM_some, boundedTokens_ok hb]
      rfl
  have hengine := optional_engine hc.engine
  have hmode := optional_mode hc.mode
  unfold Llm.loadTierConfig
  simp only [hprovider, hurl, hmodel, hc.temperature, hc.maxTokens, hc.key, hengine, hmode,
    Option.isNone_some, Bool.false_and, Bool.false_eq_true, if_false, Option.mapM_some,
    Provider.ofValue_canonical h.provider]
  simp only [bind, Except.bind, hcheck, htemperature, hmaxTokens, LLMTierConfig.entry,
    Functor.map, Except.map]

/-! ## The worker's settings -/

theorem trimSpace_of_trimmed {s : String} (h : strip s = s) : trimSpace s = s := by
  have hspace : ∀ c, isTrimmed c = true → isSpace c = true := by
    intro c hc
    unfold isSpace
    unfold isTrimmed at hc
    rw [hc]
    rfl
  obtain ⟨hfirst, hlast⟩ := ends_of_strip_eq h
  have hdrop : s.toList.dropWhile isTrimmed = s.toList := by
    rw [List.dropWhile_eq_self_iff] at hfirst ⊢
    intro hpos htrim
    exact hfirst hpos (hspace _ htrim)
  have hrdrop : s.toList.rdropWhile isTrimmed = s.toList := by
    rw [List.rdropWhile_eq_self_iff] at hlast ⊢
    intro hne htrim
    exact hlast hne (hspace _ htrim)
  rw [trimSpace, hdrop, hrdrop, String.ofList_toList]

/-- The base URL that the chart passes on. -/
def IntegrationConfig.passedBaseUrl (cfg : IntegrationConfig) : Option String :=
  if cfg.llmProvider.canonical = .openai then
    if cfg.llmBaseUrl ≠ openaiSentinelBaseUrl then some cfg.llmBaseUrl else none
  else if "anthropic".toList <:+: cfg.llmBaseUrl.toList then some cfg.llmBaseUrl else none

theorem Accepted.passedBaseUrl {cfg : IntegrationConfig} (h : Accepted T cfg)
    (hosts : List String) (port : ℕ) (ports : List ℕ) :
    (cfg.values hosts port ports).passedBaseUrl = cfg.passedBaseUrl := by
  have hne : cfg.llmBaseUrl ≠ "" := ne_empty_of_hasHttpScheme h.scheme
  simp only [Values.passedBaseUrl, IntegrationConfig.values, IntegrationConfig.passedBaseUrl,
    trimSpace_of_trimmed h.trimmed, ne_eq, hne, not_false_iff, true_and]

/-- The settings that the worker loads. -/
def IntegrationConfig.settings (cfg : IntegrationConfig) : LLMConfig :=
  { provider := cfg.llmProvider.canonical
    fastModel := match cfg.llmTiers.fast with
      | some b => b.model
      | none => orElse cfg.llmFastModel cfg.llmModel
    reasoningModel := match cfg.llmTiers.reasoning with
      | some b => b.model
      | none => orElse cfg.llmReasoningModel cfg.llmModel
    router := cfg.llmTiers.fast.map LLMTierConfig.entry
    reasoning := cfg.llmTiers.reasoning.map LLMTierConfig.entry
    engine := cfg.llmEngine
    anthropicApiKey := cfg.llmProvider.canonical ≠ .openai
    anthropicBaseUrl := if cfg.llmProvider.canonical = .openai then none else cfg.passedBaseUrl
    openaiApiKey := cfg.llmProvider.canonical = .openai
    openaiBaseUrl := if cfg.llmProvider.canonical = .openai then cfg.passedBaseUrl else none
    temperature := cfg.llmTemperature
    maxTokens := cfg.llmMaxTokens }

theorem orDefault_orElse (override : Option String) (model : String) :
    orDefault (orElse override model) model = orElse override model := by
  unfold orDefault
  split_ifs with h
  · unfold orElse at h ⊢
    cases override with
    | none => rfl
    | some s =>
      by_cases hs : s = ""
      · simp [hs]
      · simp [hs] at h
  · rfl

/-! ### The tiers -/

/-- The environment that the chart builds of the values. -/
def Values.env (v : Values) : Env := ⟨workerText v, workerNumber v, workerSecret v⟩

theorem carries_fast {v : Values} {b : LLMTierConfig} (h : v.fast = some b.values) :
    Carries v.env .router b := by
  constructor
  · show v.fast.map _ = _
    rw [h]
    rfl
  · show some _ = _
    rw [h]
    rfl
  · show v.fast.map _ = _
    rw [h]
    rfl
  · show v.fast.bind _ = _
    rw [h]
    rfl
  · show v.fast.bind _ = _
    rw [h]
    rfl
  · show v.fast.bind _ = _
    rw [h]
    rfl
  · show v.fast.bind _ = _
    rw [h]
    rfl
  · show v.fast.any _ = _
    rw [h]
    rfl

theorem carries_reasoning {v : Values} {b : LLMTierConfig} (h : v.reasoning = some b.values) :
    Carries v.env .reasoning b := by
  constructor
  · show v.reasoning.map _ = _
    rw [h]
    rfl
  · show some _ = _
    rw [h]
    rfl
  · show v.reasoning.map _ = _
    rw [h]
    rfl
  · show v.reasoning.bind _ = _
    rw [h]
    rfl
  · show v.reasoning.bind _ = _
    rw [h]
    rfl
  · show v.reasoning.bind _ = _
    rw [h]
    rfl
  · show v.reasoning.bind _ = _
    rw [h]
    rfl
  · show v.reasoning.any _ = _
    rw [h]
    rfl

theorem Accepted.loadTier_router {cfg : IntegrationConfig} (h : Accepted T cfg)
    (hosts : List String) (port : ℕ) (ports : List ℕ) :
    Llm.loadTierConfig T (cfg.values hosts port ports).env .router =
      .ok (cfg.llmTiers.fast.map LLMTierConfig.entry) := by
  cases hfast : cfg.llmTiers.fast with
  | none =>
    have hv : (cfg.values hosts port ports).fast = none := by simp [IntegrationConfig.values, hfast]
    apply loadTierConfig_absent
    · show (cfg.values hosts port ports).fast.map _ = none
      rw [hv]
      rfl
    · show (cfg.values hosts port ports).fast.map _ = none
      rw [hv]
      rfl
    · show (cfg.values hosts port ports).fast.bind _ = none
      rw [hv]
      rfl
  | some b =>
    have hv : (cfg.values hosts port ports).fast = some b.values := by
      simp [IntegrationConfig.values, hfast]
    exact (h.tier .fast b hfast).loadTierConfig (carries_fast hv)

theorem Accepted.loadTier_reasoning {cfg : IntegrationConfig} (h : Accepted T cfg)
    (hosts : List String) (port : ℕ) (ports : List ℕ) :
    Llm.loadTierConfig T (cfg.values hosts port ports).env .reasoning =
      .ok (cfg.llmTiers.reasoning.map LLMTierConfig.entry) := by
  cases hreasoning : cfg.llmTiers.reasoning with
  | none =>
    have hv : (cfg.values hosts port ports).reasoning = none := by
      simp [IntegrationConfig.values, hreasoning]
    apply loadTierConfig_absent
    · show (cfg.values hosts port ports).reasoning.map _ = none
      rw [hv]
      rfl
    · show (cfg.values hosts port ports).reasoning.map _ = none
      rw [hv]
      rfl
    · show (cfg.values hosts port ports).reasoning.bind _ = none
      rw [hv]
      rfl
  | some b =>
    have hv : (cfg.values hosts port ports).reasoning = some b.values := by
      simp [IntegrationConfig.values, hreasoning]
    exact (h.tier .reasoning b hreasoning).loadTierConfig (carries_reasoning hv)

theorem loadTier_other (v : Values) :
    Llm.loadTierConfig T v.env .chat = .ok none ∧
      Llm.loadTierConfig T v.env .extraction = .ok none :=
  ⟨loadTierConfig_absent rfl rfl rfl, loadTierConfig_absent rfl rfl rfl⟩

/-! ### The primary -/

theorem hostedProviderKind_sentinel :
    hostedProviderKindForBaseUrl T openaiSentinelBaseUrl = .ok (some .openai) := rfl

theorem chooseProvider_canonical (p : Provider) (hp : p ≠ .openai) :
    chooseProvider (some p.canonical) (p.canonical ≠ .openai) (p.canonical = .openai) =
      p.canonical := by
  cases p with
  | openai => exact absurd rfl hp
  | _ => rfl

theorem Accepted.passedUsable {cfg : IntegrationConfig} (h : Accepted T cfg)
    (hserved : cfg.llmEngine.any Engine.served = true) :
    cfg.llmProvider.canonical = .openai ∧ cfg.passedBaseUrl = some cfg.llmBaseUrl := by
  obtain ⟨hprovider, husable⟩ := h.usable hserved
  have hcanonical : cfg.llmProvider.canonical = .openai := by
    cases hp : cfg.llmProvider with
    | anthropic => exact absurd hp hprovider
    | _ => rfl
  have hsentinel : cfg.llmBaseUrl ≠ openaiSentinelBaseUrl := by
    intro hs
    have hhosted := (hosted_of_usable h.trimmed husable).2
    rw [hs, hostedProviderKind_sentinel] at hhosted
    cases hhosted
  exact ⟨hcanonical, by rw [IntegrationConfig.passedBaseUrl, if_pos hcanonical, if_pos hsentinel]⟩

theorem Accepted.loadPrimaryEngine {cfg : IntegrationConfig} (h : Accepted T cfg) :
    loadPrimaryEngine T cfg.llmProvider.canonical cfg.llmEngine cfg.settings.openaiBaseUrl =
      .ok cfg.llmEngine := by
  unfold Llm.loadPrimaryEngine
  split_ifs with hserved hprovider
  · rw [(h.passedUsable hserved).1] at hprovider
    cases hprovider
  · obtain ⟨hcanonical, hpassed⟩ := h.passedUsable hserved
    have husable := (h.usable hserved).2
    have hurl : cfg.settings.openaiBaseUrl = some cfg.llmBaseUrl := by
      simp [IntegrationConfig.settings, hcanonical, hpassed]
    have heffective : effectiveLlmEngine T cfg.llmProvider.canonical cfg.llmEngine cfg.llmBaseUrl =
        .ok cfg.llmEngine := effective_of_usable h.trimmed fun _ => husable
    have hsome : cfg.llmEngine.isNone = false := by
      cases he : cfg.llmEngine with
      | none => simp [he] at hserved
      | some e => rfl
    rw [hurl, Option.getD_some, Option.getD_some, heffective, husable]
    simp [bind, Except.bind, hsome]
  · rfl

theorem value_provider {p : Provider} (hp : p ≠ .openai) :
    (((some p.canonical.value).map fun v => lower (strip v)).filter (· ≠ "")).mapM
      Provider.ofValue = .ok (some p.canonical) := by
  cases p with
  | openai => exact absurd rfl hp
  | _ => rfl

theorem IntegrationConfig.eq_of_passedBaseUrl {cfg : IntegrationConfig} {url : String}
    (h : cfg.passedBaseUrl = some url) : url = cfg.llmBaseUrl := by
  unfold passedBaseUrl at h
  split_ifs at h <;> exact (Option.some.inj h).symm

theorem Accepted.optional_passed {cfg : IntegrationConfig} (h : Accepted T cfg) {env : Env}
    {name : String} (ht : env.text name = cfg.passedBaseUrl) :
    env.optional name = cfg.passedBaseUrl := by
  cases hp : cfg.passedBaseUrl with
  | none => exact Env.optional_none (ht.trans hp)
  | some url =>
    have hurl := IntegrationConfig.eq_of_passedBaseUrl hp
    refine Env.optional_trimmed (ht.trans hp) ?_ ?_
    · rw [hurl, h.trimmed]
    · rw [hurl]
      exact ne_empty_of_hasHttpScheme h.scheme

theorem Accepted.openaiBaseUrl {cfg : IntegrationConfig} (h : Accepted T cfg)
    (hosts : List String) (port : ℕ) (ports : List ℕ) :
    ((cfg.values hosts port ports).env.optional "OPENAI_BASE_URL").or
      ((cfg.values hosts port ports).env.optional "OPENAI_API_BASE") =
        cfg.settings.openaiBaseUrl := by
  have hpassed := h.passedBaseUrl hosts port ports
  by_cases hopenai : cfg.llmProvider.canonical = .openai
  · have hbase : (cfg.values hosts port ports).env.text "OPENAI_BASE_URL" = cfg.passedBaseUrl :=
      (if_pos hopenai).trans hpassed
    have halias : (cfg.values hosts port ports).env.text "OPENAI_API_BASE" = cfg.passedBaseUrl :=
      (if_pos hopenai).trans hpassed
    rw [h.optional_passed hbase, h.optional_passed halias, Option.or_self]
    exact (if_pos hopenai).symm
  · have hbase : (cfg.values hosts port ports).env.text "OPENAI_BASE_URL" = none :=
      if_neg hopenai
    have halias : (cfg.values hosts port ports).env.text "OPENAI_API_BASE" = none :=
      if_neg hopenai
    rw [Env.optional_none hbase, Env.optional_none halias]
    exact (if_neg hopenai).symm

theorem Accepted.anthropicBaseUrl {cfg : IntegrationConfig} (h : Accepted T cfg)
    (hosts : List String) (port : ℕ) (ports : List ℕ) :
    (cfg.values hosts port ports).env.optional "ANTHROPIC_BASE_URL" =
      cfg.settings.anthropicBaseUrl := by
  by_cases hopenai : cfg.llmProvider.canonical = .openai
  · have hbase : (cfg.values hosts port ports).env.text "ANTHROPIC_BASE_URL" = none :=
      if_pos hopenai
    rw [Env.optional_none hbase]
    exact (if_pos hopenai).symm
  · have hbase : (cfg.values hosts port ports).env.text "ANTHROPIC_BASE_URL" =
        cfg.passedBaseUrl := (if_neg hopenai).trans (h.passedBaseUrl hosts port ports)
    rw [h.optional_passed hbase]
    exact (if_neg hopenai).symm

theorem IntegrationConfig.fastModel_env (cfg : IntegrationConfig) (hosts : List String) (port : ℕ)
    (ports : List ℕ) (default : String) :
    ((cfg.values hosts port ports).env.text "SOCTALK_FAST_MODEL").getD default =
      cfg.settings.fastModel := by
  unfold IntegrationConfig.settings IntegrationConfig.values
  cases cfg.llmTiers.fast with
  | none => exact orDefault_orElse cfg.llmFastModel cfg.llmModel
  | some b => rfl

theorem IntegrationConfig.reasoningModel_env (cfg : IntegrationConfig) (hosts : List String)
    (port : ℕ) (ports : List ℕ) (default : String) :
    ((cfg.values hosts port ports).env.text "SOCTALK_REASONING_MODEL").getD default =
      cfg.settings.reasoningModel := by
  unfold IntegrationConfig.settings IntegrationConfig.values
  cases cfg.llmTiers.reasoning with
  | none => exact orDefault_orElse cfg.llmReasoningModel cfg.llmModel
  | some b => rfl

/-- The worker loads every configuration that the chart renders. -/
theorem Accepted.loadConfig {cfg : IntegrationConfig} (h : Accepted T cfg)
    (hosts : List String) (port : ℕ) (ports : List ℕ) :
    Llm.loadConfig T (cfg.values hosts port ports).env = .ok cfg.settings := by
  have hengine : ((cfg.values hosts port ports).env.optional "SOCTALK_LLM_ENGINE").mapM
      Engine.ofValue = .ok cfg.llmEngine := optional_engine rfl
  have hprovider : ((((cfg.values hosts port ports).env.text "SOCTALK_LLM_PROVIDER").map
      fun v => lower (strip v)).filter (· ≠ "")).mapM Provider.ofValue =
        .ok (some cfg.llmProvider.canonical) := value_provider h.provider
  have hanthropicKey : (cfg.values hosts port ports).env.secret "ANTHROPIC_API_KEY" =
      cfg.settings.anthropicApiKey := rfl
  have hopenaiKey : (cfg.values hosts port ports).env.secret "OPENAI_API_KEY" =
      cfg.settings.openaiApiKey := rfl
  have honeKey : (cfg.settings.anthropicApiKey && cfg.settings.openaiApiKey) = false := by
    simp [IntegrationConfig.settings]
  have hchoose : chooseProvider (some cfg.llmProvider.canonical) cfg.settings.anthropicApiKey
      cfg.settings.openaiApiKey = cfg.llmProvider.canonical :=
    chooseProvider_canonical cfg.llmProvider h.provider
  have hanthropic : (decide (cfg.llmProvider.canonical = .anthropic) &&
      !cfg.settings.anthropicApiKey) = false := by
    cases hp : cfg.llmProvider <;> simp [IntegrationConfig.settings, Provider.canonical, hp]
  have hopenai : (decide (cfg.llmProvider.canonical = .openai) &&
      !cfg.settings.openaiApiKey) = false := by
    simp [IntegrationConfig.settings]
  have hsampling := h.sampling
  simp only [samplingInBounds, Option.all_some, Bool.and_eq_true, decide_eq_true_eq] at hsampling
  have htemperature : boundedTemperature
      (((cfg.values hosts port ports).env.number "SOCTALK_LLM_TEMPERATURE").getD 0) =
        .ok cfg.llmTemperature := boundedTemperature_ok hsampling.1
  have hmaxTokens : boundedTokens
      (((cfg.values hosts port ports).env.number "SOCTALK_LLM_MAX_TOKENS").getD 4096) =
        .ok cfg.llmMaxTokens := boundedTokens_ok hsampling.2
  unfold Llm.loadConfig
  simp only [hprovider, hengine, h.loadTier_router, h.loadTier_reasoning, loadTier_other,
    h.openaiBaseUrl, h.anthropicBaseUrl, hanthropicKey, hopenaiKey, honeKey, hchoose,
    bind, Except.bind, Bool.false_and, Bool.and_assoc, hanthropic, hopenai, Bool.and_false,
    h.loadPrimaryEngine, htemperature, hmaxTokens, Bool.false_eq_true, if_false]
  rw [show ((cfg.values hosts port ports).env.text "SOCTALK_CHAT_MODEL").getD "" = "" from rfl,
    cfg.fastModel_env, cfg.reasoningModel_env]
  rfl

end SocTalk.Llm
