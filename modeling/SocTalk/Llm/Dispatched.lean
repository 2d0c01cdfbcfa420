import SocTalk.Llm.Settings

/-! An accepted configuration runs exactly where the chart admits it and every tier asks its own
client for a mode that the client has. -/
namespace SocTalk.Llm
open Py

variable {T : Url.Tables}

/-! ## Resolving -/

@[simp] theorem IntegrationConfig.settings_provider (cfg : IntegrationConfig) :
    cfg.settings.provider = cfg.llmProvider.canonical := rfl

@[simp] theorem IntegrationConfig.settings_engine (cfg : IntegrationConfig) :
    cfg.settings.engine = cfg.llmEngine := rfl

/-- The primary's engine is in effect at the endpoint that the worker was given. -/
theorem Accepted.effective_settings {cfg : IntegrationConfig} (h : Accepted T cfg) :
    effectiveLlmEngine T cfg.llmProvider.canonical cfg.llmEngine
      (cfg.settings.engineBaseUrl cfg.llmProvider.canonical none) = .ok cfg.llmEngine := by
  by_cases hserved : cfg.llmEngine.any Engine.served = true
  · obtain ⟨hcanonical, hpassed⟩ := h.passedUsable hserved
    have hurl : cfg.settings.engineBaseUrl cfg.llmProvider.canonical none = cfg.llmBaseUrl := by
      simp [LLMConfig.engineBaseUrl, IntegrationConfig.settings, hcanonical, hpassed]
    rw [hurl]
    exact effective_of_usable h.trimmed fun _ => (h.usable hserved).2
  · unfold effectiveLlmEngine
    rw [if_neg]
    simp [hserved]

theorem Accepted.served_provider {cfg : IntegrationConfig} (h : Accepted T cfg)
    (hserved : (cfg.llmEngine.getD .frontier).served = true) :
    cfg.llmProvider.canonical = .openai := by
  cases he : cfg.llmEngine with
  | none => simp [he, Engine.served] at hserved
  | some e =>
    have hany : cfg.llmEngine.any Engine.served = true := by simpa [he] using hserved
    exact (h.passedUsable hany).1

/-- A tier without a block is served by the primary. -/
theorem Accepted.resolveTier_primary {cfg : IntegrationConfig} (h : Accepted T cfg)
    {tier : InferenceTier} (hnone : cfg.settings.tier tier = none) :
    resolveTier T cfg.settings tier none = .ok
      { provider := cfg.llmProvider.canonical, engine := cfg.llmEngine.getD .frontier
        model := legacyModelForTier cfg.settings tier, decodingMode := .auto
        llmConfig := scopedConfig cfg.settings cfg.llmProvider.canonical none false } := by
  have hprovider : providerFor none (cfg.llmEngine.getD .frontier) cfg.llmProvider.canonical =
      cfg.llmProvider.canonical := by
    unfold providerFor
    split_ifs with hserved
    · exact (h.served_provider hserved).symm
    · rfl
  unfold resolveTier
  simp only [hnone, Option.getD_none, Option.none_or, IntegrationConfig.settings_provider,
    IntegrationConfig.settings_engine, h.effective_settings, bind, Except.bind, hprovider, orElse]

/-- The engine that a tier runs on: its own, or the primary's where the tier's host allows it. -/
def LLMTierConfig.engineUnder (b : LLMTierConfig) (primary : Option Engine)
    (hosted : Option ProviderKind) : Option Engine :=
  match b.engine with
  | some e => some e
  | none =>
    if primary.any Engine.served && b.provider ≠ .anthropic && hosted.isSome then none else primary

theorem hosted_of_parses {url : String} (h : Url.Parses T url) :
    ∃ hosted, hostedProviderKindForBaseUrl T url = .ok hosted := by
  obtain ⟨u, hu, -⟩ := Url.parses_iff.mp h
  rw [hostedProviderKindForBaseUrl, authorityHostForBaseUrl, Url.hostname, hu]
  exact ⟨_, rfl⟩

theorem Provider.canonical_eq_anthropic {p : Provider} :
    p.canonical = .anthropic ↔ p = .anthropic := by
  cases p <;> simp [Provider.canonical]

theorem Provider.canonical_of_ne {p : Provider} (h : p.canonical ≠ .anthropic) :
    p.canonical = .openai := by
  cases p with
  | anthropic => exact absurd rfl h
  | _ => rfl

theorem AcceptedTier.effective_or {b : LLMTierConfig} (h : AcceptedTier T b)
    (primary : Option Engine) {hosted : Option ProviderKind}
    (hhosted : hostedProviderKindForBaseUrl T b.baseUrl = .ok hosted) :
    effectiveLlmEngine T b.provider.canonical (b.engine.or primary) b.baseUrl =
      .ok (b.engineUnder primary hosted) := by
  unfold LLMTierConfig.engineUnder
  cases he : b.engine with
  | some e =>
    refine effective_of_usable h.trimmed fun hserved => (h.usable ?_).2
    rw [he]
    exact hserved
  | none =>
    simp only [Option.none_or, effectiveLlmEngine, ne_eq, Provider.canonical_eq_anthropic, hhosted]
    by_cases hinert : (primary.any Engine.served && b.provider ≠ .anthropic) = true
    · rw [if_pos hinert]
      simp only [hinert, Bool.true_and]
      rfl
    · have hkept : (primary.any Engine.served && b.provider ≠ .anthropic) = false := by
        simpa using hinert
      rw [if_neg hinert, hkept]
      rfl

theorem Accepted.resolveTier_block {cfg : IntegrationConfig} (h : Accepted T cfg)
    {b : LLMTierConfig} (hb : AcceptedTier T b) {hosted : Option ProviderKind}
    (hhosted : hostedProviderKindForBaseUrl T b.baseUrl = .ok hosted)
    {tier : InferenceTier} (hsome : cfg.settings.tier tier = some b.entry) :
    resolveTier T cfg.settings tier none = .ok
      { provider := b.provider.canonical
        engine := (b.engineUnder cfg.llmEngine hosted).getD .frontier
        model := b.entry.model.getD (legacyModelForTier cfg.settings tier)
        decodingMode := b.decodingMode.getD .auto
        llmConfig := scopedConfig cfg.settings b.provider.canonical (some b.baseUrl)
          (b.apiKeyPlain.any (· ≠ "")) } := by
  have hbase : cfg.settings.engineBaseUrl b.provider.canonical (some b.baseUrl) = b.baseUrl := by
    simp [LLMConfig.engineBaseUrl]
  unfold resolveTier
  simp only [hsome, Option.getD_some, LLMTierConfig.entry, IntegrationConfig.settings_provider,
    IntegrationConfig.settings_engine, h.effective_settings, bind, Except.bind, hbase,
    hb.effective_or cfg.llmEngine hhosted, providerFor, orElse]

/-! ## Requests -/

theorem createChatModel_scoped {cfg : LLMConfig} {provider : Provider} {url : Option String}
    {key : Bool} (hanthropic : provider = .anthropic → key = true ∨ cfg.anthropicApiKey = true)
    (hopenai : provider ≠ .anthropic → key = true ∨ cfg.openaiApiKey = true) :
    createChatModel (scopedConfig cfg provider url key) = .ok () := by
  by_cases hp : provider = .anthropic
  · have hkey : (key || cfg.anthropicApiKey) = true := by simpa using hanthropic hp
    simp [createChatModel, scopedConfig, hp, hkey]
  · have hkey : (key || cfg.openaiApiKey) = true := by simpa using hopenai hp
    simp [createChatModel, scopedConfig, hp, hkey]

theorem returns_dispatch_iff {r : ResolvedModel} (hmodel : createChatModel r.llmConfig = .ok ())
    (mode : DecodingMode) :
    Returns (dispatch r mode) ↔
      (mode.guided = true → r.provider = .openai ∧ r.engine.selfHosted = true ∧ mode = .guidedJson) ∧
        ¬(mode = .jsonObject ∧ r.provider = .anthropic) := by
  unfold dispatch
  by_cases hguided : mode.guided = true
  · have hmode : mode ≠ .jsonObject := by
      rintro rfl
      cases hguided
    rw [if_pos hguided]
    split_ifs with hprovider
    · simp [hguided, hprovider]
    · have hp : r.provider = .openai := by simpa using hprovider
      rw [returns_bind_iff, hmodel, guidedRequestKwargs]
      simp [hguided, hmode, hp]
  · rw [if_neg hguided, returns_bind_iff, hmodel]
    by_cases hjson : mode = .jsonObject ∧ r.provider = .anthropic
    · simp [hjson]
    · simp [hjson, hguided]

theorem returns_structuredRequest_iff {cfg : LLMConfig} {tier : InferenceTier} {r : ResolvedModel}
    (hr : resolveTier T cfg tier none = .ok r) :
    Returns (structuredRequest T cfg tier) ↔
      ∃ mode, resolveDecodingMode r.decodingMode r.engine r.provider true false = .ok mode ∧
        Returns (dispatch r mode) := by
  rw [structuredRequest, hr]
  show Returns (resolveDecodingMode r.decodingMode r.engine r.provider true false >>= dispatch r) ↔ _
  rw [returns_bind_iff]

/-- Left to itself, a tier fails where a self-hosted engine is behind another client. -/
theorem returns_auto_iff {cfg : LLMConfig} {tier : InferenceTier} {r : ResolvedModel}
    (hr : resolveTier T cfg tier none = .ok r) (hmodel : createChatModel r.llmConfig = .ok ())
    (hauto : r.decodingMode = .auto) :
    Returns (structuredRequest T cfg tier) ↔ (r.engine.selfHosted = true → r.provider = .openai) := by
  rw [returns_structuredRequest_iff hr, hauto]
  by_cases hself : r.engine.selfHosted = true
  · have hmode : resolveDecodingMode .auto r.engine r.provider true false = .ok .guidedJson := by
      simp [resolveDecodingMode, hself]
    simp [hmode, returns_dispatch_iff hmodel, hself, DecodingMode.guided]
  · have hmode : resolveDecodingMode .auto r.engine r.provider true false =
        .ok (if r.provider = .anthropic then .toolUse else .jsonSchemaStrict) := by
      simp only [resolveDecodingMode, hself]
      split_ifs <;> simp_all
    rw [hmode]
    split_ifs <;> simp [returns_dispatch_iff hmodel, hself, DecodingMode.guided]

theorem returns_explicit_iff {cfg : LLMConfig} {tier : InferenceTier} {r : ResolvedModel}
    (hr : resolveTier T cfg tier none = .ok r) (hmodel : createChatModel r.llmConfig = .ok ())
    (hexplicit : r.decodingMode ≠ .auto) :
    Returns (structuredRequest T cfg tier) ↔
      (r.decodingMode.guided = true → r.provider = .openai ∧ r.engine.selfHosted = true ∧
        r.decodingMode = .guidedJson) ∧
        ¬(r.decodingMode = .jsonObject ∧ r.provider = .anthropic) := by
  rw [returns_structuredRequest_iff hr]
  by_cases hfrontier : r.decodingMode.guided = true ∧ r.engine = .frontier
  · have hmode : resolveDecodingMode r.decodingMode r.engine r.provider true false =
        .error .valueError := by
      simp [resolveDecodingMode, hexplicit, hfrontier]
    rw [hmode]
    simp [hfrontier, Engine.selfHosted]
  by_cases hstrict : r.decodingMode = .jsonSchemaStrict ∧ r.provider = .anthropic
  · have hmode : resolveDecodingMode r.decodingMode r.engine r.provider true false =
        .ok .toolUse := by
      simp [resolveDecodingMode, hstrict, DecodingMode.guided]
    rw [hmode]
    simp [hstrict, returns_dispatch_iff hmodel, DecodingMode.guided]
  · have hmode : resolveDecodingMode r.decodingMode r.engine r.provider true false =
        .ok r.decodingMode := by
      simp [resolveDecodingMode, hexplicit, hfrontier, hstrict]
    rw [hmode]
    simp [returns_dispatch_iff hmodel]

/-- A primary request never fails before the call. -/
theorem Accepted.structuredRequest_primary {cfg : IntegrationConfig} (h : Accepted T cfg)
    {tier : InferenceTier} (hnone : cfg.settings.tier tier = none) :
    Returns (structuredRequest T cfg.settings tier) := by
  have hr := h.resolveTier_primary hnone
  refine (returns_auto_iff hr ?_ rfl).mpr ?_
  · refine createChatModel_scoped (fun hp => Or.inr ?_) (fun hp => Or.inr ?_)
    · simp [IntegrationConfig.settings, hp]
    · simp [IntegrationConfig.settings, Provider.canonical_of_ne hp]
  · intro hself
    refine h.served_provider ?_
    cases he : cfg.llmEngine.getD .frontier <;> simp [he, Engine.selfHosted, Engine.served] at hself ⊢

/-- The tier asks its client for a mode that the client has. -/
def LLMTierConfig.Supported (b : LLMTierConfig) (primary : Option Engine) : Prop :=
  b.decodingMode ≠ some .guidedGrammar ∧
    ¬(b.provider = .anthropic ∧ b.engine = none ∧ primary.any Engine.selfHosted = true ∧
      b.decodingMode.getD .auto = .auto)

theorem AcceptedTier.not_jsonObject {b : LLMTierConfig} (h : AcceptedTier T b)
    (hp : b.provider = .anthropic) : b.decodingMode ≠ some .jsonObject := by
  intro hmode
  have hcombo := h.combo
  simp [LLMTierConfig.checkCombo, hp, hmode, h.scheme] at hcombo

theorem AcceptedTier.selfHosted {b : LLMTierConfig} (h : AcceptedTier T b)
    (hguided : b.decodingMode.any DecodingMode.guided = true) :
    ∃ e, b.engine = some e ∧ e.selfHosted = true := by
  have hcombo := h.combo
  unfold LLMTierConfig.checkCombo at hcombo
  have hself : b.engine.any Engine.selfHosted = true := by
    by_contra hnone
    simp only [hguided, Bool.eq_false_iff.mpr hnone, Bool.not_false, Bool.and_self, if_true] at hcombo
    split_ifs at hcombo
  cases he : b.engine with
  | none => simp [he] at hself
  | some e => exact ⟨e, rfl, by simpa [he] using hself⟩

theorem Engine.served_of_selfHosted {e : Engine} (h : e.selfHosted = true) : e.served = true := by
  cases e with
  | vllm | sglang => rfl
  | frontier | openaiCompatible => cases h

theorem AcceptedTier.not_anthropic {b : LLMTierConfig} (h : AcceptedTier T b) {e : Engine}
    (he : b.engine = some e) (hself : e.selfHosted = true) : b.provider ≠ .anthropic := by
  refine (h.usable ?_).1
  simp [he, Engine.served_of_selfHosted hself]

/-- A tier has a key: its own, or the primary's where the provider is the same. -/
theorem Accepted.key {cfg : IntegrationConfig} (h : Accepted T cfg) {b : LLMTierConfig}
    (hb : b ∈ cfg.llmTiers.blocks) :
    b.apiKeyPlain.any (· ≠ "") = true ∨ b.provider.canonical = cfg.llmProvider.canonical := by
  have hnone := List.filter_eq_nil_iff.mp h.keys b hb
  by_cases hsame : b.provider.canonical = cfg.llmProvider.canonical
  · exact Or.inr hsame
  · exact Or.inl (by simpa [hsame] using hnone)

theorem Accepted.createChatModel_block {cfg : IntegrationConfig} (h : Accepted T cfg)
    {b : LLMTierConfig} (hb : b ∈ cfg.llmTiers.blocks) :
    createChatModel (scopedConfig cfg.settings b.provider.canonical (some b.baseUrl)
      (b.apiKeyPlain.any (· ≠ ""))) = .ok () := by
  refine createChatModel_scoped (fun hp => ?_) (fun hp => ?_)
  · refine (h.key hb).imp_right fun hsame => ?_
    simp [IntegrationConfig.settings, ← hsame, hp]
  · refine (h.key hb).imp_right fun hsame => ?_
    simp [IntegrationConfig.settings, ← hsame, Provider.canonical_of_ne hp]

theorem Accepted.structuredRequest_block {cfg : IntegrationConfig} (h : Accepted T cfg)
    {b : LLMTierConfig} (hb : b ∈ cfg.llmTiers.blocks) (hparses : Url.Parses T b.baseUrl)
    {tier : InferenceTier} (hsome : cfg.settings.tier tier = some b.entry) :
    Returns (structuredRequest T cfg.settings tier) ↔ b.Supported cfg.llmEngine := by
  have hblock := h.tiers b hb
  obtain ⟨hosted, hhosted⟩ := hosted_of_parses hparses
  have hr := h.resolveTier_block hblock hhosted hsome
  have hmodel := h.createChatModel_block hb
  by_cases hauto : b.decodingMode.getD .auto = .auto
  · rw [returns_auto_iff hr hmodel hauto]
    have hmode : b.decodingMode ≠ some .guidedGrammar := by
      intro hmode
      simp [hmode] at hauto
    by_cases hp : b.provider = .anthropic
    · have hanthropic : b.provider.canonical = .anthropic :=
        Provider.canonical_eq_anthropic.mpr hp
      cases he : b.engine with
      | none =>
        have hengine : ((b.engineUnder cfg.llmEngine hosted).getD .frontier).selfHosted =
            cfg.llmEngine.any Engine.selfHosted := by
          simp only [LLMTierConfig.engineUnder, he, hp]
          cases cfg.llmEngine <;> simp [Engine.selfHosted]
        simp [LLMTierConfig.Supported, hmode, hp, he, hauto, hengine, Provider.canonical]
      | some e =>
        have hself : e.selfHosted = false := by
          by_contra hself
          exact hblock.not_anthropic he (by simpa using hself) hp
        simp [LLMTierConfig.Supported, LLMTierConfig.engineUnder, hmode, he, hself]
    · have hopenai : b.provider.canonical = .openai :=
        Provider.canonical_of_ne fun hc => hp (Provider.canonical_eq_anthropic.mp hc)
      simp [LLMTierConfig.Supported, hmode, hp, hopenai]
  · rw [returns_explicit_iff hr hmodel hauto]
    obtain ⟨mode, hmode⟩ : ∃ mode, b.decodingMode = some mode := by
      cases hm : b.decodingMode with
      | none => exact absurd (by rw [hm]; rfl) hauto
      | some mode => exact ⟨mode, rfl⟩
    have hget : b.decodingMode.getD .auto = mode := by rw [hmode]; rfl
    have hjson : ¬(mode = .jsonObject ∧ b.provider.canonical = .anthropic) := by
      rintro ⟨hm, hp⟩
      exact hblock.not_jsonObject (Provider.canonical_eq_anthropic.mp hp) (by rw [hmode, hm])
    simp only [hget, hjson, not_false_eq_true, and_true]
    constructor
    · intro hsupported
      constructor
      · intro hgrammar
        cases hmode.symm.trans hgrammar
        cases (hsupported rfl).2.2
      · rintro ⟨-, -, -, hm⟩
        exact hauto hm
    · rintro ⟨hgrammar, -⟩ hguided
      obtain ⟨e, he, hself⟩ := hblock.selfHosted (by rw [hmode]; exact hguided)
      have hp := hblock.not_anthropic he hself
      refine ⟨Provider.canonical_of_ne fun hc => hp (Provider.canonical_eq_anthropic.mp hc), ?_, ?_⟩
      · simpa [LLMTierConfig.engineUnder, he] using hself
      · cases mode with
        | guidedJson => rfl
        | guidedGrammar => exact absurd hmode hgrammar
        | _ => cases hguided

/-! ## From the row to the request -/

/-- The worker that the chart makes of the configuration starts, and in no tier does a structured
request fail before the call. -/
def Runs (T : Url.Tables) (helm : Helm) (cfg : IntegrationConfig) : Prop :=
  ∃ c, workerConfig T helm cfg = .ok c ∧ ∀ tier, Returns (structuredRequest T c tier)

/-- What the schema of the chart asks and the update does not check. -/
def Helm.Admits (helm : Helm) (baseUrl model : String) (engine : Option Engine) : Prop :=
  helm.isUri baseUrl = true ∧ model ≠ "" ∧
    ¬(engine.any Engine.served = true ∧ helm.isHostedServed baseUrl = true)

structure Fits (T : Url.Tables) (helm : Helm) (cfg : IntegrationConfig) : Prop where
  urls : UrlsParse T cfg
  primary : helm.Admits cfg.llmBaseUrl cfg.llmModel cfg.llmEngine
  tiers : ∀ b ∈ cfg.llmTiers.blocks,
    helm.Admits b.baseUrl b.model b.engine ∧ b.Supported cfg.llmEngine

theorem allowsBackend_iff {helm : Helm} {provider : Provider} {baseUrl model : String}
    {engine : Option Engine}
    (hcombo : ¬(provider = .anthropic ∧ engine.any Engine.served = true)) :
    helm.allowsBackend provider baseUrl model engine = true ↔ helm.Admits baseUrl model engine := by
  have hclient : (decide (provider = .anthropic) && engine.any Engine.served) = false := by
    simpa using hcombo
  simp [Helm.allowsBackend, Helm.Admits, hclient, and_assoc, imp_iff_not_or]

theorem AcceptedTier.allowsTier_iff {helm : Helm} {b : LLMTierConfig} (h : AcceptedTier T b) :
    helm.allowsTier b.values = true ↔ helm.Admits b.baseUrl b.model b.engine := by
  have hcombo : ¬(b.provider.canonical = .anthropic ∧ b.engine.any Engine.served = true) := by
    rintro ⟨hp, hserved⟩
    exact (h.usable hserved).1 (Provider.canonical_eq_anthropic.mp hp)
  have hclient : b.provider.canonical ≠ .openaiCompatible := by cases b.provider <;> decide
  simp [Helm.allowsTier, LLMTierConfig.values, allowsBackend_iff hcombo, hclient, h.sampling]

theorem Accepted.allows_iff {helm : Helm} {cfg : IntegrationConfig} (h : Accepted T cfg)
    (hosts : List String) (port : ℕ) (ports : List ℕ) :
    helm.allows (cfg.values hosts port ports) = true ↔
      helm.Admits cfg.llmBaseUrl cfg.llmModel cfg.llmEngine ∧
        ∀ b ∈ cfg.llmTiers.blocks, helm.Admits b.baseUrl b.model b.engine := by
  have hcombo : ¬(cfg.llmProvider = .anthropic ∧ cfg.llmEngine.any Engine.served = true) := by
    rintro ⟨hp, hserved⟩
    exact (h.usable hserved).1 hp
  have htier (tier : Tier) : ((cfg.llmTiers.get tier).map LLMTierConfig.values).all
      helm.allowsTier = true ↔
        ∀ b ∈ cfg.llmTiers.get tier, helm.Admits b.baseUrl b.model b.engine := by
    cases hb : cfg.llmTiers.get tier with
    | none => simp
    | some b => simp [(h.tier tier b hb).allowsTier_iff]
  have hfast := htier .fast
  have hreasoning := htier .reasoning
  simp only [LlmTiers.get] at hfast hreasoning
  simp only [Helm.allows, IntegrationConfig.values, allowsBackend_iff hcombo, h.sampling, hfast,
    hreasoning, h.provider, Bool.and_eq_true, ne_eq, not_false_eq_true, decide_true, and_true,
    LlmTiers.blocks, List.mem_append, Option.mem_toList, or_imp, forall_and, and_assoc,
    Option.mem_def]

theorem Accepted.workerConfig_iff {helm : Helm} {cfg : IntegrationConfig} (h : Accepted T cfg)
    {c : LLMConfig} :
    workerConfig T helm cfg = .ok c ↔ c = cfg.settings ∧ UrlsParse T cfg ∧
      helm.Admits cfg.llmBaseUrl cfg.llmModel cfg.llmEngine ∧
        ∀ b ∈ cfg.llmTiers.blocks, helm.Admits b.baseUrl b.model b.engine := by
  rw [← h.returns_renderTenantValues_iff]
  constructor
  · intro hc
    obtain ⟨v, hv, hc⟩ := (bind_eq_ok _ _ _).mp hc
    obtain ⟨hosts, port, ports, rfl⟩ := h.values_of_render hv
    obtain ⟨env, henv, hc⟩ := (bind_eq_ok _ _ _).mp hc
    unfold workerEnv at henv
    split_ifs at henv with hallows
    cases henv
    cases (h.loadConfig hosts port ports).symm.trans hc
    exact ⟨rfl, ⟨_, hv⟩, (h.allows_iff hosts port ports).mp hallows⟩
  · rintro ⟨rfl, ⟨v, hv⟩, hadmits⟩
    obtain ⟨hosts, port, ports, rfl⟩ := h.values_of_render hv
    have hallows := (h.allows_iff hosts port ports).mpr hadmits
    refine (bind_eq_ok _ _ _).mpr ⟨_, hv, ?_⟩
    refine (bind_eq_ok _ _ _).mpr ⟨(cfg.values hosts port ports).env, ?_, ?_⟩
    · rw [workerEnv, if_pos hallows]
      rfl
    · exact h.loadConfig hosts port ports

theorem IntegrationConfig.settings_tier (cfg : IntegrationConfig) (tier : InferenceTier) :
    cfg.settings.tier tier = none ∨
      ∃ b ∈ cfg.llmTiers.blocks, cfg.settings.tier tier = some b.entry := by
  have hconfigured (t : Tier) (htier : cfg.settings.tier tier =
      (cfg.llmTiers.get t).map LLMTierConfig.entry) : cfg.settings.tier tier = none ∨
        ∃ b ∈ cfg.llmTiers.blocks, cfg.settings.tier tier = some b.entry := by
    cases hb : cfg.llmTiers.get t with
    | none => exact Or.inl (by rw [htier, hb]; rfl)
    | some b =>
      exact Or.inr ⟨b, LlmTiers.mem_blocks.mpr ⟨t, hb⟩, by rw [htier, hb]; rfl⟩
  cases tier with
  | router => exact hconfigured .fast rfl
  | reasoning => exact hconfigured .reasoning rfl
  | chat | extraction => exact Or.inl rfl

/-- The worker's tier that a configured one is for. -/
def Tier.inference : Tier → InferenceTier
  | .fast => .router
  | .reasoning => .reasoning

theorem IntegrationConfig.settings_inference {cfg : IntegrationConfig} {tier : Tier}
    {b : LLMTierConfig} (h : cfg.llmTiers.get tier = some b) :
    cfg.settings.tier tier.inference = some b.entry := by
  have hmap : cfg.settings.tier tier.inference = (cfg.llmTiers.get tier).map LLMTierConfig.entry := by
    cases tier <;> rfl
  rw [hmap, h]
  rfl

/-- An accepted configuration runs exactly where it fits. -/
theorem runs_iff {helm : Helm} {cfg : IntegrationConfig} (h : Reachable T cfg) :
    Runs T helm cfg ↔ Fits T helm cfg := by
  have ha := h.accepted
  constructor
  · rintro ⟨c, hc, hrequests⟩
    obtain ⟨rfl, hurls, hprimary, htiers⟩ := ha.workerConfig_iff.mp hc
    refine ⟨hurls, hprimary, fun b hb => ⟨htiers b hb, ?_⟩⟩
    obtain ⟨tier, htier⟩ := LlmTiers.mem_blocks.mp hb
    exact (ha.structuredRequest_block hb (hurls.2 b hb)
      (IntegrationConfig.settings_inference htier)).mp (hrequests tier.inference)
  · rintro ⟨hurls, hprimary, htiers⟩
    refine ⟨cfg.settings, ha.workerConfig_iff.mpr
      ⟨rfl, hurls, hprimary, fun b hb => (htiers b hb).1⟩, fun tier => ?_⟩
    rcases cfg.settings_tier tier with hnone | ⟨b, hb, hsome⟩
    · exact ha.structuredRequest_primary hnone
    · exact (ha.structuredRequest_block hb (hurls.2 b hb) hsome).mpr (htiers b hb).2

/-! ### A served primary with an Anthropic tier -/

/-- Helm's validator on plain URLs. -/
def plainHelm : Helm := ⟨hasHttpScheme, fun url => url = openaiSentinelBaseUrl⟩

def ungated : PriceGate := ⟨false, fun _ => false⟩

def servedUpdate : LlmConfigUpdate :=
  { baseUrl := some "https://llm.example/v1", model := some "qwen3", engine := some "vllm"
    apiKey := some "key" }

def servedConfig : IntegrationConfig :=
  { llmBaseUrl := "https://llm.example/v1", llmModel := "qwen3", llmEngine := some .vllm
    llmApiKeyPlain := some "key" }

theorem reachable_served : Reachable asciiTables servedConfig :=
  .updated ungated servedUpdate .created rfl

theorem runs_served : Runs asciiTables plainHelm servedConfig := by
  refine (runs_iff reachable_served).mpr ⟨⟨by decide +kernel, ?_⟩, ?_, ?_⟩
  · simp [servedConfig, LlmTiers.blocks]
  · simp only [Helm.Admits]
    decide +kernel
  · simp [servedConfig, LlmTiers.blocks]

def claudeBlock : TierBlock :=
  { provider := some .anthropic, baseUrl := some anthropicDefaultBaseUrl
    model := some "claude-sonnet-4-6", apiKeyPlain := some "key" }

def claudeTier : LLMTierConfig :=
  { provider := .anthropic, baseUrl := anthropicDefaultBaseUrl, model := "claude-sonnet-4-6"
    apiKeyPlain := some "key" }

/-- The served primary with a Claude tier that names no engine. -/
def claudeTierConfig : IntegrationConfig :=
  { servedConfig with llmTiers := { fast := some claudeTier } }

theorem reachable_claudeTier : Reachable asciiTables claudeTierConfig :=
  .updated ungated { tiers := some [("fast", claudeBlock)] } reachable_served rfl

/-- The tier takes the primary's engine, and its client has no guided decoding. -/
theorem not_runs_claudeTier :
    Reachable asciiTables claudeTierConfig ∧ ¬Runs asciiTables plainHelm claudeTierConfig := by
  refine ⟨reachable_claudeTier, ?_⟩
  rintro ⟨c, hc, hrequests⟩
  have ha := reachable_claudeTier.accepted
  obtain ⟨rfl, hurls, -⟩ := ha.workerConfig_iff.mp hc
  have hmem : claudeTier ∈ claudeTierConfig.llmTiers.blocks := List.mem_singleton_self _
  have hsome : claudeTierConfig.settings.tier .router = some claudeTier.entry := rfl
  have hsupported :=
    (ha.structuredRequest_block hmem (hurls.2 _ hmem) hsome).mp (hrequests .router)
  exact hsupported.2 ⟨rfl, rfl, rfl, rfl⟩

end SocTalk.Llm
