import SocTalk.Llm.Accepted

/-! What an accepted configuration is rendered to, and when it is rendered at all. -/
namespace SocTalk.Llm
open Py

variable {T : Url.Tables}

/-! ## Engines -/

theorem ne_empty_of_hasHttpScheme {url : String} (h : hasHttpScheme url = true) : url ≠ "" := by
  intro hurl
  rw [hurl] at h
  exact absurd h (by decide +kernel)

theorem hosted_of_usable {url : String} (htrim : strip url = url)
    (h : hasUsableServedBaseUrl T url = .ok true) :
    url ≠ "" ∧ hostedProviderKindForBaseUrl T url = .ok none := by
  unfold hasUsableServedBaseUrl at h
  simp only [htrim] at h
  split_ifs at h with hempty
  · cases h
  · obtain ⟨host, -, h⟩ := (bind_eq_ok _ _ _).mp h
    split_ifs at h
    · cases h
    · obtain ⟨hosted, hhosted, h⟩ := (bind_eq_ok _ _ _).mp h
      have hnone : hosted = none := by simpa using h
      exact ⟨hempty, hnone ▸ hhosted⟩

/-- A served engine at a usable endpoint is in effect. -/
theorem effective_of_usable {provider : Provider} {engine : Option Engine} {url : String}
    (htrim : strip url = url)
    (h : engine.any Engine.served = true → hasUsableServedBaseUrl T url = .ok true) :
    effectiveLlmEngine T provider engine url = .ok engine := by
  unfold effectiveLlmEngine
  split_ifs with hserved
  · simp only [Bool.and_eq_true] at hserved
    obtain ⟨-, hhosted⟩ := hosted_of_usable htrim (h hserved.1)
    rw [hhosted]
    rfl
  · rfl

theorem usable_of_checkPrimary {provider : Provider} {engine : Option Engine} {url : String}
    (htrim : strip url = url) (h : checkPrimaryLlmEngineConfig T provider engine url = .ok ())
    (hserved : engine.any Engine.served = true) :
    provider ≠ .anthropic ∧ hasUsableServedBaseUrl T url = .ok true := by
  obtain ⟨⟨⟩, hcombo, h⟩ := (bind_eq_ok _ _ _).mp h
  constructor
  · intro hp
    simp [checkEngineProviderCombo, hp, hserved] at hcombo
  · rw [if_pos hserved, htrim] at h
    obtain ⟨usable, husable, h⟩ := (bind_eq_ok _ _ _).mp h
    split_ifs at h with hu
    rw [husable, hu]

theorem AcceptedTier.usable {b : LLMTierConfig} (h : AcceptedTier T b)
    (hserved : b.engine.any Engine.served = true) :
    b.provider ≠ .anthropic ∧ hasUsableServedBaseUrl T b.baseUrl = .ok true := by
  have hcombo := h.combo
  unfold LLMTierConfig.checkCombo at hcombo
  split_ifs at hcombo with hscheme hprovider hmode hguided
  obtain ⟨usable, husable, hcombo⟩ := (bind_eq_ok _ _ _).mp hcombo
  split_ifs at hcombo with hu
  constructor
  · intro hp
    simp [hp, hserved] at hprovider
  · rw [husable, hu]

theorem Accepted.usable {cfg : IntegrationConfig} (h : Accepted T cfg)
    (hserved : cfg.llmEngine.any Engine.served = true) :
    cfg.llmProvider ≠ .anthropic ∧ hasUsableServedBaseUrl T cfg.llmBaseUrl = .ok true :=
  usable_of_checkPrimary h.trimmed h.primary hserved

theorem AcceptedTier.scheme {b : LLMTierConfig} (h : AcceptedTier T b) :
    hasHttpScheme b.baseUrl = true := by
  by_contra hscheme
  have hcombo := h.combo
  rw [LLMTierConfig.checkCombo, if_pos (by simp [hscheme])] at hcombo
  cases hcombo

/-! ## Rendering -/

def LLMTierConfig.values (b : LLMTierConfig) : TierValues :=
  { provider := b.provider.canonical, baseUrl := b.baseUrl, model := b.model
    engine := b.engine, decodingMode := b.decodingMode, temperature := b.temperature
    maxTokens := b.maxTokens, ownKey := b.apiKeyPlain.any (· ≠ "") }

def IntegrationConfig.values (cfg : IntegrationConfig) (hosts : List String) (port : ℕ)
    (ports : List ℕ) : Values :=
  { provider := cfg.llmProvider, baseUrl := cfg.llmBaseUrl, model := cfg.llmModel
    engine := cfg.llmEngine, temperature := cfg.llmTemperature, maxTokens := cfg.llmMaxTokens
    fast := cfg.llmTiers.fast.map LLMTierConfig.values
    reasoning := cfg.llmTiers.reasoning.map LLMTierConfig.values
    fastModel := orElse cfg.llmFastModel cfg.llmModel
    reasoningModel := orElse cfg.llmReasoningModel cfg.llmModel
    allowedLlmHosts := hosts, llmEgressPort := port, extraLlmEgressPorts := ports }

theorem normalizeLlmEngine_value (e : Engine) : normalizeLlmEngine e.value = .ok (some e) := by
  cases e <;> rfl

theorem AcceptedTier.renderable {b : LLMTierConfig} (h : AcceptedTier T b) :
    renderableTier T b = .ok b := by
  have heffective : effectiveLlmEngine T b.provider b.engine b.baseUrl = .ok b.engine :=
    effective_of_usable h.trimmed fun hserved => (h.usable hserved).2
  have hkept : (b.engine.any Engine.served && b.engine.isNone) = false := by
    cases b.engine with
    | none => rfl
    | some e => simp
  unfold renderableTier
  rw [heffective]
  simp only [bind, Except.bind, hkept, Bool.false_eq_true, if_false]

/-- A stored block passes the validation it passed before. -/
theorem AcceptedTier.validate_asBlock {b : LLMTierConfig} (h : AcceptedTier T b) :
    b.asBlock.validate T = .ok b := by
  have hengine : normalizeOptionalEngine (b.engine.map Engine.value) = .ok b.engine := by
    cases b.engine with
    | none => rfl
    | some e => exact normalizeLlmEngine_value e
  have hcombo := h.combo
  simp only [TierBlock.validate, LLMTierConfig.asBlock, h.provider, h.sampling, hengine, h.trimmed,
    decide_false, Bool.not_true, Bool.or_false, Bool.false_eq_true, if_false]
  rw [show (Except.ok b.engine >>= _ : M LLMTierConfig) = _ from rfl]
  simp only [bind, Except.bind, hcombo]

theorem AcceptedTier.renderTier {b : LLMTierConfig} (h : AcceptedTier T b) :
    renderTier T b = (do
      let u ← Url.urlsplit T b.baseUrl
      let port ← egressPort u
      .ok (b.values, port)) := by
  unfold Llm.renderTier
  rw [h.renderable]
  simp only [bind, Except.bind]
  rw [h.validate_asBlock]
  rfl

theorem returns_egressPort_iff (u : Url.SplitResult) : Returns (egressPort u) ↔ Returns u.port := by
  unfold egressPort
  rw [returns_bind_iff]
  constructor
  · rintro ⟨port, hport, -⟩
    exact ⟨port, hport⟩
  · rintro ⟨port, hport⟩
    exact ⟨port, hport, returns_ok _⟩

theorem AcceptedTier.returns_renderTier_iff {b : LLMTierConfig} (h : AcceptedTier T b) :
    Returns (Llm.renderTier T b) ↔ Url.Parses T b.baseUrl := by
  rw [h.renderTier, Url.parses_iff, returns_bind_iff]
  refine exists_congr fun u => and_congr_right fun _ => ?_
  rw [returns_bind_iff, ← returns_egressPort_iff]
  constructor
  · rintro ⟨port, hport, -⟩
    exact ⟨port, hport⟩
  · rintro ⟨port, hport⟩
    exact ⟨port, hport, returns_ok _⟩

theorem AcceptedTier.values_of_renderTier {b : LLMTierConfig} (h : AcceptedTier T b)
    {r : TierValues × ℕ} (hr : Llm.renderTier T b = .ok r) : r.1 = b.values := by
  rw [h.renderTier] at hr
  obtain ⟨u, -, hr⟩ := (bind_eq_ok _ _ _).mp hr
  obtain ⟨port, -, hr⟩ := (bind_eq_ok _ _ _).mp hr
  cases hr
  rfl

theorem returns_renderOptionalTier_iff {tier : Option LLMTierConfig}
    (h : ∀ b ∈ tier, AcceptedTier T b) :
    Returns (renderOptionalTier T tier) ↔ ∀ b ∈ tier, Url.Parses T b.baseUrl := by
  cases tier with
  | none => simp [renderOptionalTier]
  | some b =>
    have hb : AcceptedTier T b := h b rfl
    rw [renderOptionalTier, returns_bind_iff]
    simp only [Option.mem_some_iff, forall_eq']
    rw [← hb.returns_renderTier_iff]
    constructor
    · rintro ⟨r, hr, -⟩
      exact ⟨r, hr⟩
    · rintro ⟨r, hr⟩
      exact ⟨r, hr, returns_ok _⟩

theorem values_of_renderOptionalTier {tier : Option LLMTierConfig}
    (h : ∀ b ∈ tier, AcceptedTier T b) {r : Option (TierValues × ℕ)}
    (hr : renderOptionalTier T tier = .ok r) :
    r.map Prod.fst = tier.map LLMTierConfig.values := by
  cases tier with
  | none =>
    cases hr
    rfl
  | some b =>
    obtain ⟨rendered, hrendered, hr⟩ := (bind_eq_ok _ _ _).mp hr
    cases hr
    have hvalues := (h b rfl).values_of_renderTier hrendered
    simp [hvalues]

theorem Accepted.tier {cfg : IntegrationConfig} (h : Accepted T cfg) (tier : Tier) :
    ∀ b ∈ cfg.llmTiers.get tier, AcceptedTier T b :=
  fun b hb => h.tiers b (LlmTiers.mem_blocks.mpr ⟨tier, hb⟩)

theorem Accepted.effective {cfg : IntegrationConfig} (h : Accepted T cfg) :
    effectiveLlmEngine T cfg.llmProvider cfg.llmEngine cfg.llmBaseUrl = .ok cfg.llmEngine :=
  effective_of_usable h.trimmed fun hserved => (h.usable hserved).2

theorem Accepted.primaryLlmEngineForRender {cfg : IntegrationConfig} (h : Accepted T cfg) :
    primaryLlmEngineForRender T cfg = .ok cfg.llmEngine := by
  have hkept : (cfg.llmEngine.any Engine.served && cfg.llmEngine.isNone) = false := by
    cases cfg.llmEngine with
    | none => rfl
    | some e => simp
  unfold Llm.primaryLlmEngineForRender
  rw [h.effective]
  simp only [bind, Except.bind, hkept, Bool.false_eq_true, if_false, h.primary]

/-- The URLs of the primary and of the tiers can be parsed, and their ports. -/
def UrlsParse (T : Url.Tables) (cfg : IntegrationConfig) : Prop :=
  Url.Parses T cfg.llmBaseUrl ∧ ∀ b ∈ cfg.llmTiers.blocks, Url.Parses T b.baseUrl

theorem Accepted.returns_renderTenantValues_iff {cfg : IntegrationConfig} (h : Accepted T cfg) :
    Returns (renderTenantValues T cfg) ↔ UrlsParse T cfg := by
  have hblocks : (∀ b ∈ cfg.llmTiers.blocks, Url.Parses T b.baseUrl) ↔
      (∀ b ∈ cfg.llmTiers.fast, Url.Parses T b.baseUrl) ∧
        ∀ b ∈ cfg.llmTiers.reasoning, Url.Parses T b.baseUrl := by
    simp [LlmTiers.blocks, or_imp, forall_and]
  have hfastIff : Returns (renderOptionalTier T cfg.llmTiers.fast) ↔ _ :=
    returns_renderOptionalTier_iff (h.tier .fast)
  have hreasoningIff : Returns (renderOptionalTier T cfg.llmTiers.reasoning) ↔ _ :=
    returns_renderOptionalTier_iff (h.tier .reasoning)
  unfold UrlsParse
  rw [hblocks, Url.parses_iff, ← hfastIff, ← hreasoningIff, renderTenantValues, returns_bind_iff]
  constructor
  · rintro ⟨u, hu, hrest⟩
    obtain ⟨port, hport, hrest⟩ := (returns_bind_iff _ _).mp hrest
    obtain ⟨fast, hfast, hrest⟩ := (returns_bind_iff _ _).mp hrest
    obtain ⟨reasoning, hreasoning, -⟩ := (returns_bind_iff _ _).mp hrest
    exact ⟨⟨u, hu, (returns_egressPort_iff u).mp ⟨port, hport⟩⟩, ⟨fast, hfast⟩,
      ⟨reasoning, hreasoning⟩⟩
  · rintro ⟨⟨u, hu, hport⟩, ⟨fast, hfast⟩, ⟨reasoning, hreasoning⟩⟩
    obtain ⟨port, hport⟩ := (returns_egressPort_iff u).mpr hport
    refine ⟨u, hu, (returns_bind_iff _ _).mpr ⟨port, hport, ?_⟩⟩
    refine (returns_bind_iff _ _).mpr ⟨fast, hfast, ?_⟩
    refine (returns_bind_iff _ _).mpr ⟨reasoning, hreasoning, ?_⟩
    exact (returns_bind_iff _ _).mpr ⟨_, h.primaryLlmEngineForRender, returns_ok _⟩

theorem Accepted.values_of_render {cfg : IntegrationConfig} (h : Accepted T cfg) {v : Values}
    (hv : renderTenantValues T cfg = .ok v) :
    ∃ hosts port ports, v = cfg.values hosts port ports := by
  unfold renderTenantValues at hv
  obtain ⟨u, -, hv⟩ := (bind_eq_ok _ _ _).mp hv
  obtain ⟨port, -, hv⟩ := (bind_eq_ok _ _ _).mp hv
  obtain ⟨fast, hfast, hv⟩ := (bind_eq_ok _ _ _).mp hv
  obtain ⟨reasoning, hreasoning, hv⟩ := (bind_eq_ok _ _ _).mp hv
  obtain ⟨engine, hengine, hv⟩ := (bind_eq_ok _ _ _).mp hv
  cases h.primaryLlmEngineForRender.symm.trans hengine
  cases hv
  have hf := values_of_renderOptionalTier (h.tier .fast) hfast
  have hr := values_of_renderOptionalTier (h.tier .reasoning) hreasoning
  simp only [LlmTiers.get] at hf hr
  exact ⟨u.hostname.toList, port, _, by simp only [IntegrationConfig.values, hf, hr]; rfl⟩

end SocTalk.Llm
