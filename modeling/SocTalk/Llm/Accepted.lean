import SocTalk.Llm.Worker

/-! What every configuration that accepted updates lead to keeps. -/
namespace SocTalk.Llm
open Py

variable {T : Url.Tables}

structure AcceptedTier (T : Url.Tables) (b : LLMTierConfig) : Prop where
  provider : b.provider ≠ .openai
  trimmed : strip b.baseUrl = b.baseUrl
  combo : b.checkCombo T = .ok ()
  sampling : samplingInBounds b.temperature b.maxTokens = true

structure Accepted (T : Url.Tables) (cfg : IntegrationConfig) : Prop where
  provider : cfg.llmProvider ≠ .openai
  trimmed : strip cfg.llmBaseUrl = cfg.llmBaseUrl
  scheme : hasHttpScheme cfg.llmBaseUrl = true
  primary : checkPrimaryLlmEngineConfig T cfg.llmProvider cfg.llmEngine cfg.llmBaseUrl = .ok ()
  tiers : ∀ b ∈ cfg.llmTiers.blocks, AcceptedTier T b
  keys : crossProviderTiersWithoutKey cfg.llmProvider cfg.llmTiers = []
  sampling : samplingInBounds (some cfg.llmTemperature) (some cfg.llmMaxTokens) = true

/-! ## Tier blocks -/

theorem acceptedTier_of_validate {b : TierBlock} {block : LLMTierConfig}
    (h : b.validate T = .ok block) : AcceptedTier T block := by
  unfold TierBlock.validate at h
  split at h
  · rename_i provider baseUrl model hp hu hm
    split_ifs at h with hbad
    simp only [Bool.or_eq_true, decide_eq_true_eq, Bool.not_eq_true', not_or] at hbad
    obtain ⟨⟨-, hprovider⟩, hsampling⟩ := hbad
    obtain ⟨engine, -, h⟩ := (bind_eq_ok _ _ _).mp h
    obtain ⟨⟨⟩, hcombo, h⟩ := (bind_eq_ok _ _ _).mp h
    cases h
    exact ⟨hprovider, strip_strip baseUrl, hcombo, by simpa using hsampling⟩
  · cases h

theorem acceptedTier_of_validateTier {prior block : Option LLMTierConfig} {raw : Option TierBlock}
    (h : validateTier T prior raw = .ok block) : ∀ b ∈ block, AcceptedTier T b := by
  cases raw with
  | none =>
    cases h
    simp
  | some raw =>
    obtain ⟨validated, hv, h⟩ := (bind_eq_ok _ _ _).mp h
    cases h
    simpa using acceptedTier_of_validate hv

theorem acceptedTier_of_validateLlmTiers {prior tiers : LlmTiers}
    {raw : List (String × TierBlock)} (h : validateLlmTiers T prior raw = .ok tiers) :
    ∀ b ∈ tiers.blocks, AcceptedTier T b := by
  unfold validateLlmTiers at h
  split_ifs at h
  obtain ⟨fast, hfast, h⟩ := (bind_eq_ok _ _ _).mp h
  obtain ⟨reasoning, hreasoning, h⟩ := (bind_eq_ok _ _ _).mp h
  cases h
  intro b hb
  rcases List.mem_append.mp hb with hb | hb
  · exact acceptedTier_of_validateTier hfast b (by simpa using hb)
  · exact acceptedTier_of_validateTier hreasoning b (by simpa using hb)

/-! ## The parts of an update -/

theorem Provider.normalize_ne (p : Provider) : p.normalize ≠ .openai := by cases p <;> decide

theorem provider_updated (u : Option Provider) (prior : Provider) :
    (u.map Provider.normalize).getD prior.normalize ≠ .openai := by
  cases u with
  | none => exact prior.normalize_ne
  | some p => exact p.normalize_ne

theorem Provider.normalize_of_ne {p : Provider} (h : p ≠ .openai) : p.normalize = p := by
  cases p with
  | openai => exact absurd rfl h
  | _ => rfl

theorem url_updated {cfg : IntegrationConfig} (h : Accepted T cfg) {url new : Option String}
    (hnew : url.mapM validateUrl = .ok new) :
    strip (new.getD cfg.llmBaseUrl) = new.getD cfg.llmBaseUrl ∧
      hasHttpScheme (new.getD cfg.llmBaseUrl) = true := by
  cases url with
  | none =>
    cases hnew
    exact ⟨h.trimmed, h.scheme⟩
  | some url =>
    rw [Option.mapM_some] at hnew
    obtain ⟨v, hv, hnew⟩ := (bind_eq_ok _ _ _).mp hnew
    cases hnew
    unfold validateUrl at hv
    split_ifs at hv with hscheme
    cases hv
    exact ⟨strip_strip url, hscheme⟩

theorem sampling_updated {cfg : IntegrationConfig} (h : Accepted T cfg) {temperature : Option ℚ}
    {maxTokens : Option ℤ} (hu : samplingInBounds temperature maxTokens = true) :
    samplingInBounds (some (temperature.getD cfg.llmTemperature))
      (some (maxTokens.getD cfg.llmMaxTokens)) = true := by
  have hcfg := h.sampling
  simp only [samplingInBounds, Bool.and_eq_true] at hu hcfg ⊢
  constructor
  · cases temperature with
    | none => exact hcfg.1
    | some t => exact hu.1
  · cases maxTokens with
    | none => exact hcfg.2
    | some n => exact hu.2

/-- An update that names neither provider, URL nor engine leaves all three. -/
theorem primary_updated {cfg : IntegrationConfig} (h : Accepted T cfg) {u : LlmConfigUpdate}
    {url : Option String} {engine : Option (Option Engine)}
    (hurl : u.baseUrl.mapM validateUrl = .ok url)
    (hengine : u.engine.mapM normalizeLlmEngine = .ok engine)
    (hcheck : checkPrimary T u ((u.provider.map Provider.normalize).getD cfg.llmProvider.normalize)
      (engine.getD cfg.llmEngine) (url.getD cfg.llmBaseUrl) = .ok ()) :
    checkPrimaryLlmEngineConfig T
      ((u.provider.map Provider.normalize).getD cfg.llmProvider.normalize)
      (engine.getD cfg.llmEngine) (url.getD cfg.llmBaseUrl) = .ok () := by
  unfold checkPrimary at hcheck
  split_ifs at hcheck with hnamed
  · exact hcheck
  · simp only [Bool.or_eq_true, not_or, Bool.not_eq_true, Option.isSome_eq_false_iff,
      Option.isNone_iff_eq_none] at hnamed
    obtain ⟨⟨hp, hb⟩, he⟩ := hnamed
    rw [hb] at hurl
    rw [he] at hengine
    cases hurl
    cases hengine
    rw [hp]
    simpa [Provider.normalize_of_ne h.provider] using h.primary

theorem keys_updated {cfg : IntegrationConfig} (h : Accepted T cfg) {provider : Provider}
    {tiers : LlmTiers}
    (hcheck : ¬((provider ≠ cfg.llmProvider.normalize || tiers ≠ cfg.llmTiers) &&
      crossProviderTiersWithoutKey provider tiers ≠ []) = true) :
    crossProviderTiersWithoutKey provider tiers = [] := by
  by_contra hne
  have hsame : provider = cfg.llmProvider ∧ tiers = cfg.llmTiers := by
    simpa [hne, Provider.normalize_of_ne h.provider] using hcheck
  rw [hsame.1, hsame.2] at hne
  exact hne h.keys

theorem acceptedTier_updated {cfg : IntegrationConfig} (h : Accepted T cfg) {tiers : LlmTiers}
    {raw : Option (List (String × TierBlock))} (hraw : updatedTiers T cfg.llmTiers raw = .ok tiers) :
    ∀ b ∈ tiers.blocks, AcceptedTier T b := by
  cases raw with
  | none =>
    cases hraw
    exact h.tiers
  | some raw => exact acceptedTier_of_validateLlmTiers hraw

theorem accepted_updated {gate : PriceGate} {cfg next : IntegrationConfig} {u : LlmConfigUpdate}
    (h : Accepted T cfg) (hu : updateTenantLlm T gate cfg u = .ok next) : Accepted T next := by
  unfold updateTenantLlm at hu
  split_ifs at hu with hbounds
  obtain ⟨url, hurl, hu⟩ := (bind_eq_ok _ _ _).mp hu
  obtain ⟨engine, hengine, hu⟩ := (bind_eq_ok _ _ _).mp hu
  obtain ⟨⟨⟩, hprimary, hu⟩ := (bind_eq_ok _ _ _).mp hu
  obtain ⟨tiers, htiers, hu⟩ := (bind_eq_ok _ _ _).mp hu
  obtain ⟨passes, -, hu⟩ := (bind_eq_ok _ _ _).mp hu
  split_ifs at hu with hgate hkeys
  cases hu
  simp only [Bool.not_eq_true', Bool.not_eq_false, LlmConfigUpdate.inBounds,
    Bool.and_eq_true] at hbounds
  obtain ⟨htrimmed, hscheme⟩ := url_updated h hurl
  exact
    { provider := provider_updated u.provider cfg.llmProvider
      trimmed := htrimmed
      scheme := hscheme
      primary := primary_updated h hurl hengine hprimary
      tiers := acceptedTier_updated h htiers
      keys := keys_updated h hkeys
      sampling := sampling_updated h hbounds.2 }

theorem accepted_created : Accepted T {} where
  provider := by decide
  trimmed := by decide +kernel
  scheme := by decide +kernel
  primary := rfl
  tiers := by simp [LlmTiers.blocks]
  keys := rfl
  sampling := by decide +kernel

theorem Reachable.accepted {cfg : IntegrationConfig} (h : Reachable T cfg) : Accepted T cfg := by
  induction h with
  | created => exact accepted_created
  | updated gate u _ hu ih => exact accepted_updated ih hu
  | keyCleared _ ih => exact ⟨ih.provider, ih.trimmed, ih.scheme, ih.primary, ih.tiers, ih.keys, ih.sampling⟩

end SocTalk.Llm
