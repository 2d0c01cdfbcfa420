import SocTalk.Llm.Dispatched

/-! The endpoints that the roles of a configuration are called at and priced at. -/
namespace SocTalk.Llm
open Py

structure Endpoint where
  provider : Provider
  baseUrl : String
  model : String
  deriving DecidableEq

/-- Where `create_chat_model` sends the calls; without a base URL the client has its vendor's. -/
def LLMConfig.calledUrl (c : LLMConfig) : String :=
  if c.provider = .anthropic then orElse c.anthropicBaseUrl anthropicDefaultBaseUrl
  else orElse c.openaiBaseUrl openaiSentinelBaseUrl

def ResolvedModel.called (r : ResolvedModel) : Endpoint :=
  ⟨r.provider, r.llmConfig.calledUrl, r.model⟩

def Tier.role : Tier → Role
  | .fast => .fast
  | .reasoning => .reasoning

/-- The endpoint stored for a tier: its block's, or the primary's. -/
def IntegrationConfig.stored (cfg : IntegrationConfig) (tier : Tier) : Endpoint :=
  match cfg.llmTiers.get tier with
  | some b => ⟨b.provider.canonical, b.baseUrl, b.model⟩
  | none => ⟨cfg.llmProvider.canonical, cfg.llmBaseUrl, cfg.fallbackModel none tier.role⟩

/-- The tenant's model, or the install's where it is blank. -/
def IntegrationConfig.chatModel (integ : IntegrationConfig) (base : LLMConfig) : String :=
  orDefault integ.llmModel (orDefault base.chatModel base.fastModel)

def IntegrationConfig.hasOwnKey (integ : IntegrationConfig) : Bool :=
  integ.llmApiKeyPlain.any (· ≠ "")

/-- The tenant's provider, URL, model and key over the install's settings, whose chat tier is
dropped. -/
def IntegrationConfig.overlay (integ : IntegrationConfig) (base : LLMConfig) : LLMConfig :=
  let provider := integ.llmProvider.canonical
  let model := integ.chatModel base
  let url (own : Option String) := if integ.llmBaseUrl = "" then own else some integ.llmBaseUrl
  let cfg := { base with provider := provider, chatModel := model, fastModel := model, chat := none }
  if provider = .openai then
    { cfg with
      openaiBaseUrl := url base.openaiBaseUrl
      openaiApiKey := integ.hasOwnKey || base.openaiApiKey }
  else
    { cfg with
      anthropicBaseUrl := url base.anthropicBaseUrl
      anthropicApiKey := integ.hasOwnKey || base.anthropicApiKey }

/-- `_tenant_chat_llm_config`: the settings of a tenant's chat and the model asked of them. -/
def tenantChatLlmConfig (integ : Option IntegrationConfig) (base : LLMConfig)
    (requestedModel : String) : LLMConfig × String :=
  match integ with
  | none => (base, requestedModel)
  | some integ =>
    let provider := integ.llmProvider.canonical
    if provider ≠ base.provider && !integ.hasOwnKey then (base, requestedModel)
    else
      (integ.overlay base,
        if provider ≠ base.provider then integ.chatModel base else requestedModel)

variable {T : Url.Tables}

/-! ## The worker's calls -/

/-- The stored endpoint as it is called: the chart drops the URL of an Anthropic primary that does
not name Anthropic, and the worker trims the model of a tier. -/
def IntegrationConfig.workerEndpoint (cfg : IntegrationConfig) (tier : Tier) : Endpoint :=
  match cfg.llmTiers.get tier with
  | some b =>
    ⟨b.provider.canonical, b.baseUrl, if strip b.model = "" then b.model else strip b.model⟩
  | none =>
    { cfg.stored tier with
      baseUrl :=
        if cfg.llmProvider = .anthropic ∧ ¬"anthropic".toList <:+: cfg.llmBaseUrl.toList then
          anthropicDefaultBaseUrl
        else cfg.llmBaseUrl }

theorem calledUrl_scoped (c : LLMConfig) (provider : Provider) (own : Option String) (key : Bool) :
    (scopedConfig c provider own key).calledUrl =
      if provider = .anthropic then orElse (own.or c.anthropicBaseUrl) anthropicDefaultBaseUrl
      else orElse (own.or c.openaiBaseUrl) openaiSentinelBaseUrl := by
  unfold scopedConfig
  split_ifs with hp <;> simp [LLMConfig.calledUrl, hp]

theorem orElse_some {s default : String} (h : s ≠ "") : orElse (some s) default = s := by
  simp [orElse, h]

theorem Accepted.calledUrl_primary {cfg : IntegrationConfig} (h : Accepted T cfg) :
    (scopedConfig cfg.settings cfg.llmProvider.canonical none false).calledUrl =
      if cfg.llmProvider = .anthropic ∧ ¬"anthropic".toList <:+: cfg.llmBaseUrl.toList then
        anthropicDefaultBaseUrl
      else cfg.llmBaseUrl := by
  have hne : cfg.llmBaseUrl ≠ "" := ne_empty_of_hasHttpScheme h.scheme
  rw [calledUrl_scoped, Option.none_or, Option.none_or]
  by_cases hp : cfg.llmProvider = .anthropic
  · have hanthropic : cfg.llmProvider.canonical = .anthropic :=
      Provider.canonical_eq_anthropic.mpr hp
    have hopenai : cfg.llmProvider.canonical ≠ .openai := by
      rw [hanthropic]
      decide
    have hset : cfg.settings.anthropicBaseUrl = cfg.passedBaseUrl := if_neg hopenai
    rw [if_pos hanthropic, hset, IntegrationConfig.passedBaseUrl, if_neg hopenai]
    by_cases hnamed : "anthropic".toList <:+: cfg.llmBaseUrl.toList
    · rw [if_pos hnamed, if_neg fun hc => hc.2 hnamed, orElse_some hne]
    · rw [if_neg hnamed, if_pos ⟨hp, hnamed⟩]
      rfl
  · have hanthropic : cfg.llmProvider.canonical ≠ .anthropic :=
      fun hc => hp (Provider.canonical_eq_anthropic.mp hc)
    have hopenai : cfg.llmProvider.canonical = .openai := Provider.canonical_of_ne hanthropic
    have hset : cfg.settings.openaiBaseUrl = cfg.passedBaseUrl := if_pos hopenai
    rw [if_neg hanthropic, if_neg fun hc => hp hc.1, hset, IntegrationConfig.passedBaseUrl,
      if_pos hopenai]
    by_cases hsentinel : cfg.llmBaseUrl = openaiSentinelBaseUrl
    · rw [if_neg (not_not.mpr hsentinel), hsentinel]
      rfl
    · rw [if_pos hsentinel, orElse_some hne]

theorem IntegrationConfig.settings_absent {cfg : IntegrationConfig} {tier : Tier}
    (hb : cfg.llmTiers.get tier = none) :
    cfg.settings.tier tier.inference = none ∧
      legacyModelForTier cfg.settings tier.inference = cfg.fallbackModel none tier.role := by
  cases tier with
  | fast =>
    have hfast : cfg.llmTiers.fast = none := hb
    simp [Tier.inference, LLMConfig.tier, legacyModelForTier, settings, hfast, fallbackModel,
      Tier.role]
  | reasoning =>
    have hreasoning : cfg.llmTiers.reasoning = none := hb
    simp [Tier.inference, LLMConfig.tier, legacyModelForTier, settings, hreasoning, fallbackModel,
      Tier.role]

theorem IntegrationConfig.legacyModel {cfg : IntegrationConfig} {tier : Tier} {b : LLMTierConfig}
    (hb : cfg.llmTiers.get tier = some b) :
    legacyModelForTier cfg.settings tier.inference = b.model := by
  cases tier with
  | fast =>
    have hfast : cfg.llmTiers.fast = some b := hb
    simp [legacyModelForTier, Tier.inference, settings, hfast]
  | reasoning =>
    have hreasoning : cfg.llmTiers.reasoning = some b := hb
    simp [legacyModelForTier, Tier.inference, settings, hreasoning]

theorem Accepted.called_worker {cfg : IntegrationConfig} (h : Accepted T cfg)
    (hurls : UrlsParse T cfg) (tier : Tier) :
    ∃ r, resolveTier T cfg.settings tier.inference none = .ok r ∧
      r.called = cfg.workerEndpoint tier := by
  cases hb : cfg.llmTiers.get tier with
  | none =>
    obtain ⟨hnone, hmodel⟩ := IntegrationConfig.settings_absent hb
    refine ⟨_, h.resolveTier_primary hnone, ?_⟩
    simp only [ResolvedModel.called, IntegrationConfig.workerEndpoint, IntegrationConfig.stored, hb,
      h.calledUrl_primary, hmodel]
  | some b =>
    have hmem : b ∈ cfg.llmTiers.blocks := LlmTiers.mem_blocks.mpr ⟨tier, hb⟩
    have hblock := h.tiers b hmem
    have hne : b.baseUrl ≠ "" := ne_empty_of_hasHttpScheme hblock.scheme
    obtain ⟨hosted, hhosted⟩ := hosted_of_parses (hurls.2 b hmem)
    refine ⟨_, h.resolveTier_block hblock hhosted (IntegrationConfig.settings_inference hb), ?_⟩
    simp only [ResolvedModel.called, IntegrationConfig.workerEndpoint, hb, calledUrl_scoped,
      Option.some_or, orElse_some hne, ite_self, IntegrationConfig.legacyModel hb, LLMTierConfig.entry]
    split_ifs <;> rfl

/-! ## Prices -/

/-- The engine that a tier is priced with: its own, or the primary's. -/
def IntegrationConfig.pricedEngine (cfg : IntegrationConfig) (tier : Tier) : Option Engine :=
  ((cfg.llmTiers.get tier).bind (·.engine)).or cfg.llmEngine

/-- The entry is the classification of the endpoint. -/
structure PricedAs (T : Url.Tables) (b : RoleBackend) (e : Endpoint) (engine : Option Engine) :
    Prop where
  model : b.model = e.model
  kind : providerKindFor T e.provider e.baseUrl engine = .ok b.providerKind
  id : providerIdFor T e.baseUrl = .ok b.providerId

theorem providerKindFor_canonical (provider : Provider) (url : String) (engine : Option Engine) :
    providerKindFor T provider.canonical url engine = providerKindFor T provider url engine := by
  cases provider <;> rfl

theorem Accepted.roleBackend_spec {cfg : IntegrationConfig} (h : Accepted T cfg) {role : Role}
    {chatModel : Option String} {b : RoleBackend}
    (hb : roleBackend T cfg chatModel role = .ok (some b)) :
    ∃ engine, roleEngine T ((cfg.tierOf role).bind (·.engine)) cfg.llmEngine
        (((cfg.tierOf role).map (·.provider)).getD cfg.llmProvider)
        (orElse ((cfg.tierOf role).map (·.baseUrl)) cfg.llmBaseUrl) = .ok engine ∧
      PricedAs T b
        ⟨((cfg.tierOf role).map (·.provider)).getD cfg.llmProvider,
          orElse ((cfg.tierOf role).map (·.baseUrl)) cfg.llmBaseUrl,
          orElse ((cfg.tierOf role).map (·.model)) (cfg.fallbackModel chatModel role)⟩ engine := by
  obtain ⟨primary, hprimary, hb⟩ := (bind_eq_ok _ _ _).mp hb
  cases h.effective.symm.trans hprimary
  obtain ⟨engine, hengine, hb⟩ := (bind_eq_ok _ _ _).mp hb
  split_ifs at hb with hmodel
  · cases hb
  · obtain ⟨kind, hkind, hb⟩ := (bind_eq_ok _ _ _).mp hb
    obtain ⟨id, hid, hb⟩ := (bind_eq_ok _ _ _).mp hb
    cases hb
    exact ⟨engine, hengine, rfl, hkind, hid⟩

theorem AcceptedTier.roleEngine {b : LLMTierConfig} (h : AcceptedTier T b)
    (primary : Option Engine) :
    roleEngine T b.engine primary b.provider b.baseUrl = .ok (b.engine.or primary) := by
  unfold Llm.roleEngine
  cases he : b.engine with
  | none => rfl
  | some e =>
    have heffective : effectiveLlmEngine T b.provider (some e) b.baseUrl = .ok (some e) :=
      effective_of_usable h.trimmed fun hserved => (h.usable (he ▸ hserved)).2
    rw [heffective]
    rfl

theorem Accepted.roleBackend_tier {cfg : IntegrationConfig} (h : Accepted T cfg) {tier : Tier}
    (hmodels : ∀ b ∈ cfg.llmTiers.blocks, b.model ≠ "") {chatModel : Option String}
    {b : RoleBackend} (hb : roleBackend T cfg chatModel tier.role = .ok (some b)) :
    PricedAs T b (cfg.stored tier) (cfg.pricedEngine tier) := by
  have htier : cfg.tierOf tier.role = cfg.llmTiers.get tier := by cases tier <;> rfl
  obtain ⟨engine, hengine, hpriced⟩ := h.roleBackend_spec hb
  rw [htier] at hengine hpriced
  have hfallback : cfg.fallbackModel chatModel tier.role = cfg.fallbackModel none tier.role := by
    cases tier <;> rfl
  cases hblock : cfg.llmTiers.get tier with
  | none =>
    rw [hblock] at hengine hpriced
    cases hengine
    obtain ⟨hmodel, hkind, hid⟩ := hpriced
    have hengine : cfg.pricedEngine tier = cfg.llmEngine := by
      rw [IntegrationConfig.pricedEngine, hblock]
      rfl
    rw [hengine, IntegrationConfig.stored, hblock]
    exact ⟨hmodel.trans hfallback, (providerKindFor_canonical ..).trans hkind, hid⟩
  | some block =>
    have hmem : block ∈ cfg.llmTiers.blocks := LlmTiers.mem_blocks.mpr ⟨tier, hblock⟩
    have haccepted := h.tiers block hmem
    have hurl : orElse (some block.baseUrl) cfg.llmBaseUrl = block.baseUrl :=
      orElse_some (ne_empty_of_hasHttpScheme haccepted.scheme)
    simp only [hblock, Option.map_some, Option.bind_some, Option.getD_some, hurl,
      orElse_some (hmodels block hmem)] at hengine hpriced
    cases (haccepted.roleEngine cfg.llmEngine).symm.trans hengine
    obtain ⟨hmodel, hkind, hid⟩ := hpriced
    rw [IntegrationConfig.pricedEngine, IntegrationConfig.stored, hblock]
    exact ⟨hmodel, (providerKindFor_canonical ..).trans hkind, hid⟩

/-- No hosted authority is self-hosted. -/
theorem providerKindFromAuthority_ne (host : List Char) :
    providerKindFromAuthority host ≠ some .selfHosted := by
  intro h
  obtain ⟨entry, hentry, hkind⟩ := Option.map_eq_some_iff.mp h
  have hmem := List.mem_of_find?_eq_some hentry
  simp only [hostedLlmAuthorities, List.mem_cons, List.not_mem_nil, or_false] at hmem
  rcases hmem with rfl | rfl | rfl <;> cases hkind

theorem selfHosted_of_kind {provider : Provider} {url : String} {engine : Option Engine}
    (h : providerKindFor T provider url engine = .ok .selfHosted) :
    provider ≠ .anthropic ∧ hostedProviderKindForBaseUrl T url = .ok none ∧
      engine.any Engine.selfHosted = true := by
  unfold providerKindFor at h
  by_cases hp : provider = .anthropic
  · rw [if_pos hp] at h
    cases h
  · rw [if_neg hp] at h
    obtain ⟨host, hhost, h⟩ := (bind_eq_ok _ _ _).mp h
    cases hkind : providerKindFromAuthority host with
    | some kind =>
      rw [hkind] at h
      cases h
      exact absurd hkind (providerKindFromAuthority_ne host)
    | none =>
      have hnone : hostedProviderKindForBaseUrl T url = .ok none := by
        rw [hostedProviderKindForBaseUrl, hhost]
        exact congrArg Except.ok hkind
      rw [hkind] at h
      refine ⟨hp, hnone, ?_⟩
      by_contra hself
      simp [hself] at h

/-! ## Chat -/

/-- The tenant has no key of its own for a provider that is not the install's. -/
def IntegrationConfig.ChatsOnInstall (cfg : IntegrationConfig) (base : LLMConfig) : Prop :=
  cfg.llmProvider.canonical ≠ base.provider ∧ cfg.hasOwnKey = false

/-- The stored endpoint as a conversation calls it: the model is the conversation's, where it was
chosen for the same provider. -/
def IntegrationConfig.chatEndpoint (cfg : IntegrationConfig) (base : LLMConfig)
    (requestedModel : String) : Endpoint :=
  ⟨cfg.llmProvider.canonical, cfg.llmBaseUrl,
    if cfg.llmProvider.canonical ≠ base.provider then cfg.chatModel base
    else orDefault requestedModel (cfg.chatModel base)⟩

theorem tenantChatLlmConfig_install {cfg : IntegrationConfig} {base : LLMConfig}
    (h : cfg.ChatsOnInstall base) (requestedModel : String) :
    tenantChatLlmConfig (some cfg) base requestedModel = (base, requestedModel) := by
  simp [tenantChatLlmConfig, h.1, h.2]

theorem tenantChatLlmConfig_overlay {cfg : IntegrationConfig} {base : LLMConfig}
    (h : ¬cfg.ChatsOnInstall base) (requestedModel : String) :
    tenantChatLlmConfig (some cfg) base requestedModel =
      (cfg.overlay base, if cfg.llmProvider.canonical ≠ base.provider then cfg.chatModel base
        else requestedModel) := by
  simp only [IntegrationConfig.ChatsOnInstall, not_and, Bool.not_eq_false] at h
  unfold tenantChatLlmConfig
  simp only
  split_ifs <;> simp_all

theorem effective_some {provider : Provider} {engine effective : Option Engine} {url : String}
    (h : effectiveLlmEngine T provider engine url = .ok effective)
    (hserved : effective.any Engine.served = true) : engine.any Engine.served = true := by
  unfold effectiveLlmEngine at h
  split_ifs at h with hinert
  · exact (Bool.and_eq_true_iff.mp hinert).1
  · cases h
    exact hserved

theorem any_served {engine : Option Engine} (h : (engine.getD .frontier).served = true) :
    engine.any Engine.served = true := by
  cases engine with
  | none => cases h
  | some e => exact h

/-- A tier without an entry is called with the settings' own provider. -/
theorem resolveTier_absent {c : LLMConfig} {tier : InferenceTier} {model : Option String}
    {r : ResolvedModel} (hnone : c.tier tier = none) (h : resolveTier T c tier model = .ok r)
    (hserved : c.engine.any Engine.served = true → c.provider = .openai) :
    r.provider = c.provider ∧ r.model = orElse model (legacyModelForTier c tier) ∧
      r.llmConfig = scopedConfig c c.provider none false := by
  unfold resolveTier at h
  obtain ⟨primary, hprimary, h⟩ := (bind_eq_ok _ _ _).mp h
  obtain ⟨effective, heffective, h⟩ := (bind_eq_ok _ _ _).mp h
  simp only [hnone, Option.getD_none, Option.none_or] at h heffective
  have hprovider : providerFor none (effective.getD .frontier) c.provider = c.provider := by
    unfold providerFor
    split_ifs with he
    · exact (hserved (effective_some hprimary (effective_some heffective (any_served he)))).symm
    · rfl
  cases h
  simp only [hprovider]
  exact ⟨trivial, trivial, trivial⟩

theorem Accepted.calledUrl_overlay {cfg : IntegrationConfig} (h : Accepted T cfg)
    (base : LLMConfig) :
    (scopedConfig (cfg.overlay base) cfg.llmProvider.canonical none false).calledUrl =
      cfg.llmBaseUrl := by
  have hne : cfg.llmBaseUrl ≠ "" := ne_empty_of_hasHttpScheme h.scheme
  rw [calledUrl_scoped, Option.none_or, Option.none_or]
  by_cases hp : cfg.llmProvider.canonical = .anthropic
  · simp [hp, IntegrationConfig.overlay, hne, orElse_some]
  · simp [IntegrationConfig.overlay, Provider.canonical_of_ne hp, hne, orElse_some]

theorem Accepted.called_chat {cfg : IntegrationConfig} (h : Accepted T cfg) {base : LLMConfig}
    {requestedModel : String} {r : ResolvedModel} (hown : ¬cfg.ChatsOnInstall base)
    (hserved : cfg.llmProvider = .anthropic → base.engine.any Engine.served = false)
    (hr : resolveTier T (tenantChatLlmConfig (some cfg) base requestedModel).1 .chat
      (some (tenantChatLlmConfig (some cfg) base requestedModel).2) = .ok r) :
    r.called = cfg.chatEndpoint base requestedModel := by
  rw [tenantChatLlmConfig_overlay hown] at hr
  have hprovider : (cfg.overlay base).provider = cfg.llmProvider.canonical := by
    simp only [IntegrationConfig.overlay]
    split_ifs <;> rfl
  have hengine : (cfg.overlay base).engine = base.engine := by
    simp only [IntegrationConfig.overlay]
    split_ifs <;> rfl
  have hnone : (cfg.overlay base).tier .chat = none := by
    simp only [IntegrationConfig.overlay]
    split_ifs <;> rfl
  have hmodel : legacyModelForTier (cfg.overlay base) .chat = cfg.chatModel base := by
    simp only [IntegrationConfig.overlay, legacyModelForTier]
    split_ifs <;> simp [orDefault]
  have hclient : (cfg.overlay base).engine.any Engine.served = true →
      (cfg.overlay base).provider = .openai := by
    rw [hengine, hprovider]
    intro hany
    refine Provider.canonical_of_ne fun hc => ?_
    rw [hserved (Provider.canonical_eq_anthropic.mp hc)] at hany
    cases hany
  obtain ⟨hp, hm, hc⟩ := resolveTier_absent hnone hr hclient
  rw [ResolvedModel.called, hp, hm, hc, hprovider, hmodel, h.calledUrl_overlay,
    IntegrationConfig.chatEndpoint]
  split_ifs with hsame
  · simp [orElse]
  · rfl

/-! ## All roles -/

theorem mem_rolesForConfig {cfg : IntegrationConfig} {chatModel : Option String}
    {roles : List (Role × RoleBackend)} (h : rolesForConfig T cfg chatModel = .ok roles)
    {role : Role} {b : RoleBackend} (hb : (role, b) ∈ roles) :
    roleBackend T cfg chatModel role = .ok (some b) := by
  obtain ⟨fast, hfast, h⟩ := (bind_eq_ok _ _ _).mp h
  obtain ⟨reasoning, hreasoning, h⟩ := (bind_eq_ok _ _ _).mp h
  obtain ⟨chat, hchat, h⟩ := (bind_eq_ok _ _ _).mp h
  cases h
  simp only [List.mem_append, Option.mem_toList, Option.map_eq_some_iff, Prod.mk.injEq] at hb
  rcases hb with (⟨e, he, rfl, rfl⟩ | ⟨e, he, rfl, rfl⟩) | ⟨e, he, rfl, rfl⟩
  · rw [hfast, he]
  · rw [hreasoning, he]
  · rw [hchat, (Option.filter_eq_some_iff.mp he).1]

/-- What the worker calls for a tier, and what the tier is priced as. -/
structure TierKept (T : Url.Tables) (c : LLMConfig) (cfg : IntegrationConfig) (tier : Tier) :
    Prop where
  called : ∃ r, resolveTier T c tier.inference none = .ok r ∧ r.called = cfg.workerEndpoint tier
  priced : ∀ chatModel roles b, rolesForConfig T cfg chatModel = .ok roles →
    (tier.role, b) ∈ roles → PricedAs T b (cfg.stored tier) (cfg.pricedEngine tier)
  selfHosted : ∀ chatModel roles b, rolesForConfig T cfg chatModel = .ok roles →
    (tier.role, b) ∈ roles → b.providerKind = .selfHosted →
      (cfg.pricedEngine tier).any Engine.selfHosted = true

/-- What a tenant's conversation calls, on every install, and what chat is priced as. -/
structure ChatKept (T : Url.Tables) (cfg : IntegrationConfig) : Prop where
  install : ∀ base requestedModel, cfg.ChatsOnInstall base →
    tenantChatLlmConfig (some cfg) base requestedModel = (base, requestedModel)
  called : ∀ base requestedModel r, ¬cfg.ChatsOnInstall base →
    (cfg.llmProvider = .anthropic → base.engine.any Engine.served = false) →
    resolveTier T (tenantChatLlmConfig (some cfg) base requestedModel).1 .chat
      (some (tenantChatLlmConfig (some cfg) base requestedModel).2) = .ok r →
    r.called = cfg.chatEndpoint base requestedModel
  priced : ∀ chatModel roles b, rolesForConfig T cfg chatModel = .ok roles →
    (Role.chat, b) ∈ roles →
    PricedAs T b ⟨cfg.llmProvider.canonical, cfg.llmBaseUrl, orElse chatModel cfg.llmModel⟩
      cfg.llmEngine
  selfHosted : ∀ chatModel roles b, rolesForConfig T cfg chatModel = .ok roles →
    (Role.chat, b) ∈ roles → b.providerKind = .selfHosted →
      cfg.llmEngine.any Engine.selfHosted = true

theorem Accepted.tierKept {cfg : IntegrationConfig} (h : Accepted T cfg) {helm : Helm}
    {c : LLMConfig} (hc : workerConfig T helm cfg = .ok c) (tier : Tier) : TierKept T c cfg tier := by
  obtain ⟨rfl, hurls, -, htiers⟩ := h.workerConfig_iff.mp hc
  have hpriced : ∀ chatModel roles b, rolesForConfig T cfg chatModel = .ok roles →
      (tier.role, b) ∈ roles → PricedAs T b (cfg.stored tier) (cfg.pricedEngine tier) :=
    fun chatModel roles b hroles hb =>
      h.roleBackend_tier (fun block hmem => (htiers block hmem).2.1) (mem_rolesForConfig hroles hb)
  refine ⟨h.called_worker hurls tier, hpriced, fun chatModel roles b hroles hb hself => ?_⟩
  have hkind := (hpriced chatModel roles b hroles hb).kind
  rw [hself] at hkind
  exact (selfHosted_of_kind hkind).2.2

theorem Accepted.chatKept {cfg : IntegrationConfig} (h : Accepted T cfg) : ChatKept T cfg := by
  have hpriced : ∀ chatModel roles b, rolesForConfig T cfg chatModel = .ok roles →
      (Role.chat, b) ∈ roles → PricedAs T b
        ⟨cfg.llmProvider.canonical, cfg.llmBaseUrl, orElse chatModel cfg.llmModel⟩
        cfg.llmEngine := by
    intro chatModel roles b hroles hb
    obtain ⟨engine, hengine, hmodel, hkind, hid⟩ := h.roleBackend_spec (mem_rolesForConfig hroles hb)
    cases hengine
    exact ⟨hmodel, (providerKindFor_canonical ..).trans hkind, hid⟩
  refine ⟨fun base requestedModel => (tenantChatLlmConfig_install · requestedModel),
    fun base requestedModel r => h.called_chat, hpriced, fun chatModel roles b hroles hb hself => ?_⟩
  have hkind := (hpriced chatModel roles b hroles hb).kind
  rw [hself] at hkind
  exact (selfHosted_of_kind hkind).2.2

theorem endpoints_kept {cfg : IntegrationConfig} (h : Reachable T cfg) :
    (∀ helm c, workerConfig T helm cfg = .ok c → ∀ tier, TierKept T c cfg tier) ∧
      ChatKept T cfg :=
  ⟨fun _ _ hc tier => h.accepted.tierKept hc tier, h.accepted.chatKept⟩

theorem endpoints_kept_claudeTier : ∃ c, workerConfig asciiTables plainHelm claudeTierConfig = .ok c ∧
    ∀ tier, TierKept asciiTables c claudeTierConfig tier :=
  ⟨_, rfl, (endpoints_kept reachable_claudeTier).1 plainHelm _ rfl⟩

/-! ### An Anthropic primary behind a gateway -/

def gatewayConfig : IntegrationConfig :=
  { llmProvider := .anthropic, llmBaseUrl := "https://gateway.example/v1"
    llmModel := "claude-sonnet-4-6", llmApiKeyPlain := some "key" }

def gatewayUpdate : LlmConfigUpdate :=
  { provider := some .anthropic, baseUrl := some "https://gateway.example/v1"
    model := some "claude-sonnet-4-6", apiKey := some "key" }

/-- The worker calls the vendor in place of the stored gateway. -/
theorem called_gateway : Reachable asciiTables gatewayConfig ∧
    ∃ c r, workerConfig asciiTables plainHelm gatewayConfig = .ok c ∧
      resolveTier asciiTables c .router none = .ok r ∧
      r.called.baseUrl ≠ gatewayConfig.llmBaseUrl := by
  refine ⟨.updated ungated gatewayUpdate .created rfl, _, _, rfl, rfl, ?_⟩
  decide +kernel

end SocTalk.Llm
