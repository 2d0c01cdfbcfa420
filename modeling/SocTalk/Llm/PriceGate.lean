import SocTalk.Llm.Endpoints
import SocTalk.Llm.Prices

/-! When the gate refuses exactly the models that a run would be stamped without a price. The gate
asks whether a key is there and trims the name; the run reads what is stored under the key and takes
the name as it is. -/
namespace SocTalk.Llm
open Py

variable {overrides : Dict} {catalog : List ModelPrice} {b : RoleBackend}

/-! ## What prices a role -/

/-- The override that is read for the role has two numbers. -/
def OverridePrices (overrides : Dict) (b : RoleBackend) : Prop :=
  ∃ entry, overrideEntry overrides b = some entry ∧ Returns (overrideRates entry)

def CatalogPrices (catalog : List ModelPrice) (b : RoleBackend) : Prop :=
  (lookup catalog b.providerKind b.providerId b.model).isSome = true

/-- Reading an override or a row raises nothing that the resolution does not catch. -/
structure Resolves (overrides : Dict) (catalog : List ModelPrice) (b : RoleBackend) : Prop where
  override : ∀ entry, overrideEntry overrides b = some entry → ∀ e, overrideRates entry = .error e →
    e ∈ [Exc.keyError, Exc.typeError, Exc.valueError]
  row : ¬OverridePrices overrides b → ∀ row,
    lookup catalog b.providerKind b.providerId b.model = some row → Returns (catalogEntry b row)

/-- An override with two numbers wins, and no other is taken. -/
theorem ratesFromOverride_spec {read : Option (FloatVal × FloatVal)}
    (h : ratesFromOverride overrides b = .ok read) :
    (read.isSome = true ↔ OverridePrices overrides b) ∧
      ∀ entry, overrideEntry overrides b = some entry → ∀ e, overrideRates entry = .error e →
        e ∈ [Exc.keyError, Exc.typeError, Exc.valueError] := by
  unfold ratesFromOverride at h
  unfold OverridePrices
  cases hentry : overrideEntry overrides b with
  | none =>
    rw [hentry] at h
    rw [← (pure_eq_ok _ _).mp h]
    exact ⟨by simp, fun entry hnone => by cases hnone⟩
  | some entry =>
    rw [hentry] at h
    obtain ⟨hcaught, hread⟩ := attempt_eq_ok.mp h
    constructor
    · rw [← hread]
      cases hrates : overrideRates entry with
      | ok rates => exact iff_of_true rfl ⟨entry, rfl, ⟨rates, hrates⟩⟩
      | error e =>
        refine iff_of_false (by simp [Except.toOption]) ?_
        rintro ⟨entry', he, rates, hreturn⟩
        cases he
        rw [hrates] at hreturn
        cases hreturn
    · intro entry' he
      cases he
      exact hcaught

theorem returns_ratesFromOverride
    (h : ∀ entry, overrideEntry overrides b = some entry → ∀ e, overrideRates entry = .error e →
      e ∈ [Exc.keyError, Exc.typeError, Exc.valueError]) :
    Returns (ratesFromOverride overrides b) := by
  unfold ratesFromOverride
  cases hentry : overrideEntry overrides b with
  | none => exact ⟨_, rfl⟩
  | some entry =>
    exact ⟨_, attempt_eq_ok.mpr ⟨h entry hentry, rfl⟩⟩

theorem catalogEntry_source {row : ModelPrice} {entry : PriceEntry}
    (h : catalogEntry b row = .ok entry) : entry.source = .catalog := by
  obtain ⟨_, -, h⟩ := (bind_eq_ok _ _ _).mp h
  obtain ⟨_, -, h⟩ := (bind_eq_ok _ _ _).mp h
  obtain ⟨_, -, h⟩ := (bind_eq_ok _ _ _).mp h
  obtain ⟨_, -, h⟩ := (bind_eq_ok _ _ _).mp h
  rw [← (pure_eq_ok _ _).mp h]

/-- A role is stamped `unknown` where neither an override nor the catalog prices it. -/
theorem resolveOne_spec {entry : PriceEntry} (h : resolveOne overrides catalog b = .ok entry) :
    Resolves overrides catalog b ∧
      (entry.source = .unknown ↔ ¬(OverridePrices overrides b ∨ CatalogPrices catalog b)) := by
  obtain ⟨read, hread, h⟩ := (bind_eq_ok _ _ _).mp h
  obtain ⟨hprices, hcaught⟩ := ratesFromOverride_spec hread
  unfold CatalogPrices
  cases read with
  | some rates =>
    have hoverride := hprices.mp rfl
    rw [← (pure_eq_ok _ _).mp h]
    refine ⟨⟨hcaught, fun hnot => absurd hoverride hnot⟩, iff_of_false (by simp) ?_⟩
    exact fun hnot => hnot (.inl hoverride)
  | none =>
    have hnot : ¬OverridePrices overrides b := fun hoverride => by cases hprices.mpr hoverride
    dsimp only at h
    cases hrow : lookup catalog b.providerKind b.providerId b.model with
    | none =>
      rw [hrow] at h
      rw [← (pure_eq_ok _ _).mp h]
      refine ⟨⟨hcaught, fun _ row hsome => ?_⟩, iff_of_true rfl ?_⟩
      · rw [hrow] at hsome
        cases hsome
      · rintro (hoverride | hfound)
        · exact hnot hoverride
        · cases hfound
    | some row =>
      rw [hrow] at h
      refine ⟨⟨hcaught, fun _ row' hsome => ?_⟩, ?_⟩
      · rw [hrow] at hsome
        cases hsome
        exact ⟨entry, h⟩
      · rw [catalogEntry_source h]
        exact iff_of_false (by simp) fun hnone => hnone (.inr rfl)

theorem returns_resolveOne (h : Resolves overrides catalog b) :
    Returns (resolveOne overrides catalog b) := by
  refine (returns_ratesFromOverride h.override).bind fun read hread => ?_
  cases read with
  | some rates => exact ⟨_, rfl⟩
  | none =>
    have hnot : ¬OverridePrices overrides b := fun hoverride => by
      cases (ratesFromOverride_spec hread).1.mpr hoverride
    dsimp only
    cases hrow : lookup catalog b.providerKind b.providerId b.model with
    | none => exact ⟨_, rfl⟩
    | some row => exact h.row hnot row hrow

/-- An override that prices is stored under a key that the gate finds. -/
theorem OverridePrices.hasPriceKey (h : OverridePrices overrides b) :
    hasPriceKey overrides b b.model = true := by
  obtain ⟨entry, hentry, -⟩ := h
  obtain ⟨key, hkey, hdict⟩ := List.exists_of_findSome?_eq_some hentry
  have hsome : (List.lookup key overrides).isSome = true := by
    unfold Dict.get at hdict
    cases hlookup : List.lookup key overrides with
    | some v => rfl
    | none =>
      rw [hlookup] at hdict
      cases hdict
  refine List.any_eq_true.mpr ⟨key, ?_, hsome⟩
  simp only [List.mem_cons, List.not_mem_nil, or_false] at hkey ⊢
  tauto

/-! ## One role -/

/-- The backend with the name that the gate looks up. -/
def trimmed (b : RoleBackend) : RoleBackend := { b with model := strip b.model }

/-- What the gate and the run make of a role is the same. -/
structure RoleAgrees (overrides : Dict) (catalog : List ModelPrice) (b : RoleBackend) : Prop where
  resolves : Resolves overrides catalog b
  /-- A blank name passes the gate. -/
  blank : strip b.model = "" → OverridePrices overrides b ∨ CatalogPrices catalog b
  /-- What is stored under a key has two numbers, unless the catalog has the model. -/
  exact : strip b.model ≠ "" → strip b.model = b.model → hasPriceKey overrides b b.model = true →
    OverridePrices overrides b ∨ CatalogPrices catalog b
  /-- A name with blanks around it is priced just where the trimmed one is known. -/
  padded : strip b.model ≠ "" → strip b.model ≠ b.model →
    (hasPriceKey overrides b (strip b.model) = true ∨ CatalogPrices catalog (trimmed b) ↔
      OverridePrices overrides b ∨ CatalogPrices catalog b)

theorem unpriced_iff : unpriced overrides catalog b = true ↔
    strip b.model ≠ "" ∧ ¬(hasPriceKey overrides b (strip b.model) = true ∨
      CatalogPrices catalog (trimmed b)) := by
  unfold unpriced CatalogPrices trimmed
  simp only [Bool.not_eq_true', Bool.or_eq_false_iff, decide_eq_false_iff_not, ne_eq, not_or,
    Bool.not_eq_true, and_assoc]

theorem roleAgrees_iff : RoleAgrees overrides catalog b ↔
    ∃ entry, resolveOne overrides catalog b = .ok entry ∧
      (unpriced overrides catalog b = true ↔ entry.source = .unknown) := by
  constructor
  · intro h
    obtain ⟨entry, hentry⟩ := returns_resolveOne h.resolves
    refine ⟨entry, hentry, ?_⟩
    rw [(resolveOne_spec hentry).2, unpriced_iff]
    by_cases hblank : strip b.model = ""
    · exact iff_of_false (fun hgate => hgate.1 hblank) fun hrun => hrun (h.blank hblank)
    · rw [and_iff_right hblank, not_iff_not]
      by_cases hname : strip b.model = b.model
      · have htrimmed : trimmed b = b := by rw [trimmed, hname]
        rw [htrimmed, hname]
        constructor
        · rintro (hkey | hfound)
          · exact h.exact hblank hname hkey
          · exact .inr hfound
        · exact Or.imp_left OverridePrices.hasPriceKey
      · exact h.padded hblank hname
  · intro ⟨entry, hentry, hagree⟩
    obtain ⟨hresolves, hunknown⟩ := resolveOne_spec hentry
    rw [hunknown, unpriced_iff] at hagree
    refine ⟨hresolves, fun hblank => ?_, fun hblank hname hkey => ?_, fun hblank _ => ?_⟩
    · by_contra hnot
      exact (hagree.mpr hnot).1 hblank
    · by_contra hnot
      have hgate := (hagree.mpr hnot).2
      rw [hname] at hgate
      exact hgate (.inl hkey)
    · rw [and_iff_right hblank, not_iff_not] at hagree
      exact hagree

/-! ## A configuration -/

variable {T : Url.Tables}

/-- The gate reports a role exactly if the run is stamped `unknown` for it. A configuration whose
roles cannot be derived fails on both sides before any price is looked up. -/
def GateAgrees (T : Url.Tables) (overrides : Option Dict) (catalog : List ModelPrice)
    (cfg : IntegrationConfig) : Prop :=
  ∀ roles, rolesForConfig T cfg none = .ok roles →
    ∃ missing models, unpricedConfig T true overrides catalog cfg = .ok missing ∧
      resolveRunPrices T overrides catalog cfg = .ok models ∧
      ∀ role, (∃ name, (role, name) ∈ missing) ↔
        ∃ entry, (role, entry) ∈ models ∧ entry.source = .unknown

/-- A role has one backend. -/
theorem role_unique {cfg : IntegrationConfig} {roles : List (Role × RoleBackend)}
    (h : rolesForConfig T cfg none = .ok roles) {role : Role} {b b' : RoleBackend}
    (hb : (role, b) ∈ roles) (hb' : (role, b') ∈ roles) : b = b' := by
  have hsome := (mem_rolesForConfig h hb).symm.trans (mem_rolesForConfig h hb')
  simpa using hsome

theorem unpricedConfig_eq {overrides : Option Dict} {cfg : IntegrationConfig}
    {roles : List (Role × RoleBackend)} (h : rolesForConfig T cfg none = .ok roles) :
    unpricedConfig T true overrides catalog cfg =
      .ok ((roles.filter fun e => unpriced (overrides.getD []) catalog e.2).map fun e =>
        (e.1, strip e.2.model)) := by
  unfold unpricedConfig
  rw [h]
  rfl

theorem reported_iff {overrides : Option Dict} {cfg : IntegrationConfig}
    {roles : List (Role × RoleBackend)} {missing : List (Role × String)}
    (h : rolesForConfig T cfg none = .ok roles)
    (hmissing : unpricedConfig T true overrides catalog cfg = .ok missing) (role : Role) :
    (∃ name, (role, name) ∈ missing) ↔
      ∃ b, (role, b) ∈ roles ∧ unpriced (overrides.getD []) catalog b = true := by
  rw [unpricedConfig_eq h] at hmissing
  obtain rfl := Except.ok.inj hmissing
  simp only [List.mem_map, List.mem_filter, Prod.mk.injEq, Prod.exists]
  constructor
  · intro ⟨_, _, b, ⟨hb, hgate⟩, hrole, _⟩
    exact ⟨b, hrole ▸ hb, hgate⟩
  · intro ⟨b, hb, hgate⟩
    exact ⟨_, role, b, ⟨hb, hgate⟩, rfl, rfl⟩

theorem stamped_iff {overrides : Option Dict} {cfg : IntegrationConfig}
    {roles : List (Role × RoleBackend)} {models : List (Role × PriceEntry)}
    (h : rolesForConfig T cfg none = .ok roles)
    (hmodels : resolveRunPrices T overrides catalog cfg = .ok models) (role : Role)
    (entry : PriceEntry) : (role, entry) ∈ models ↔
      ∃ b, (role, b) ∈ roles ∧ resolveOne (overrides.getD []) catalog b = .ok entry := by
  unfold resolveRunPrices at hmodels
  obtain ⟨roles', hroles, hmodels⟩ := (bind_eq_ok _ _ _).mp hmodels
  obtain rfl : roles = roles' := by simpa using h.symm.trans hroles
  rw [mem_of_mapM_eq_ok hmodels]
  constructor
  · intro ⟨⟨role', b⟩, hmem, hturn⟩
    obtain ⟨entry', hresolve, hpair⟩ := (bind_eq_ok _ _ _).mp hturn
    obtain ⟨hrole, hentry⟩ := Prod.mk.inj ((pure_eq_ok _ _).mp hpair)
    exact ⟨b, hrole ▸ hmem, hentry ▸ hresolve⟩
  · intro ⟨b, hmem, hentry⟩
    refine ⟨(role, b), hmem, ?_⟩
    dsimp only
    rw [hentry]
    rfl

/-- The gate over a catalog, as the updates of a configuration consult it. -/
def catalogGate (overrides : Option Dict) (catalog : List ModelPrice) : PriceGate :=
  ⟨true, fun b => hasPriceKey (overrides.getD []) b (strip b.model) ||
    (lookup catalog b.providerKind b.providerId (strip b.model)).isSome⟩

theorem unpriced_eq {overrides : Option Dict} : unpriced (overrides.getD []) catalog b =
    !(decide (strip b.model = "") || (catalogGate overrides catalog).priced b) := by
  unfold unpriced catalogGate
  dsimp only
  rw [Bool.or_assoc]

/-- An update passes the gate exactly if no role is reported. -/
theorem catalogGate_passes_iff {overrides : Option Dict} {cfg : IntegrationConfig} :
    (catalogGate overrides catalog).passes T cfg = .ok true ↔
      unpricedConfig T true overrides catalog cfg = .ok [] := by
  have htracking : (catalogGate overrides catalog).costTracking = true := rfl
  unfold PriceGate.passes
  rw [htracking]
  cases hroles : rolesForConfig T cfg none with
  | error e =>
    have hfails : unpricedConfig T true overrides catalog cfg = .error e := by
      unfold unpricedConfig
      rw [hroles]
      rfl
    rw [hfails]
    exact iff_of_false (by simp [Bind.bind, Except.bind]) (by simp)
  | ok roles =>
    rw [unpricedConfig_eq hroles]
    simp only [Bool.not_true, Bool.false_eq_true, if_false, Bind.bind, Except.bind,
      Except.ok.injEq, List.map_eq_nil_iff, List.filter_eq_nil_iff, List.all_eq_true, unpriced_eq,
      Bool.not_eq_true', Bool.not_eq_false]

/-! ### A padded name and a malformed price -/

def catalogued : List ModelPrice :=
  [⟨"openai", none, "gpt-4o", [("input_per_mtok_microusd", .int 2500000),
    ("output_per_mtok_microusd", .int 10000000)]⟩]

def paddedConfig : IntegrationConfig := { llmModel := "gpt-4o " }

def localConfig : IntegrationConfig := { llmModel := "m" }

/-- An override without an output price. -/
def halfPriced : Dict := [("m", .dict [("input", .int 1)])]

end SocTalk.Llm
