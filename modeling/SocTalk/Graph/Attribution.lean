import SocTalk.Graph.Track

/-! When the label of a call names the price it was computed with. The rates come from all entries
of the snapshot that match the model, the label from the first that names it. -/
namespace SocTalk.Graph
open Py

/-! ## What the snapshot says of a model -/

/-- The rates of an entry, where reading them does not raise. -/
def readRates (entry : Dict) : Option Rates :=
  match ratesFromEntry entry with
  | .ok rates => rates
  | .error _ => none

/-- The matching entries with readable rates. -/
def rated (found : List Dict) : List (Dict × Rates) :=
  found.filterMap fun entry => (readRates entry).map (entry, ·)

/-- The first readable entry, where every other one agrees with its rates. -/
def Prices (found : List Dict) (p : Dict) (rates : Rates) : Prop :=
  ∃ rest, rated found = (p, rates) :: rest ∧ ∀ other ∈ rest, other.2.eq rates = true

def AllUnknown (found : List Dict) : Prop :=
  found ≠ [] ∧ ∀ entry ∈ found, isUnknown (sourceOf entry) = true

/-- The label of the shipped table and of the fallback. -/
def tableSource (model : String) : Value :=
  .str (if (tablePrice (some model)).isSome then "builtin" else "unknown")

/-- The source that the first entry for the model carries; without one, the table's. -/
def carriedSource (entries : List Dict) (model : String) : Value :=
  let source := ((entries.find? (names model)).map sourceOf).getD .none
  if source.truthy then source else tableSource model

/-- The unknown-model fallback prices the call. -/
def FallsBack (entries : List Dict) (model : String) : Prop :=
  AllUnknown (entries.filter (matchesModel model)) ∨
    ((¬∃ p rates, Prices (entries.filter (matchesModel model)) p rates) ∧
      tablePrice (some model) = none)

/-- The first entry for the model carries the source of the one that prices it. Where none does, it
carries no source or that of the table, or `unknown` where the fallback prices. -/
structure SourceAgrees (entries : List Dict) (model : String) : Prop where
  priced : ∀ p rates, Prices (entries.filter (matchesModel model)) p rates →
    carriedSource entries model = sourceOf p
  builtin : (¬∃ p rates, Prices (entries.filter (matchesModel model)) p rates) →
    ¬FallsBack entries model → carriedSource entries model = .str "builtin"
  fallback : FallsBack entries model → isUnknown (carriedSource entries model) = true

/-- The entries that are scanned; none without a snapshot or without a model. -/
def entriesFor (snapshot : Option Dict) (model : Option String) : M (List Dict) :=
  match priceable snapshot model with
  | none => return []
  | some (snapshot, _) => snapshotEntries snapshot

/-! ## The scan for rates -/

section

variable {found : List Dict}

theorem ratesFromEntry_of_unknown {e : Dict} (h : isUnknown (sourceOf e) = true) :
    ratesFromEntry e = .ok none := by
  unfold ratesFromEntry
  rw [if_pos h]
  rfl

theorem not_unknown_of_readRates {e : Dict} {r : Rates} (h : readRates e = some r) :
    isUnknown (sourceOf e) = false := by
  cases hu : isUnknown (sourceOf e) with
  | false => rfl
  | true =>
    unfold readRates at h
    rw [ratesFromEntry_of_unknown hu] at h
    cases h

theorem mem_of_rated {p : Dict} {r : Rates} (h : (p, r) ∈ rated found) :
    p ∈ found ∧ readRates p = some r := by
  obtain ⟨e, hmem, he⟩ := List.mem_filterMap.mp h
  obtain ⟨r', hr', heq⟩ := Option.map_eq_some_iff.mp he
  obtain ⟨rfl, rfl⟩ := Prod.mk.inj heq
  exact ⟨hmem, hr'⟩

theorem Prices.mem {p : Dict} {r : Rates} (h : Prices found p r) :
    p ∈ found ∧ isUnknown (sourceOf p) = false := by
  obtain ⟨rest, hrated, -⟩ := h
  obtain ⟨hmem, hread⟩ := @mem_of_rated found p r (by simp [hrated])
  exact ⟨hmem, not_unknown_of_readRates hread⟩

theorem not_prices_of_allUnknown (h : AllUnknown found) : ¬∃ p r, Prices found p r := by
  rintro ⟨p, r, hp⟩
  obtain ⟨hmem, hknown⟩ := hp.mem
  rw [h.2 p hmem] at hknown
  cases hknown

theorem mapM_ratesFromEntry (h : ∀ e ∈ found, Returns (ratesFromEntry e)) :
    found.mapM ratesFromEntry = .ok (found.map readRates) := by
  induction found with
  | nil => rfl
  | cons e es ih =>
    obtain ⟨r, hr⟩ := h e (by simp)
    have hread : readRates e = r := by
      unfold readRates
      rw [hr]
    rw [List.mapM_cons, hr, ih fun e' he' => h e' (by simp [he'])]
    simp [hread, bind, Except.bind, pure, Except.pure]

theorem zip_map_filterMap : (found.zip (found.map readRates)).filterMap
    (fun (entry, rates) => rates.map (entry, ·)) = rated found := by
  unfold rated
  induction found with
  | nil => rfl
  | cons e es ih => simp [List.filterMap_cons, ih]

/-- The scan answers with the entry that prices, with the sentinel, or with nothing. -/
theorem ratesOfMatches_spec {price : SnapshotPrice} (h : ratesOfMatches found = .ok price) :
    match price with
    | .rated p r => Prices found p r ∧ ¬AllUnknown found
    | .unknown => AllUnknown found
    | .absent => (¬∃ p r, Prices found p r) ∧ ¬AllUnknown found := by
  unfold ratesOfMatches at h
  split at h
  · rename_i hempty
    obtain rfl := (pure_eq_ok _ _).mp h
    have hnil := List.isEmpty_iff.mp hempty
    subst hnil
    refine ⟨?_, fun hall => hall.1 rfl⟩
    rintro ⟨p, r, rest, hrated, -⟩
    cases hrated
  · rename_i hne
    split at h
    · rename_i hall
      obtain rfl := (pure_eq_ok _ _).mp h
      exact ⟨fun hnil => hne (by simp [hnil]), by simpa using hall⟩
    · rename_i hall
      have hnot : ¬AllUnknown found := fun hu => hall (by simpa using hu.2)
      obtain ⟨rs, hrs, h⟩ := (bind_eq_ok _ _ _).mp h
      have hread := mapM_ratesFromEntry (returns_of_mapM_eq_ok hrs)
      obtain rfl : found.map readRates = rs := by simpa using hread.symm.trans hrs
      rw [zip_map_filterMap] at h
      have hprice := (pure_eq_ok _ _).mp h
      unfold agreedRates at hprice
      cases hrated : rated found with
      | nil =>
        rw [hrated] at hprice
        subst hprice
        refine ⟨?_, hnot⟩
        rintro ⟨p, r, rest, hcons, -⟩
        rw [hrated] at hcons
        cases hcons
      | cons first rest =>
        obtain ⟨p, r⟩ := first
        rw [hrated] at hprice
        dsimp only at hprice
        split at hprice
        · rename_i hany
          subst hprice
          refine ⟨?_, hnot⟩
          rintro ⟨p', r', rest', hcons, hagree⟩
          rw [hrated] at hcons
          obtain ⟨heq, rfl⟩ := List.cons.inj hcons
          obtain ⟨rfl, rfl⟩ := Prod.mk.inj heq
          obtain ⟨other, hother, hdiff⟩ := List.any_eq_true.mp hany
          rw [hagree other hother] at hdiff
          cases hdiff
        · rename_i hany
          subst hprice
          refine ⟨⟨rest, hrated, fun other hother => ?_⟩, hnot⟩
          by_contra hdiff
          exact hany (List.any_eq_true.mpr ⟨other, hother, by simpa using hdiff⟩)

theorem returns_ratesOfMatches_iff : Returns (ratesOfMatches found) ↔
    found = [] ∨ AllUnknown found ∨ ∀ e ∈ found, Returns (ratesFromEntry e) := by
  unfold ratesOfMatches
  by_cases hempty : found = []
  · simp [hempty]
  by_cases hall : AllUnknown found
  · have hscan : (found.all fun e => isUnknown (sourceOf e)) = true := by simpa using hall.2
    simp [hempty, hall, hscan]
  · have hscan : ¬(found.all fun e => isUnknown (sourceOf e)) = true := fun hscan =>
      hall ⟨hempty, by simpa using hscan⟩
    simp only [List.isEmpty_iff, hempty, hall, hscan, if_false, false_or]
    constructor
    · rintro ⟨price, hprice⟩
      obtain ⟨rs, hrs, -⟩ := (bind_eq_ok _ _ _).mp hprice
      exact returns_of_mapM_eq_ok hrs
    · intro hreturns
      exact (returns_mapM hreturns).bind fun _ _ => ⟨_, rfl⟩

end

/-! ## The label and the price of a call -/

theorem priceable_eq_some {snapshot : Option Dict} {model : Option String} {e : Dict} {m : String}
    (h : priceable snapshot model = some (e, m)) : snapshot = some e ∧ model = some m := by
  unfold priceable at h
  split at h
  · split at h
    · cases h
    · cases h
      exact ⟨rfl, rfl⟩
  · cases h

theorem tablePrice_getD (model : Option String) :
    tablePrice (some (model.getD "")) = tablePrice model := by
  cases model with
  | none => decide
  | some m => rfl

section

variable {env : Option String} {snapshot : Option Dict} {model : Option String}

theorem snapshotRates_eq : snapshotRates snapshot model = (do
    let entries ← entriesFor snapshot model
    ratesOfMatches (entries.filter (matchesModel (model.getD "")))) := by
  unfold snapshotRates entriesFor
  cases hp : priceable snapshot model with
  | none => rfl
  | some dm =>
    obtain ⟨d, m⟩ := dm
    obtain ⟨-, rfl⟩ := priceable_eq_some hp
    rfl

theorem priceLabel_eq : priceLabel snapshot model = (do
    let entries ← entriesFor snapshot model
    return carriedSource entries (model.getD "")) := by
  unfold priceLabel snapshotSource entriesFor carriedSource tableSource
  rw [tablePrice_getD]
  cases hp : priceable snapshot model with
  | none => rfl
  | some dm =>
    obtain ⟨d, m⟩ := dm
    obtain ⟨-, rfl⟩ := priceable_eq_some hp
    dsimp only [Option.getD_some]
    cases snapshotEntries d <;> rfl

theorem map_fallback_eq_ok {x : M Rates} {origin : Origin} {rates : Rates} :
    x.map (Origin.fallback, ·) = .ok (origin, rates) ↔ origin = .fallback ∧ x = .ok rates := by
  cases x with
  | error e => simp [Except.map]
  | ok r => simp [Except.map, eq_comm]

/-- What prices a call whose entries can be read. -/
theorem selectPrice_eq {entries : List Dict} {price : SnapshotPrice}
    (hentries : entriesFor snapshot model = .ok entries)
    (hprice : ratesOfMatches (entries.filter (matchesModel (model.getD ""))) = .ok price) :
    selectPrice env snapshot model =
      match price with
      | .rated entry rates => .ok (.source (sourceOf entry), rates)
      | .unknown => (unknownModelCost env).map (Origin.fallback, ·)
      | .absent =>
        match tablePrice model with
        | some rates => .ok (.source (.str "builtin"), rates)
        | none => (unknownModelCost env).map (Origin.fallback, ·) := by
  have hrates : snapshotRates snapshot model = .ok price := by
    rw [snapshotRates_eq, hentries]
    exact hprice
  unfold selectPrice
  rw [hrates]
  cases price with
  | rated entry rates => rfl
  | unknown =>
    show (do return (Origin.fallback, ← unknownModelCost env) : M (Origin × Rates)) = _
    cases unknownModelCost env <;> rfl
  | absent =>
    show (match tablePrice model with
      | some rates => (return (Origin.source (.str "builtin"), rates) : M (Origin × Rates))
      | none => do return (Origin.fallback, ← unknownModelCost env)) = _
    cases tablePrice model with
    | some rates => rfl
    | none =>
      dsimp only
      cases unknownModelCost env <;> rfl

end

/-- The origin that a label has to name. -/
def Due (entries : List Dict) (model : String) : Origin → Prop
  | .fallback => FallsBack entries model
  | .source v => (∃ p rates, Prices (entries.filter (matchesModel model)) p rates ∧ v = sourceOf p) ∨
      ((¬∃ p rates, Prices (entries.filter (matchesModel model)) p rates) ∧
        ¬FallsBack entries model ∧ v = .str "builtin")

/-- The label is that of the origin. -/
def LabelNames (label : Value) (origin : Origin) : Prop :=
  (isUnknown label = true ↔ origin = .fallback) ∧ ∀ v, origin = .source v → label = v

theorem due_of_selectPrice {env : Option String} {snapshot : Option Dict} {model : Option String}
    {entries : List Dict} {origin : Origin} {rates : Rates}
    (hentries : entriesFor snapshot model = .ok entries)
    (h : selectPrice env snapshot model = .ok (origin, rates)) :
    Due entries (model.getD "") origin := by
  have hreturns : ∃ price, ratesOfMatches (entries.filter (matchesModel (model.getD ""))) =
      .ok price := by
    unfold selectPrice at h
    obtain ⟨price, hprice, -⟩ := (bind_eq_ok _ _ _).mp h
    rw [snapshotRates_eq, hentries] at hprice
    exact ⟨price, hprice⟩
  obtain ⟨price, hprice⟩ := hreturns
  rw [selectPrice_eq hentries hprice] at h
  have hspec := ratesOfMatches_spec hprice
  cases price with
  | rated p r =>
    cases h
    exact Or.inl ⟨p, _, hspec.1, rfl⟩
  | unknown =>
    obtain ⟨rfl, -⟩ := map_fallback_eq_ok.mp h
    exact Or.inl hspec
  | absent =>
    dsimp only at h
    cases htable : tablePrice model with
    | some r =>
      rw [htable] at h
      cases h
      refine Or.inr ⟨hspec.1, ?_, rfl⟩
      rintro (hall | ⟨-, hnone⟩)
      · exact hspec.2 hall
      · rw [tablePrice_getD, htable] at hnone
        cases hnone
    | none =>
      rw [htable] at h
      obtain ⟨rfl, -⟩ := map_fallback_eq_ok.mp h
      exact Or.inr ⟨hspec.1, by rw [tablePrice_getD, htable]⟩

theorem Prices.unique {found : List Dict} {p p' : Dict} {r r' : Rates} (h : Prices found p r)
    (h' : Prices found p' r') : p = p' := by
  obtain ⟨rest, hrated, -⟩ := h
  obtain ⟨rest', hrated', -⟩ := h'
  rw [hrated] at hrated'
  exact congrArg Prod.fst (List.cons.inj hrated').1

theorem FallsBack.not_prices {entries : List Dict} {model : String} (h : FallsBack entries model) :
    ¬∃ p r, Prices (entries.filter (matchesModel model)) p r :=
  h.elim not_prices_of_allUnknown And.left

/-- The label names a due origin exactly if the sources agree. -/
theorem labelNames_iff {entries : List Dict} {model : String} {origin : Origin}
    (hdue : Due entries model origin) :
    LabelNames (carriedSource entries model) origin ↔ SourceAgrees entries model := by
  cases origin with
  | fallback =>
    have hnone := hdue.not_prices
    constructor
    · intro h
      refine ⟨fun p r hp => absurd ⟨p, r, hp⟩ hnone, fun _ hnot => absurd hdue hnot, fun _ => ?_⟩
      exact h.1.mpr rfl
    · intro h
      exact ⟨iff_of_true (h.fallback hdue) rfl, fun v hv => by cases hv⟩
  | source v =>
    rcases hdue with ⟨p, r, hp, rfl⟩ | ⟨hnone, hnot, rfl⟩
    · have hfalls : ¬FallsBack entries model := fun hf => hf.not_prices ⟨p, r, hp⟩
      constructor
      · intro h
        refine ⟨fun p' r' hp' => ?_, fun hn => absurd ⟨p, r, hp⟩ hn, fun hf => absurd hf hfalls⟩
        rw [hp'.unique hp]
        exact h.2 _ rfl
      · intro h
        have hlabel := h.priced p r hp
        refine ⟨?_, fun v hv => ?_⟩
        · rw [hlabel, hp.mem.2]
          exact iff_of_false (by simp) (by simp)
        · cases hv
          exact hlabel
    · constructor
      · intro h
        exact ⟨fun p r hp => absurd ⟨p, r, hp⟩ hnone, fun _ _ => h.2 _ rfl,
          fun hf => absurd hf hnot⟩
      · intro h
        have hlabel := h.builtin hnone hnot
        refine ⟨?_, fun v hv => ?_⟩
        · rw [hlabel]
          exact iff_of_false (by decide) (by simp)
        · cases hv
          exact hlabel

/-! ## Calls that are priced without an exception -/

section

variable {round : ℚ → FloatVal}

theorem returns_portion_iff (n : ℤ) (rate : FloatVal) :
    Returns (portion round n rate) ↔ Returns (FloatVal.ofInt round n) := by
  unfold portion
  rw [returns_bind_iff]
  constructor
  · rintro ⟨x, hx, -⟩
    exact ⟨x, hx⟩
  · rintro ⟨x, hx⟩
    refine ⟨x, hx, ?_⟩
    cases x <;> exact ⟨_, rfl⟩

theorem returns_costDollars_iff (u : CallUsage) (price : Rates) :
    Returns (costDollars round u price) ↔
      ∀ n ∈ u.split.counts, Returns (FloatVal.ofInt round n) := by
  have hparts : Returns ((u.split.counts.zip (price.parts round)).mapM
      fun p => portion round p.1 p.2) ↔ ∀ n ∈ u.split.counts, Returns (FloatVal.ofInt round n) := by
    constructor
    · rintro ⟨xs, hxs⟩
      have hall := returns_of_mapM_eq_ok hxs
      simp only [TokenSplit.counts, Rates.parts, List.zip_cons_cons, List.zip_nil_right,
        List.forall_mem_cons, List.not_mem_nil, false_imp_iff, implies_true, and_true,
        returns_portion_iff] at hall ⊢
      exact hall
    · intro hall
      refine returns_mapM fun p hp => (returns_portion_iff _ _).mpr (hall _ ?_)
      exact (List.of_mem_zip hp).1
  unfold costDollars
  rw [← hparts]
  constructor
  · rintro ⟨c, hc⟩
    obtain ⟨xs, hxs, -⟩ := (bind_eq_ok _ _ _).mp hc
    exact ⟨xs, hxs⟩
  · rintro ⟨xs, hxs⟩
    rw [hxs]
    exact ⟨_, rfl⟩

end

/-- Nothing raises: the entries are a mapping, and no number that is read is too large for a
float. -/
structure Readable (round : ℚ → FloatVal) (env : TrackEnv) (snapshot : Option Dict)
    (model : Option String) (u : CallUsage) : Prop where
  entries : Returns (entriesFor snapshot model)
  rates : ∀ entries, entriesFor snapshot model = .ok entries →
    AllUnknown (entries.filter (matchesModel (model.getD ""))) ∨
      ∀ e ∈ entries.filter (matchesModel (model.getD "")), Returns (ratesFromEntry e)
  fallback : ∀ entries, entriesFor snapshot model = .ok entries →
    FallsBack entries (model.getD "") → Returns (unknownModelCost env.unknownModelCost)
  counts : ∀ n ∈ u.split.counts, Returns (FloatVal.ofInt round n)

section

variable {round : ℚ → FloatVal} {env : TrackEnv} {snapshot : Option Dict} {model : Option String}
  {u : CallUsage}

theorem Readable.selectPrice (h : Readable round env snapshot model u) :
    Returns (selectPrice env.unknownModelCost snapshot model) := by
  obtain ⟨entries, hentries⟩ := h.entries
  have hfound : Returns (ratesOfMatches (entries.filter (matchesModel (model.getD "")))) :=
    returns_ratesOfMatches_iff.mpr (Or.inr (h.rates entries hentries))
  obtain ⟨price, hprice⟩ := hfound
  have hspec := ratesOfMatches_spec hprice
  have hcost : FallsBack entries (model.getD "") → Returns
      ((unknownModelCost env.unknownModelCost).map (Origin.fallback, ·)) := by
    intro hfalls
    obtain ⟨r, hr⟩ := h.fallback entries hentries hfalls
    rw [hr]
    exact ⟨_, rfl⟩
  rw [selectPrice_eq hentries hprice]
  cases price with
  | rated p r => exact ⟨_, rfl⟩
  | unknown => exact hcost (Or.inl hspec)
  | absent =>
    dsimp only
    cases htable : tablePrice model with
    | some r => exact ⟨_, rfl⟩
    | none => exact hcost (Or.inr ⟨hspec.1, by rw [tablePrice_getD, htable]⟩)

/-- An estimated call that is priced was readable. -/
theorem readable_of_callPrice {c : Origin × FloatVal} (hactual : u.actualCost = none)
    (h : callPrice round env snapshot model u = .ok c) : Readable round env snapshot model u := by
  unfold callPrice at h
  rw [hactual] at h
  obtain ⟨⟨origin, rates⟩, hselect, h⟩ := (bind_eq_ok _ _ _).mp h
  obtain ⟨cost, hcost, -⟩ := (bind_eq_ok _ _ _).mp h
  have hcounts := (returns_costDollars_iff u rates).mp ⟨cost, hcost⟩
  have hscan := hselect
  unfold selectPrice at hscan
  obtain ⟨price, hprice, -⟩ := (bind_eq_ok _ _ _).mp hscan
  rw [snapshotRates_eq] at hprice
  obtain ⟨entries, hentries, hprice⟩ := (bind_eq_ok _ _ _).mp hprice
  refine ⟨⟨entries, hentries⟩, fun es hes => ?_, fun es hes hfalls => ?_, hcounts⟩
  · obtain rfl : entries = es := by simpa using hentries.symm.trans hes
    rcases returns_ratesOfMatches_iff.mp ⟨price, hprice⟩ with hnil | hrest
    · rw [hnil]
      exact Or.inr fun e he => absurd he List.not_mem_nil
    · exact hrest
  · obtain rfl : entries = es := by simpa using hentries.symm.trans hes
    rw [selectPrice_eq hentries hprice] at hselect
    have hspec := ratesOfMatches_spec hprice
    cases price with
    | rated p r => exact absurd ⟨p, r, hspec.1⟩ hfalls.not_prices
    | unknown => exact ⟨rates, (map_fallback_eq_ok.mp hselect).2⟩
    | absent =>
      dsimp only at hselect
      cases htable : tablePrice model with
      | none =>
        rw [htable] at hselect
        exact ⟨rates, (map_fallback_eq_ok.mp hselect).2⟩
      | some r =>
        rcases hfalls with hall | ⟨-, hnone⟩
        · exact absurd hall hspec.2
        · rw [tablePrice_getD, htable] at hnone
          cases hnone

end

/-! ## Calls and their labels -/

/-- The call is labelled `unknown` and its cost counted as unpriced exactly if the fallback priced
it; else the label is the source of the rates that were used. -/
def Attributed (round : ℚ → FloatVal) (env : TrackEnv) (s : TrackState) (model : Option String)
    (u : CallUsage) : Prop :=
  ∃ s' origin cost, account round env s model u = .ok s' ∧
    callPrice round env s.priceSnapshot model u = .ok (origin, cost) ∧
    LabelNames s'.priceSource origin ∧
    (origin = .fallback → s'.dollarsUnpriced =
      some (FloatVal.add round (s.dollarsUnpriced.getD (.fin 0)) cost)) ∧
    (origin ≠ .fallback → s'.dollarsUnpriced = s.dollarsUnpriced)

/-- What `account` leaves of the label and the unpriced dollars. -/
theorem account_eq {round : ℚ → FloatVal} {env : TrackEnv} {s s' : TrackState}
    {model : Option String} {u : CallUsage} (h : account round env s model u = .ok s') :
    ∃ origin cost label, callPrice round env s.priceSnapshot model u = .ok (origin, cost) ∧
      callLabel s.priceSnapshot model u = .ok label ∧ s'.priceSource = label ∧
      s'.dollarsUnpriced = if isUnknown label then
        some (FloatVal.add round (s.dollarsUnpriced.getD (.fin 0)) cost) else s.dollarsUnpriced := by
  unfold account at h
  obtain ⟨⟨origin, cost⟩, hprice, h⟩ := (bind_eq_ok _ _ _).mp h
  obtain ⟨label, hlabel, h⟩ := (bind_eq_ok _ _ _).mp h
  cases (pure_eq_ok _ _).mp h
  exact ⟨origin, cost, label, hprice, hlabel, rfl, rfl⟩

theorem exists_account {round : ℚ → FloatVal} {env : TrackEnv} {s : TrackState}
    {model : Option String} {u : CallUsage} {origin : Origin} {cost : FloatVal} {label : Value}
    (hprice : callPrice round env s.priceSnapshot model u = .ok (origin, cost))
    (hlabel : callLabel s.priceSnapshot model u = .ok label) :
    ∃ s', account round env s model u = .ok s' ∧ s'.priceSource = label ∧
      s'.dollarsUnpriced = if isUnknown label then
        some (FloatVal.add round (s.dollarsUnpriced.getD (.fin 0)) cost) else s.dollarsUnpriced := by
  unfold account
  rw [hprice, hlabel]
  exact ⟨_, rfl, rfl, rfl⟩

/-- The label is right exactly if nothing raises and the first entry for the model carries the
source of what prices the call; with a cost that the provider reports it always is. -/
theorem attributed_iff (round : ℚ → FloatVal) (env : TrackEnv) (s : TrackState)
    (model : Option String) (u : CallUsage) :
    Attributed round env s model u ↔ u.actualCost.isSome = true ∨
      (Readable round env s.priceSnapshot model u ∧
        ∀ entries, entriesFor s.priceSnapshot model = .ok entries →
          SourceAgrees entries (model.getD "")) := by
  have hgood : ∀ {label : Value} {origin : Origin} {cost : FloatVal},
      callPrice round env s.priceSnapshot model u = .ok (origin, cost) →
      callLabel s.priceSnapshot model u = .ok label → LabelNames label origin →
      Attributed round env s model u := by
    intro label origin cost hprice hlabel hnames
    obtain ⟨s', haccount, rfl, hunpriced⟩ := exists_account hprice hlabel
    refine ⟨s', origin, cost, haccount, hprice, hnames, fun hf => ?_, fun hf => ?_⟩
    · rw [hunpriced, if_pos (hnames.1.mpr hf)]
    · rw [hunpriced, if_neg fun hu => hf (hnames.1.mp hu)]
  cases hactual : u.actualCost with
  | some c =>
    refine iff_of_true ?_ (Or.inl rfl)
    have hprice : callPrice round env s.priceSnapshot model u =
        .ok (.source (.str "provider"), c) := by
      unfold callPrice
      rw [hactual]
      rfl
    have hlabel : callLabel s.priceSnapshot model u = .ok (.str "provider") := by
      unfold callLabel
      rw [hactual]
      rfl
    have hnames : LabelNames (.str "provider") (.source (.str "provider")) :=
      ⟨iff_of_false (by decide) (by simp), fun v hv => by cases hv; rfl⟩
    exact hgood hprice hlabel hnames
  | none =>
    simp only [Option.isSome_none, Bool.false_eq_true, false_or]
    have hlabel : callLabel s.priceSnapshot model u = priceLabel s.priceSnapshot model := by
      unfold callLabel
      rw [hactual]
    constructor
    · rintro ⟨s', origin, cost, haccount, hprice, hnames, -, -⟩
      have hreadable := readable_of_callPrice hactual hprice
      refine ⟨hreadable, fun entries hentries => ?_⟩
      obtain ⟨-, -, label, -, hlab, hsource, -⟩ := account_eq haccount
      rw [hlabel, priceLabel_eq, hentries] at hlab
      obtain rfl := (pure_eq_ok _ _).mp hlab
      rw [hsource] at hnames
      unfold callPrice at hprice
      rw [hactual] at hprice
      obtain ⟨⟨origin', rates⟩, hselect, hprice⟩ := (bind_eq_ok _ _ _).mp hprice
      obtain ⟨cost', -, hprice⟩ := (bind_eq_ok _ _ _).mp hprice
      cases (pure_eq_ok _ _).mp hprice
      exact (labelNames_iff (due_of_selectPrice hentries hselect)).mp hnames
    · rintro ⟨hreadable, hagrees⟩
      obtain ⟨entries, hentries⟩ := hreadable.entries
      obtain ⟨⟨origin, rates⟩, hselect⟩ := hreadable.selectPrice
      obtain ⟨cost, hcost⟩ := (returns_costDollars_iff u rates).mpr hreadable.counts
      have hprice : callPrice round env s.priceSnapshot model u = .ok (origin, cost) := by
        unfold callPrice
        rw [hactual]
        dsimp only
        rw [hselect]
        show (do let cost ← costDollars round u rates; return (origin, cost) : M _) = _
        rw [hcost]
        rfl
      have hlab : callLabel s.priceSnapshot model u = .ok (carriedSource entries (model.getD "")) := by
        rw [hlabel, priceLabel_eq, hentries]
        rfl
      have hnames := (labelNames_iff (due_of_selectPrice hentries hselect)).mpr
        (hagrees entries hentries)
      exact hgood hprice hlab hnames

/-- One model string under two roles, unknown at the first backend and in the catalog of the
second. -/
def hybridSnapshot : Dict :=
  [("models", .dict
    [("fast", .dict [("model", .str "m"), ("source", .str "unknown")]),
      ("reasoning", .dict [("model", .str "m"), ("source", .str "catalog"),
        ("input_per_mtok", .float (.fin 1)), ("output_per_mtok", .float (.fin 2))])])]

/-- The call is priced at the catalog's rates and labelled `unknown`. -/
theorem not_attributed_hybrid :
    selectPrice none (some hybridSnapshot) (some "m") =
      .ok (.source (.str "catalog"), ⟨.fin 1, .fin 2, none, none, none⟩) ∧
    priceLabel (some hybridSnapshot) (some "m") = .ok (.str "unknown") ∧
    ¬Attributed .ofRat {} { priceSnapshot := some hybridSnapshot } (some "m")
      { inputTokens := 1000, outputTokens := 1000 } := by
  have hselect : selectPrice none (some hybridSnapshot) (some "m") =
      .ok (.source (.str "catalog"), ⟨.fin 1, .fin 2, none, none, none⟩) := rfl
  have hlabel : priceLabel (some hybridSnapshot) (some "m") = .ok (.str "unknown") := rfl
  refine ⟨hselect, hlabel, ?_⟩
  rintro ⟨s', origin, cost, haccount, hprice, hnames, -, -⟩
  obtain ⟨-, -, label, -, hlab, hsource, -⟩ := account_eq haccount
  obtain rfl : Value.str "unknown" = label := by
    have hlab' : priceLabel (some hybridSnapshot) (some "m") = .ok label := hlab
    simpa using hlabel.symm.trans hlab'
  have horigin : origin = .fallback := hnames.1.mp (by rw [hsource]; decide)
  obtain ⟨c, hc, hprice⟩ := (bind_eq_ok _ _ _).mp hprice
  obtain rfl : _ = c := by simpa using hselect.symm.trans hc
  obtain ⟨cost', -, hprice⟩ := (bind_eq_ok _ _ _).mp hprice
  cases (pure_eq_ok _ _).mp hprice
  cases horigin

end SocTalk.Graph
