import SocTalk.Graph.Attribution
import SocTalk.Graph.Usage
import SocTalk.Lib.FloatOrder
import Mathlib.Algebra.Order.BigOperators.Group.List

/-! What a sequence of calls does to the totals of a run, with costs as exact numbers. -/
namespace SocTalk.Graph
open Py
open TriagePolicy (toInt)

/-- A number that is not negative. -/
def Nonneg (x : FloatVal) : Prop := ∃ q : ℚ, x = .fin q ∧ 0 ≤ q

/-! ## What is read off a response -/

theorem asInt_nonneg {v : Value} {n : ℤ} (h : asInt v = .ok n) : 0 ≤ n := by
  obtain ⟨out, -, h⟩ := (bind_eq_ok _ _ _).mp h
  rw [← (pure_eq_ok _ _).mp h]
  omega

theorem orInt_nonneg {current n : ℤ} {v : Value} (hcurrent : 0 ≤ current)
    (h : orInt current v = .ok n) : 0 ≤ n := by
  unfold orInt at h
  split at h
  · rw [← (pure_eq_ok _ _).mp h]
    exact hcurrent
  · exact asInt_nonneg h

theorem readTotal_nonneg {block : Dict} {keys : List String} {current n : ℤ}
    (hcurrent : 0 ≤ current) (h : readTotal block keys current = .ok n) : 0 ≤ n := by
  refine foldlM_inv (P := fun n => 0 ≤ n) (fun b key b' hb hstep => ?_) hcurrent h
  split at hstep
  · rw [← (pure_eq_ok _ _).mp hstep]
    exact hb
  · exact orInt_nonneg hb hstep

theorem nonneg_of_accepted {cost : FloatVal}
    (h : (cost.eq cost && (FloatVal.fin 0).le cost && !cost.eq .posInf) = true) : Nonneg cost := by
  cases cost with
  | fin q =>
    have hle : (FloatVal.fin 0).le (.fin q) = true := by
      simp only [Bool.and_eq_true] at h
      exact h.1.2
    refine ⟨q, rfl, ?_⟩
    exact FloatVal.fin_le_fin.mp hle
  | posInf | negInf | nan => exact absurd h (by decide)

theorem readCost_nonneg {block : Dict} {current : Option FloatVal} {read : Option FloatVal}
    (hcurrent : ∀ c, current = some c → Nonneg c) (h : readCost block current = .ok read) :
    ∀ c, read = some c → Nonneg c := by
  intro c hc
  unfold readCost at h
  split at h
  · rename_i cost _
    have hread := (pure_eq_ok _ _).mp h
    exact hcurrent c (by rw [← hc, ← hread])
  · have hread := (pure_eq_ok _ _).mp h
    rw [← hread] at hc
    cases hc
  · obtain ⟨out, -, h⟩ := (bind_eq_ok _ _ _).mp h
    cases out with
    | none =>
      have hread := (pure_eq_ok _ _).mp h
      rw [← hread] at hc
      cases hc
    | some cost =>
      have hread := (pure_eq_ok _ _).mp h
      rw [← hread] at hc
      split at hc
      · rename_i haccepted
        cases hc
        exact nonneg_of_accepted haccepted
      · cases hc

/-- No total is negative, and no cost that was accepted. -/
structure CanonicalUsage.Sound (u : CanonicalUsage) : Prop where
  input : 0 ≤ u.inputTokens
  output : 0 ≤ u.outputTokens
  actual : ∀ c, u.actualCostUsd = some c → Nonneg c

theorem readBlock_sound {u u' : CanonicalUsage} {block : Dict} (hu : u.Sound)
    (h : readBlock u block = .ok u') : u'.Sound := by
  obtain ⟨input, hinput, h⟩ := (bind_eq_ok _ _ _).mp h
  obtain ⟨output, houtput, h⟩ := (bind_eq_ok _ _ _).mp h
  obtain ⟨_, -, h⟩ := (bind_eq_ok _ _ _).mp h
  obtain ⟨_, -, h⟩ := (bind_eq_ok _ _ _).mp h
  obtain ⟨_, -, h⟩ := (bind_eq_ok _ _ _).mp h
  obtain ⟨_, -, h⟩ := (bind_eq_ok _ _ _).mp h
  obtain ⟨_, -, h⟩ := (bind_eq_ok _ _ _).mp h
  obtain ⟨_, -, h⟩ := (bind_eq_ok _ _ _).mp h
  obtain ⟨actual, hactual, h⟩ := (bind_eq_ok _ _ _).mp h
  rw [← (pure_eq_ok _ _).mp h]
  constructor
  · exact readTotal_nonneg hu.input hinput
  · exact readTotal_nonneg hu.output houtput
  · exact readCost_nonneg hu.actual hactual

theorem canonicalUsage_sound {r : Response} {u : CanonicalUsage} (h : canonicalUsage r = .ok u) :
    u.Sound := by
  obtain ⟨read, hread, h⟩ := (bind_eq_ok _ _ _).mp h
  have hsound : read.Sound := by
    refine foldlM_inv (P := CanonicalUsage.Sound) (fun _ _ _ hb hstep => readBlock_sound hb hstep)
      ?_ hread
    exact ⟨le_refl 0, le_refl 0, fun c hc => by cases hc⟩
  rw [← (pure_eq_ok _ _).mp h]
  exact ⟨hsound.input, hsound.output, hsound.actual⟩

/-- Neither total that a readable response reports is negative. -/
def ReportsNonneg (r : Response) : Prop :=
  ∀ input output, toInt (reported r).1 = .ok input → toInt (reported r).2 = .ok output →
    Returns (readUsage r) → 0 ≤ input ∧ 0 ≤ output

theorem CanonicalUsage.Sound.totals_nonneg_iff {usage : CanonicalUsage} (h : usage.Sound)
    (extracted : ℤ × ℤ) : 0 ≤ (usage.totals extracted).1 ∧ 0 ≤ (usage.totals extracted).2 ↔
      0 ≤ extracted.1 ∧ 0 ≤ extracted.2 := by
  have hin := h.input
  have hout := h.output
  unfold CanonicalUsage.totals
  split
  · dsimp only
    omega
  · rfl

/-- The totals are those reported, or the canonical ones where both are zero. -/
theorem readUsage_spec {r : Response} {u : CallUsage} (h : readUsage r = .ok u) :
    (∀ c, u.actualCost = some c → Nonneg c) ∧
      ∃ input output, toInt (reported r).1 = .ok input ∧ toInt (reported r).2 = .ok output ∧
        (0 ≤ u.inputTokens ∧ 0 ≤ u.outputTokens ↔ 0 ≤ input ∧ 0 ≤ output) := by
  obtain ⟨usage, husage, h⟩ := (bind_eq_ok _ _ _).mp h
  have hsound := canonicalUsage_sound husage
  obtain ⟨extracted, hextract, h⟩ := (bind_eq_ok _ _ _).mp h
  obtain ⟨_, -, h⟩ := (bind_eq_ok _ _ _).mp h
  rw [← (pure_eq_ok _ _).mp h]
  obtain ⟨input, hin, hextract⟩ := (bind_eq_ok _ _ _).mp hextract
  obtain ⟨output, hout, hextract⟩ := (bind_eq_ok _ _ _).mp hextract
  rw [← (pure_eq_ok _ _).mp hextract]
  exact ⟨hsound.actual, input, output, hin, hout, hsound.totals_nonneg_iff _⟩

theorem reportsNonneg_iff {r : Response} : ReportsNonneg r ↔
    ∀ u, readUsage r = .ok u → 0 ≤ u.inputTokens ∧ 0 ≤ u.outputTokens := by
  constructor
  · intro h u hu
    obtain ⟨-, input, output, hin, hout, hiff⟩ := readUsage_spec hu
    exact hiff.mpr (h input output hin hout ⟨u, hu⟩)
  · intro h input output hin hout hreturns
    obtain ⟨u, hu⟩ := hreturns
    obtain ⟨-, input', output', hin', hout', hiff⟩ := readUsage_spec hu
    have hi : input = input' := by simpa using hin.symm.trans hin'
    have ho : output = output' := by simpa using hout.symm.trans hout'
    rw [hi, ho]
    exact hiff.mp (h u hu)

/-! ## The cost of a call -/

/-- No rate of a price is negative. -/
structure Rates.Nonneg (r : Rates) : Prop where
  input : Graph.Nonneg r.input
  output : Graph.Nonneg r.output
  cacheRead : ∀ x, r.cacheRead = some x → Graph.Nonneg x
  cacheWrite : ∀ x, r.cacheWrite = some x → Graph.Nonneg x
  reasoning : ∀ x, r.reasoning = some x → Graph.Nonneg x

theorem nonneg_getD {rate : Option FloatVal} {dflt : FloatVal} (h : ∀ x, rate = some x → Nonneg x)
    (hdflt : Nonneg dflt) : Nonneg (rate.getD dflt) := by
  cases rate with
  | none => exact hdflt
  | some x => exact h x rfl

theorem Nonneg.mul {x y : FloatVal} (hx : Nonneg x) (hy : Nonneg y) :
    Nonneg (FloatVal.mul .fin x y) := by
  obtain ⟨p, rfl, hp⟩ := hx
  obtain ⟨q, rfl, hq⟩ := hy
  exact ⟨p * q, rfl, mul_nonneg hp hq⟩

theorem Rates.Nonneg.parts {r : Rates} (h : r.Nonneg) : ∀ x ∈ r.parts .fin, Graph.Nonneg x := by
  have htenth : Graph.Nonneg (.fin (1 / 10)) := ⟨_, rfl, by norm_num⟩
  have hquarters : Graph.Nonneg (.fin (5 / 4)) := ⟨_, rfl, by norm_num⟩
  intro x hx
  unfold Rates.parts at hx
  simp only [List.mem_cons, List.not_mem_nil, or_false] at hx
  rcases hx with rfl | rfl | rfl | rfl | rfl
  · exact h.input
  · exact nonneg_getD h.cacheRead (h.input.mul htenth)
  · exact nonneg_getD h.cacheWrite (h.input.mul hquarters)
  · exact h.output
  · exact nonneg_getD h.reasoning h.output

theorem exists_map_fin {xs : List FloatVal} (h : ∀ x ∈ xs, Nonneg x) :
    ∃ qs : List ℚ, xs = qs.map .fin ∧ ∀ q ∈ qs, 0 ≤ q := by
  induction xs with
  | nil => exact ⟨[], rfl, by simp⟩
  | cons x xs ih =>
    obtain ⟨q, rfl, hq⟩ := h x List.mem_cons_self
    obtain ⟨qs, hqs, hall⟩ := ih fun y hy => h y (List.mem_cons_of_mem _ hy)
    refine ⟨q :: qs, by simp [hqs], ?_⟩
    intro p hp
    rcases List.mem_cons.mp hp with rfl | hp
    · exact hq
    · exact hall p hp

/-- What the tokens of each kind cost. -/
def partCosts (counts : List ℤ) (rates : List ℚ) : List ℚ :=
  counts.zipWith (fun (n : ℤ) q => (n : ℚ) / 1000000 * q) rates

theorem mapM_portion (counts : List ℤ) (rates : List ℚ) :
    (counts.zip (rates.map .fin)).mapM (fun p => portion .fin p.1 p.2) =
      .ok ((partCosts counts rates).map FloatVal.fin) := by
  induction counts generalizing rates with
  | nil => rfl
  | cons n counts ih =>
    cases rates with
    | nil => rfl
    | cons q rates =>
      have hportion : portion .fin n (.fin q) = .ok (.fin ((n : ℚ) / 1000000 * q)) := rfl
      rw [List.map_cons, List.zip_cons_cons, List.mapM_cons, hportion, ih]
      rfl

theorem foldl_add_fin (acc : ℚ) (qs : List ℚ) :
    (qs.map FloatVal.fin).foldl (FloatVal.add .fin) (.fin acc) = .fin (acc + qs.sum) := by
  induction qs generalizing acc with
  | nil => simp
  | cons q qs ih =>
    have hadd : FloatVal.add .fin (.fin acc) (.fin q) = .fin (acc + q) := rfl
    rw [List.map_cons, List.foldl_cons, hadd, ih, List.sum_cons, add_assoc]

/-- The cost is the sum of what the parts cost, at rates of which none is negative. -/
def CostIsSum (u : CallUsage) (price : Rates) : Prop :=
  ∃ rates : List ℚ, price.parts .fin = rates.map .fin ∧
    costDollars .fin u price = .ok (.fin (partCosts u.split.counts rates).sum) ∧
    ∀ q ∈ partCosts u.split.counts rates, 0 ≤ q

/-- Cached and uncached tokens partition the input, reasoning and plain tokens the output. -/
structure Partitioned (u : CallUsage) : Prop where
  input : u.split.uncachedInput + u.split.cacheRead + u.split.cacheCreation = u.inputTokens
  output : u.split.plainOutput + u.split.reasoning = u.outputTokens
  counts : ∀ n ∈ u.split.counts, 0 ≤ n

/-- Whatever the details are, the parts are cut to fit totals that are not negative. -/
theorem partitioned_iff {u : CallUsage} :
    Partitioned u ↔ 0 ≤ u.inputTokens ∧ 0 ≤ u.outputTokens := by
  have hcounts : (∀ n ∈ u.split.counts, 0 ≤ n) ↔ 0 ≤ u.inputTokens ∧ 0 ≤ u.outputTokens := by
    simp only [TokenSplit.counts, CallUsage.split, List.forall_mem_cons, List.not_mem_nil,
      false_imp_iff, implies_true, and_true]
    omega
  constructor
  · intro h
    exact hcounts.mp h.counts
  · intro h
    refine ⟨?_, ?_, hcounts.mpr h⟩
    · simp only [CallUsage.split]
      omega
    · simp only [CallUsage.split]
      omega

theorem costIsSum {u : CallUsage} {price : Rates} (hu : Partitioned u) (hprice : price.Nonneg) :
    CostIsSum u price := by
  obtain ⟨rates, hparts, hrates⟩ := exists_map_fin hprice.parts
  have hnonneg : ∀ q ∈ partCosts u.split.counts rates, 0 ≤ q := by
    intro q hq
    rw [partCosts, ← List.map_uncurry_zip_eq_zipWith] at hq
    obtain ⟨⟨n, rate⟩, hmem, rfl⟩ := List.mem_map.mp hq
    have hn : (0 : ℚ) ≤ n := by exact_mod_cast hu.counts n (List.of_mem_zip hmem).1
    have hrate := hrates rate (List.of_mem_zip hmem).2
    exact mul_nonneg (div_nonneg hn (by norm_num)) hrate
  refine ⟨rates, hparts, ?_, hnonneg⟩
  unfold costDollars
  rw [hparts, mapM_portion]
  cases hcosts : partCosts u.split.counts rates with
  | nil => rfl
  | cons q qs =>
    have hsum := foldl_add_fin q qs
    rw [← List.sum_cons] at hsum
    exact congrArg Except.ok hsum

theorem CostIsSum.nonneg {u : CallUsage} {price : Rates} {cost : FloatVal} (h : CostIsSum u price)
    (hcost : costDollars .fin u price = .ok cost) : Nonneg cost := by
  obtain ⟨rates, -, hsum, hall⟩ := h
  have heq : FloatVal.fin (partCosts u.split.counts rates).sum = cost := by
    simpa using hsum.symm.trans hcost
  exact ⟨_, heq.symm, List.sum_nonneg hall⟩

/-! ## Prices without negative rates -/

/-- No rate is negative that the snapshot's entries or the unknown-model setting carry. -/
structure NonnegRates (env : TrackEnv) (snapshot : Option Dict) : Prop where
  entries : ∀ d entries, snapshot = some d → snapshotEntries d = .ok entries →
    ∀ e ∈ entries, ∀ rates, ratesFromEntry e = .ok (some rates) → rates.Nonneg
  fallback : ∀ rates, unknownModelCost env.unknownModelCost = .ok rates → rates.Nonneg

/-- A shipped rate is a number, and none is negative. -/
theorem tablePrice_nonneg {model : Option String} {rates : Rates}
    (h : tablePrice model = some rates) : rates.Nonneg := by
  have hshipped : ∀ p ∈ modelPricesPerMtok,
      (p.2.input.eq p.2.input && (FloatVal.fin 0).le p.2.input && !p.2.input.eq .posInf) = true ∧
      (p.2.output.eq p.2.output && (FloatVal.fin 0).le p.2.output &&
        !p.2.output.eq .posInf) = true ∧
      p.2.cacheRead = none ∧ p.2.cacheWrite = none ∧ p.2.reasoning = none := by decide +kernel
  obtain ⟨before, after, hmem, -⟩ := List.lookup_eq_some_iff.mp h
  obtain ⟨hin, hout, hread, hwrite, hreasoning⟩ :=
    hshipped (normalizeModel model, rates) (by rw [hmem]; simp)
  constructor
  · exact nonneg_of_accepted hin
  · exact nonneg_of_accepted hout
  · intro x hx
    rw [hread] at hx
    cases hx
  · intro x hx
    rw [hwrite] at hx
    cases hx
  · intro x hx
    rw [hreasoning] at hx
    cases hx

section

variable {env : TrackEnv} {snapshot : Option Dict}

theorem entriesFor_mem {model : Option String} {entries : List Dict}
    (h : entriesFor snapshot model = .ok entries) (hne : entries ≠ []) :
    ∃ d, snapshot = some d ∧ snapshotEntries d = .ok entries := by
  unfold entriesFor at h
  cases hp : priceable snapshot model with
  | none =>
    rw [hp] at h
    exact absurd ((pure_eq_ok _ _).mp h).symm hne
  | some dm =>
    rw [hp] at h
    exact ⟨dm.1, (priceable_eq_some hp).1, h⟩

/-- Snapshot, table and fallback have no negative rate to give. -/
theorem NonnegRates.selectPrice (h : NonnegRates env snapshot) {model : Option String}
    {origin : Origin} {rates : Rates}
    (hselect : selectPrice env.unknownModelCost snapshot model = .ok (origin, rates)) :
    rates.Nonneg := by
  have hprice := hselect
  unfold Graph.selectPrice at hprice
  obtain ⟨price, hrates, -⟩ := (bind_eq_ok _ _ _).mp hprice
  rw [snapshotRates_eq] at hrates
  obtain ⟨entries, hentries, hmatches⟩ := (bind_eq_ok _ _ _).mp hrates
  rw [selectPrice_eq hentries hmatches] at hselect
  have hspec := ratesOfMatches_spec hmatches
  cases price with
  | rated p r =>
    obtain ⟨-, hr⟩ := Prod.mk.inj (Except.ok.inj hselect)
    subst hr
    obtain ⟨⟨rest, hrated, -⟩, -⟩ := hspec
    obtain ⟨hmem, hread⟩ := @mem_of_rated (entries.filter (matchesModel (model.getD ""))) p _
      (by rw [hrated]; exact List.mem_cons_self)
    have hp := (List.mem_filter.mp hmem).1
    obtain ⟨d, hsnapshot, hd⟩ := entriesFor_mem hentries (List.ne_nil_of_mem hp)
    refine h.entries d entries hsnapshot hd p hp _ ?_
    unfold readRates at hread
    split at hread
    · rename_i hok
      rw [hok, hread]
    · cases hread
  | unknown => exact h.fallback rates (map_fallback_eq_ok.mp hselect).2
  | absent =>
    dsimp only at hselect
    cases htable : tablePrice model with
    | some r =>
      rw [htable] at hselect
      cases hselect
      exact tablePrice_nonneg htable
    | none =>
      rw [htable] at hselect
      exact h.fallback rates (map_fallback_eq_ok.mp hselect).2

end

/-! ## The totals -/

def tokensUsed (s : TrackState) : ℤ := s.tokensUsed.getD 0
def dollarsUsed (s : TrackState) : FloatVal := s.dollarsUsed.getD (.fin 0)
def dollarsUnpriced (s : TrackState) : FloatVal := s.dollarsUnpriced.getD (.fin 0)

/-- `0 <= dollars_unpriced <= dollars_used`. -/
def Balanced (s : TrackState) : Prop :=
  ∃ used unpriced : ℚ, dollarsUsed s = .fin used ∧ dollarsUnpriced s = .fin unpriced ∧
    0 ≤ unpriced ∧ unpriced ≤ used

/-- Neither total is smaller afterwards. -/
def Grows (s s' : TrackState) : Prop :=
  tokensUsed s ≤ tokensUsed s' ∧ (dollarsUsed s).le (dollarsUsed s') = true

section

variable {env : TrackEnv} {s : TrackState} {r : Response}

/-- What `track` has added to the totals. -/
theorem track_eq {round : ℚ → FloatVal} {s' : TrackState} (h : track round env s r = .ok s') :
    ∃ u origin cost, readUsage r = .ok u ∧
      callPrice round env s.priceSnapshot (modelName r) u = .ok (origin, cost) ∧
      tokensUsed s' = tokensUsed s + (u.inputTokens + u.outputTokens) ∧
      dollarsUsed s' = FloatVal.add round (dollarsUsed s) cost ∧
      (dollarsUnpriced s' = dollarsUnpriced s ∨
        dollarsUnpriced s' = FloatVal.add round (dollarsUnpriced s) cost) ∧
      s'.priceSnapshot = s.priceSnapshot := by
  obtain ⟨u, hu, h⟩ := (bind_eq_ok _ _ _).mp h
  unfold account at h
  obtain ⟨⟨origin, cost⟩, hprice, h⟩ := (bind_eq_ok _ _ _).mp h
  obtain ⟨label, -, h⟩ := (bind_eq_ok _ _ _).mp h
  rw [← (pure_eq_ok _ _).mp h]
  refine ⟨u, origin, cost, hu, hprice, rfl, rfl, ?_, rfl⟩
  unfold dollarsUnpriced
  dsimp only
  split
  · exact .inr rfl
  · exact .inl rfl

/-- The cost of a call whose reported totals are not negative. -/
theorem callPrice_nonneg (hrates : NonnegRates env s.priceSnapshot) {u : CallUsage}
    (hu : readUsage r = .ok u) (hparts : Partitioned u) {origin : Origin} {cost : FloatVal}
    (h : callPrice .fin env s.priceSnapshot (modelName r) u = .ok (origin, cost)) :
    Nonneg cost := by
  unfold callPrice at h
  split at h
  · rename_i actual hactual
    obtain ⟨-, hcost⟩ := Prod.mk.inj ((pure_eq_ok _ _).mp h)
    rw [← hcost]
    exact (readUsage_spec hu).1 actual hactual
  · obtain ⟨⟨origin', price⟩, hselect, h⟩ := (bind_eq_ok _ _ _).mp h
    obtain ⟨cost', hdollars, h⟩ := (bind_eq_ok _ _ _).mp h
    obtain ⟨-, hcost⟩ := Prod.mk.inj ((pure_eq_ok _ _).mp h)
    rw [← hcost]
    exact (costIsSum hparts (hrates.selectPrice hselect)).nonneg hdollars

/-- One call: a cost that is not negative goes to the total, and to the unpriced part or not. -/
theorem track_step {s' : TrackState} (hrates : NonnegRates env s.priceSnapshot)
    (hs : Balanced s) (hr : ReportsNonneg r) (h : track .fin env s r = .ok s') :
    Balanced s' ∧ Grows s s' ∧ s'.priceSnapshot = s.priceSnapshot := by
  obtain ⟨u, origin, cost, hu, hprice, htokens, hused, hunpriced, hsnapshot⟩ := track_eq h
  have htotals := reportsNonneg_iff.mp hr u hu
  obtain ⟨c, rfl, hc⟩ := callPrice_nonneg hrates hu (partitioned_iff.mpr htotals) hprice
  obtain ⟨used, unpriced, hu₀, hn₀, hnonneg, hle⟩ := hs
  rw [hu₀] at hused
  have hused' : dollarsUsed s' = .fin (used + c) := hused
  refine ⟨?_, ⟨?_, ?_⟩, hsnapshot⟩
  · rw [hn₀] at hunpriced
    rcases hunpriced with hunpriced | hunpriced
    · exact ⟨used + c, unpriced, hused', hunpriced, hnonneg, by linarith⟩
    · exact ⟨used + c, unpriced + c, hused', hunpriced, by linarith, by linarith⟩
  · omega
  · rw [hu₀, hused']
    exact FloatVal.fin_le_fin.mpr (by linarith)

theorem grows_refl_of_balanced (hs : Balanced s) {s' : TrackState}
    (htokens : tokensUsed s' = tokensUsed s) (hdollars : dollarsUsed s' = dollarsUsed s) :
    Grows s s' := by
  obtain ⟨used, unpriced, hu, -, -, -⟩ := hs
  constructor
  · omega
  · rw [hdollars, hu]
    exact FloatVal.fin_le_fin.mpr (le_refl used)

/-- A call that raises leaves the totals as they were. -/
theorem afterTrack_step (hrates : NonnegRates env s.priceSnapshot) (hs : Balanced s)
    (hr : ReportsNonneg r) :
    Balanced (afterTrack .fin env s r) ∧ Grows s (afterTrack .fin env s r) ∧
      (afterTrack .fin env s r).priceSnapshot = s.priceSnapshot := by
  unfold afterTrack
  cases h : track .fin env s r with
  | ok s' => exact track_step hrates hs hr h
  | error e => exact ⟨hs, grows_refl_of_balanced hs rfl rfl, rfl⟩

end

theorem trackAll_append (env : TrackEnv) (s : TrackState) (before : List Response) (r : Response) :
    trackAll .fin env s (before ++ [r]) = afterTrack .fin env (trackAll .fin env s before) r := by
  unfold trackAll
  rw [List.foldl_append]
  rfl

theorem trackAll_balanced {env : TrackEnv} {s : TrackState} {rs : List Response}
    (hrates : NonnegRates env s.priceSnapshot) (hs : Balanced s) (hr : ∀ r ∈ rs, ReportsNonneg r) :
    Balanced (trackAll .fin env s rs) ∧
      (trackAll .fin env s rs).priceSnapshot = s.priceSnapshot := by
  induction rs generalizing s with
  | nil => exact ⟨hs, rfl⟩
  | cons r rs ih =>
    obtain ⟨hbalanced, -, hsnapshot⟩ := afterTrack_step hrates hs (hr r List.mem_cons_self)
    have hrest := @ih (afterTrack .fin env s r) (by rwa [hsnapshot]) hbalanced
      fun r' hr' => hr r' (List.mem_cons_of_mem _ hr')
    exact ⟨hrest.1, hrest.2.trans hsnapshot⟩

/-- A call on the state `s`: totals that do not shrink, unpriced spend within the total, and tokens
and costs in parts that are not negative. -/
structure CallSound (env : TrackEnv) (s : TrackState) (r : Response) : Prop where
  grows : Grows s (afterTrack .fin env s r)
  balanced : Balanced (afterTrack .fin env s r)
  parts : ∀ u, readUsage r = .ok u → Partitioned u
  cost : ∀ u, readUsage r = .ok u → ∀ origin price,
    selectPrice env.unknownModelCost s.priceSnapshot (modelName r) = .ok (origin, price) →
    CostIsSum u price

/-- In a sequence of calls every one of them is sound exactly if no response that can be read
reports a negative total. -/
theorem trackAll_sound_iff {env : TrackEnv} {s : TrackState} (rs : List Response)
    (hrates : NonnegRates env s.priceSnapshot) (hs : Balanced s) :
    (∀ before r, before ++ [r] <+: rs → CallSound env (trackAll .fin env s before) r) ↔
      ∀ r ∈ rs, ReportsNonneg r := by
  constructor
  · intro h r hr
    obtain ⟨before, after, rfl⟩ := List.append_of_mem hr
    have hsound := h before r ⟨after, by simp⟩
    exact reportsNonneg_iff.mpr fun u hu => partitioned_iff.mp (hsound.parts u hu)
  · intro h before r hpre
    have hmem : ∀ r' ∈ before ++ [r], ReportsNonneg r' := fun r' hr' => h r' (hpre.mem hr')
    obtain ⟨hbalanced, hsnapshot⟩ := trackAll_balanced hrates hs
      fun r' hr' => hmem r' (List.mem_append_left _ hr')
    have hr := hmem r (by simp)
    have hrates' : NonnegRates env (trackAll .fin env s before).priceSnapshot := by
      rw [hsnapshot]
      exact hrates
    obtain ⟨hafter, hgrows, -⟩ := afterTrack_step hrates' hbalanced hr
    have hparts : ∀ u, readUsage r = .ok u → Partitioned u := fun u hu =>
      partitioned_iff.mpr (reportsNonneg_iff.mp hr u hu)
    exact ⟨hgrows, hafter, hparts, fun u hu origin price hprice =>
      costIsSum (hparts u hu) (hrates'.selectPrice hprice)⟩

/-- More cached and reasoning tokens than there are tokens. -/
def overReported : Response :=
  .message (.dict [("input_tokens", .int 100), ("output_tokens", .int 10),
    ("input_token_details", .dict [("cache_read", .int 900), ("cache_creation", .int (-5))]),
    ("output_token_details", .dict [("reasoning", .int 400)])]) .none

theorem overReported_sound : CallSound {} {} overReported := by
  have hrates : NonnegRates {} none := by
    constructor
    · intro d entries hd
      cases hd
    · intro rates h
      have hfallback : unknownModelCost none = .ok unknownModelFallback := rfl
      obtain rfl : unknownModelFallback = rates := by simpa using hfallback.symm.trans h
      constructor
      · exact ⟨15, rfl, by norm_num⟩
      · exact ⟨75, rfl, by norm_num⟩
      · intro x hx
        cases hx
      · intro x hx
        cases hx
      · intro x hx
        cases hx
  have hreports : ∀ r ∈ [overReported], ReportsNonneg r := by
    intro r hr input output hin hout _
    rw [List.mem_singleton.mp hr] at hin hout
    have hi : (100 : ℤ) = input := by simpa using (show toInt _ = .ok 100 from rfl).symm.trans hin
    have ho : (10 : ℤ) = output := by simpa using (show toInt _ = .ok 10 from rfl).symm.trans hout
    omega
  exact (trackAll_sound_iff [overReported] hrates ⟨0, 0, rfl, rfl, le_refl 0, le_refl 0⟩).mpr
    hreports [] overReported (List.prefix_refl _)

/-- A message that reports a hundred input tokens less than none. -/
def negativeInput : Response :=
  .message (.dict [("input_tokens", .int (-100)), ("output_tokens", .int 10)]) .none

/-- The canonical reading cuts the count to zero; the run's total goes down by ninety. -/
theorem not_trackAll_sound_negativeInput :
    (canonicalUsage negativeInput).map CanonicalUsage.inputTokens = .ok 0 ∧
      tokensUsed (trackAll .fin {} { tokensUsed := some 500 } [negativeInput]) = 410 ∧
      ¬∀ before r, before ++ [r] <+: [negativeInput] →
        CallSound {} (trackAll .fin {} { tokensUsed := some 500 } before) r := by
  have htotal : tokensUsed (trackAll .fin {} { tokensUsed := some 500 } [negativeInput]) = 410 := by
    decide +kernel
  refine ⟨by decide +kernel, htotal, fun h => ?_⟩
  have hgrows := (h [] negativeInput (List.prefix_refl _)).grows.1
  have hafter : tokensUsed (afterTrack .fin {} { tokensUsed := some 500 } negativeInput) = 410 :=
    htotal
  have hstart : tokensUsed { tokensUsed := some 500 } = 500 := rfl
  simp only [trackAll, List.foldl_nil] at hgrows
  omega

end SocTalk.Graph
