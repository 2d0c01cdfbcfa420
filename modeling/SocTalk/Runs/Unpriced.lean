import SocTalk.Lib.Rounding
import SocTalk.Runs.Reports

/-! Unpriced dollars: what the ledger rows of a run tagged `unknown` add up to, report by report. -/
namespace SocTalk.Runs
open ReadCommitted

/-! ## Differences of doubles -/

theorem nearest_nonneg {q : ℚ} (hq : 0 ≤ q) : 0 ≤ nearest q := by
  have hpos := Py.FloatVal.rounded_nonneg hq
  have hsmall : ¬Py.FloatVal.rounded q ≤ -2 ^ 1024 := by
    rw [not_le]
    have hlarge : (0 : ℚ) < 2 ^ 1024 := by positivity
    exact (neg_lt_zero.mpr hlarge).trans_le hpos
  unfold nearest
  rw [Py.FloatVal.ofRat_eq, if_neg hsmall]
  split_ifs
  · exact hq
  · exact hpos

theorem floatSub_nonneg {a b : ℚ} (h : b ≤ a) : 0 ≤ floatSub a b :=
  nearest_nonneg (sub_nonneg.mpr h)

/-- A finite double, as a rational. -/
def IsDouble (q : ℚ) : Prop := Py.FloatVal.ofRat q = .fin q

instance (q : ℚ) : Decidable (IsDouble q) := inferInstanceAs (Decidable (_ = _))

theorem IsDouble.nearest_eq {q : ℚ} (h : IsDouble q) : nearest q = q := by
  unfold nearest
  rw [h]

theorem IsDouble.rounded_lt {q : ℚ} (h : IsDouble q) : Py.FloatVal.rounded q < 2 ^ 1024 := by
  unfold IsDouble at h
  rw [Py.FloatVal.ofRat_eq] at h
  by_contra hlarge
  rw [if_pos (not_lt.mp hlarge)] at h
  cases h

theorem nearest_eq_rounded {q d : ℚ} (hq : 0 ≤ q) (hd : q ≤ d) (h : IsDouble d) :
    nearest q = Py.FloatVal.rounded q := by
  have hpos := Py.FloatVal.rounded_nonneg hq
  have hlarge : (0 : ℚ) < 2 ^ 1024 := by positivity
  have hlt : Py.FloatVal.rounded q < 2 ^ 1024 :=
    (Py.FloatVal.rounded_mono hq hd).trans_lt h.rounded_lt
  have hsmall : ¬Py.FloatVal.rounded q ≤ -2 ^ 1024 := by
    rw [not_le]
    exact (neg_lt_zero.mpr hlarge).trans_le hpos
  unfold nearest
  rw [Py.FloatVal.ofRat_eq, if_neg (not_le.mpr hlt), if_neg hsmall]

theorem nearest_mono {p q d : ℚ} (hp : 0 ≤ p) (hpq : p ≤ q) (hd : q ≤ d) (h : IsDouble d) :
    nearest p ≤ nearest q := by
  rw [nearest_eq_rounded hp (hpq.trans hd) h, nearest_eq_rounded (hp.trans hpq) hd h]
  exact Py.FloatVal.rounded_mono hp hpq

/-! ## What the rows add up to -/

/-- The run's ledger rows whose dollars no ceiling counts. -/
def unknownRows (rows : List LedgerRow) (run : RunId) : List LedgerRow :=
  rows.filter fun r => r.run == run && r.priceSource == some "unknown"

def unknownDollars (rows : List LedgerRow) (run : RunId) : ℚ :=
  ((unknownRows rows run).map (·.dollarsDelta)).sum

/-- The rest of the run's ledger dollars. -/
def pricedDollars (rows : List LedgerRow) (run : RunId) : ℚ :=
  ((rows.filter fun r => r.run == run && r.priceSource != some "unknown").map (·.dollarsDelta)).sum

theorem unknownRows_append (rows rows' : List LedgerRow) (run : RunId) :
    unknownRows (rows ++ rows') run = unknownRows rows run ++ unknownRows rows' run :=
  List.filter_append ..

theorem unknownDollars_append (rows rows' : List LedgerRow) (run : RunId) :
    unknownDollars (rows ++ rows') run = unknownDollars rows run + unknownDollars rows' run := by
  simp [unknownDollars, unknownRows_append]

theorem pricedDollars_append (rows rows' : List LedgerRow) (run : RunId) :
    pricedDollars (rows ++ rows') run = pricedDollars rows run + pricedDollars rows' run := by
  simp [pricedDollars]

/-- Only the run's own rows count. -/
theorem unknownRows_congr {rows rows' : List LedgerRow} {run : RunId}
    (h : rows.filter (·.run == run) = rows'.filter (·.run == run)) :
    unknownRows rows run = unknownRows rows' run := by
  have hown : ∀ rows : List LedgerRow, unknownRows rows run =
      (rows.filter (·.run == run)).filter fun r => r.priceSource == some "unknown" := by
    intro rows
    rw [List.filter_filter]
    unfold unknownRows
    congr 1
    funext r
    exact Bool.and_comm ..
  rw [hown, hown, h]

theorem pricedDollars_congr {rows rows' : List LedgerRow} {run : RunId}
    (h : rows.filter (·.run == run) = rows'.filter (·.run == run)) :
    pricedDollars rows run = pricedDollars rows' run := by
  have hown : ∀ rows : List LedgerRow, pricedDollars rows run =
      (((rows.filter (·.run == run)).filter fun r => r.priceSource != some "unknown").map
        (·.dollarsDelta)).sum := by
    intro rows
    rw [List.filter_filter]
    unfold pricedDollars
    congr 3
    funext r
    exact Bool.and_comm ..
  rw [hown, hown, h]

section

variable (run : RunId) (usage : Usage) (prev : Totals)

/-- One report's rows: the unpriced part apart, or all of it under the report's own label. -/
theorem sums_ledgerRows :
    (unknownDollars (ledgerRows run usage prev) run,
        pricedDollars (ledgerRows run usage prev) run) =
      if 0 < unpricedDelta usage prev then
        (unpricedDelta usage prev,
          max 0 (floatSub (dollarsDelta usage prev) (unpricedDelta usage prev)))
      else if usage.priceSource = some "unknown" then (dollarsDelta usage prev, 0)
      else (0, dollarsDelta usage prev) := by
  have hle := unpricedDelta_le usage prev
  unfold ledgerRows unknownDollars pricedDollars unknownRows
  dsimp only
  by_cases hnone : tokensDelta usage prev = 0 ∧ dollarsDelta usage prev = 0
  · have hzero : ¬0 < unpricedDelta usage prev := by
      rw [not_lt, ← hnone.2]
      exact hle
    rw [if_pos hnone, if_neg hzero, hnone.2]
    simp
  · rw [if_neg hnone]
    by_cases hunp : 0 < unpricedDelta usage prev
    · rw [if_pos hunp, if_pos hunp]
      split_ifs with hrest hlabel
      · simp [hrest.2]
      · simp
      · simp [hlabel]
    · rw [if_neg hunp, if_neg hunp]
      split_ifs with hlabel
      · simp [hlabel]
      · simp [hlabel]

/-- At most one of them is tagged. -/
theorem length_unknownRows_ledgerRows :
    (unknownRows (ledgerRows run usage prev) run).length ≤ 1 := by
  unfold ledgerRows unknownRows
  dsimp only
  split_ifs with _ _ _ hlabel
  · simp
  · simp
  · simp
  · simp [hlabel]
  · exact List.length_filter_le ..

end

/-! ## Reports -/

/-- A report of both cumulative totals. -/
structure Report where
  tokens : ℕ
  dollars : ℚ
  unpriced : ℚ
  costBasis : Option String
  priceSource : Option String
  nonneg : 0 ≤ unpriced
  unpriced_le : unpriced ≤ dollars
  dollars_double : IsDouble dollars
  unpriced_double : IsDouble unpriced

def Report.usage (r : Report) : Usage :=
  { tokens := r.tokens, dollars := some r.dollars, dollarsUnpriced := some r.unpriced
    costBasis := r.costBasis, priceSource := r.priceSource }

/-- The last reported dollars, and how many of them were unpriced. -/
structure Figures where
  dollars : ℚ
  unpriced : ℚ

def figures (rs : List Report) : Figures :=
  match rs.getLast? with
  | some r => ⟨r.dollars, r.unpriced⟩
  | none => ⟨0, 0⟩

theorem figures_append (rs : List Report) (r : Report) :
    figures (rs ++ [r]) = ⟨r.dollars, r.unpriced⟩ := by
  unfold figures
  rw [List.getLast?_append]
  rfl

def Nondecreasing (rs : List Report) : Prop :=
  rs.IsChain fun r r' => r.dollars ≤ r'.dollars ∧ r.unpriced ≤ r'.unpriced

/-- The figures of a report lie above others. -/
structure Above (f : Figures) (r : Report) : Prop where
  nonneg : 0 ≤ f.dollars
  dollars : f.dollars ≤ r.dollars
  unpriced : f.unpriced ≤ r.unpriced

theorem Nondecreasing.above {rs before : List Report} {r : Report} (h : Nondecreasing rs)
    (hpre : before ++ [r] <+: rs) : Above (figures before) r := by
  have hchain := List.IsChain.prefix h hpre
  rcases List.eq_nil_or_concat before with rfl | ⟨init, last, rfl⟩
  · have hdollars : 0 ≤ r.dollars := r.nonneg.trans r.unpriced_le
    exact ⟨le_refl _, hdollars, r.nonneg⟩
  · have hlast : 0 ≤ last.dollars := last.nonneg.trans last.unpriced_le
    rw [List.concat_eq_append] at hchain ⊢
    rw [figures_append]
    rw [List.append_assoc, List.singleton_append, List.isChain_append_cons_cons] at hchain
    obtain ⟨-, hstep, -⟩ := hchain
    exact ⟨hlast, hstep.1, hstep.2⟩

/-- The window since the last report can be split: its unpriced part is no more than all of it, no
difference is rounded, and unless something in it is unpriced the label is not `unknown`. -/
structure Separable (f : Figures) (r : Report) : Prop where
  within : r.unpriced - f.unpriced ≤ r.dollars - f.dollars
  unpriced_exact : floatSub r.unpriced f.unpriced = r.unpriced - f.unpriced
  split_exact : f.unpriced < r.unpriced →
    floatSub (floatSub r.dollars f.dollars) (r.unpriced - f.unpriced) =
      r.dollars - f.dollars - (r.unpriced - f.unpriced)
  dollars_exact : r.unpriced = f.unpriced → floatSub r.dollars f.dollars = r.dollars - f.dollars
  labelled : r.priceSource = some "unknown" → f.dollars < r.dollars → f.unpriced < r.unpriced

section

variable {run : RunId} {f : Figures} {r : Report} {prev : Totals}

theorem dollarsDelta_report (h : Above f r) (hprev : prev.dollars = f.dollars) :
    dollarsDelta r.usage prev = floatSub r.dollars f.dollars := by
  unfold dollarsDelta
  rw [hprev]
  exact max_eq_right (floatSub_nonneg h.dollars)

theorem unpricedDelta_report (h : Above f r) (hprev : prev.dollars = f.dollars)
    (hunpriced : prev.unpriced = f.unpriced) : unpricedDelta r.usage prev =
      min (floatSub r.unpriced f.unpriced) (floatSub r.dollars f.dollars) := by
  have hnonneg : max 0 (floatSub r.unpriced f.unpriced) = floatSub r.unpriced f.unpriced :=
    max_eq_right (floatSub_nonneg h.unpriced)
  unfold unpricedDelta
  rw [dollarsDelta_report h hprev, hunpriced]
  dsimp only [Report.usage]
  rw [hnonneg]

/-- The differences round in order. -/
theorem floatSub_le_floatSub (h : Above f r)
    (hwithin : r.unpriced - f.unpriced ≤ r.dollars - f.dollars) :
    floatSub r.unpriced f.unpriced ≤ floatSub r.dollars f.dollars := by
  have hbound : r.dollars - f.dollars ≤ r.dollars := sub_le_self _ h.nonneg
  exact nearest_mono (sub_nonneg.mpr h.unpriced) hwithin hbound r.dollars_double

/-- The report's rows split the window right exactly if it can be split. -/
theorem separable_iff (h : Above f r) (hprev : prev.dollars = f.dollars)
    (hunpriced : prev.unpriced = f.unpriced) :
    (unknownDollars (ledgerRows run r.usage prev) run = r.unpriced - f.unpriced ∧
      pricedDollars (ledgerRows run r.usage prev) run =
        r.dollars - f.dollars - (r.unpriced - f.unpriced)) ↔ Separable f r := by
  have hsums := sums_ledgerRows run r.usage prev
  rw [dollarsDelta_report h hprev, unpricedDelta_report h hprev hunpriced] at hsums
  have ha : 0 ≤ floatSub r.dollars f.dollars := floatSub_nonneg h.dollars
  have hb : 0 ≤ floatSub r.unpriced f.unpriced := floatSub_nonneg h.unpriced
  have hzero : floatSub f.unpriced f.unpriced = 0 := by
    unfold floatSub
    rw [sub_self]
    rfl
  constructor
  · rintro ⟨hunknown, hpriced⟩
    rw [hunknown, hpriced] at hsums
    split_ifs at hsums with hpos hlabel
    · -- A part is split off.
      obtain ⟨hpart, hrest⟩ := Prod.mk.inj hsums
      have hmore : f.unpriced < r.unpriced := sub_pos.mp (hpart ▸ hpos)
      have hwithin : r.unpriced - f.unpriced ≤ r.dollars - f.dollars := by
        rw [← sub_nonneg, hrest]
        exact le_max_left _ _
      have hmin : min (floatSub r.unpriced f.unpriced) (floatSub r.dollars f.dollars) =
          floatSub r.unpriced f.unpriced := min_eq_left (floatSub_le_floatSub h hwithin)
      rw [hmin] at hpart hrest
      have hsplit : max 0 (floatSub (floatSub r.dollars f.dollars)
          (floatSub r.unpriced f.unpriced)) =
            floatSub (floatSub r.dollars f.dollars) (floatSub r.unpriced f.unpriced) :=
        max_eq_right (floatSub_nonneg (floatSub_le_floatSub h hwithin))
      rw [hsplit, ← hpart] at hrest
      exact ⟨hwithin, hpart.symm, fun _ => hrest.symm, fun hsame => absurd hsame hmore.ne',
        fun _ _ => hmore⟩
    · -- All of it is tagged, so it is empty.
      obtain ⟨hpart, hrest⟩ := Prod.mk.inj hsums
      have hsame : r.dollars - f.dollars = r.unpriced - f.unpriced := sub_eq_zero.mp hrest
      have hfloat : floatSub r.dollars f.dollars = floatSub r.unpriced f.unpriced := by
        unfold floatSub
        rw [hsame]
      rw [hfloat, min_self, not_lt] at hpos
      have hempty : r.unpriced - f.unpriced = 0 := by
        rw [hpart, hfloat]
        exact le_antisymm hpos hb
      have hunp : r.unpriced = f.unpriced := sub_eq_zero.mp hempty
      refine ⟨hsame.ge, ?_, fun hmore => absurd hunp hmore.ne', fun _ => ?_, fun _ hmore => ?_⟩
      · rw [hunp, hzero, sub_self]
      · rw [hfloat, hsame, hempty]
        exact le_antisymm hpos hb
      · rw [hempty, sub_eq_zero] at hsame
        exact absurd hsame hmore.ne'
    · obtain ⟨hpart, hrest⟩ := Prod.mk.inj hsums
      have hunp : r.unpriced = f.unpriced := sub_eq_zero.mp hpart
      rw [hpart, sub_zero] at hrest
      refine ⟨?_, ?_, fun hmore => absurd hunp hmore.ne', fun _ => hrest.symm,
        fun hl => absurd hl hlabel⟩
      · rw [hpart]
        exact sub_nonneg.mpr h.dollars
      · rw [hunp, hzero, sub_self]
  · intro hs
    have hmin : min (floatSub r.unpriced f.unpriced) (floatSub r.dollars f.dollars) =
        r.unpriced - f.unpriced := by
      rw [min_eq_left (floatSub_le_floatSub h hs.within), hs.unpriced_exact]
    rw [hmin] at hsums
    rcases h.unpriced.lt_or_eq with hmore | hsame
    · have hrest : 0 ≤ r.dollars - f.dollars - (r.unpriced - f.unpriced) :=
        sub_nonneg.mpr hs.within
      rw [if_pos (sub_pos.mpr hmore), hs.split_exact hmore, max_eq_right hrest] at hsums
      exact Prod.mk.inj hsums
    · have hempty : r.unpriced - f.unpriced = 0 := sub_eq_zero.mpr hsame.symm
      rw [hempty, if_neg (lt_irrefl _), hs.dollars_exact hsame.symm] at hsums
      rw [hempty, sub_zero]
      split_ifs at hsums with hlabel
      · -- Nothing is unpriced, so nothing was spent.
        have hspent : r.dollars - f.dollars = 0 := by
          rw [sub_eq_zero]
          by_contra hne
          exact (hs.labelled hlabel (lt_of_le_of_ne h.dollars (Ne.symm hne))).ne hsame
        rw [hspent] at hsums ⊢
        exact Prod.mk.inj hsums
      · exact Prod.mk.inj hsums

end

/-! ## Every sequence -/

/-- The reports of a run so far; between them anything that leaves its dollars and its ledger rows
alone. -/
inductive Reported (run : RunId) : List Report → Tables → Prop
  | start {t row} (hrow : t.runs run = some row) (hdollars : row.dollarsUsed = 0)
      (hledger : t.ledger.filter (·.run == run) = []) : Reported run [] t
  | other {rs t t'} (h : Reported run rs t)
      (hdollars : (t'.runs run).map (·.dollarsUsed) = (t.runs run).map (·.dollarsUsed))
      (hledger : t'.ledger.filter (·.run == run) = t.ledger.filter (·.run == run)) :
      Reported run rs t'
  | report {rs t t'} (r : Report) (h : Reported run rs t) (hr : Recorded run r.usage t t') :
      Reported run (rs ++ [r]) t'

/-- The dollars tagged `unknown` are the unpriced ones, and the rest the priced ones. -/
structure Attributed (run : RunId) (f : Figures) (t : Tables) : Prop where
  unknown : unknownDollars t.ledger run = f.unpriced
  priced : pricedDollars t.ledger run = f.dollars - f.unpriced

/-- So it is after each report of a sequence. -/
def AttributedThroughout (run : RunId) (rs : List Report) : Prop :=
  ∀ before t, before <+: rs → Reported run before t → Attributed run (figures before) t

/-- Each window of a sequence can be split. -/
def SeparableThroughout (rs : List Report) : Prop :=
  ∀ before r, before ++ [r] <+: rs → Separable (figures before) r

/-- Moreover the next report reads the figures back. -/
structure Settled (run : RunId) (f : Figures) (t : Tables) : Prop extends Attributed run f t where
  dollars : (t.runs run).map (·.dollarsUsed) = some f.dollars
  ledgered : unpricedLedgered t run = f.unpriced

section

variable {run : RunId} {f : Figures} {r : Report} {rs before : List Report} {t t' : Tables}

theorem unpricedLedgered_eq (t : Tables) (run : RunId) : unpricedLedgered t run =
    ((unknownRows t.ledger run).map (·.dollarsDelta)).foldl (fun a b => nearest (a + b)) 0 := rfl

theorem settled_start {row : RunRow} (hrow : t.runs run = some row) (hdollars : row.dollarsUsed = 0)
    (hledger : t.ledger.filter (·.run == run) = []) : Settled run ⟨0, 0⟩ t := by
  have hempty : t.ledger.filter (·.run == run) = ([] : List LedgerRow).filter (·.run == run) :=
    hledger
  refine ⟨⟨?_, ?_⟩, ?_, ?_⟩
  · unfold unknownDollars
    rw [unknownRows_congr hempty]
    rfl
  · rw [pricedDollars_congr hempty]
    simp [pricedDollars]
  · rw [hrow]
    exact congrArg some hdollars
  · rw [unpricedLedgered_eq, unknownRows_congr hempty]
    rfl

theorem Settled.other (h : Settled run f t)
    (hdollars : (t'.runs run).map (·.dollarsUsed) = (t.runs run).map (·.dollarsUsed))
    (hledger : t'.ledger.filter (·.run == run) = t.ledger.filter (·.run == run)) :
    Settled run f t' := by
  refine ⟨⟨?_, ?_⟩, hdollars.trans h.dollars, ?_⟩
  · rw [← h.unknown]
    unfold unknownDollars
    rw [unknownRows_congr hledger]
  · rw [← h.priced, pricedDollars_congr hledger]
  · rw [← h.ledgered, unpricedLedgered_eq, unpricedLedgered_eq, unknownRows_congr hledger]

/-- A report keeps the dollars attributed exactly if its window can be split. -/
theorem attributed_recorded_iff (h : Settled run f t) (habove : Above f r)
    (hr : Recorded run r.usage t t') :
    Attributed run ⟨r.dollars, r.unpriced⟩ t' ↔ Separable f r := by
  obtain ⟨row, row', hrow, -, -, -, hledger⟩ := hr
  have hdollars : row.dollarsUsed = f.dollars := by
    have hsome := h.dollars
    rw [hrow] at hsome
    exact Option.some.inj hsome
  have hsplit := @separable_iff run f r (totalsOf t run row) habove hdollars h.ledgered
  rw [← hsplit]
  have hunknown := h.unknown
  have hpriced := h.priced
  constructor
  · intro hattr
    have hu := hattr.unknown
    have hp := hattr.priced
    rw [hledger, unknownDollars_append] at hu
    rw [hledger, pricedDollars_append] at hp
    dsimp only at hu hp
    constructor
    · linarith
    · linarith
  · rintro ⟨hu, hp⟩
    constructor
    · rw [hledger, unknownDollars_append, hu, hunknown]
      exact add_sub_cancel _ _
    · rw [hledger, pricedDollars_append, hp, hpriced]
      dsimp only
      ring

theorem Settled.recorded (h : Settled run f t) (habove : Above f r)
    (hr : Recorded run r.usage t t') (hs : Separable f r) :
    Settled run ⟨r.dollars, r.unpriced⟩ t' := by
  have hattr := (attributed_recorded_iff h habove hr).mpr hs
  obtain ⟨row, row', hrow, hrow', -, hdollars', hledger⟩ := hr
  refine ⟨hattr, ?_, ?_⟩
  · rw [hrow']
    exact congrArg some hdollars'
  · have hunknown := hattr.unknown
    have hledgered := h.ledgered
    have hlength := length_unknownRows_ledgerRows run r.usage (totalsOf t run row)
    rw [hledger, unknownDollars_append, h.unknown] at hunknown
    rw [unpricedLedgered_eq] at hledgered
    rw [unpricedLedgered_eq, hledger, unknownRows_append, List.map_append, List.foldl_append,
      hledgered]
    unfold unknownDollars at hunknown
    cases hnew : unknownRows (ledgerRows run r.usage (totalsOf t run row)) run with
    | nil =>
      rw [hnew] at hunknown
      simpa using hunknown
    | cons x xs =>
      rw [hnew, List.length_cons] at hlength
      obtain rfl : xs = [] := List.length_eq_zero_iff.mp (by omega)
      rw [hnew, List.map_cons, List.map_nil, List.sum_singleton] at hunknown
      rw [List.map_cons, List.map_nil, List.foldl_cons, List.foldl_nil, hunknown]
      exact r.unpriced_double.nearest_eq

theorem settled_of_separable (h : Reported run before t) (hmono : Nondecreasing rs)
    (hpre : before <+: rs) (hs : SeparableThroughout rs) :
    Settled run (figures before) t := by
  induction h with
  | start hrow hdollars hledger => exact settled_start hrow hdollars hledger
  | other h hdollars hledger ih => exact (ih hpre).other hdollars hledger
  | report r h hr ih =>
    rw [figures_append]
    have hbefore := ih ((List.prefix_append _ _).trans hpre)
    exact hbefore.recorded (hmono.above hpre) hr (hs _ r hpre)

/-- Any report can follow. -/
theorem exists_recorded {row : RunRow} (hrow : t.runs run = some row) (usage : Usage) :
    ∃ t', Recorded run usage t t' :=
  ⟨{ t with
      runs := Function.update t.runs run (some (row.withTotals usage))
      ledger := t.ledger ++ ledgerRows run usage (totalsOf t run row) },
    row, row.withTotals usage, hrow, Function.update_self .., rfl, rfl, rfl⟩

/-- A run as it is inserted. -/
theorem exists_reported_start (run : RunId) : ∃ t, Reported run [] t ∧ Settled run ⟨0, 0⟩ t := by
  obtain ⟨t, ht⟩ : ∃ t : Tables, t =
      { Tables.empty with runs := Function.update (fun _ => none) run (some (newRun 0 0 0)) } :=
    ⟨_, rfl⟩
  have hrow : t.runs run = some (newRun 0 0 0) := by
    rw [ht]
    simp
  have hledger : t.ledger.filter (·.run == run) = [] := by
    rw [ht]
    rfl
  exact ⟨t, .start hrow rfl hledger, settled_start hrow rfl hledger⟩

theorem exists_settled (hmono : Nondecreasing rs) (hattr : AttributedThroughout run rs)
    (hpre : before <+: rs) : ∃ t, Reported run before t ∧ Settled run (figures before) t := by
  induction before using List.reverseRecOn with
  | nil => exact exists_reported_start run
  | append_singleton before r ih =>
    obtain ⟨t, hreported, hsettled⟩ := ih ((List.prefix_append _ _).trans hpre)
    obtain ⟨row, hrow, -⟩ := Option.map_eq_some_iff.mp hsettled.dollars
    obtain ⟨t', hr⟩ := exists_recorded hrow r.usage
    have habove := hmono.above hpre
    have hnext := hattr _ t' hpre (.report r hreported hr)
    rw [figures_append] at hnext ⊢
    exact ⟨t', .report r hreported hr,
      hsettled.recorded habove hr ((attributed_recorded_iff hsettled habove hr).mp hnext)⟩

/-- The ledger attributes the dollars of a sequence exactly if each of its windows can be split. -/
theorem attributedThroughout_iff (run : RunId) (hmono : Nondecreasing rs) :
    AttributedThroughout run rs ↔ SeparableThroughout rs := by
  constructor
  · intro hattr before r hpre
    obtain ⟨t, hreported, hsettled⟩ :=
      exists_settled hmono hattr ((List.prefix_append _ _).trans hpre)
    obtain ⟨row, hrow, -⟩ := Option.map_eq_some_iff.mp hsettled.dollars
    obtain ⟨t', hr⟩ := exists_recorded hrow r.usage
    have hnext := hattr _ t' hpre (.report r hreported hr)
    rw [figures_append] at hnext
    exact (attributed_recorded_iff hsettled (hmono.above hpre) hr).mp hnext
  · intro hs before t hpre hreported
    exact (settled_of_separable hreported hmono hpre hs).toAttributed

end

/-- Three dollars at catalog prices. -/
def catalogReport : Report :=
  { tokens := 10, dollars := 3, unpriced := 0, costBasis := some "estimated"
    priceSource := some "catalog", nonneg := le_refl _, unpriced_le := by norm_num
    dollars_double := by decide +kernel, unpriced_double := by decide +kernel }

/-- And half a dollar of an unpriced model. -/
def mixedReport : Report :=
  { tokens := 20, dollars := 7 / 2, unpriced := 1 / 2, costBasis := some "estimated"
    priceSource := some "unknown", nonneg := by norm_num, unpriced_le := by norm_num
    dollars_double := by decide +kernel, unpriced_double := by decide +kernel }

theorem attributed_mixedReport : AttributedThroughout 0 [catalogReport, mixedReport] := by
  refine (attributedThroughout_iff 0 ?_).mpr fun before r hpre => ?_
  · unfold Nondecreasing catalogReport mixedReport
    norm_num
  · obtain ⟨rest, hrest⟩ := hpre
    match before with
    | [] =>
      obtain ⟨rfl, -⟩ := List.cons.inj hrest
      constructor
      all_goals decide +kernel
    | [first] =>
      simp only [List.cons_append, List.nil_append, List.cons.injEq] at hrest
      obtain ⟨rfl, rfl, -⟩ := hrest
      constructor
      all_goals decide +kernel
    | first :: second :: before => simp at hrest

/-- A catalog call for three dollars, then a call to an unpriced model that reports no usage. -/
def unknownLast : Report :=
  { tokens := 10, dollars := 3, unpriced := 0, costBasis := some "estimated"
    priceSource := some "unknown", nonneg := le_refl _, unpriced_le := by norm_num
    dollars_double := by decide +kernel, unpriced_double := by decide +kernel }

/-- The three priced dollars are tagged `unknown`. -/
theorem not_attributed_unknownLast : ¬AttributedThroughout 0 [unknownLast] := by
  intro h
  obtain ⟨t, hstart, hsettled⟩ := exists_reported_start 0
  obtain ⟨row, hrow, -⟩ := Option.map_eq_some_iff.mp hsettled.dollars
  obtain ⟨t', hr⟩ := exists_recorded hrow unknownLast.usage
  have hattr : Attributed 0 ⟨unknownLast.dollars, unknownLast.unpriced⟩ t' :=
    h [unknownLast] t' (List.prefix_refl _) (.report unknownLast hstart hr)
  have habove : Above ⟨0, 0⟩ unknownLast := ⟨le_refl _, by decide +kernel, le_refl _⟩
  have hlabelled := ((attributed_recorded_iff hsettled habove hr).mp hattr).labelled rfl
  exact absurd (hlabelled (by decide +kernel)) (lt_irrefl _)

end SocTalk.Runs
