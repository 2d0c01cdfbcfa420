import SocTalk.Runs.Rules
import Mathlib.Algebra.Order.BigOperators.Group.List
import Mathlib.Tactic.Linarith
import Mathlib.Algebra.Order.Field.Power

/-! Spend conservation: what the ledger rows of a run add up to. -/
namespace SocTalk.Runs
open ReadCommitted

/-! ## One report -/

theorem roundHalfEven_nonpos {q : ℚ} (hq : q ≤ 0) : Py.FloatVal.roundHalfEven q ≤ 0 := by
  have hfloor : ⌊q⌋ ≤ 0 := by
    have h : (⌊q⌋ : ℚ) ≤ ((0 : ℤ) : ℚ) := (Int.floor_le q).trans (by simpa using hq)
    exact_mod_cast h
  by_cases h0 : ⌊q⌋ = 0
  · -- Only zero has floor zero here.
    have hle : (0 : ℚ) ≤ q := by
      have h := Int.floor_le q
      rw [h0] at h
      simpa using h
    have hq0 : q = 0 := le_antisymm hq hle
    subst hq0
    simp [Py.FloatVal.roundHalfEven]
  · have hneg : ⌊q⌋ + 1 ≤ 0 := by omega
    unfold Py.FloatVal.roundHalfEven
    dsimp only
    split_ifs <;> omega

theorem nearest_nonpos {q : ℚ} (hq : q ≤ 0) : nearest q ≤ 0 := by
  unfold nearest Py.FloatVal.ofRat
  by_cases h0 : q = 0
  · rw [if_pos h0]
  · rw [if_neg h0]
    dsimp only
    have hulp : (0 : ℚ) < 2 ^ (max (Py.FloatVal.ilog 2 q) (-1022) - 52) :=
      zpow_pos (by norm_num) _
    have hround : Py.FloatVal.roundHalfEven
        (q / 2 ^ (max (Py.FloatVal.ilog 2 q) (-1022) - 52)) ≤ 0 :=
      roundHalfEven_nonpos (div_nonpos_of_nonpos_of_nonneg hq hulp.le)
    split_ifs
    · exact hq
    · exact hq
    · exact mul_nonpos_of_nonpos_of_nonneg (by exact_mod_cast hround) hulp.le

/-- The report's differences lose nothing to rounding. -/
def ExactDelta (usage : Usage) (prev : Totals) : Prop :=
  (∀ d, usage.dollars = some d → floatSub d prev.dollars = d - prev.dollars) ∧
    floatSub (dollarsDelta usage prev) (unpricedDelta usage prev) =
      dollarsDelta usage prev - unpricedDelta usage prev

theorem dollarsDelta_nonneg (usage : Usage) (prev : Totals) : 0 ≤ dollarsDelta usage prev :=
  le_max_left _ _

theorem tokensDelta_nonneg (usage : Usage) (prev : Totals) : 0 ≤ tokensDelta usage prev :=
  le_max_left _ _

theorem unpricedDelta_le (usage : Usage) (prev : Totals) :
    unpricedDelta usage prev ≤ dollarsDelta usage prev := by
  unfold unpricedDelta
  split
  · exact min_le_right _ _
  · exact dollarsDelta_nonneg usage prev

theorem ledgerRows_spec {run : RunId} {usage : Usage} {prev : Totals} {r : LedgerRow}
    (hr : r ∈ ledgerRows run usage prev) :
    r.run = run ∧ 0 ≤ r.tokensDelta ∧ 0 ≤ r.dollarsDelta := by
  have ht := tokensDelta_nonneg usage prev
  have hd := dollarsDelta_nonneg usage prev
  unfold ledgerRows at hr
  dsimp only at hr
  split_ifs at hr with hnone hunp hrest
  · cases hr
  · obtain rfl := List.mem_singleton.mp hr
    exact ⟨rfl, le_refl _, hunp.le⟩
  · simp only [List.mem_cons, List.not_mem_nil, or_false] at hr
    rcases hr with rfl | rfl
    · exact ⟨rfl, le_refl _, hunp.le⟩
    · exact ⟨rfl, ht, le_max_left _ _⟩
  · simp only [List.mem_cons, List.not_mem_nil, or_false] at hr
    rcases hr with rfl | rfl
    · exact ⟨rfl, le_refl _, hunp.le⟩
    · exact ⟨rfl, ht, le_max_left _ _⟩
  · obtain rfl := List.mem_singleton.mp hr
    exact ⟨rfl, ht, hd⟩

theorem sum_tokens_ledgerRows (run : RunId) (usage : Usage) (prev : Totals) :
    ((ledgerRows run usage prev).map (·.tokensDelta)).sum = tokensDelta usage prev := by
  unfold ledgerRows
  dsimp only
  split_ifs with hnone hunp hrest
  · simp [hnone.1]
  · simp [hrest.1]
  · simp
  · simp
  · simp

theorem sum_dollars_ledgerRows (run : RunId) {usage : Usage} {prev : Totals}
    (hexact : ExactDelta usage prev) :
    ((ledgerRows run usage prev).map (·.dollarsDelta)).sum = dollarsDelta usage prev := by
  have hsplit : max 0 (floatSub (dollarsDelta usage prev) (unpricedDelta usage prev)) =
      dollarsDelta usage prev - unpricedDelta usage prev := by
    rw [hexact.2]
    exact max_eq_right (sub_nonneg.mpr (unpricedDelta_le usage prev))
  unfold ledgerRows
  dsimp only
  split_ifs with hnone hunp hrest
  · simp [hnone.2]
  · rw [hsplit] at hrest
    have hall : unpricedDelta usage prev = dollarsDelta usage prev :=
      (sub_eq_zero.mp hrest.2).symm
    simp [hall]
  · simp [hsplit]
  · simp [hsplit]
  · simp

/-! ## The invariant -/

def ledgerTokens (rows : List LedgerRow) (run : RunId) : ℤ :=
  ((rows.filter (·.run == run)).map (·.tokensDelta)).sum

def ledgerDollars (rows : List LedgerRow) (run : RunId) : ℚ :=
  ((rows.filter (·.run == run)).map (·.dollarsDelta)).sum

theorem ledgerTokens_append (rows rows' : List LedgerRow) (run : RunId) :
    ledgerTokens (rows ++ rows') run = ledgerTokens rows run + ledgerTokens rows' run := by
  simp [ledgerTokens]

theorem ledgerDollars_append (rows rows' : List LedgerRow) (run : RunId) :
    ledgerDollars (rows ++ rows') run = ledgerDollars rows run + ledgerDollars rows' run := by
  simp [ledgerDollars]

/-- Every run's ledger rows add up to its totals, and none is negative. -/
structure Balanced (t : Tables) : Prop where
  tokens : ∀ id row, t.runs id = some row → ledgerTokens t.ledger id = row.tokensUsed
  dollars : ∀ id row, t.runs id = some row → ledgerDollars t.ledger id = row.dollarsUsed
  nonneg : ∀ r ∈ t.ledger, 0 ≤ r.tokensDelta ∧ 0 ≤ r.dollarsDelta

/-- Moreover only existing runs have ledger rows, and run numbers not used yet are free. -/
structure SpendInv (n : ℕ) (t : Tables) : Prop extends Balanced t where
  known : ∀ r ∈ t.ledger, (t.runs r.run).isSome = true
  free : ∀ id, n ≤ id → t.runs id = none

theorem SpendInv.filter_eq_nil {n : ℕ} {t : Tables} (h : SpendInv n t) {id : RunId}
    (hnone : t.runs id = none) : t.ledger.filter (·.run == id) = [] := by
  rw [List.filter_eq_nil_iff]
  intro r hr hid
  have hsome := h.known r hr
  rw [beq_iff_eq.mp hid, hnone] at hsome
  cases hsome

theorem SpendInv.dollars_nonneg {n : ℕ} {t : Tables} (h : SpendInv n t) {id : RunId}
    {row : RunRow} (hrow : t.runs id = some row) : 0 ≤ row.dollarsUsed := by
  rw [← h.dollars id row hrow]
  apply List.sum_nonneg
  intro d hd
  obtain ⟨r, hr, rfl⟩ := List.mem_map.mp hd
  exact (h.nonneg r (List.mem_filter.mp hr).1).2

theorem SpendInv.opened {n : ℕ} {t : Tables} (h : SpendInv n t) : SpendInv (n + 1) t :=
  ⟨h.toBalanced, h.known, fun id hid => h.free id (by omega)⟩

def spendOutline : Outline Tables Unit Request where
  inv n sh := SpendInv n sh.db
  rely i sh sh' := sh.db.runs i = none → sh'.db.runs i = none
  commits _ _ _ _ := True
  calls _ _ _ _ := True
  inv_open _ _ h := h.opened
  rely_refl _ _ h := h
  rely_trans _ _ _ _ h h' hl := h' (h hl)

/-! ## The reports that balance -/

/-- An accepted report that read the totals it replaces, goes up, and subtracts exactly. -/
def InOrder (t : Tables) (run : RunId) (lease : LeaseId) (usage : Usage)
    (read : Option Totals) : Prop :=
  ∀ row, heldRow t run lease = some row → ∃ prev, read = some prev ∧
    prev.tokens = row.tokensUsed ∧ prev.dollars = row.dollarsUsed ∧
    row.tokensUsed ≤ usage.tokens ∧ (∀ d, usage.dollars = some d → row.dollarsUsed ≤ d) ∧
    ExactDelta usage prev

instance (usage : Usage) (prev : Totals) : Decidable (ExactDelta usage prev) :=
  inferInstanceAs (Decidable ((∀ d, usage.dollars = some d → _) ∧ _))

instance (t : Tables) (run : RunId) (lease : LeaseId) (usage : Usage) (read : Option Totals) :
    Decidable (InOrder t run lease usage read) :=
  inferInstanceAs (Decidable (∀ row, heldRow t run lease = some row → ∃ prev, read = some prev ∧ _))

/-- Runs in which no report's update meets totals other than those it read. -/
def reportsInOrder : Stmt → View Tables Resource → Prop
  | .heartbeatUpdate run lease usage read, v => InOrder v.db run lease usage read
  | .releaseUpdate run lease usage read, v => InOrder v.db run lease usage read
  | .completeUpdate run lease usage read _, v => InOrder v.db run lease usage read
  | _, _ => True

/-- What such a report adds to the ledger is what the totals grow by. -/
theorem InOrder.sums {n : ℕ} {t : Tables} {run : RunId} {lease : LeaseId} {usage : Usage}
    {read : Option Totals} {row : RunRow} (h : InOrder t run lease usage read)
    (hinv : SpendInv n t) (hheld : heldRow t run lease = some row) :
    ((reportRows run usage read).map (·.tokensDelta)).sum = (usage.tokens : ℤ) - row.tokensUsed ∧
      ((reportRows run usage read).map (·.dollarsDelta)).sum =
        usage.dollars.getD row.dollarsUsed - row.dollarsUsed := by
  obtain ⟨prev, rfl, htok, hdol, hle, hup, hexact⟩ := h row hheld
  have hrow := (heldRow_eq_some.mp hheld).1
  constructor
  · show ((ledgerRows run usage prev).map _).sum = _
    rw [sum_tokens_ledgerRows]
    unfold tokensDelta
    omega
  · show ((ledgerRows run usage prev).map _).sum = _
    rw [sum_dollars_ledgerRows run hexact]
    unfold dollarsDelta
    cases hd : usage.dollars with
    | none =>
      have hneg : floatSub 0 prev.dollars ≤ 0 := by
        apply nearest_nonpos
        rw [hdol]
        linarith [hinv.dollars_nonneg hrow]
      rw [Option.getD_none, Option.getD_none, max_eq_left hneg]
      ring
    | some d =>
      rw [Option.getD_some, Option.getD_some, hexact.1 d hd, hdol]
      exact max_eq_right (sub_nonneg.mpr (hup d hd))

/-! ## Commits -/

theorem ledgerSums_of_run {rows : List LedgerRow} {run : RunId} (h : ∀ r ∈ rows, r.run = run)
    (id : RunId) : rows.filter (·.run == id) = if id = run then rows else [] := by
  by_cases hid : id = run
  · rw [if_pos hid, List.filter_eq_self]
    exact fun r hr => beq_iff_eq.mpr ((h r hr).trans hid.symm)
  · rw [if_neg hid, List.filter_eq_nil_iff]
    exact fun r hr hr' => hid ((beq_iff_eq.mp hr').symm.trans (h r hr))

/-- A commit that grows each run's totals by what it adds to the run's ledger rows, and
inserts no run but the session's own. -/
theorem SpendInv.commit {i n : ℕ} {sh : Shared Tables Unit} {ws : List Write} {req : Request}
    (hinv : SpendInv n sh.db) (hi : i < n)
    (hrows : ∀ id row, (store.applyAll ws sh.db).runs id = some row →
      (∃ old, sh.db.runs id = some old ∧
        (row.tokensUsed : ℤ) =
          old.tokensUsed + ledgerTokens (ws.filterMap Write.ledgerRow?) id ∧
        row.dollarsUsed =
          old.dollarsUsed + ledgerDollars (ws.filterMap Write.ledgerRow?) id) ∨
      (sh.db.runs id = none ∧ id = i ∧ row.tokensUsed = 0 ∧ row.dollarsUsed = 0))
    (hledger : ∀ r ∈ ws.filterMap Write.ledgerRow?, (sh.db.runs r.run).isSome = true ∧
      0 ≤ r.tokensDelta ∧ 0 ≤ r.dollarsDelta) :
    Guarantees spendOutline i n sh { sh with db := store.applyAll ws sh.db } ∧
      spendOutline.commits i req sh { sh with db := store.applyAll ws sh.db } := by
  have hgrow : ∀ id, (sh.db.runs id).isSome = true →
      ((store.applyAll ws sh.db).runs id).isSome = true := by
    intro id hid
    rcases runs_applyAll ws sh.db id with ⟨w, -, row, -, heq⟩ | ⟨-, heq⟩
    · rw [heq]
      rfl
    · rw [heq]
      exact hid
  have hnew : ∀ id, id ≠ i → sh.db.runs id = none → (store.applyAll ws sh.db).runs id = none := by
    intro id hid hnone
    cases hrow : (store.applyAll ws sh.db).runs id with
    | none => rfl
    | some row =>
      rcases hrows id row hrow with ⟨old, hold, -⟩ | ⟨-, hid', -⟩
      · rw [hnone] at hold
        cases hold
      · exact absurd hid' hid
  -- A fresh run has no ledger rows, old or new.
  have hfresh : ∀ id, sh.db.runs id = none →
      (ws.filterMap Write.ledgerRow?).filter (·.run == id) = [] := by
    intro id hnone
    rw [List.filter_eq_nil_iff]
    intro r hr hid
    have hsome := (hledger r hr).1
    rw [beq_iff_eq.mp hid, hnone] at hsome
    cases hsome
  refine ⟨⟨⟨⟨?_, ?_, ?_⟩, ?_, ?_⟩, fun j hj hnone => hnew j hj hnone⟩, trivial⟩
  · intro id row hrow
    rw [ledger_applyAll, ledgerTokens_append]
    rcases hrows id row hrow with ⟨old, hold, htok, -⟩ | ⟨hnone, -, htok, -⟩
    · rw [hinv.tokens id old hold, htok]
    · simp [ledgerTokens, hinv.filter_eq_nil hnone, hfresh id hnone, htok]
  · intro id row hrow
    rw [ledger_applyAll, ledgerDollars_append]
    rcases hrows id row hrow with ⟨old, hold, -, hdol⟩ | ⟨hnone, -, -, hdol⟩
    · rw [hinv.dollars id old hold, hdol]
    · simp [ledgerDollars, hinv.filter_eq_nil hnone, hfresh id hnone, hdol]
  · intro r hr
    rw [ledger_applyAll] at hr
    rcases List.mem_append.mp hr with hr | hr
    · exact hinv.nonneg r hr
    · exact (hledger r hr).2
  · intro r hr
    rw [ledger_applyAll] at hr
    rcases List.mem_append.mp hr with hr | hr
    · exact hgrow r.run (hinv.known r hr)
    · exact hgrow r.run (hledger r hr).1
  · exact fun id hid => hnew id (by omega) (hinv.free id hid)

/-- No ledger row, and no run row but the session's own at zero. -/
def SpendFree (i : ℕ) (w : Write) : Prop :=
  w.ledgerRow? = none ∧
    ∀ id row, w.runRow? = some (id, row) → id = i ∧ row.tokensUsed = 0 ∧ row.dollarsUsed = 0

theorem CompletionWrite.spendFree {i : ℕ} {run : RunId} {lease : LeaseId} {w : Write}
    (h : CompletionWrite i run lease w) : SpendFree i w := by
  refine ⟨h.noLedger, fun id row hw => ?_⟩
  obtain ⟨hid, c, now, notBefore, rfl⟩ := h.newRun hw
  exact ⟨hid, rfl, rfl⟩

theorem noLedger_of_spendFree {i : ℕ} {ws : List Write} (h : ∀ w ∈ ws, SpendFree i w) :
    ws.filterMap Write.ledgerRow? = [] := by
  rw [List.filterMap_eq_nil_iff]
  exact fun w hw => (h w hw).1

/-- A report's writes insert its own ledger rows and no others. -/
theorem ledgerRows_of_report {i : ℕ} {run : RunId} {rows : List LedgerRow} {row' : RunRow}
    {ws : List Write} (hws : ∀ w ∈ ws, SpendFree i w) :
    (rows.map Write.insertLedger ++ .setRun run row' :: ws).filterMap Write.ledgerRow? = rows := by
  rw [List.filterMap_append, List.filterMap_map, List.filterMap_cons_none rfl,
    noLedger_of_spendFree hws, List.append_nil]
  exact List.filterMap_some

/-- The commit of a report: its ledger rows, the new totals, and what follows. -/
theorem report_commit {i n : ℕ} {sh : Shared Tables Unit} {req : Request} {run : RunId}
    {rows : List LedgerRow} {row row' : RunRow} {ws : List Write} (hi : i < n)
    (hinv : SpendInv n sh.db) (hfree : sh.db.runs i = none) (hrow : sh.db.runs run = some row)
    (hrows : ∀ r ∈ rows, r.run = run ∧ 0 ≤ r.tokensDelta ∧ 0 ≤ r.dollarsDelta)
    (htok : (row'.tokensUsed : ℤ) = row.tokensUsed + (rows.map (·.tokensDelta)).sum)
    (hdol : row'.dollarsUsed = row.dollarsUsed + (rows.map (·.dollarsDelta)).sum)
    (hws : ∀ w ∈ ws, SpendFree i w) :
    let all := rows.map Write.insertLedger ++ .setRun run row' :: ws
    Guarantees spendOutline i n sh { sh with db := store.applyAll all sh.db } ∧
      spendOutline.commits i req sh { sh with db := store.applyAll all sh.db } := by
  intro all
  have hne : run ≠ i := by
    rintro rfl
    rw [hfree] at hrow
    cases hrow
  have hadded : all.filterMap Write.ledgerRow? = rows := ledgerRows_of_report hws
  have hcases : ∀ w ∈ all, (∃ r, w = .insertLedger r) ∨ w = .setRun run row' ∨
      SpendFree i w := by
    intro w hw
    rcases List.mem_append.mp hw with hw | hw
    · obtain ⟨r, -, rfl⟩ := List.mem_map.mp hw
      exact Or.inl ⟨r, rfl⟩
    · rcases List.mem_cons.mp hw with rfl | hw
      · exact Or.inr (Or.inl rfl)
      · exact Or.inr (Or.inr (hws w hw))
  apply hinv.commit hi
  · rw [hadded]
    unfold ledgerTokens ledgerDollars
    intro id r hr
    rw [ledgerSums_of_run (fun r hr => (hrows r hr).1) id]
    rcases runs_applyAll all sh.db id with ⟨w, hw, r', hr', heq⟩ | ⟨hno, heq⟩
    · obtain rfl := Option.some.inj (heq.symm.trans hr)
      rcases hcases w hw with ⟨l, rfl⟩ | rfl | hq
      · cases hr'
      · obtain ⟨rfl, rfl⟩ : run = id ∧ row' = r' := by simpa [Write.runRow?] using hr'
        rw [if_pos rfl]
        exact Or.inl ⟨row, hrow, htok, hdol⟩
      · obtain ⟨hid, h0, h0'⟩ := hq.2 id r' hr'
        exact Or.inr ⟨hid ▸ hfree, hid, h0, h0'⟩
    · have hid : id ≠ run := by
        rintro rfl
        exact hno (.setRun id row') (by simp [all]) row' rfl
      rw [if_neg hid]
      exact Or.inl ⟨r, heq ▸ hr, by simp, by simp⟩
  · rw [hadded]
    intro r hr
    obtain ⟨hrun, hnonneg⟩ := hrows r hr
    rw [hrun, hrow]
    exact ⟨rfl, hnonneg⟩

/-! ## Requests -/

theorem reportRows_spec {run : RunId} {usage : Usage} {read : Option Totals} :
    ∀ r ∈ reportRows run usage read, r.run = run ∧ 0 ≤ r.tokensDelta ∧ 0 ≤ r.dollarsDelta := by
  cases read with
  | none => simp [reportRows]
  | some prev => exact fun r hr => ledgerRows_spec hr

section

variable {i : ℕ} {sh : Shared Tables Unit} (hfree : sh.db.runs i = none)
include hfree

theorem safe_spendReport {req : Request} {run : RunId} {lease : LeaseId} {usage : Usage}
    {lab : Option Totals → Stmt} {row' : RunRow → RunRow} {extra : List Write}
    {next : View Tables Resource → Program}
    (hlab : ∀ read v, reportsInOrder (lab read) v → InOrder v.db run lease usage read)
    (hnone : ∀ v, heldRow v.db run lease = none → next v = .rollback)
    (htotals : ∀ row, (row' row).tokensUsed = usage.tokens ∧
      (row' row).dollarsUsed = usage.dollars.getD row.dollarsUsed)
    (hextra : ∀ w ∈ extra, SpendFree i w)
    (hnext : ∀ v, (heldRow v.db run lease).isSome = true →
      Emits (CompletionWrite i run lease) (next v)) :
    Safe spendOutline store reportsInOrder i req
      (recordSpendDelta run usage fun read =>
        .stmt (lab read) (fun v => (heldRow v.db run lease).toList.flatMap fun row =>
          .setRun run (row' row) :: extra) next) [] sh := by
  apply safe_report hnone
  intro n sh' read row locked _ hinv hrely hheld hcond
  have horder : InOrder sh'.db run lease usage read := by
    intro r hr
    exact hlab read _ hcond r (by rw [heldRow_applyAll_ledger]; exact hr)
  obtain ⟨htok, hdol⟩ := horder.sums hinv hheld
  apply Safe.of_emits (hnext _ (by rw [heldRow_applyAll_ledger, hheld]; rfl))
  intro ws n' sh'' hws hi hinv' hr
  have hrow : sh''.db.runs run = some row := by
    rw [runs_of_relyOn hr (by simp [store, Write.locks])]
    exact (heldRow_eq_some.mp hheld).1
  rw [List.append_assoc, List.cons_append]
  apply report_commit hi hinv' (hr.1 (hrely hfree)) hrow reportRows_spec
  · rw [(htotals row).1, htok]
    omega
  · rw [(htotals row).2, hdol]
    ring
  · intro w hw
    rcases List.mem_append.mp hw with hw | hw
    · exact hextra w hw
    · exact (hws w hw).spendFree

end

def SameTotals (old row : RunRow) : Prop :=
  row.tokensUsed = old.tokensUsed ∧ row.dollarsUsed = old.dollarsUsed

theorem sameTotals_trans (a b c : RunRow) (h : SameTotals a b) (h' : SameTotals b c) :
    SameTotals a c := ⟨h'.1.trans h.1, h'.2.trans h.2⟩

theorem safe_of_sameTotals {i : ℕ} {sh : Shared Tables Unit} {req : Request} {prog : Program}
    (hprog : KeepsProg SameTotals (fun _ _ => True) prog) :
    Safe spendOutline store reportsInOrder i req prog [] sh := by
  apply safe_of_keeps sameTotals_trans (fun _ _ _ _ _ => trivial) hprog (by simp)
  intro ws n sh' hws hi hinv
  have hnone := Kept.noLedger hws
  apply hinv.commit hi
  · intro id row hrow
    obtain ⟨old, hold, heq⟩ := Kept.runs hws hrow
    refine Or.inl ⟨old, hold, ?_⟩
    have hsame : SameTotals old row := by
      rcases heq with rfl | hsame
      · exact ⟨rfl, rfl⟩
      · exact hsame
    rw [hnone, hsame.1, hsame.2]
    simp [ledgerTokens, ledgerDollars]
  · simp [hnone]

theorem safe_spendPromote (i : ℕ) (sh : Shared Tables Unit) (severity : ℕ)
    (now notBefore : Time) :
    Safe spendOutline store reportsInOrder i (.promote severity now notBefore)
      (promoteAlert i severity now notBefore) [] sh := by
  apply safe_promoteAlert
  intro n sh' hi hinv _ _ hfree all
  have hnone : all.filterMap Write.ledgerRow? = [] := rfl
  apply hinv.commit hi
  · intro id row hrow
    rcases runs_applyAll all sh'.db id with ⟨w, hw, row', hrow', heq⟩ | ⟨-, heq⟩
    · obtain rfl := Option.some.inj (heq.symm.trans hrow)
      simp only [all, List.mem_cons, List.not_mem_nil, or_false] at hw
      rcases hw with rfl | rfl
      · cases hrow'
      · obtain ⟨rfl, rfl⟩ : i = id ∧ newRun i now notBefore = row' := by
          simpa [Write.runRow?] using hrow'
        exact Or.inr ⟨hfree, rfl, rfl, rfl⟩
    · refine Or.inl ⟨row, heq ▸ hrow, ?_⟩
      rw [hnone]
      simp [ledgerTokens, ledgerDollars]
  · simp [hnone]

theorem emits_afterComplete (i : ℕ) (run : RunId) (lease : LeaseId) (now : Time)
    (payload : CompletePayload) (reads : CompleteReads) (v : View Tables Resource)
    (hheld : (heldRow v.db run lease).isSome = true) :
    Emits (CompletionWrite i run lease) (match heldRow v.db run lease with
      | none => (.rollback : Program)
      | some row =>
        match payload.status with
        | .completed => applyDisposition i run lease now row.investigation payload reads
        | .haltedBudget => .commit .plain
        | .failed => .commit (.endedCommit row.investigation
            (evidenceFlag v.db row.investigation))) := by
  obtain ⟨row, hrow⟩ := Option.isSome_iff_exists.mp hheld
  rw [hrow]
  dsimp only
  split
  · exact emits_applyDisposition i run lease now row.investigation payload reads
  · trivial
  · trivial

theorem safe_spend (n : ℕ) (req : Request) (sh : Shared Tables Unit)
    (hinv : spendOutline.inv n sh) :
    Safe spendOutline store reportsInOrder n req (serve n req) [] sh := by
  have hfree : sh.db.runs n = none := hinv.free n le_rfl
  cases req with
  | claim now wall capOk =>
    exact safe_of_sameTotals (keeps_claim n now wall capOk fun _ _ _ _ => ⟨rfl, rfl⟩)
  | heartbeat run lease wall usage =>
    show Safe _ _ _ _ _ (heartbeatRun run lease wall usage) [] sh
    unfold heartbeatRun
    refine safe_spendReport hfree ?_ (fun v hv => by simp [hv]) ?_ (by simp) ?_
    · exact fun _ _ h => h
    · exact fun _ => ⟨rfl, rfl⟩
    · intro v hv
      rw [if_pos hv]
      trivial
  | release run lease now usage =>
    show Safe _ _ _ _ _ (releaseRun run lease now usage) [] sh
    unfold releaseRun
    refine safe_spendReport hfree ?_ (fun v hv => by simp [hv]) ?_ (by simp) ?_
    · exact fun _ _ h => h
    · exact fun _ => ⟨rfl, rfl⟩
    · intro v hv
      obtain ⟨row, hrow⟩ := Option.isSome_iff_exists.mp hv
      rw [hrow]
      dsimp only
      split <;> trivial
  | complete run lease now payload reads =>
    show Safe _ _ _ _ _ (completeRun n run lease now payload reads) [] sh
    unfold completeRun
    refine safe_spendReport hfree ?_ (fun v hv => by simp [hv]) ?_ ?_ ?_
    · exact fun _ _ h => h
    · exact fun _ => ⟨rfl, rfl⟩
    · intro w hw
      obtain rfl := List.mem_singleton.mp hw
      exact ⟨rfl, fun id row h => by cases h⟩
    · exact emits_afterComplete n run lease now payload reads
  | reap now => exact safe_of_sameTotals (keeps_reap (fun _ => ⟨rfl, rfl⟩) now)
  | unlock run now tokens dollars =>
    exact safe_of_sameTotals (keeps_unlock run now tokens dollars fun _ _ _ => ⟨rfl, rfl⟩)
  | transition run resume =>
    exact safe_of_sameTotals (keeps_transition run resume fun _ _ _ => ⟨rfl, rfl⟩)
  | attach c => exact safe_of_sameTotals (keeps_attach c fun _ => trivial)
  | promote severity now notBefore => exact safe_spendPromote n sh severity now notBefore

/-! ## Every run -/

theorem spendInv_empty : SpendInv 0 Tables.empty where
  tokens _ _ h := by cases h
  dollars _ _ h := by cases h
  nonneg := by simp [Tables.empty]
  known := by simp [Tables.empty]
  free _ _ := rfl

/-- While every report meets the totals it read, the ledger adds up after every commit. -/
theorem ledger_balanced {sys : System} (hrun : Run store serve reportsInOrder init sys) :
    Balanced sys.shared.db := by
  have hstart : spendOutline.inv 0 ⟨Tables.empty, []⟩ := spendInv_empty
  have hinv : SpendInv sys.opened sys.shared.db := Run.inv safe_spend hstart hrun
  exact hinv.toBalanced

instance decidableReportsInOrder : ∀ lab v, Decidable (reportsInOrder lab v)
  | .heartbeatUpdate _ _ _ _, v => inferInstanceAs (Decidable (InOrder v.db _ _ _ _))
  | .releaseUpdate _ _ _ _, v => inferInstanceAs (Decidable (InOrder v.db _ _ _ _))
  | .completeUpdate _ _ _ _ _, v => inferInstanceAs (Decidable (InOrder v.db _ _ _ _))
  | .plain, _ => isTrue trivial
  | .endedCommit _ _, _ => isTrue trivial
  | .attachCommit _, _ => isTrue trivial

/-- Two reports one after the other. -/
def reportsInTurn : List (Event Request) := promoteAndClaim ++
  [.begin (.heartbeat 0 1 2 { tokens := 10, dollars := some 1 }),
   .advance 2, .advance 2, .advance 2, .advance 2,
   .begin (.release 0 1 3 { tokens := 15, dollars := some 3 }),
   .advance 3, .advance 3, .advance 3, .advance 3]

theorem ledger_balanced_reportsInTurn : ∃ sys,
    runEvents store serve reportsInOrder init reportsInTurn = some sys ∧
    ledgerTokens sys.shared.db.ledger 0 = 15 ∧ Balanced sys.shared.db := by
  have hsum : (runEvents store serve reportsInOrder init reportsInTurn).map
      (fun sys => ledgerTokens sys.shared.db.ledger 0) = some 15 := by decide +kernel
  obtain ⟨sys, hsys, htok⟩ := Option.map_eq_some_iff.mp hsum
  exact ⟨sys, hsys, htok, ledger_balanced (Run.of_runEvents hsys)⟩

/-- A heartbeat and a completion that both read the totals before either updates them. -/
def reportsCrossed : List (Event Request) := promoteAndClaim ++
  [.begin (.heartbeat 0 1 2 { tokens := 10 }),
   .begin (.complete 0 1 2 { status := .completed, usage := { tokens := 15 } } {}),
   .advance 2, .advance 3, .advance 2, .advance 2, .advance 2,
   .advance 3, .advance 3, .advance 3, .advance 3, .advance 3, .advance 3]

theorem ledger_unbalanced_reportsCrossed : ∃ sys,
    runEvents store serve always init reportsCrossed = some sys ∧
    (sys.shared.db.runs 0).map (·.tokensUsed) = some 15 ∧
    ledgerTokens sys.shared.db.ledger 0 = 25 ∧ ¬ Balanced sys.shared.db := by
  have hsum : (runEvents store serve always init reportsCrossed).map
      (fun sys => ((sys.shared.db.runs 0).map (·.tokensUsed),
        ledgerTokens sys.shared.db.ledger 0)) = some (some 15, 25) := by decide +kernel
  obtain ⟨sys, hsys, heq⟩ := Option.map_eq_some_iff.mp hsum
  obtain ⟨hused, htok⟩ := Prod.mk.inj heq
  refine ⟨sys, hsys, hused, htok, fun h => ?_⟩
  obtain ⟨row, hrow, hrow'⟩ := Option.map_eq_some_iff.mp hused
  have hbal := h.tokens 0 row hrow
  rw [htok, hrow'] at hbal
  omega

end SocTalk.Runs
