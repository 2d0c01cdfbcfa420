import SocTalk.Lib.Alone
import SocTalk.Runs.Spend

/-! What a worker's report leaves of its run: ledger rows over the totals it read, and its new
totals. -/
namespace SocTalk.Runs
open ReadCommitted

/-- The run a request reports on, and what it reports. -/
def Request.report? : Request → Option (RunId × Usage)
  | .heartbeat run _ _ usage => some (run, usage)
  | .release run _ _ usage => some (run, usage)
  | .complete run _ _ payload _ => some (run, payload.usage)
  | _ => none

/-- The totals that a report on the run reads. -/
def totalsOf (t : Tables) (run : RunId) (row : RunRow) : Totals :=
  { tokens := row.tokensUsed, dollars := row.dollarsUsed, unpriced := unpricedLedgered t run }

/-- A report that is accepted. -/
def Recorded (run : RunId) (usage : Usage) (t t' : Tables) : Prop :=
  ∃ row row', t.runs run = some row ∧ t'.runs run = some row' ∧
    row'.tokensUsed = usage.tokens ∧ row'.dollarsUsed = usage.dollars.getD row.dollarsUsed ∧
    t'.ledger = t.ledger ++ ledgerRows run usage (totalsOf t run row)

/-- A report writes its run's row once. -/
theorem run_of_report {i : ℕ} {run : RunId} {rows : List LedgerRow} {row' : RunRow}
    {ws : List Write} (hne : run ≠ i) (hws : ∀ w ∈ ws, SpendFree i w) (t : Tables) :
    (store.applyAll (rows.map Write.insertLedger ++ .setRun run row' :: ws) t).runs run =
      some row' := by
  rcases runs_applyAll (rows.map Write.insertLedger ++ .setRun run row' :: ws) t run with
    ⟨w, hw, r, hr, heq⟩ | ⟨hno, -⟩
  · rw [heq]
    rcases List.mem_append.mp hw with hw | hw
    · obtain ⟨l, -, rfl⟩ := List.mem_map.mp hw
      cases hr
    · rcases List.mem_cons.mp hw with rfl | hw
      · obtain ⟨-, rfl⟩ : run = run ∧ row' = r := by simpa [Write.runRow?] using hr
        rfl
      · exact absurd ((hws w hw).2 run r hr).1 hne
  · exact absurd rfl (hno (.setRun run row') (by simp) row')

theorem alone_report {i : ℕ} {t : Tables} (hfresh : t.runs i = none) {prog : Program} {run : RunId}
    {lease : LeaseId} {usage : Usage} {lab : Option Totals → Stmt} {row' : RunRow → RunRow}
    {extra : List Write} {next : View Tables Resource → Program}
    (hprog : prog = recordSpendDelta run usage fun read =>
      .stmt (lab read) (fun v => (heldRow v.db run lease).toList.flatMap fun row =>
        .setRun run (row' row) :: extra) next)
    (hnone : ∀ v, heldRow v.db run lease = none → next v = .rollback)
    (htotals : ∀ row, (row' row).tokensUsed = usage.tokens ∧
      (row' row).dollarsUsed = usage.dollars.getD row.dollarsUsed)
    (hextra : ∀ w ∈ extra, SpendFree i w)
    (hnext : ∀ v, (heldRow v.db run lease).isSome = true →
      Emits (CompletionWrite i run lease) (next v)) :
    let t' := (prog.alone store [] t).1
    t' = t ∨ Recorded run usage t t' := by
  intro t'
  subst hprog
  cases hrow : t.runs run with
  | none =>
    have hheld : heldRow t run lease = none := by
      unfold heldRow
      rw [hrow]
    refine .inl ?_
    simp only [t', recordSpendDelta, Prog.alone, Store.applyAll_nil, readTotals, hrow,
      Option.map_none]
    rw [hnone _ hheld]
    rfl
  | some row =>
    obtain ⟨rows, hrows⟩ : ∃ rows, rows = ledgerRows run usage (totalsOf t run row) := ⟨_, rfl⟩
    have hread : t' = ((next ⟨store.applyAll (rows.map .insertLedger) t, fun _ => false⟩).alone
        store (rows.map .insertLedger ++ (heldRow t run lease).toList.flatMap fun row =>
          .setRun run (row' row) :: extra) t).1 := by
      simp only [t', recordSpendDelta, Prog.alone, Store.applyAll_nil, readTotals, hrow,
        Option.map_some, List.nil_append, heldRow_applyAll_ledger, hrows]
      rfl
    cases hheld : heldRow t run lease with
    | none =>
      rw [hnone _ (by rw [heldRow_applyAll_ledger, hheld])] at hread
      exact .inl hread
    | some held =>
      obtain rfl : held = row :=
        Option.some.inj ((heldRow_eq_some.mp hheld).1.symm.trans hrow)
      rw [hheld] at hread
      have hemits := hnext ⟨store.applyAll (rows.map .insertLedger) t, fun _ => false⟩
        (by rw [heldRow_applyAll_ledger, hheld]; rfl)
      rcases Prog.alone_emits hemits _ t with hsame | ⟨ws, hws, heq⟩
      · exact .inl (hread.trans hsame)
      · have hfree : ∀ w ∈ extra ++ ws, SpendFree i w := by
          intro w hw
          rcases List.mem_append.mp hw with hw | hw
          · exact hextra w hw
          · exact (hws w hw).spendFree
        have hne : run ≠ i := by
          rintro rfl
          rw [hfresh] at hrow
          cases hrow
        have hfinal : t' = store.applyAll
            (rows.map Write.insertLedger ++ .setRun run (row' held) :: (extra ++ ws)) t := by
          rw [hread, heq, List.append_assoc]
          congr 1
          simp
        refine .inr ⟨held, row' held, hrow, ?_, (htotals held).1, (htotals held).2, ?_⟩
        · rw [hfinal]
          exact run_of_report hne hfree t
        · rw [hfinal, ledger_applyAll, ledgerRows_of_report hfree, hrows]

/-- A report is rejected, with nothing written, or recorded. -/
theorem recorded_of_serve {t : Tables} {session : ℕ} {req : Request} {run : RunId} {usage : Usage}
    (hfresh : t.runs session = none) (hreq : req.report? = some (run, usage)) :
    let t' := ((serve session req).alone store [] t).1
    t' = t ∨ Recorded run usage t t' := by
  cases req with
  | heartbeat run' lease wall usage' =>
    obtain ⟨rfl, rfl⟩ : run' = run ∧ usage' = usage := by simpa [Request.report?] using hreq
    refine alone_report hfresh rfl (fun v hv => by simp [hv]) (fun _ => ⟨rfl, rfl⟩) (by simp) ?_
    intro v hv
    rw [if_pos hv]
    trivial
  | release run' lease now usage' =>
    obtain ⟨rfl, rfl⟩ : run' = run ∧ usage' = usage := by simpa [Request.report?] using hreq
    refine alone_report hfresh rfl (fun v hv => by simp [hv]) (fun _ => ⟨rfl, rfl⟩) (by simp) ?_
    intro v hv
    obtain ⟨row, hrow⟩ := Option.isSome_iff_exists.mp hv
    rw [hrow]
    dsimp only
    split <;> trivial
  | complete run' lease now payload reads =>
    obtain ⟨rfl, rfl⟩ : run' = run ∧ payload.usage = usage := by simpa [Request.report?] using hreq
    have hprog : serve session (.complete run' lease now payload reads) =
        completeRun session run' lease now payload reads := rfl
    unfold completeRun at hprog
    refine alone_report hfresh hprog (fun v hv => by simp [hv]) (fun _ => ⟨rfl, rfl⟩) ?_ ?_
    · intro w hw
      obtain rfl := List.mem_singleton.mp hw
      exact ⟨rfl, fun id row h => by cases h⟩
    · exact emits_afterComplete session run' lease now payload reads
  | _ => cases hreq

end SocTalk.Runs
