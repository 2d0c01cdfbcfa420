import SocTalk.Runs.Endpoints
import SocTalk.Triage.Lifecycle

/-! The completion of a run with the spend and the response actions it records, and what it does
when the investigation of the run is no longer active. -/
namespace SocTalk.Triage
open Py TriagePolicy Worker

/-- The delivery key of a response action, `response:{run}:{playbook}@{version}:{index}`. -/
structure ActionKey where
  run : ℕ
  playbook : String
  version : String
  index : ℕ
  deriving DecidableEq

/-- The cases with what else a completion writes: the totals on the runs, the spend ledger,
and the outbox of response actions. -/
structure Desk where
  cases : Cases
  totals : ℕ → Runs.Totals := fun _ => ⟨0, 0, 0⟩
  ledger : List Runs.LedgerRow := []
  outbox : List ActionKey := []

/-- A completed run: the report of the worker, its usage, and the actions that the matching
playbooks select; none where the dispatcher is killed or fails under its savepoint. -/
structure Finish extends Report where
  usage : Runs.Usage
  actions : List ActionKey := []
  deriving DecidableEq

namespace Desk

/-- The totals on the run row, with the dollars ledgered so far as unpriced. -/
def readTotals (d : Desk) (run : ℕ) : Runs.Totals :=
  { d.totals run with
    unpriced := Runs.unpricedLedgered { Runs.Tables.empty with ledger := d.ledger } run }

/-- `_record_spend_delta`, and the totals a completion leaves on the run row. -/
def recordSpend (d : Desk) (run : ℕ) (usage : Runs.Usage) : Desk :=
  { d with
    totals := Function.update d.totals run
      { d.totals run with
        tokens := usage.tokens, dollars := usage.dollars.getD (d.totals run).dollars }
    ledger := d.ledger ++ Runs.ledgerRows run usage (d.readTotals run) }

/-- `ON CONFLICT (idempotency_key) DO NOTHING`. -/
def enqueue (outbox : List ActionKey) (key : ActionKey) : List ActionKey :=
  if key ∈ outbox then outbox else outbox ++ [key]

/-- `dispatch_for_completed_run`. -/
def dispatch (d : Desk) (actions : List ActionKey) : Desk :=
  { d with outbox := actions.foldl enqueue d.outbox }

def liveRun (d : Desk) (run : ℕ) : Option Run :=
  d.cases.db.runs.find? fun r => r.id == run && r.live

/-- An update of the case that took effect: the close of an active case, and any request of a
review. -/
def caseChanged (report : Report) (active : Bool) : Bool :=
  report.status == .completed &&
    match report.effectiveDisposition active with
    | some .closeFp => active
    | some .escalate => true
    | _ => false

def completeRun (ctx : Context) (d : Desk) (tenant : Tenant) (f : Finish) : Option Desk := do
  let run ← d.liveRun f.run
  let cases ← d.cases.completeRun ctx tenant f.toReport
  let d' := { d.recordSpend f.run f.usage with cases := cases }
  return if caseChanged f.toReport (d.cases.db.isActive tenant run.investigationId) then
    d'.dispatch f.actions
  else d'

/-- The run has ended and its spend is recorded; the rest is as it was. -/
def ended (d : Desk) (f : Finish) : Desk :=
  { d.recordSpend f.run f.usage with
    cases := { d.cases with db := d.cases.db.endRun f.run f.status } }

end Desk

/-- A refused completion changes nothing, an accepted one nothing but its run and spend. -/
def Inert (ctx : Context) (d : Desk) (tenant : Tenant) (f : Finish) : Prop :=
  d.completeRun ctx tenant f =
    if (d.liveRun f.run).isSome ∧ f.leaseHeld then some (d.ended f) else none

/-! ## When a late completion is inert -/

/-- The verdict a late completion memoizes, with its cache key. -/
def Finish.memo (ctx : Context) (tenant : Tenant) (f : Finish) :
    Option ((Tenant × String) × Verdict) :=
  (CacheOp.completeRun tenant f.shape ⟨f.status, f.disposition, f.confidence⟩ ctx.now).recorded

/-- A review of the investigation is pending. -/
def Cases.reviewPending (s : Cases) (investigation : ℕ) : Bool :=
  s.reviews.any fun r => r.investigationId == investigation && r.status == .pending

def Cases.present (s : Cases) (tenant : Tenant) (investigation : ℕ) : Bool :=
  s.db.investigations.any fun i => i.id == investigation && i.tenant == tenant

/-- The days of the tenant's policy make a time span. -/
def reopenWindowOk (ctx : Context) (db : DB) (tenant : Tenant) : Bool :=
  (timedeltaDays
    (Policy.get (effectivePolicy ctx db tenant) "reopen_window_days" (.int 30))).toOption.isSome

/-- What a completed run must not do about a case that is no longer active: an escalation
queues a review unless one is pending and dispatches its actions, and a close or an escalation
is memoized. -/
structure Harmless (ctx : Context) (d : Desk) (tenant : Tenant) (investigation : ℕ)
    (f : Finish) : Prop where
  window : f.disposition = some .closeFp → reopenWindowOk ctx d.cases.db tenant = true
  queued : f.disposition = some .escalate → d.cases.present tenant investigation = true →
    d.cases.reviewPending investigation = true
  dispatched : f.disposition = some .escalate → ∀ key ∈ f.actions, key ∈ d.outbox
  memoized : ∀ r ∈ f.memo ctx tenant, verdictIn d.cases.db.verdictCache r.1 = some r.2

/-! ## What each branch does to a case that is no longer active -/

theorem recordVerdict_eq_self (cache : VerdictCache) (key : Tenant × String) (v : Verdict) :
    recordVerdict cache key v = cache ↔ verdictIn cache key = some v := by
  constructor
  · intro h
    have hv := verdictIn_recordVerdict cache key key v
    rwa [h, if_pos rfl] at hv
  · intro h
    obtain ⟨row, hrow, rfl⟩ := Option.map_eq_some_iff.mp h
    unfold recordVerdict
    rw [hrow]
    exact Function.update_eq_self_iff.mpr hrow.symm

theorem prefix_enqueue (actions outbox : List ActionKey) :
    outbox <+: actions.foldl Desk.enqueue outbox := by
  induction actions generalizing outbox with
  | nil => exact List.prefix_refl outbox
  | cons key actions ih =>
    have hkey : outbox <+: Desk.enqueue outbox key := by
      unfold Desk.enqueue
      split
      · exact List.prefix_refl outbox
      · exact List.prefix_append outbox [key]
    exact hkey.trans (ih _)

theorem mem_enqueue {actions outbox : List ActionKey} {key : ActionKey} (h : key ∈ actions) :
    key ∈ actions.foldl Desk.enqueue outbox := by
  induction actions generalizing outbox with
  | nil => cases h
  | cons other actions ih =>
    rw [List.foldl_cons]
    rcases List.mem_cons.mp h with rfl | h
    · have hkey : key ∈ Desk.enqueue outbox key := by
        unfold Desk.enqueue
        split
        · assumption
        · simp
      exact (prefix_enqueue actions _).subset hkey
    · exact ih h

/-- Nothing is queued when all of it is in the outbox. -/
theorem enqueue_eq_self (actions outbox : List ActionKey) :
    actions.foldl Desk.enqueue outbox = outbox ↔ ∀ key ∈ actions, key ∈ outbox := by
  constructor
  · intro h key hkey
    rw [← h]
    exact mem_enqueue hkey
  · intro h
    induction actions with
    | nil => rfl
    | cons key actions ih =>
      have hkey : Desk.enqueue outbox key = outbox := if_pos (h key List.mem_cons_self)
      rw [List.foldl_cons, hkey]
      exact ih fun k hk => h k (List.mem_cons_of_mem key hk)

/-- An update of the active cases does not reach one that is no longer active. -/
theorem updateInvestigation_late {db : DB} {tenant : Tenant} {c : ℕ}
    (hlate : db.isActive tenant c = false) (f : Investigation → Investigation) :
    (db.updateInvestigation c fun i => if i.tenant = tenant ∧ i.status = .active then f i else i) =
      db := by
  have hrows : db.investigations.map (fun i => if i.id = c then
      (if i.tenant = tenant ∧ i.status = .active then f i else i) else i) = db.investigations := by
    refine (List.map_congr_left fun i hi => ?_).trans (List.map_id' _)
    by_cases hid : i.id = c
    · have hno : ¬(i.tenant = tenant ∧ i.status = .active) := by
        intro h
        have hnone := List.any_eq_false.mp hlate i hi
        simp [hid, h.1, h.2] at hnone
      rw [if_pos hid, if_neg hno]
    · rw [if_neg hid]
  unfold DB.updateInvestigation
  rw [hrows]

theorem followUp_late {s : Cases} {tenant : Tenant} {c : ℕ}
    (hlate : s.db.isActive tenant c = false) : s.followUp tenant c = some s := by
  have hwaiting : (s.db.investigations.any fun i => i.id == c && i.tenant == tenant &&
      i.hasNewEvidence && i.status == .active) = false := by
    apply List.any_eq_false.mpr
    intro i hi hwait
    have hnone := List.any_eq_false.mp hlate i hi
    simp only [Bool.and_eq_true] at hwait hnone
    exact hnone ⟨hwait.1.1, hwait.2⟩
  unfold Cases.followUp
  simp only [hwaiting]
  rfl

/-- A queued review of the case, and nothing else. -/
theorem recordHumanReviewRequested_late {s : Cases} {tenant : Tenant} {c : ℕ}
    (hlate : s.db.isActive tenant c = false) :
    s.recordHumanReviewRequested tenant c =
      if s.present tenant c && !s.reviewPending c then
        { db := { s.db with nextId := s.db.nextId + 1 }
          reviews := s.reviews ++ [⟨s.db.nextId, tenant, c, .pending⟩] }
      else s := by
  unfold Cases.recordHumanReviewRequested
  rw [updateInvestigation_late hlate]
  rfl

theorem toOption_buildReopenFields (ctx : Context) (db : DB) (tenant : Tenant) (c : ℕ) :
    (buildReopenFields ctx db tenant c).toOption.isSome = reopenWindowOk ctx db tenant := by
  unfold buildReopenFields reopenWindowOk
  cases timedeltaDays
    (Policy.get (effectivePolicy ctx db tenant) "reopen_window_days" (.int 30)) <;> rfl

theorem applyDisposition_late (ctx : Context) {s : Cases} {tenant : Tenant} {c : ℕ}
    (hlate : s.db.isActive tenant c = false) (d : Option TriagePolicy.Disposition) :
    s.applyDisposition ctx tenant c d =
      if d = some .closeFp ∧ reopenWindowOk ctx s.db tenant = false then none
      else if d = some .escalate then some (s.recordHumanReviewRequested tenant c)
      else some s := by
  cases d with
  | none => rfl
  | some d =>
    cases d with
    | closeFp =>
      have hok := toOption_buildReopenFields ctx s.db tenant c
      unfold Cases.applyDisposition
      cases hfields : (buildReopenFields ctx s.db tenant c).toOption with
      | none =>
        rw [hfields] at hok
        rw [if_pos ⟨rfl, hok.symm⟩]
        rfl
      | some fields =>
        rw [hfields] at hok
        rw [if_neg fun h => by simp [← hok] at h, if_neg (by simp)]
        show some { s with db := _ } = some s
        rw [updateInvestigation_late hlate]
    | escalate => rfl
    | leaveOpen => rfl

theorem applyDisposition_isActive {ctx : Context} {s s' : Cases} {tenant : Tenant} {c : ℕ}
    {d : Option TriagePolicy.Disposition} (hlate : s.db.isActive tenant c = false)
    (h : s.applyDisposition ctx tenant c d = some s') : s'.db.isActive tenant c = false := by
  rw [applyDisposition_late ctx hlate] at h
  split_ifs at h
  · obtain rfl := Option.some.inj h
    rw [recordHumanReviewRequested_late hlate]
    split
    · exact hlate
    · exact hlate
  · obtain rfl := Option.some.inj h
    exact hlate

theorem apply_completeRun_eq_self (cache : VerdictCache) (tenant : Tenant)
    (shape : Option AlertShape) (c : Completion) (now : ℤ) :
    CacheOp.apply cache (.completeRun tenant shape c now) = cache ↔
      ∀ r ∈ CacheOp.recorded (.completeRun tenant shape c now), verdictIn cache r.1 = some r.2 := by
  rw [apply_completeRun]
  cases CacheOp.recorded (.completeRun tenant shape c now) with
  | none => simp
  | some call => simp [recordVerdict_eq_self]

theorem memoize_eq (ctx : Context) (s : Cases) (tenant : Tenant) (report : Report) :
    s.memoize ctx tenant report report.disposition =
      { s with db := { s.db with
          verdictCache := CacheOp.apply s.db.verdictCache (.completeRun tenant report.shape
            ⟨report.status, report.disposition, report.confidence⟩ ctx.now) } } := by
  unfold Cases.memoize CacheOp.apply
  dsimp only
  cases (Completion.mk report.status report.disposition report.confidence).decision? with
  | none => rfl
  | some d => rfl

/-- What a completed run does to the cases: its disposition, then the memo. -/
theorem Cases.completeRun_late (ctx : Context) {s : Cases} {tenant : Tenant} {report : Report}
    {run : Run} (hrun : s.db.runs.find? (fun r => r.id == report.run && r.live) = some run)
    (hlate : s.db.isActive tenant run.investigationId = false)
    (hheld : report.leaseHeld = true) (hcompleted : report.status = .completed) :
    s.completeRun ctx tenant report =
      (Cases.applyDisposition ctx { s with db := s.db.endRun report.run report.status } tenant
        run.investigationId report.disposition).map
        fun s => s.memoize ctx tenant report report.disposition := by
  have heff : report.effectiveDisposition false = report.disposition := by
    unfold Report.effectiveDisposition
    simp
  unfold Cases.completeRun
  rw [hrun]
  dsimp only
  rw [hheld]
  have hended : (s.db.endRun report.run report.status).isActive tenant run.investigationId =
      false := hlate
  rw [if_neg (by simp), if_neg (by simp [hcompleted]), hended, heff]
  have hactive : ({ s with db := s.db.endRun report.run report.status } : Cases).db.isActive tenant
      run.investigationId = false := hlate
  generalize ({ s with db := s.db.endRun report.run report.status } : Cases) = ended at hactive ⊢
  cases happlied : ended.applyDisposition ctx tenant run.investigationId report.disposition with
  | none => rfl
  | some applied =>
    have hkept := applyDisposition_isActive hactive happlied
    have hmemo : (applied.memoize ctx tenant report report.disposition).db.isActive tenant
        run.investigationId = false := by
      rw [memoize_eq]
      exact hkept
    exact followUp_late hmemo

/-- The desk afterwards, with the actions of an escalation. -/
theorem Desk.completeRun_late (ctx : Context) {d : Desk} {tenant : Tenant} {f : Finish} {run : Run}
    (hrun : d.liveRun f.run = some run)
    (hlate : d.cases.db.isActive tenant run.investigationId = false) (hheld : f.leaseHeld = true)
    (hcompleted : f.status = .completed) :
    d.completeRun ctx tenant f =
      ((d.ended f).cases.applyDisposition ctx tenant run.investigationId f.disposition).map
        fun s =>
          let d' := { d.ended f with cases := s.memoize ctx tenant f.toReport f.disposition }
          if f.disposition = some .escalate then d'.dispatch f.actions else d' := by
  have hchanged : Desk.caseChanged f.toReport false = decide (f.disposition = some .escalate) := by
    unfold Desk.caseChanged Report.effectiveDisposition
    rw [hcompleted]
    cases f.disposition with
    | none => rfl
    | some disposition => cases disposition <;> rfl
  unfold Desk.completeRun
  rw [hrun, Option.bind_eq_bind, Option.bind_some, hlate, hchanged,
    Cases.completeRun_late ctx hrun hlate hheld hcompleted]
  show _ = Option.map _ (Cases.applyDisposition ctx
    { d.cases with db := d.cases.db.endRun f.run f.status } tenant run.investigationId
    f.disposition)
  cases Cases.applyDisposition ctx { d.cases with db := d.cases.db.endRun f.run f.status } tenant
    run.investigationId f.disposition with
  | none => rfl
  | some applied => simp [Desk.ended]

/-! ## Exactly when a late completion is inert -/

theorem memoize_eq_self (ctx : Context) (s : Cases) (tenant : Tenant) (f : Finish) :
    s.memoize ctx tenant f.toReport f.disposition = s ↔
      ∀ r ∈ f.memo ctx tenant, verdictIn s.db.verdictCache r.1 = some r.2 := by
  unfold Finish.memo
  rw [memoize_eq, ← apply_completeRun_eq_self s.db.verdictCache]
  constructor
  · intro h
    exact congrArg (fun s : Cases => s.db.verdictCache) h
  · intro h
    rw [h]

/-- An escalation leaves the cases alone when it queues and memoizes nothing new. -/
theorem escalated_eq_self (ctx : Context) {s : Cases} {tenant : Tenant} {c : ℕ}
    (hlate : s.db.isActive tenant c = false) (f : Finish) :
    (s.recordHumanReviewRequested tenant c).memoize ctx tenant f.toReport f.disposition = s ↔
      (s.present tenant c = true → s.reviewPending c = true) ∧
        ∀ r ∈ f.memo ctx tenant, verdictIn s.db.verdictCache r.1 = some r.2 := by
  rw [recordHumanReviewRequested_late hlate]
  by_cases hpresent : s.present tenant c = true
  · by_cases hpending : s.reviewPending c = true
    · have hsame : (s.present tenant c && !s.reviewPending c) = false := by
        simp [hpending]
      rw [hsame, if_neg (by simp), memoize_eq_self]
      exact ⟨fun h => ⟨fun _ => hpending, h⟩, fun h => h.2⟩
    · have hqueued : (s.present tenant c && !s.reviewPending c) = true := by
        simp [hpresent, hpending]
      rw [hqueued, if_pos rfl, memoize_eq]
      constructor
      · intro h
        have hreviews := congrArg (fun s : Cases => s.reviews.length) h
        simp at hreviews
      · intro h
        exact absurd (h.1 hpresent) hpending
  · have hsame : (s.present tenant c && !s.reviewPending c) = false := by
      simp [hpresent]
    rw [hsame, if_neg (by simp), memoize_eq_self]
    exact ⟨fun h => ⟨fun hp => absurd hp hpresent, h⟩, fun h => h.2⟩

theorem withCases_eq_self (d : Desk) (s : Cases) : { d with cases := s } = d ↔ s = d.cases := by
  constructor
  · intro h
    exact congrArg Desk.cases h
  · intro h
    rw [h]

section

variable {ctx : Context} {d : Desk} {tenant : Tenant} {f : Finish} {run : Run}

theorem escalate_inert_iff (hrun : d.liveRun f.run = some run)
    (hlate : d.cases.db.isActive tenant run.investigationId = false) (hheld : f.leaseHeld = true)
    (hcompleted : f.status = .completed) (hescalate : f.disposition = some .escalate) :
    d.completeRun ctx tenant f = some (d.ended f) ↔
      Harmless ctx d tenant run.investigationId f := by
  have hended : (d.ended f).cases.db.isActive tenant run.investigationId = false := hlate
  have hself := escalated_eq_self ctx hended f
  rw [Desk.completeRun_late ctx hrun hlate hheld hcompleted, applyDisposition_late ctx hended,
    if_neg (by simp [hescalate]), if_pos hescalate, Option.map_some, Option.some.injEq]
  dsimp only
  rw [if_pos hescalate]
  constructor
  · intro h
    obtain ⟨hqueued, hmemo⟩ := hself.mp (congrArg Desk.cases h)
    have houtbox := (enqueue_eq_self f.actions d.outbox).mp (congrArg Desk.outbox h)
    exact ⟨by simp [hescalate], fun _ => hqueued, fun _ => houtbox, hmemo⟩
  · intro h
    have hcases := hself.mpr ⟨h.queued hescalate, h.memoized⟩
    have houtbox : f.actions.foldl Desk.enqueue (d.ended f).outbox = (d.ended f).outbox :=
      (enqueue_eq_self f.actions d.outbox).mpr (h.dispatched hescalate)
    unfold Desk.dispatch
    dsimp only
    rw [hcases, houtbox]

theorem close_inert_iff (hrun : d.liveRun f.run = some run)
    (hlate : d.cases.db.isActive tenant run.investigationId = false) (hheld : f.leaseHeld = true)
    (hcompleted : f.status = .completed) (hnot : f.disposition ≠ some .escalate) :
    d.completeRun ctx tenant f = some (d.ended f) ↔
      Harmless ctx d tenant run.investigationId f := by
  have hended : (d.ended f).cases.db.isActive tenant run.investigationId = false := hlate
  have hwindow : reopenWindowOk ctx (d.ended f).cases.db tenant =
      reopenWindowOk ctx d.cases.db tenant := rfl
  rw [Desk.completeRun_late ctx hrun hlate hheld hcompleted, applyDisposition_late ctx hended,
    hwindow]
  by_cases hfail : f.disposition = some .closeFp ∧ reopenWindowOk ctx d.cases.db tenant = false
  · rw [if_pos hfail]
    constructor
    · intro h
      cases h
    · intro h
      have hok := h.window hfail.1
      rw [hfail.2] at hok
      cases hok
  · rw [if_neg hfail, if_neg hnot, Option.map_some, Option.some.injEq]
    dsimp only
    rw [if_neg hnot, withCases_eq_self, memoize_eq_self]
    constructor
    · intro h
      have hok : f.disposition = some .closeFp → reopenWindowOk ctx d.cases.db tenant = true := by
        intro hclose
        by_contra hno
        exact hfail ⟨hclose, by simpa using hno⟩
      exact ⟨hok, fun h => absurd h hnot, fun h => absurd h hnot, h⟩
    · intro h
      exact h.memoized

/-- A completion of a run that is not completed only ends it, or halts it. -/
theorem completeRun_halted (hrun : d.liveRun f.run = some run) (hheld : f.leaseHeld = true)
    (hnot : f.status ≠ .completed) : d.completeRun ctx tenant f = some (d.ended f) := by
  have hfind : d.cases.db.runs.find? (fun r => r.id == f.run && r.live) = some run := hrun
  have hcases : d.cases.completeRun ctx tenant f.toReport = some (d.ended f).cases := by
    unfold Cases.completeRun
    rw [hfind]
    dsimp only
    rw [hheld, if_neg (by simp), if_pos hnot]
    rfl
  have hchanged (active : Bool) : Desk.caseChanged f.toReport active = false := by
    simp [Desk.caseChanged, hnot]
  unfold Desk.completeRun
  rw [hrun, Option.bind_eq_bind, Option.bind_some, hcases, hchanged]
  rfl

theorem completeRun_refused (h : d.liveRun f.run = none ∨ f.leaseHeld = false) :
    d.completeRun ctx tenant f = none := by
  unfold Desk.completeRun
  cases hrun : d.liveRun f.run with
  | none => rfl
  | some run =>
    have hheld : f.leaseHeld = false := by
      simpa [hrun] using h
    have hfind : d.cases.db.runs.find? (fun r => r.id == f.run && r.live) = some run := hrun
    have hcases : d.cases.completeRun ctx tenant f.toReport = none := by
      unfold Cases.completeRun
      rw [hfind]
      dsimp only
      rw [hheld, if_pos (by simp)]
    rw [Option.bind_eq_bind, Option.bind_some, hcases]
    rfl

end

/-- Two alerts of one signature, the second while the run executes; its completion escalates the
case and starts the follow-up, and the analyst rejects the review while that run executes. -/
def rejectedMidRun : Desk :=
  { cases := [.ingest quietContext (bruteForce "e1" 0), .ingest quietContext (bruteForce "e2" 1),
      .complete quietContext 0 ⟨3, true, .completed, some .escalate, none, false, none⟩,
      .decide quietContext 5 .reject].foldl Cases.step ⟨{}, []⟩ }

/-- What the follow-up run reports. -/
def followUpFinish (disposition : Disposition) : Finish :=
  { run := 6, leaseHeld := true, status := .completed, disposition := some disposition
    confidence := none, floorVeto := false, shape := none, usage := { tokens := 900 }
    actions := [⟨6, "isolate-host", "1", 0⟩] }

end SocTalk.Triage
