import SocTalk.Lib.Alone
import SocTalk.Outbox.Progress
import SocTalk.Response.Gated

/-! The attempts at one approved action: the outbox row is retried until it is marked, the proposal
is claimed only while it is approved, and a recorded failure ends the approval. -/
namespace SocTalk.Response.Gated
open ReadCommitted
open Proposals (ProposalId ProposalStatus OutboxId Time)
open Outbox (Mark OutboxRow)

/-- What becomes of an attempt: the handler returns, or raises and that is recorded, or the
transaction is lost with all that it wrote. -/
inductive Outcome where
  | returned
  | raised
  | lost
  deriving DecidableEq

def Outcome.env (o : Outcome) : Env := ⟨true, o == .returned⟩

/-- What `execute_one` does with the row that it has chosen. -/
def executeRow (session : ℕ) (id : OutboxId) (now : Time) (env : Env) : Program :=
  run (updateOutbox id fun row => row.claimed now) <|
  .stmt () (fun _ => []) fun v =>
  match v.db.outbox.rows id with
  | none => .commit ()
  | some row => handle session id now env row.payload

theorem executeOne_eq (session : ℕ) (now : Time) (env : Env) :
    executeOne session now env =
      let choice := fun v => Outbox.claimChoice (outboxView v) now (some responseKinds)
      .stmt () (fun v => (choice v).toList.map fun id => .outbox (.lock (.row id))) fun v =>
      match choice v with
      | none => .commit ()
      | some id => executeRow session id now env := rfl

/-- The tables after an attempt, and what was called. -/
def attempt (session : ℕ) (id : OutboxId) (now : Time) (o : Outcome) (t : Tables) :
    Tables × List Call :=
  let (t', calls) := (executeRow session id now o.env).alone store [] t
  match o with
  | .lost => (t, calls)
  | _ => (t', calls)

/-- The drain loop may choose the row. -/
def Due (id : OutboxId) (now : Time) (t : Tables) : Prop :=
  Outbox.claimableBy (outboxView ⟨t, fun _ => false⟩) now (some responseKinds) id = true

instance (id : OutboxId) (now : Time) (t : Tables) : Decidable (Due id now t) :=
  inferInstanceAs (Decidable (_ = true))

/-- The attempts at a row so far, with what was called in them; anything else that happens leaves
the row and its proposal alone. -/
inductive Drained (p : ProposalId) (id : OutboxId) (t₀ : Tables) :
    List Outcome → Tables → List Call → Prop
  | start : Drained p id t₀ [] t₀ []
  | other {os t calls t'} (h : Drained p id t₀ os t calls) (hp : t'.proposal p = t.proposal p)
      (hid : t'.outbox.rows id = t.outbox.rows id) : Drained p id t₀ os t' calls
  | attempt {os t calls} (session : ℕ) (now : Time) (o : Outcome) (h : Drained p id t₀ os t calls)
      (hdue : Due id now t) :
      Drained p id t₀ (os ++ [o]) (attempt session id now o t).1
        (calls ++ (attempt session id now o t).2)

/-- A proposal of a response capability, within its scope, and the row that executes it. -/
structure Queued (p : ProposalId) (row : ProposalRow) (box : OutboxRow Payload) : Prop where
  capability : (capabilityOf row.actionType).isSome = true
  tenant : row.params.envelopeTenant = row.tenant
  investigation : row.params.envelopeInvestigation = row.investigation
  kind : box.kind = "execute_proposal"
  payload : box.payload = .executeProposal row.tenant p row.actionType

/-- The two rows, with the status that the proposal has got to. -/
structure Holds (p : ProposalId) (id : OutboxId) (row : ProposalRow) (status : ProposalStatus)
    (box : OutboxRow Payload) (t : Tables) : Prop where
  proposal : t.proposal p = some { row with status := status }
  outbox : t.outbox.rows id = some box

/-! ## One attempt -/

section

variable {p : ProposalId} {id : OutboxId} {row : ProposalRow} {box : OutboxRow Payload}
variable {status : ProposalStatus} {t : Tables} {ws : List Write}

theorem holds_outbox (h : Holds p id row status box t) (box' : OutboxRow Payload) :
    Holds p id row status box' (store.apply (.outbox (.set id box')) t) := by
  constructor
  · exact h.proposal
  · exact Function.update_self ..

theorem holds_setStatus (h : Holds p id row status box t) (status' : ProposalStatus) :
    Holds p id row status' box (store.apply (.setStatus p status') t) := by
  constructor
  · have hset : (store.apply (.setStatus p status') t).proposal p =
        (t.withStatus p status').proposal p := rfl
    rw [hset, proposal_withStatus, if_pos rfl, h.proposal]
    rfl
  · exact h.outbox

theorem holds_claim (h : Holds p id row status box t) :
    Holds p id row .executing box (store.apply (.claim p) t) := by
  have hset := holds_setStatus h .executing
  exact ⟨hset.proposal, hset.outbox⟩

/-- The mark is the last write. -/
theorem holds_markAndCommit {now : Time} {mark : Mark} {db : Tables}
    (h : Holds p id row status box (store.applyAll ws db)) :
    ((markAndCommit id now mark).alone store ws db).2 = [] ∧
      Holds p id row status (box.marked now mark)
        ((markAndCommit id now mark).alone store ws db).1 := by
  have hwrites : updateOutbox id (fun row => row.marked now mark)
      ⟨store.applyAll ws db, fun _ => false⟩ = [.outbox (.set id (box.marked now mark))] := by
    unfold updateOutbox Outbox.updateRow outboxView
    rw [h.outbox]
    rfl
  have hrun : (markAndCommit id now mark).alone store ws db =
      (store.applyAll (ws ++ updateOutbox id (fun row => row.marked now mark)
        ⟨store.applyAll ws db, fun _ => false⟩) db, []) := rfl
  rw [hrun, hwrites, Store.applyAll_append]
  exact ⟨rfl, holds_outbox h _⟩

/-- Once the row is claimed, its proposal is handled. -/
theorem alone_executeRow (h : Holds p id row status box t) (hq : Queued p row box) (session : ℕ)
    (now : Time) (env : Env) : (executeRow session id now env).alone store [] t =
      (handleResponseProposal id now row.tenant p row.actionType env).alone store
        [.outbox (.set id (box.claimed now))] t := by
  have hwrites : updateOutbox id (fun row => row.claimed now) ⟨t, fun _ => false⟩ =
      [.outbox (.set id (box.claimed now))] := by
    unfold updateOutbox Outbox.updateRow outboxView
    rw [h.outbox]
    rfl
  have hclaimed := holds_outbox h (box.claimed now)
  have hpayload : (box.claimed now).payload = .executeProposal row.tenant p row.actionType :=
    hq.payload
  unfold executeRow run
  simp only [Prog.alone, Store.applyAll_nil, hwrites, List.nil_append, List.append_nil,
    Store.applyAll_cons]
  rw [hclaimed.outbox]
  dsimp only [handle]
  rw [hpayload]
  dsimp only
  rw [if_pos hq.capability]

theorem claimable_eq (h : Holds p id row status box t) :
    claimable t p row.tenant row.actionType =
      if status = .approved then some { row with status := status } else none := by
  unfold claimable
  rw [h.proposal]
  simp only [true_and]

/-- An approved proposal is claimed, its handler called, and what that comes to recorded. -/
theorem alone_approved (h : Holds p id row .approved box t) (hq : Queued p row box) (session : ℕ)
    (now : Time) (env : Env) :
    ((executeRow session id now env).alone store [] t).2 = [.approved p row.params] ∧
      Holds p id row (if env.returns then .executed else .failed)
        ((box.claimed now).marked now (if env.returns then .succeeded else .failed))
        ((executeRow session id now env).alone store [] t).1 := by
  have hclaimed := holds_outbox h (box.claimed now)
  have hexecuting := holds_claim hclaimed
  have hscope : ¬(row.params.envelopeTenant ≠ row.tenant ∨
      row.params.envelopeInvestigation ≠ row.investigation) := by
    rw [not_or, not_not, not_not]
    exact ⟨hq.tenant, hq.investigation⟩
  rw [alone_executeRow h hq]
  unfold handleResponseProposal
  simp only [Prog.alone, Store.applyAll_nil, Store.applyAll_cons, claimable_eq hclaimed, if_true,
    Option.isSome_some, hscope, if_false]
  cases hreturns : env.returns with
  | true =>
    have hdone := holds_setStatus hexecuting .executed
    simp only [if_true, run, Prog.alone]
    exact ⟨congrArg _ (holds_markAndCommit hdone).1, (holds_markAndCommit hdone).2⟩
  | false =>
    have hdone := holds_setStatus hexecuting .failed
    simp only [Bool.false_eq_true, if_false, run, Prog.alone]
    exact ⟨congrArg _ (holds_markAndCommit hdone).1, (holds_markAndCommit hdone).2⟩

/-- A proposal in any other status is not claimed, and the row is marked as if it had been. -/
theorem alone_not_approved (h : Holds p id row status box t) (hq : Queued p row box)
    (hstatus : status ≠ .approved) (session : ℕ) (now : Time) (env : Env) :
    ((executeRow session id now env).alone store [] t).2 = [] ∧
      Holds p id row status ((box.claimed now).marked now .succeeded)
        ((executeRow session id now env).alone store [] t).1 := by
  have hclaimed := holds_outbox h (box.claimed now)
  rw [alone_executeRow h hq]
  unfold handleResponseProposal
  simp only [Prog.alone, Store.applyAll_nil, Store.applyAll_cons, claimable_eq hclaimed,
    if_neg hstatus, Option.isSome_none, Bool.false_eq_true, if_false, List.append_nil]
  exact ⟨(holds_markAndCommit hclaimed).1, (holds_markAndCommit hclaimed).2⟩

/-! ## Attempts in a row -/

theorem queued_marked (hq : Queued p row box) (now : Time) (mark : Mark) :
    Queued p row ((box.claimed now).marked now mark) := by
  have hkept : ((box.claimed now).marked now mark).kind = box.kind ∧
      ((box.claimed now).marked now mark).payload = box.payload := by
    cases mark with
    | succeeded => exact ⟨rfl, rfl⟩
    | failed =>
      unfold OutboxRow.marked OutboxRow.afterFailure
      dsimp only
      split
      · exact ⟨rfl, rfl⟩
      · exact ⟨rfl, rfl⟩
  exact ⟨hq.capability, hq.tenant, hq.investigation, hkept.1.trans hq.kind,
    hkept.2.trans hq.payload⟩

/-- A pending row may be chosen from its next attempt on. -/
theorem due_of_pending (h : Holds p id row status box t) (hq : Queued p row box)
    (hpending : box.status = .pending) : Due id box.nextAttemptAt t := by
  have hrow : (outboxView ⟨t, fun _ => false⟩).db.rows id = some box := h.outbox
  unfold Due Outbox.claimableBy
  rw [hrow]
  simp [hpending, hq.kind, responseKinds, outboxView]

/-- With nothing else open, an attempt at the row that is chosen is a run of the executor. -/
theorem run_attempt {sys : System} {now : Time} (hrest : ∀ j, sys.session j = none) (o : Outcome)
    (hchoice : Outbox.claimChoice (outboxView ⟨sys.shared.db, fun _ => false⟩) now
      (some responseKinds) = some id) :
    Due id now sys.shared.db ∧ ∃ sys', Run store serve always sys sys' ∧
      sys'.shared.db = (attempt sys.opened id now o sys.shared.db).1 ∧
      sys'.shared.world = sys.shared.world ++ (attempt sys.opened id now o sys.shared.db).2 ∧
      ∀ j, sys'.session j = none := by
  refine ⟨(List.mem_filter.mp (Outbox.soonest_mem hchoice)).2, ?_⟩
  have hprog : (executeOne sys.opened now o.env).alone store [] sys.shared.db =
      (executeRow sys.opened id now o.env).alone store [] sys.shared.db := by
    rw [executeOne_eq]
    simp only [Prog.alone, Store.applyAll_nil, hchoice]
    have hlocked : store.applyAll [.outbox (.lock (.row id))] sys.shared.db =
        store.applyAll [] sys.shared.db := rfl
    exact Prog.alone_congr hlocked _
  obtain ⟨begun, hbegun⟩ : ∃ begun : System, begun = { sys with
      opened := sys.opened + 1
      session := Function.update sys.session sys.opened
        (some ⟨.execute now o.env, executeOne sys.opened now o.env, []⟩) } := ⟨_, rfl⟩
  have hbegin : Run store serve always sys begun := by
    refine .step (.begin (.execute now o.env)) .refl trivial ?_
    rw [hbegun]
    rfl
  have hmine : begun.session sys.opened =
      some ⟨.execute now o.env, executeOne sys.opened now o.env, []⟩ := by
    rw [hbegun]
    exact Function.update_self ..
  have hothers : ∀ j, j ≠ sys.opened → begun.session j = none := by
    rw [hbegun]
    exact update_of_others (fun j _ => hrest j) _
  have hshared : begun.shared = sys.shared := by rw [hbegun]
  have hcond : ∀ lab v, always lab v := fun _ _ => trivial
  by_cases ho : o = .lost
  · obtain ⟨sys', hrun, hdb, hworld, hnone⟩ :=
      run_alone_lost hcond _ hmine hothers
    rw [hshared, hprog] at hworld
    rw [hshared] at hdb
    subst ho
    exact ⟨sys', hbegin.trans hrun, hdb, hworld, hnone⟩
  · obtain ⟨sys', hrun, hdb, hworld, hnone⟩ := run_alone hcond _ hmine hothers
    rw [hshared, hprog] at hdb hworld
    have hkept : attempt sys.opened id now o sys.shared.db =
        (executeRow sys.opened id now o.env).alone store [] sys.shared.db := by
      cases o with
      | lost => exact absurd rfl ho
      | returned => rfl
      | raised => rfl
    rw [hkept]
    exact ⟨sys', hbegin.trans hrun, hdb, hworld, hnone⟩

/-- The last attempt, with what happened to the two rows since. -/
theorem Drained.snoc {t₀ : Tables} {os : List Outcome} {o : Outcome} {calls : List Call}
    (h : Drained p id t₀ (os ++ [o]) t calls) :
    ∃ t' calls' session now, Drained p id t₀ os t' calls' ∧ Due id now t' ∧
      t.proposal p = (Gated.attempt session id now o t').1.proposal p ∧
      t.outbox.rows id = (Gated.attempt session id now o t').1.outbox.rows id ∧
      calls = calls' ++ (Gated.attempt session id now o t').2 := by
  generalize hos : os ++ [o] = all at h
  induction h with
  | start => simp at hos
  | other h hp hid ih =>
    obtain ⟨t', calls', session, now, hd, hdue, hp', hid', hcalls⟩ := ih hos
    exact ⟨t', calls', session, now, hd, hdue, hp.trans hp', hid.trans hid', hcalls⟩
  | attempt session now o' h hdue ih =>
    obtain ⟨rfl, hlast⟩ := List.append_inj' hos rfl
    obtain rfl : o = o' := by simpa using hlast
    exact ⟨_, _, session, now, h, hdue, rfl, rfl, rfl⟩

/-- While nothing has returned: the proposal is approved and its row as it was queued, or a failure
has been recorded and the proposal is failed for good. -/
theorem Drained.failing {t₀ : Tables} {os : List Outcome} {calls : List Call}
    (h : Drained p id t₀ os t calls) (h₀ : Holds p id row .approved box t₀) (hq : Queued p row box)
    (hos : .returned ∉ os) :
    (.raised ∉ os ∧ Holds p id row .approved box t) ∨
      (.raised ∈ os ∧ ∃ box', Queued p row box' ∧ Holds p id row .failed box' t) := by
  induction h with
  | start => exact .inl ⟨by simp, h₀⟩
  | other _ hp hid ih =>
    rcases ih hos with ⟨hnone, hholds⟩ | ⟨hsome, box', hq', hholds⟩
    · exact .inl ⟨hnone, hp.trans hholds.proposal, hid.trans hholds.outbox⟩
    · exact .inr ⟨hsome, box', hq', hp.trans hholds.proposal, hid.trans hholds.outbox⟩
  | attempt session now o _ _ ih =>
    have hbefore := ih fun hmem => hos (List.mem_append_left _ hmem)
    cases o with
    | returned => exact absurd (by simp) hos
    | lost =>
      rcases hbefore with ⟨hnone, hholds⟩ | ⟨hsome, hfailed⟩
      · exact .inl ⟨by simpa using hnone, hholds⟩
      · exact .inr ⟨List.mem_append_left _ hsome, hfailed⟩
    | raised =>
      refine .inr ⟨by simp, ?_⟩
      rcases hbefore with ⟨-, hholds⟩ | ⟨-, box', hq', hholds⟩
      · exact ⟨_, queued_marked hq now .failed,
          (alone_approved hholds hq session now ⟨true, false⟩).2⟩
      · exact ⟨_, queued_marked hq' now .succeeded,
          (alone_not_approved hholds hq' (by decide) session now ⟨true, false⟩).2⟩

/-- Transactions can be lost again and again; the row stays due. -/
theorem exists_drained {t₀ : Tables} (h₀ : Holds p id row .approved box t₀) (hq : Queued p row box)
    (hpending : box.status = .pending) (n : ℕ) :
    ∃ t calls, Drained p id t₀ (List.replicate n .lost) t calls ∧
      Holds p id row .approved box t := by
  induction n with
  | zero => exact ⟨t₀, [], .start, h₀⟩
  | succ n ih =>
    obtain ⟨t, calls, hd, hholds⟩ := ih
    have hdue := due_of_pending hholds hq hpending
    rw [List.replicate_succ']
    exact ⟨_, _, hd.attempt 0 box.nextAttemptAt .lost hdue, hholds⟩

/-- An approved action whose first attempts fail and whose next one returns: until then its row is
pending, the last attempt calls the handler, and then proposal and row say so. -/
structure RetriedUntilExecuted (p : ProposalId) (id : OutboxId) (params : Action) (t₀ : Tables)
    (fails : List Outcome) : Prop where
  retried : ∀ os t calls, os <+: fails → Drained p id t₀ os t calls →
    (t.outbox.rows id).map (·.status) = some .pending
  ends : ∃ t calls, Drained p id t₀ (fails ++ [.returned]) t calls
  executed : ∀ t calls, Drained p id t₀ (fails ++ [.returned]) t calls →
    (t.proposal p).map (·.status) = some .executed ∧
      (t.outbox.rows id).map (·.status) = some .succeeded ∧
      calls.getLast? = some (.approved p params)

/-- An approved action is retried until it executes exactly if no failure before its first success
is recorded. -/
theorem retriedUntilExecuted_iff {t₀ : Tables} {fails : List Outcome}
    (h₀ : Holds p id row .approved box t₀) (hq : Queued p row box)
    (hpending : box.status = .pending) (hfails : .returned ∉ fails) :
    RetriedUntilExecuted p id row.params t₀ fails ↔ .raised ∉ fails := by
  constructor
  · intro h hraised
    obtain ⟨t, calls, hd⟩ := h.ends
    obtain ⟨hexecuted, -, -⟩ := h.executed t calls hd
    obtain ⟨t', calls', session, now, hd', -, hp, -, -⟩ := hd.snoc
    rcases hd'.failing h₀ hq hfails with ⟨hnone, -⟩ | ⟨-, box', hq', hholds⟩
    · exact hnone hraised
    · have hlast := (alone_not_approved hholds hq' (by decide) session now ⟨true, true⟩).2
      have hfailed : t.proposal p = some { row with status := .failed } := hp.trans hlast.proposal
      rw [hfailed] at hexecuted
      cases hexecuted
  · intro hnone
    have happroved : ∀ os t calls, os <+: fails → Drained p id t₀ os t calls →
        Holds p id row .approved box t := by
      intro os t calls hpre hd
      rcases hd.failing h₀ hq fun hmem => hfails (hpre.mem hmem) with ⟨-, hholds⟩ | ⟨hsome, -⟩
      · exact hholds
      · exact absurd (hpre.mem hsome) hnone
    refine ⟨fun os t calls hpre hd => ?_, ?_, fun t calls hd => ?_⟩
    · rw [(happroved os t calls hpre hd).outbox, Option.map_some, hpending]
    · have hlost : fails = List.replicate fails.length .lost := by
        refine List.eq_replicate_iff.mpr ⟨rfl, fun o ho => ?_⟩
        cases o with
        | returned => exact absurd ho hfails
        | raised => exact absurd ho hnone
        | lost => rfl
      obtain ⟨t, calls, hd, hholds⟩ := exists_drained h₀ hq hpending fails.length
      rw [← hlost] at hd
      exact ⟨_, _, hd.attempt 0 box.nextAttemptAt .returned (due_of_pending hholds hq hpending)⟩
    · obtain ⟨t', calls', session, now, hd', -, hp, hid, hcalls⟩ := hd.snoc
      have hholds := happroved fails t' calls' (List.prefix_refl _) hd'
      obtain ⟨hcall, hlast⟩ := alone_approved hholds hq session now ⟨true, true⟩
      refine ⟨?_, ?_, ?_⟩
      · rw [hp]
        exact congrArg (Option.map _) hlast.proposal
      · rw [hid]
        exact congrArg (Option.map _) hlast.outbox
      · have hattempt : (attempt session id now .returned t').2 = [.approved p row.params] := hcall
        rw [hcalls, hattempt, List.getLast?_append]
        rfl

end

/-- The tables once the isolation of a host has been drained and approved. -/
def isolationApproved : Tables :=
  ((runEvents store serve always init drainedAndApproved).map (·.shared.db)).getD Tables.empty

def isolationRow : ProposalRow := ⟨"t", "c", "external_action", isolateHost, .approved⟩

def isolationBox : OutboxRow Payload :=
  { kind := "execute_proposal", idempotencyKey := "proposal:1", nextAttemptAt := 2
    payload := .executeProposal "t" 1 "external_action" }

theorem holds_isolation : Holds 1 2 isolationRow .approved isolationBox isolationApproved := by
  constructor
  · decide +kernel
  · decide +kernel

theorem queued_isolation : Queued 1 isolationRow isolationBox := by
  constructor
  all_goals decide

/-- The executor dies once, and the isolation is retried until it has run. -/
theorem retriedUntilExecuted_lost :
    RetriedUntilExecuted 1 2 isolateHost isolationApproved [.lost] :=
  (retriedUntilExecuted_iff holds_isolation queued_isolation rfl (by decide)).mpr (by decide)

/-- The endpoint fails once, and would succeed the second time. -/
theorem not_retriedUntilExecuted_raised :
    ¬RetriedUntilExecuted 1 2 isolateHost isolationApproved [.raised] := by
  intro h
  have hfirst := (Drained.start (p := 1)).attempt 2 2 .raised
    (show Due 2 2 isolationApproved by decide +kernel)
  have hsecond := hfirst.attempt 3 100 .returned (by decide +kernel)
  have hstatus : ((attempt 3 2 100 .returned
      (attempt 2 2 2 .raised isolationApproved).1).1.proposal 1).map (·.status) = some .failed := by
    decide +kernel
  obtain ⟨hexecuted, -, -⟩ := h.executed _ _ hsecond
  rw [hstatus] at hexecuted
  cases hexecuted

end SocTalk.Response.Gated
