import SocTalk.Lib.Embed
import SocTalk.Proposals.Store
import SocTalk.Runs.Rules

/-! The operations that change a run's status: those on the run itself, the proposals raised from
it and their decisions, and the end of its investigation. The tables keep the statuses each run
was given, in order. -/
namespace SocTalk.Runs.StatusMachine
open ReadCommitted Proposals

/-- `params` is the canonical text of the parameters. -/
structure ProposalRow where
  investigation : Runs.InvestigationId
  run : Option RunId
  actionType : String
  params : String
  status : ProposalStatus := .proposed
  deriving DecidableEq

structure Tables where
  base : Runs.Tables
  history : RunId → List RunStatus
  proposals : ProposalId → Option ProposalRow
  proposalIds : List ProposalId

def Tables.empty : Tables := ⟨Runs.Tables.empty, fun _ => [], fun _ => none, []⟩

inductive Resource where
  | base (r : Runs.Resource)
  | proposal (id : ProposalId)
  | proposalKey (investigation : Runs.InvestigationId) (actionType params : String)
  deriving DecidableEq

inductive Write where
  | base (w : Runs.Write)
  | setProposal (id : ProposalId) (row : ProposalRow)
  | insertProposal (id : ProposalId) (row : ProposalRow)
  deriving DecidableEq

/-- A write that changes the status of a run's row adds it to the run's history. -/
def record (t : Tables) (w : Runs.Write) : RunId → List RunStatus :=
  match w.runRow? with
  | some (id, row) =>
    if (t.base.runs id).map (·.status) = some row.status then t.history
    else Function.update t.history id (t.history id ++ [row.status])
  | none => t.history

def Write.apply : Write → Tables → Tables
  | .base w, t => { t with base := w.apply t.base, history := record t w }
  | .setProposal id row, t => { t with proposals := Function.update t.proposals id (some row) }
  | .insertProposal id row, t =>
    { t with
      proposals := Function.update t.proposals id (some row)
      proposalIds := t.proposalIds ++ [id] }

def Write.locks : Write → List Resource
  | .base w => w.locks.map .base
  | .setProposal id _ => [.proposal id]
  | .insertProposal id row =>
    [.proposal id, .proposalKey row.investigation row.actionType row.params]

/-- The committed value behind a resource; a run's row comes with its history. -/
structure Value where
  run : Option RunRow := none
  history : List RunStatus := []
  investigation : Option InvestigationRow := none
  proposal : Option ProposalRow := none

def rowOf (r : Resource) (t : Tables) : Value :=
  match r with
  | .base (.run id) => { run := t.base.runs id, history := t.history id }
  | .base (.investigation id) => { investigation := t.base.investigations id }
  | .proposal id => { proposal := t.proposals id }
  | _ => {}

theorem history_record (t : Tables) (w : Runs.Write) (id : RunId) :
    record t w id = match under id w.runRow? with
      | some row =>
        if (t.base.runs id).map (·.status) = some row.status then t.history id
        else t.history id ++ [row.status]
      | none => t.history id := by
  unfold record under
  cases w.runRow? with
  | none => rfl
  | some p =>
    obtain ⟨id', row⟩ := p
    by_cases hid : id' = id
    · subst hid
      simp only [Option.bind_some, if_true]
      split <;> simp
    · simp only [Option.bind_some, if_neg hid]
      split
      · rfl
      · exact Function.update_of_ne (Ne.symm hid) _ _

theorem under_of_not_locked {w : Runs.Write} {id : RunId} (h : Runs.Resource.run id ∉ w.locks) :
    under id w.runRow? = none := by
  rw [under_eq_none]
  intro row hrow
  apply h
  cases w with
  | setRun id' row' => simp_all [Write.runRow?, Runs.Write.locks]
  | insertRun id' row' => simp_all [Write.runRow?, Runs.Write.locks]
  | _ => cases hrow

theorem Write.frame (w : Write) (r : Resource) (t : Tables) (h : r ∉ w.locks) :
    rowOf r (w.apply t) = rowOf r t := by
  cases w with
  | base w =>
    cases r with
    | base r =>
      have hlock : r ∉ w.locks := fun hr => h (List.mem_map.mpr ⟨r, hr, rfl⟩)
      have hrow := Runs.Write.frame w r t.base hlock
      cases r with
      | run id =>
        have hhist : record t w id = t.history id := by
          rw [history_record, under_of_not_locked hlock]
        have hruns : (w.apply t.base).runs id = t.base.runs id := congrArg Prod.fst hrow
        simp only [rowOf, Write.apply, hhist, hruns]
      | investigation id =>
        have hinv : (w.apply t.base).investigations id = t.base.investigations id :=
          congrArg Prod.snd hrow
        simp only [rowOf, Write.apply, hinv]
      | _ => rfl
    | _ => rfl
  | setProposal id row =>
    cases r with
    | proposal id' =>
      have hne : id' ≠ id := by simpa [Write.locks] using h
      simp [rowOf, Write.apply, Function.update_of_ne hne]
    | base r => cases r <;> rfl
    | _ => rfl
  | insertProposal id row =>
    cases r with
    | proposal id' =>
      have hne : id' ≠ id := by simpa [Write.locks] using h
      simp [rowOf, Write.apply, Function.update_of_ne hne]
    | base r => cases r <;> rfl
    | _ => rfl

def store : Store Tables Write Resource Value where
  apply := Write.apply
  locks := Write.locks
  row := rowOf
  frame := Write.frame

/-! ## Programs -/

/-- The statement a later condition speaks about. -/
inductive Stmt where
  | plain
  | transition (run : RunId) (newStatus : RunStatus)

abbrev Program := Prog Tables Write Unit Stmt Resource

/-- The tables of the runs within the larger ones. -/
def embedding : Embedding Runs.Tables Runs.Write Runs.Stmt Runs.Resource Tables Write Stmt
    Resource where
  db := Tables.base
  write := .base
  lab _ := .plain
  res := .base

/-- The unique index on live runs refuses the update. -/
def refused (t : Runs.Tables) (run : RunId) (row : RunRow) (newStatus : RunStatus) : Bool :=
  newStatus.live && !row.status.live && otherLive t row.investigation (some run)

/-- `transition_run`, and the end of the request: an unconditional update. -/
def transitionRun (run : RunId) (newStatus : RunStatus) : Program :=
  .stmt (.transition run newStatus)
    (fun v => match v.db.base.runs run with
      | some row =>
        if refused v.db.base run row newStatus then []
        else [.base (.lock (.liveSlot row.investigation)),
          .base (.setRun run { row with status := newStatus })]
      | none => [])
    fun v =>
      match v.db.base.runs run with
      | some row => if refused v.db.base run row newStatus then .rollback else .commit .plain
      | none => .commit .plain

def transitionIfRaised (run : Option RunId) (newStatus : RunStatus) : Program :=
  match run with
  | some run => transitionRun run newStatus
  | none => .commit .plain

/-- The proposal a new one would duplicate. -/
def duplicateOf (t : Tables) (row : ProposalRow) : Option ProposalId :=
  t.proposalIds.find? fun id => match t.proposals id with
    | some old => old.investigation == row.investigation && old.actionType == row.actionType &&
        old.params == row.params
    | none => false

/-- `create_proposal`: a duplicate is left as it is; a new one sends its run to the gate. -/
def createProposal (session : ℕ) (row : ProposalRow) : Program :=
  .stmt .plain
    (fun v => if (v.db.proposals session).isSome ∨ (duplicateOf v.db row).isSome then []
      else [.insertProposal session row])
    fun v =>
  if (v.db.proposals session).isSome then .rollback
  else if (duplicateOf v.db row).isSome then .commit .plain
  else transitionIfRaised row.run .waitingOnGate

/-- `approve_proposal` and `reject_proposal`: the status is read first, the update is by id. -/
def decideProposal (p : ProposalId) (decision : ProposalStatus) : Program :=
  .stmt .plain (fun _ => []) fun v =>
  match v.db.proposals p with
  | none => .rollback
  | some row =>
    if row.status ≠ .proposed then .rollback
    else
      .stmt .plain
        (fun v => (v.db.proposals p).toList.map fun row =>
          .setProposal p { row with status := decision })
        fun _ => transitionIfRaised row.run .active

/-- The update of an investigation's live runs, row by row: each is checked again once its lock
is free. -/
def failRows (c : Runs.InvestigationId) : List RunId → Program
  | [] => .commit .plain
  | id :: ids =>
    .stmt .plain
      (fun v => match v.db.base.runs id with
        | some row =>
          if row.investigation = c ∧ row.status.live then
            [.base (.setRun id { row with status := .failed })]
          else []
        | none => [])
      fun _ => failRows c ids

def failLiveRuns (c : Runs.InvestigationId) : Program :=
  .stmt .plain (fun _ => []) fun v =>
  failRows c (v.db.base.runIds.filter fun id => match v.db.base.runs id with
    | some row => row.investigation == c && row.status.live
    | none => false)

def setInvestigationStatus (c : Runs.InvestigationId) (status : InvestigationStatus)
    (v : View Tables Resource) : List Write :=
  (v.db.base.investigations c).toList.map fun row =>
    .base (.setInvestigation c { row with status := status })

def cancelInvestigation (c : Runs.InvestigationId) : Program :=
  .stmt .plain (fun _ => []) fun v =>
  if investigationActive v.db.base c then
    .stmt .plain (setInvestigationStatus c .cancelled) fun _ => failLiveRuns c
  else .rollback

/-- `merge_investigations`, by the investigation that is merged away. -/
def mergeInvestigations (other : Runs.InvestigationId) : Program :=
  .stmt .plain (setInvestigationStatus other .closed) fun _ => failLiveRuns other

/-- `start_run` for an investigation that exists. -/
def startRun (session : ℕ) (c : Runs.InvestigationId) (now notBefore : Time) : Program :=
  .stmt .plain
    (fun v => if (v.db.base.investigations c).isSome ∧ insertable v.db.base session c then
        [.base (.insertRun session (newRun c now notBefore))] else [])
    fun v =>
      if (v.db.base.investigations c).isSome ∧ insertable v.db.base session c then .commit .plain
      else .rollback

/-- `runs` carries the requests of workers, operators and ingest. -/
inductive Request where
  | runs (req : Runs.Request)
  | start (investigation : Runs.InvestigationId) (now notBefore : Time)
  | pause (run : RunId)
  | resume (run : RunId)
  | propose (investigation : Runs.InvestigationId) (run : Option RunId) (actionType params : String)
  | approve (proposal : ProposalId)
  | reject (proposal : ProposalId)
  | cancel (investigation : Runs.InvestigationId)
  | merge (other : Runs.InvestigationId)

def serve (session : ℕ) : Request → Program
  | .runs (.transition run resume) => transitionRun run (if resume then .active else .waitingOnGate)
  | .runs req => (Runs.serve session req).embed embedding
  | .start c now notBefore => startRun session c now notBefore
  | .pause run => transitionRun run .paused
  | .resume run => transitionRun run .active
  | .propose c run actionType params =>
    createProposal session
      { investigation := c, run := run, actionType := actionType, params := params }
  | .approve p => decideProposal p .approved
  | .reject p => decideProposal p .rejected
  | .cancel c => cancelInvestigation c
  | .merge other => mergeInvestigations other

abbrev System := Sys Tables Write Unit Stmt Resource Request

/-- The tables before any request. -/
def init : System := start ⟨Tables.empty, []⟩

/-! ## The documented transitions -/

/-- The transitions of a run; `completed` and `failed` have none. -/
def documented : RunStatus → List RunStatus
  | .active => [.waitingOnGate, .haltedBudget, .paused, .completed, .failed]
  | .waitingOnGate => [.active, .failed]
  | .haltedBudget => [.active, .failed]
  | .paused => [.active, .failed]
  | .completed => []
  | .failed => []

def always : Stmt → View Tables Resource → Prop := fun _ _ => True

instance (lab : Stmt) (v : View Tables Resource) : Decidable (always lab v) := isTrue trivial

/-- The statuses a caller of `transition_run` may find a run in: the gate is for a run that is
active, a decision or a resumption for one that has not ended. -/
def callable : RunStatus → RunStatus → Bool
  | .waitingOnGate, s => s == .active || s == .waitingOnGate
  | .paused, s => s == .active || s == .paused
  | .active, s => s.live
  | _, _ => false

/-- Each call of `transition_run` that the unique index lets through comes in time. -/
def inTime : Stmt → View Tables Resource → Prop
  | .transition run newStatus, v => ∀ row ∈ v.db.base.runs run,
    refused v.db.base run row newStatus = false → callable newStatus row.status = true
  | .plain, _ => True

instance (lab : Stmt) (v : View Tables Resource) : Decidable (inTime lab v) := by
  cases lab <;> unfold inTime <;> infer_instance

end SocTalk.Runs.StatusMachine
