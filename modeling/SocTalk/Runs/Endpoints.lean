import SocTalk.Runs.Store
import SocTalk.TriagePolicy.Floor

/-! The worker, operator and ingest transactions on runs and investigations, statement by
statement. An HTTP error response rolls the request's transaction back. -/
namespace SocTalk.Runs
open ReadCommitted TriagePolicy

/-- A cumulative usage report. -/
structure Usage where
  tokens : ℕ
  dollars : Option ℚ := none
  dollarsUnpriced : Option ℚ := none
  costBasis : Option String := none
  priceSource : Option String := none
  deriving DecidableEq

/-- What a report reads before it updates the run row: the previous totals off the row, then
the dollars already ledgered as unpriced. -/
structure Totals where
  tokens : ℕ
  dollars : ℚ
  unpriced : ℚ := 0
  deriving DecidableEq

inductive FinalStatus where
  | completed
  | haltedBudget
  | failed
  deriving DecidableEq

def FinalStatus.runStatus : FinalStatus → RunStatus
  | .completed => .completed
  | .haltedBudget => .haltedBudget
  | .failed => .failed

structure CompletePayload where
  status : FinalStatus
  usage : Usage
  disposition : Option Disposition := none
  verdictConfidence : Option ℚ := none
  deriving DecidableEq

/-- What a completion reads outside the modelled tables: the server-side floor's ruling on a
close, whether the alert shape has a memo key, and whether a response playbook matched and
its savepoint held. -/
structure CompleteReads where
  floorVeto : Bool := false
  shapeKnown : Bool := false
  dispatches : Bool := false
  deriving DecidableEq

/-- The statements that later conditions speak about, with the values they were built from. -/
inductive Stmt where
  | plain
  | heartbeatUpdate (run : RunId) (lease : LeaseId) (usage : Usage) (read : Option Totals)
  | releaseUpdate (run : RunId) (lease : LeaseId) (usage : Usage) (read : Option Totals)
  | completeUpdate (run : RunId) (lease : LeaseId) (usage : Usage) (read : Option Totals)
      (status : FinalStatus)
  | endedCommit (investigation : InvestigationId) (flagRead : Bool)
  | attachCommit (investigation : InvestigationId)

abbrev Program := Prog Tables Write Unit Stmt Resource

/-- `now` is the transaction's timestamp, `wall` the server's clock when it computes an expiry. -/
inductive Request where
  | claim (now wall : Time) (capOk : Bool)
  | heartbeat (run : RunId) (lease : LeaseId) (wall : Time) (usage : Usage)
  | release (run : RunId) (lease : LeaseId) (now : Time) (usage : Usage)
  | complete (run : RunId) (lease : LeaseId) (now : Time) (payload : CompletePayload)
      (reads : CompleteReads)
  | reap (now : Time)
  | unlock (run : RunId) (now : Time) (tokenBudget : Option ℕ) (dollarBudget : Option ℚ)
  | transition (run : RunId) (resume : Bool)
  | attach (investigation : InvestigationId)
  | promote (severity : ℕ) (now notBefore : Time)

def leaseTtlSeconds : Time := 60
def retryBackoffSeconds : Time := 15
def runTokenBudgetMax : ℕ := 100000000
def runDollarBudgetMax : ℚ := 1000

/-! ## Floating-point sums -/

/-- The nearest double, for sums and differences of finite doubles. -/
def nearest (q : ℚ) : ℚ :=
  match Py.FloatVal.ofRat q with
  | .fin r => r
  | _ => q

def floatSub (a b : ℚ) : ℚ := nearest (a - b)

/-- `SUM(dollars_delta)` over the run's rows of unknown price source. -/
def unpricedLedgered (t : Tables) (run : RunId) : ℚ :=
  ((t.ledger.filter fun row => row.run == run && row.priceSource == some "unknown").map
    (·.dollarsDelta)).foldl (fun a b => nearest (a + b)) 0

/-! ## The spend ledger -/

def readTotals (t : Tables) (run : RunId) : Option Totals :=
  (t.runs run).map fun row => { tokens := row.tokensUsed, dollars := row.dollarsUsed }

/-- The dollars of a report over the previous total. -/
def dollarsDelta (usage : Usage) (prev : Totals) : ℚ :=
  max 0 (floatSub (usage.dollars.getD 0) prev.dollars)

def tokensDelta (usage : Usage) (prev : Totals) : ℤ := max 0 ((usage.tokens : ℤ) - prev.tokens)

/-- The part of the delta with no known price. -/
def unpricedDelta (usage : Usage) (prev : Totals) : ℚ :=
  match usage.dollarsUnpriced with
  | some u => min (max 0 (floatSub u prev.unpriced)) (dollarsDelta usage prev)
  | none => 0

/-- The rows one report adds: the unpriced dollars apart, tokens with the priced rest. -/
def ledgerRows (run : RunId) (usage : Usage) (prev : Totals) : List LedgerRow :=
  let dTokens := tokensDelta usage prev
  let dDollars := dollarsDelta usage prev
  let dUnpriced := unpricedDelta usage prev
  if dTokens = 0 ∧ dDollars = 0 then []
  else if 0 < dUnpriced then
    let rest := max 0 (floatSub dDollars dUnpriced)
    let unknown : LedgerRow := ⟨run, 0, dUnpriced, some "estimated", some "unknown"⟩
    if dTokens = 0 ∧ rest = 0 then [unknown]
    else
      let source := if usage.priceSource = some "unknown" then some "mixed" else usage.priceSource
      [unknown, ⟨run, dTokens, rest, usage.costBasis, source⟩]
  else [⟨run, dTokens, dDollars, usage.costBasis, usage.priceSource⟩]

/-- `_record_spend_delta`: read the previous totals, read what is ledgered as unpriced, and
insert the difference. The continuation gets the totals that were read. -/
def recordSpendDelta (run : RunId) (usage : Usage) (k : Option Totals → Program) : Program :=
  .stmt .plain (fun _ => []) fun v =>
  match readTotals v.db run with
  | none => k none
  | some prev =>
    let read (v : View Tables Resource) : Totals :=
      { prev with unpriced := unpricedLedgered v.db run }
    .stmt .plain (fun v => (ledgerRows run usage (read v)).map .insertLedger)
      fun v => k (some (read v))

/-- The stored totals after a report: tokens as reported, dollars kept when absent. -/
def RunRow.withTotals (row : RunRow) (usage : Usage) : RunRow :=
  { row with tokensUsed := usage.tokens, dollarsUsed := usage.dollars.getD row.dollarsUsed }

def RunRow.withoutLease (row : RunRow) : RunRow :=
  { row with leaseId := none, leaseExpiresAt := none, claimedAt := none }

/-! ## Worker endpoints -/

/-- Active, due, unleased or expired, on an active investigation, and not locked. -/
def claimableBy (v : View Tables Resource) (now : Time) (id : RunId) : Bool :=
  match v.db.runs id with
  | some row => row.status == .active && row.notBefore ≤ now &&
      (row.claimedAt.isNone || (match row.leaseExpiresAt with
        | some e => e < now
        | none => false)) &&
      investigationActive v.db row.investigation && !v.locked (.run id)
  | none => false

def startedAtOf (t : Tables) (id : RunId) : Time :=
  match t.runs id with
  | some row => row.startedAt
  | none => 0

/-- `ORDER BY started_at ASC … LIMIT 1`. -/
def oldest (t : Tables) : List RunId → Option RunId
  | [] => none
  | id :: ids =>
    match oldest t ids with
    | some other => if startedAtOf t other < startedAtOf t id then some other else some id
    | none => some id

def claimChoice (v : View Tables Resource) (now : Time) : Option RunId :=
  oldest v.db (v.db.runIds.filter (claimableBy v now))

/-- Check the daily cap under the tenant's advisory lock, take the oldest claimable run and
lease it under a fresh id. -/
def claimRun (session : ℕ) (now wall : Time) (capOk : Bool) : Program :=
  .stmt .plain (fun _ => [.lock .claimLock]) fun _ =>
  if !capOk then .commit .plain
  else
    .stmt .plain (fun v => ((claimChoice v now).toList.map fun id => .lock (.run id))) fun v =>
    match claimChoice v now with
    | none => .commit .plain
    | some id =>
      .stmt .plain
        (fun v => (v.db.runs id).toList.map fun row => .setRun id
          { row with claimedAt := some now, leaseId := some session,
                     leaseExpiresAt := some (wall + leaseTtlSeconds) })
        fun _ => .commit .plain

def heartbeatRun (run : RunId) (lease : LeaseId) (wall : Time) (usage : Usage) : Program :=
  recordSpendDelta run usage fun read =>
  .stmt (.heartbeatUpdate run lease usage read)
    (fun v => (heldRow v.db run lease).toList.flatMap fun row => [.setRun run
      { row.withTotals usage with leaseExpiresAt := some (wall + leaseTtlSeconds) }])
    fun v => if (heldRow v.db run lease).isSome then .commit .plain else .rollback

/-- Back to the queue, or failed on the last attempt. -/
def RunRow.released (row : RunRow) (now : Time) (usage : Usage) : RunRow :=
  { (row.withTotals usage).withoutLease with
    attempts := row.attempts + 1
    status := if row.maxAttempts ≤ row.attempts + 1 then .failed else .active
    notBefore := now + retryBackoffSeconds * (row.attempts + 1) }

def releaseRun (run : RunId) (lease : LeaseId) (now : Time) (usage : Usage) : Program :=
  recordSpendDelta run usage fun read =>
  .stmt (.releaseUpdate run lease usage read)
    (fun v => (heldRow v.db run lease).toList.flatMap fun row =>
      [.setRun run (row.released now usage)])
    fun v =>
      match heldRow v.db run lease with
      | none => .rollback
      | some row =>
        if row.maxAttempts ≤ row.attempts + 1 then
          .commit (.endedCommit row.investigation (evidenceFlag v.db row.investigation))
        else .commit .plain

/-- A fresh run of the investigation. -/
def newRun (c : InvestigationId) (now notBefore : Time) : RunRow :=
  { investigation := c, startedAt := now, notBefore := notBefore }

/-- Neither the primary key nor the unique index refuses the row. -/
def insertable (t : Tables) (id : RunId) (c : InvestigationId) : Bool :=
  (t.runs id).isNone && !otherLive t c none

/-- The follow-up: evidence that arrived while the run executed starts the next run. -/
def followUpRun (session : ℕ) (run : RunId) (lease : LeaseId) (now : Time)
    (c : InvestigationId) : Program :=
  .stmt .plain (fun _ => []) fun v =>
  if evidenceFlag v.db c && investigationActive v.db c then
    .stmt .plain
      (fun v => (v.db.investigations c).toList.map fun row =>
        .setInvestigation c { row with hasNewEvidence := false })
      fun _ =>
    .stmt .plain
      (fun v => if insertable v.db session c then
          [.insertRun session (newRun c now now), .insertEffect ⟨run, lease, .followUp session⟩]
        else [])
      fun v => if insertable v.db session c then .commit .plain else .rollback
  else .commit (.endedCommit c (evidenceFlag v.db c))

/-- Memo, response dispatch and follow-up of a completed run. -/
def afterDisposition (session : ℕ) (run : RunId) (lease : LeaseId) (now : Time)
    (c : InvestigationId) (payload : CompletePayload) (reads : CompleteReads)
    (effective : Option Disposition) (caseChanged : Bool) : Program :=
  let memo := effective ≠ some .leaveOpen ∧ effective ≠ none ∧
    payload.verdictConfidence.isSome ∧ reads.shapeKnown
  let dispatch := caseChanged ∧ effective ≠ some .leaveOpen ∧ effective ≠ none ∧ reads.dispatches
  .stmt .plain
    (fun _ => if memo then
      [.insertEffect ⟨run, lease, .memoized (effective = some .escalate)⟩] else []) fun _ =>
  .stmt .plain (fun _ => if dispatch then [.insertEffect ⟨run, lease, .dispatched⟩] else [])
    fun _ => followUpRun session run lease now c

/-- The effective disposition after the server-side floor. -/
def effectiveDisposition (payload : CompletePayload) (reads : CompleteReads) :
    Option Disposition :=
  if payload.disposition = some .closeFp ∧ reads.floorVeto then some .escalate
  else payload.disposition

/-- What a completed run does to its investigation. -/
def applyDisposition (session : ℕ) (run : RunId) (lease : LeaseId) (now : Time)
    (c : InvestigationId) (payload : CompletePayload) (reads : CompleteReads) : Program :=
  match effectiveDisposition payload reads with
  | some .closeFp =>
    .stmt .plain
      (fun v => if investigationActive v.db c then
          (v.db.investigations c).toList.flatMap fun row =>
            [.setInvestigation c { row with status := .autoClosedFp },
              .insertEffect ⟨run, lease, .closed⟩]
        else [])
      fun v => afterDisposition session run lease now c payload reads (some .closeFp)
        (investigationActive v.db c)
  | some .escalate =>
    .stmt .plain
      (fun v => (if investigationActive v.db c then
          (v.db.investigations c).toList.map fun row =>
            .setInvestigation c { row with severity := max row.severity 12 }
        else []) ++ [.insertEffect ⟨run, lease, .reviewRequested⟩])
      fun _ => afterDisposition session run lease now c payload reads (some .escalate) true
  | d => afterDisposition session run lease now c payload reads d false

/-- Terminal, and without a lease. -/
def RunRow.ended (row : RunRow) (payload : CompletePayload) : RunRow :=
  { (row.withTotals payload.usage).withoutLease with status := payload.status.runStatus }

def completeRun (session : ℕ) (run : RunId) (lease : LeaseId) (now : Time)
    (payload : CompletePayload) (reads : CompleteReads) : Program :=
  recordSpendDelta run payload.usage fun read =>
  .stmt (.completeUpdate run lease payload.usage read payload.status)
    (fun v => (heldRow v.db run lease).toList.flatMap fun row =>
      [.setRun run (row.ended payload), .insertEffect ⟨run, lease, .ended⟩])
    fun v =>
      match heldRow v.db run lease with
      | none => .rollback
      | some row =>
        match payload.status with
        | .completed => applyDisposition session run lease now row.investigation payload reads
        | .haltedBudget => .commit .plain
        | .failed =>
          .commit (.endedCommit row.investigation (evidenceFlag v.db row.investigation))

/-! ## The other parties -/

def leaseExpired (row : RunRow) (now : Time) : Bool :=
  row.status == .active && match row.leaseExpiresAt with
    | some e => e < now
    | none => false

/-- The reaper's update, row by row: each is checked again once its lock is free. -/
def reapRows (now : Time) : List RunId → Program
  | [] => .commit .plain
  | id :: ids =>
    .stmt .plain
      (fun v => match v.db.runs id with
        | some row => if leaseExpired row now then [.setRun id row.withoutLease] else []
        | none => [])
      fun _ => reapRows now ids

def reapExpiredLeases (now : Time) : Program :=
  .stmt .plain (fun _ => []) fun v =>
  reapRows now (v.db.runIds.filter fun id => match v.db.runs id with
    | some row => leaseExpired row now
    | none => false)

/-- The row a budget-halted run is resumed with. -/
def RunRow.unlocked (row : RunRow) (now : Time) (tokens : ℕ) (dollars : ℚ) : RunRow :=
  { row.withoutLease with
    status := .active, tokensBudget := tokens, dollarsBudget := dollars, notBefore := now }

/-- The new ceilings, when they are within the caps and exceed what is already spent. -/
def unlockBudgets (t : Tables) (run : RunId) (row : RunRow) (tokenBudget : Option ℕ)
    (dollarBudget : Option ℚ) : Option (ℕ × ℚ) :=
  let enforceable := max 0 (floatSub row.dollarsUsed (unpricedLedgered t run))
  let dollars := dollarBudget.getD row.dollarsBudget
  let tokens := tokenBudget.getD row.tokensBudget
  if dollars ≤ runDollarBudgetMax ∧ tokens ≤ runTokenBudgetMax ∧ enforceable < dollars ∧
      row.tokensUsed < tokens then some (tokens, dollars) else none

/-- Resume a budget-halted run, with run and investigation locked together. -/
def unlockRun (run : RunId) (now : Time) (tokenBudget : Option ℕ) (dollarBudget : Option ℚ) :
    Program :=
  .stmt .plain
    (fun v => (v.db.runs run).toList.flatMap fun row =>
      [.lock (.run run), .lock (.investigation row.investigation)])
    fun v =>
  match v.db.runs run with
  | none => .rollback
  | some row =>
    if row.status ≠ .haltedBudget ∨ investigationActive v.db row.investigation = false then
      .rollback
    else
      match unlockBudgets v.db run row tokenBudget dollarBudget with
      | none => .rollback
      | some (tokens, dollars) =>
        .stmt .plain
          (fun v => match v.db.runs run with
            | some row => if row.status = .haltedBudget then
                [.setRun run (row.unlocked now tokens dollars)] else []
            | none => [])
          fun _ => .commit .plain

/-- `transition_run` to the gate or back to active: an unconditional update, which the
unique index refuses while another run of the investigation is live. -/
def transitionRun (run : RunId) (resume : Bool) : Program :=
  .stmt .plain
    (fun v => match v.db.runs run with
      | some row =>
        if !row.status.live && otherLive v.db row.investigation (some run) then []
        else [.lock (.liveSlot row.investigation),
          .setRun run { row with status := if resume then .active else .waitingOnGate }]
      | none => [])
    fun v =>
      match v.db.runs run with
      | some row =>
        if !row.status.live && otherLive v.db row.investigation (some run) then .rollback
        else .commit .plain
      | none => .commit .plain

/-- `active_run_for_case`. -/
def activeRunForCase (t : Tables) (c : InvestigationId) : Option RunId :=
  t.runIds.find? fun id => match t.runs id with
    | some row => row.investigation == c && row.status.live
    | none => false

/-- The end of both attach paths of ingest: flag the investigation if a run is live. -/
def attachEvidence (c : InvestigationId) : Program :=
  .stmt .plain (fun _ => []) fun v =>
  match activeRunForCase v.db c with
  | none => .commit .plain
  | some _ =>
    .stmt .plain
      (fun v => (v.db.investigations c).toList.map fun row =>
        .setInvestigation c { row with hasNewEvidence := true })
      fun _ => .commit (.attachCommit c)

/-- Promotion of an alert: a fresh investigation with its first run. -/
def promoteAlert (session : ℕ) (severity : ℕ) (now notBefore : Time) : Program :=
  .stmt .plain
    (fun v => if (v.db.investigations session).isNone then
        [.setInvestigation session { severity := severity }] else [])
    fun v =>
  if (v.db.investigations session).isSome then .rollback
  else
    .stmt .plain
      (fun v => if insertable v.db session session then
        [.insertRun session (newRun session now notBefore)] else [])
      fun v => if insertable v.db session session then .commit .plain else .rollback

def serve (session : ℕ) : Request → Program
  | .claim now wall capOk => claimRun session now wall capOk
  | .heartbeat run lease wall usage => heartbeatRun run lease wall usage
  | .release run lease now usage => releaseRun run lease now usage
  | .complete run lease now payload reads => completeRun session run lease now payload reads
  | .reap now => reapExpiredLeases now
  | .unlock run now tokenBudget dollarBudget => unlockRun run now tokenBudget dollarBudget
  | .transition run resume => transitionRun run resume
  | .attach c => attachEvidence c
  | .promote severity now notBefore => promoteAlert session severity now notBefore

abbrev System := Sys Tables Write Unit Stmt Resource Request

/-- The tables before any request. -/
def init : System := start ⟨Tables.empty, []⟩

/-- Runs with no condition on their steps. -/
def always : Stmt → View Tables Resource → Prop := fun _ _ => True

instance (lab : Stmt) (v : View Tables Resource) : Decidable (always lab v) := isTrue trivial

/-- An alert is promoted and its run claimed. -/
def promoteAndClaim : List (Event Request) :=
  [.begin (.promote 7 0 0), .advance 0, .advance 0, .advance 0,
   .begin (.claim 1 1 true), .advance 1, .advance 1, .advance 1, .advance 1]

end SocTalk.Runs
