import Mathlib.Algebra.BigOperators.Group.List.Basic
import Mathlib.Algebra.Order.Ring.Rat
import Mathlib.Data.List.Perm.Basic
import Mathlib.Tactic.Linarith
import SocTalk.Lib.Transition
import SocTalk.Provisioning.Store

/-! The attempts of one provisioning job: workers that claim it and report on it or vanish, the
reclaim of stale claims, and the operator's retries. Times are in seconds. -/
namespace SocTalk.Provisioning.RetryBudget
open Transition

/-- The row of `provisioning_jobs`. -/
structure JobRow where
  status : JobStatus
  attempts : ℕ
  maxAttempts : ℕ
  claimedAt : Option ℚ
  nextAttemptAt : ℚ
  deriving DecidableEq

/-- An execution that has claimed the job. -/
inductive Execution where
  | running
  /-- `_record_failure` has read the row: the next attempt, `none` where the job has failed. -/
  | recording (retryAt : Option ℚ)
  deriving DecidableEq

structure State where
  row : JobRow
  executions : List Execution
  /-- The claims since the job was queued or reopened. -/
  claims : ℕ
  deriving DecidableEq

structure Settings where
  backoffBase : ℚ
  staleClaimSeconds : ℚ

/-- What happens to the job, with the clock that the acting process reads. -/
inductive Op where
  | claim (now : ℚ)
  | succeed (execution : ℕ)
  /-- An error, a timeout, or a tenant in a terminal state. -/
  | fail (execution : ℕ) (terminal : Bool) (now : ℚ)
  | record (execution : ℕ)
  /-- The execution ends without a report. -/
  | crash (execution : ℕ)
  | reclaim (now : ℚ)
  /-- The operator's retry finds the job waiting. -/
  | retryNow (now : ℚ)
  /-- The operator's retry finds the job failed. -/
  | reopen (now : ℚ)
  deriving DecidableEq

/-! ## The worker -/

/-- `_claim`. -/
def claim (s : State) (now : ℚ) : State :=
  if s.row.status = .pending ∧ s.row.nextAttemptAt ≤ now then
    { row := { s.row with
        status := .inFlight, attempts := s.row.attempts + 1, claimedAt := some now }
      executions := s.executions ++ [.running]
      claims := s.claims + 1 }
  else s

/-- `_record_success`. -/
def recordSuccess (s : State) (i : ℕ) : State :=
  if s.executions[i]? = some .running then
    { s with row := { s.row with status := .succeeded }, executions := s.executions.eraseIdx i }
  else s

/-- The capped exponential backoff. -/
def backoff (settings : Settings) (attempts : ℕ) : ℚ :=
  min (settings.backoffBase * 2 ^ ((attempts : ℤ) - 1)) 1800

/-- `_record_failure` up to its update. -/
def decideRetry (settings : Settings) (row : JobRow) (terminal : Bool) (now : ℚ) : Option ℚ :=
  if terminal || row.maxAttempts ≤ row.attempts then none
  else some (now + backoff settings row.attempts)

def readFailure (settings : Settings) (s : State) (i : ℕ) (terminal : Bool) (now : ℚ) : State :=
  if s.executions[i]? = some .running then
    { s with executions := s.executions.set i (.recording (decideRetry settings s.row terminal now)) }
  else s

/-- The update of `_record_failure`. -/
def recordFailure (row : JobRow) : Option ℚ → JobRow
  | none => { row with status := .failed, claimedAt := none }
  | some retryAt => { row with status := .pending, claimedAt := none, nextAttemptAt := retryAt }

def record (s : State) (i : ℕ) : State :=
  match s.executions[i]? with
  | some (.recording retryAt) =>
    { s with row := recordFailure s.row retryAt, executions := s.executions.eraseIdx i }
  | _ => s

/-- `_maybe_reclaim_stale`, of this job. -/
def reclaimStale (settings : Settings) (s : State) (now : ℚ) : State :=
  match s.row.claimedAt with
  | some claimedAt =>
    if s.row.status = .inFlight ∧ claimedAt < now - settings.staleClaimSeconds then
      { s with row := { s.row with status := .pending, claimedAt := none, nextAttemptAt := now } }
    else s
  | none => s

/-! ## The operator -/

/-- `retry_provisioning` of a failed job; whoever reads it so may write later. -/
def reopen (s : State) (now : ℚ) : State :=
  { s with
    row := { s.row with status := .pending, attempts := 0, claimedAt := none, nextAttemptAt := now }
    claims := 0 }

def step (settings : Settings) (s : State) : Op → State
  | .claim now => claim s now
  | .succeed i => recordSuccess s i
  | .fail i terminal now => readFailure settings s i terminal now
  | .record i => record s i
  | .crash i => { s with executions := s.executions.eraseIdx i }
  | .reclaim now => reclaimStale settings s now
  | .retryNow now => { s with row := { s.row with nextAttemptAt := now } }
  | .reopen now => reopen s now

/-- A job as it is queued. -/
def queued (maxAttempts : ℕ) (now : ℚ) : State := ⟨⟨.pending, 0, maxAttempts, none, now⟩, [], 0⟩

/-! ## The condition -/

/-- Whether the report of an execution ends the job when no attempt is left. -/
def Execution.ends : Execution → Bool
  | .recording (some _) => false
  | _ => true

def JobRow.attemptLeft (row : JobRow) : Prop := row.attempts < row.maxAttempts

/-- The last attempt is neither reclaimed nor given up by its worker, and a report that was decided
before it does not queue the job again. -/
def LastAttemptReports (s : State) : Op → Prop
  | .reclaim _ => s.row.attemptLeft
  | .record i => s.row.attemptLeft ∨ ∀ e ∈ s.executions[i]?, e.ends = true
  | .crash i => s.row.attemptLeft ∨ s.row.status ≠ .inFlight ∨
      ∃ e ∈ s.executions.eraseIdx i, e.ends = true
  | _ => True

/-- What the attempts left say of the row and of the executions. -/
structure Budgeted (m : ℕ) (s : State) : Prop where
  positive : 0 < m
  maxAttempts : s.row.maxAttempts = m
  counted : s.claims = s.row.attempts
  within : s.row.attempts ≤ m
  pending : s.row.status = .pending → s.row.attempts < m
  inFlight : s.row.status = .inFlight → s.row.attempts < m ∨ ∃ e ∈ s.executions, e.ends = true
  claimed : s.row.status = .inFlight → s.row.claimedAt ≠ none

theorem budgeted_queued {m : ℕ} (hm : 0 < m) (now : ℚ) : Budgeted m (queued m now) where
  positive := hm
  maxAttempts := rfl
  counted := rfl
  within := Nat.zero_le m
  pending _ := hm
  inFlight := nofun
  claimed := nofun

section Steps

variable {settings : Settings} {m : ℕ} {s : State}

theorem Budgeted.claim (h : Budgeted m s) (now : ℚ) : Budgeted m (claim s now) := by
  unfold RetryBudget.claim
  split
  · rename_i hdue
    have hleft := h.pending hdue.1
    exact {
      positive := h.positive
      maxAttempts := h.maxAttempts
      counted := congrArg (· + 1) h.counted
      within := hleft
      pending := nofun
      inFlight := fun _ => .inr ⟨.running, by simp, rfl⟩
      claimed := nofun }
  · exact h

theorem Budgeted.recordSuccess (h : Budgeted m s) (i : ℕ) : Budgeted m (recordSuccess s i) := by
  unfold RetryBudget.recordSuccess
  split
  · exact { h with pending := nofun, inFlight := nofun, claimed := nofun }
  · exact h

/-- With no attempt left, what is decided ends the job. -/
theorem decideRetry_of_le {row : JobRow} {terminal : Bool} {now : ℚ}
    (h : row.maxAttempts ≤ row.attempts) : decideRetry settings row terminal now = none := by
  simp [decideRetry, h]

theorem Budgeted.readFailure (h : Budgeted m s) (i : ℕ) (terminal : Bool) (now : ℚ) :
    Budgeted m (readFailure settings s i terminal now) := by
  unfold RetryBudget.readFailure
  split
  · rename_i hrunning
    refine { h with inFlight := ?_ }
    intro hflight
    rcases h.inFlight hflight with hleft | ⟨e, he, hends⟩
    · exact .inl hleft
    · by_cases hleft : s.row.attempts < m
      · exact .inl hleft
      · right
        have hnone : decideRetry settings s.row terminal now = none :=
          decideRetry_of_le (by rw [h.maxAttempts]; omega)
        refine ⟨.recording none, ?_, rfl⟩
        rw [hnone]
        exact List.mem_set (List.getElem?_eq_some_iff.mp hrunning).1 _
  · exact h

theorem Budgeted.record (h : Budgeted m s) {i : ℕ}
    (hcond : s.row.attemptLeft ∨ ∀ e ∈ s.executions[i]?, e.ends = true) :
    Budgeted m (record s i) := by
  unfold RetryBudget.record
  split
  · rename_i retryAt hrecording
    cases retryAt with
    | none => exact { h with pending := nofun, inFlight := nofun, claimed := nofun }
    | some retryAt =>
      have hleft : s.row.attempts < m := by
        rcases hcond with hleft | hends
        · exact h.maxAttempts ▸ hleft
        · exact absurd (hends _ hrecording) (by simp [Execution.ends])
      exact { h with pending := fun _ => hleft, inFlight := nofun, claimed := nofun }
  · exact h

theorem Budgeted.crash (h : Budgeted m s) {i : ℕ}
    (hcond : s.row.attemptLeft ∨ s.row.status ≠ .inFlight ∨
      ∃ e ∈ s.executions.eraseIdx i, e.ends = true) :
    Budgeted m { s with executions := s.executions.eraseIdx i } := by
  refine { h with inFlight := ?_ }
  intro hflight
  rcases hcond with hleft | hother | hrest
  · exact .inl (h.maxAttempts ▸ hleft)
  · exact absurd hflight hother
  · exact .inr hrest

theorem Budgeted.reclaimStale (h : Budgeted m s) {now : ℚ} (hleft : s.row.attemptLeft) :
    Budgeted m (reclaimStale settings s now) := by
  have hlt : s.row.attempts < m := h.maxAttempts ▸ hleft
  unfold RetryBudget.reclaimStale
  split
  · split
    · exact { h with pending := fun _ => hlt, inFlight := nofun, claimed := nofun }
    · exact h
  · exact h

theorem Budgeted.reopen (h : Budgeted m s) (now : ℚ) : Budgeted m (reopen s now) where
  positive := h.positive
  maxAttempts := h.maxAttempts
  counted := rfl
  within := Nat.zero_le m
  pending _ := h.positive
  inFlight := nofun
  claimed := nofun

theorem Budgeted.step (h : Budgeted m s) {o : Op} (hcond : LastAttemptReports s o) :
    Budgeted m (step settings s o) := by
  cases o with
  | claim now => exact h.claim now
  | succeed i => exact h.recordSuccess i
  | fail i terminal now => exact h.readFailure i terminal now
  | record i => exact h.record hcond
  | crash i => exact h.crash hcond
  | reclaim now => exact h.reclaimStale hcond
  | retryNow now => exact { h with }
  | reopen now => exact h.reopen now

/-! ## How a job ends -/

def Execution.weight : Execution → ℕ
  | .running => 3
  | .recording _ => 2

/-- Every claim uses up an attempt, and every report an execution. -/
def remaining (s : State) : ℕ :=
  8 * (s.row.maxAttempts - s.row.attempts) + (s.executions.map Execution.weight).sum +
    if s.row.status = .inFlight then 1 else 0

theorem sum_weight_eraseIdx {es : List Execution} {i : ℕ} {e : Execution} (h : es[i]? = some e) :
    (es.map Execution.weight).sum = e.weight + ((es.eraseIdx i).map Execution.weight).sum := by
  obtain ⟨hi, rfl⟩ := List.getElem?_eq_some_iff.mp h
  have hperm := (List.getElem_cons_eraseIdx_perm hi).map Execution.weight
  rw [← hperm.sum_eq, List.map_cons, List.sum_cons]

theorem sum_weight_set {es : List Execution} {i : ℕ} {e : Execution} (h : es[i]? = some e)
    (e' : Execution) : ((es.set i e').map Execution.weight).sum =
      e'.weight + ((es.eraseIdx i).map Execution.weight).sum := by
  have hi := (List.getElem?_eq_some_iff.mp h).1
  have hset : (es.set i e')[i]? = some e' := by simp [hi]
  rw [sum_weight_eraseIdx hset, List.eraseIdx_set_eq]

theorem weight_pos (e : Execution) : 2 ≤ e.weight := by
  cases e <;> simp [Execution.weight]

/-- Steps of the workers. -/
def Op.byWorker : Op → Bool
  | .retryNow _ | .reopen _ => false
  | _ => true

/-- A worker's step that changes something, under the condition. -/
def Works (settings : Settings) (s t : State) : Prop :=
  ∃ o : Op, o.byWorker = true ∧ LastAttemptReports s o ∧ step settings s o ≠ s ∧
    step settings s o = t

theorem remaining_claim (h : Budgeted m s) {now : ℚ} (hne : claim s now ≠ s) :
    remaining (claim s now) < remaining s := by
  unfold claim at hne ⊢
  split at hne
  · rename_i hdue
    have hleft : s.row.attempts < s.row.maxAttempts := h.maxAttempts ▸ h.pending hdue.1
    rw [if_pos hdue]
    simp only [remaining, hdue.1, List.map_append, List.sum_append, List.map_cons, List.map_nil,
      List.sum_cons, List.sum_nil, Execution.weight, if_true, reduceCtorEq, if_false]
    omega
  · exact absurd rfl hne

theorem remaining_erase {row : JobRow} {i : ℕ} {e : Execution} (he : s.executions[i]? = some e)
    (hmax : row.maxAttempts = s.row.maxAttempts) (hattempts : row.attempts = s.row.attempts)
    (hflight : row.status = .inFlight → s.row.status = .inFlight) :
    remaining { s with row := row, executions := s.executions.eraseIdx i } < remaining s := by
  have hsum := sum_weight_eraseIdx he
  have hpos := weight_pos e
  have hbit : (if row.status = .inFlight then 1 else 0) ≤
      if s.row.status = .inFlight then 1 else 0 := by
    split
    · rename_i hrow
      rw [if_pos (hflight hrow)]
    · exact Nat.zero_le _
  simp only [remaining, hmax, hattempts]
  omega

theorem remaining_step (h : Budgeted m s) {o : Op} (hworker : o.byWorker = true)
    (hne : step settings s o ≠ s) : remaining (step settings s o) < remaining s := by
  cases o with
  | claim now => exact remaining_claim h hne
  | succeed i =>
    simp only [step, recordSuccess] at hne ⊢
    split at hne
    · rename_i hrunning
      rw [if_pos hrunning]
      exact remaining_erase hrunning rfl rfl nofun
    · exact absurd rfl hne
  | fail i terminal now =>
    simp only [step, readFailure] at hne ⊢
    split at hne
    · rename_i hrunning
      rw [if_pos hrunning]
      have hbefore := sum_weight_eraseIdx hrunning
      have hafter := sum_weight_set hrunning (.recording (decideRetry settings s.row terminal now))
      simp only [remaining]
      simp only [Execution.weight] at hbefore hafter
      omega
    · exact absurd rfl hne
  | record i =>
    simp only [step, record] at hne ⊢
    split at hne
    · rename_i retryAt hrecording
      cases retryAt with
      | none => exact remaining_erase hrecording rfl rfl nofun
      | some retryAt => exact remaining_erase hrecording rfl rfl nofun
    · exact absurd rfl hne
  | crash i =>
    cases he : s.executions[i]? with
    | none =>
      have hsame : s.executions.eraseIdx i = s.executions :=
        List.eraseIdx_of_length_le (List.getElem?_eq_none_iff.mp he)
      simp only [step, hsame] at hne
      exact absurd rfl hne
    | some e => exact remaining_erase he rfl rfl id
  | reclaim now =>
    simp only [step, reclaimStale] at hne ⊢
    split at hne
    · split at hne
      · rename_i hstale
        rw [if_pos hstale]
        simp only [remaining, hstale.1, if_true, reduceCtorEq, if_false]
        omega
      · exact absurd rfl hne
    · exact absurd rfl hne
  | retryNow now => cases hworker
  | reopen now => cases hworker

/-- The job has ended and nothing is left that could write to it. -/
def Ended (s : State) : Prop :=
  (s.row.status = .succeeded ∨ s.row.status = .failed) ∧ s.executions = []

theorem works_of_erase {o : Op} {i : ℕ} {e : Execution} (he : s.executions[i]? = some e)
    (hworker : o.byWorker = true) (hcond : LastAttemptReports s o)
    (hstep : (step settings s o).executions = s.executions.eraseIdx i) :
    ∃ t, Works settings s t := by
  refine ⟨_, o, hworker, hcond, ?_, rfl⟩
  intro hsame
  have hlen := congrArg (fun t => t.executions.length) hsame
  have hi := (List.getElem?_eq_some_iff.mp he).1
  simp only [hstep, List.length_eraseIdx_of_lt hi] at hlen
  omega

/-- An execution whose report ends the job can always report. -/
theorem works_of_ends {e : Execution} (he : e ∈ s.executions) (hends : e.ends = true) :
    ∃ t, Works settings s t := by
  obtain ⟨i, hi⟩ := List.getElem?_of_mem he
  cases e with
  | running =>
    refine works_of_erase (o := .succeed i) hi rfl trivial ?_
    simp [step, recordSuccess, hi]
  | recording retryAt =>
    cases retryAt with
    | none =>
      refine works_of_erase (o := .record i) hi rfl ?_ (by simp [step, record, hi])
      right
      intro e he
      obtain rfl := Option.some.inj (hi.symm.trans he)
      rfl
    | some retryAt => cases hends

theorem works_of_pending (h : s.row.status = .pending) : ∃ t, Works settings s t := by
  refine ⟨_, .claim s.row.nextAttemptAt, rfl, trivial, ?_, rfl⟩
  intro hsame
  have hstatus := congrArg (fun t => t.row.status) hsame
  simp [step, claim, h] at hstatus

theorem works_of_inFlight (h : s.row.status = .inFlight) (hclaimed : s.row.claimedAt ≠ none)
    (hleft : s.row.attemptLeft) : ∃ t, Works settings s t := by
  obtain ⟨claimedAt, hc⟩ := Option.ne_none_iff_exists'.mp hclaimed
  refine ⟨_, .reclaim (claimedAt + settings.staleClaimSeconds + 1), rfl, hleft, ?_, rfl⟩
  intro hsame
  have hlate : claimedAt < claimedAt + settings.staleClaimSeconds + 1 -
      settings.staleClaimSeconds := by linarith
  have hstatus := congrArg (fun t => t.row.status) hsame
  simp [step, reclaimStale, h, hc, hlate] at hstatus

theorem Budgeted.works (h : Budgeted m s) (hend : ¬Ended s) : ∃ t, Works settings s t := by
  by_cases hends : ∃ e ∈ s.executions, e.ends = true
  · obtain ⟨e, he, hends⟩ := hends
    exact works_of_ends he hends
  cases hstatus : s.row.status with
  | pending => exact works_of_pending hstatus
  | inFlight =>
    have hleft : s.row.attemptLeft := by
      rcases h.inFlight hstatus with hleft | hsome
      · rw [JobRow.attemptLeft, h.maxAttempts]
        exact hleft
      · exact absurd hsome hends
    exact works_of_inFlight hstatus (h.claimed hstatus) hleft
  | succeeded | failed =>
    -- What is left has decided on a retry; it may still give up.
    have hne : s.executions ≠ [] := by
      intro hnil
      exact hend ⟨by simp [hstatus], hnil⟩
    obtain ⟨e, he⟩ := List.exists_mem_of_ne_nil _ hne
    obtain ⟨i, hi⟩ := List.getElem?_of_mem he
    exact works_of_erase (o := .crash i) hi rfl (.inr (.inl (by simp [hstatus]))) rfl

theorem Budgeted.inevitable (h : Budgeted m s) :
    Inevitable (Works settings) (Works settings) Ended s := by
  refine Inevitable.of_measure (I := Budgeted m) remaining ?_ ?_ h
  · intro t ht hend
    exact ht.works hend
  · rintro t u ht - ⟨o, hworker, hcond, hne, rfl⟩
    exact .inr ⟨ht.step hcond, remaining_step ht hworker hne⟩

end Steps

/-- Where every last attempt reports, a job is claimed at most `m` times between two operator
retries, and whatever the workers do it ends. -/
theorem retry_budget_of_lastAttemptReports (settings : Settings) {m : ℕ} (hm : 0 < m) {now : ℚ}
    {s : State} (hrun : Run (step settings) LastAttemptReports (queued m now) s) :
    s.claims ≤ m ∧ Inevitable (Works settings) (Works settings) Ended s := by
  have h : Budgeted m s :=
    hrun.inv (fun _ _ hinv hcond => hinv.step hcond) (budgeted_queued hm now)
  refine ⟨?_, h.inevitable⟩
  rw [h.counted]
  exact h.within

/-- A retry that succeeds. -/
def retried : List Op := [.claim 0, .fail 0 false 1, .record 0, .claim 40, .succeed 0]

theorem retry_budget_retried :
    (retried.foldl (step ⟨30, 900⟩) (queued 5 0)).claims ≤ 5 ∧
      Inevitable (Works ⟨30, 900⟩) (Works ⟨30, 900⟩) Ended
        (retried.foldl (step ⟨30, 900⟩) (queued 5 0)) := by
  have hadmits : Admits (step ⟨30, 900⟩) LastAttemptReports (queued 5 0) retried := by
    refine ⟨trivial, trivial, .inl ?_, trivial, trivial, trivial⟩
    show 1 < 5
    omega
  exact retry_budget_of_lastAttemptReports ⟨30, 900⟩ (by omega) (Run.of_admits hadmits)

/-! ## A job that kills its worker -/

/-- A claim, the end of its process and the reclaim that follows. -/
def deadlyAttempt (settings : Settings) (s : State) : State :=
  let now := s.row.nextAttemptAt
  step settings (step settings (step settings s (.claim now)) (.crash 0))
    (.reclaim (now + settings.staleClaimSeconds + 1))

theorem deadlyAttempt_spec (settings : Settings) {s : State} (hpending : s.row.status = .pending)
    (hidle : s.executions = []) :
    (deadlyAttempt settings s).row.status = .pending ∧
      (deadlyAttempt settings s).executions = [] ∧
      (deadlyAttempt settings s).claims = s.claims + 1 := by
  have hlate : s.row.nextAttemptAt < s.row.nextAttemptAt + settings.staleClaimSeconds + 1 -
      settings.staleClaimSeconds := by linarith
  simp [deadlyAttempt, step, claim, reclaimStale, hpending, hidle, hlate]

/-- Without a report, nothing compares the attempts with their maximum. -/
theorem exists_run_claims (settings : Settings) (m n : ℕ) :
    ∃ s, Run (step settings) (fun _ o => o.byWorker = true) (queued m 0) s ∧
      s.row.status = .pending ∧ s.executions = [] ∧ s.claims = n := by
  induction n with
  | zero => exact ⟨queued m 0, Run.refl, rfl, rfl, rfl⟩
  | succ n ih =>
    obtain ⟨s, hrun, hpending, hidle, hclaims⟩ := ih
    obtain ⟨hpending', hidle', hclaims'⟩ := deadlyAttempt_spec settings hpending hidle
    refine ⟨deadlyAttempt settings s, ?_, hpending', hidle', by omega⟩
    exact ((hrun.step (.claim s.row.nextAttemptAt) rfl).step (.crash 0) rfl).step
      (.reclaim (s.row.nextAttemptAt + settings.staleClaimSeconds + 1)) rfl

/-- With the default settings and budget, and no operator. -/
theorem claimed_beyond_budget :
    ∃ s, Run (step ⟨30, 900⟩) (fun _ o => o.byWorker = true) (queued 5 0) s ∧ 5 < s.claims := by
  obtain ⟨s, hrun, -, -, hclaims⟩ := exists_run_claims ⟨30, 900⟩ 5 6
  exact ⟨s, hrun, by omega⟩

end SocTalk.Provisioning.RetryBudget
