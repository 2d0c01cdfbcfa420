import SocTalk.Agents.Installation
import SocTalk.Lib.Transition
import Mathlib.Algebra.BigOperators.Group.List.Basic

/-! Whether an installation that is on its way always has a job to get there: the requests
that can leave it with none, and that no other can. -/
namespace SocTalk.Agents
open Transition

/-- The states an installation passes on its way to active. -/
def Busy (s : TenantInstallation) : Prop :=
  s.state = .agentConnected ∨ s.state = .provisioning ∨ s.state = .upgrading

def HasOpenJob (s : TenantInstallation) : Prop := ∃ j ∈ s.jobs, j.status.isOpen = true

/-- The agent from `t0` on: it claims the next job, none it holds having turned stale, or
completes a job it has claimed since. -/
inductive AgentActs (t0 : ℤ) (s : TenantInstallation) : TenantInstallation → Prop
  | claim (now : ℤ) : t0 ≤ now →
      (∀ j ∈ s.jobs, j.status = .inFlight → ∀ c, j.claimedAt = some c → t0 ≤ c →
        now - staleClaimThreshold ≤ c) →
      (∃ j ∈ (reclaimStale s now).jobs, j.status = .pending) → AgentActs t0 s (claimJob s now)
  | complete (id : ℕ) (job : AgentJob) (c : ℤ) : s.jobs[id]? = some job →
      job.status = .inFlight → job.claimedAt = some c → t0 ≤ c →
      AgentActs t0 s (completeJob s id true true)

/-- The agent acts, or a job claimed before `t0` succeeds after all. -/
def AgentSucceeds (t0 : ℤ) (s t : TenantInstallation) : Prop :=
  AgentActs t0 s t ∨ ∃ id job, s.jobs[id]? = some job ∧ job.status = .inFlight ∧
    t = completeJob s id true true

/-- A busy installation has an open job, and the agent's successes bring it to active, whatever
becomes of the jobs claimed before. -/
def NeverWedged (s : TenantInstallation) : Prop :=
  Busy s → HasOpenJob s ∧
    ∀ t0, Inevitable (AgentActs t0) (AgentSucceeds t0) (fun t => t.state = .active) s

/-! ## Jobs by kind and key -/

def HasOpen (s : TenantInstallation) (kind : JobKind) : Prop :=
  ∃ j ∈ s.jobs, j.kind = kind ∧ j.status.isOpen = true

def HasUnsucceeded (s : TenantInstallation) (kind : JobKind) : Prop :=
  ∃ j ∈ s.jobs, j.kind = kind ∧ j.status ≠ .succeeded

/-- The key is taken by a job that has ended, so an enqueue under it adds nothing to run. -/
def KeyFinished (s : TenantInstallation) (key : String) : Prop :=
  ∃ j ∈ s.jobs, j.idempotencyKey = key ∧ j.status.isOpen = false

def KeySucceeded (s : TenantInstallation) (key : String) : Prop :=
  ∃ j ∈ s.jobs, j.idempotencyKey = key ∧ j.status = .succeeded

/-- Some open job leads on to active: a readiness wait, or an apply job whose readiness wait
is still to be run. -/
def Driven (s : TenantInstallation) (apply : JobKind) : Prop :=
  HasOpen s .waitForReady ∨
    HasOpen s apply ∧ ¬KeyFinished s (waitKey s apply s.desiredChartVersion)

/-- The apply job whose success the picked state takes. -/
def resumeKind (s : TenantInstallation) : JobKind :=
  if (∃ j ∈ s.jobs, j.status = .failed ∧ j.kind = .upgradeHelmRelease) ∨
      s.desiredAction = .upgrade then .upgradeHelmRelease
  else .installHelmRelease

/-- The condition on a request: a first registration does not die between its two commits;
a dispatched upgrade and a resumed installation have a job to run that leads on. -/
def Leads (s : TenantInstallation) : Op → Prop
  | .register dies => s.state = .pending → dies = false
  | .issueAgent ref version built =>
    ¬(s.desiredChartRef = ref ∧ s.desiredChartVersion = version) → built = true →
    s.state = .active ∨ s.state = .degraded →
      HasOpen s .waitForReady ∨
        (HasOpen s .upgradeHelmRelease ∨ ¬KeyFinished s (upgradeKey s ref version)) ∧
          ¬KeyFinished s (waitKey s .upgradeHelmRelease version)
  | .retryInstall => s.state = .degraded → (∃ j ∈ s.jobs, j.status = .failed) →
      HasUnsucceeded s .waitForReady ∨ HasUnsucceeded s (resumeKind s) ∧
        ¬KeySucceeded s (waitKey s (resumeKind s) s.desiredChartVersion)
  | _ => True

/-! ## Keys tell kinds apart -/

/-- The first letter of the keys of a kind. -/
def JobKind.letter : JobKind → Char
  | .preflight => 'p'
  | .installHelmRelease => 'i'
  | .upgradeHelmRelease => 'u'
  | .waitForReady => 'w'

def KeyOf (kind : JobKind) (key : String) : Prop := key.toList.head? = some kind.letter

theorem keyOf_preflight (s : TenantInstallation) : KeyOf .preflight (preflightKey s) := by
  simp [KeyOf, preflightKey, JobKind.letter]

theorem keyOf_install (s : TenantInstallation) (ref version : String) :
    KeyOf .installHelmRelease (installKey s ref version) := by
  simp [KeyOf, installKey, JobKind.letter]

theorem keyOf_upgrade (s : TenantInstallation) (ref version : String) :
    KeyOf .upgradeHelmRelease (upgradeKey s ref version) := by
  simp [KeyOf, upgradeKey, JobKind.letter]

theorem keyOf_wait (s : TenantInstallation) (kind : JobKind) (version : String) :
    KeyOf .waitForReady (waitKey s kind version) := by
  simp [KeyOf, waitKey, JobKind.letter]

theorem KeyOf.kind_eq {k k' : JobKind} {key : String} (h : KeyOf k key) (h' : KeyOf k' key) :
    k = k' := by
  have hletter : k.letter = k'.letter := Option.some.inj (h.symm.trans h')
  revert hletter
  cases k <;> cases k' <;> decide

def Keyed (s : TenantInstallation) : Prop := ∀ j ∈ s.jobs, KeyOf j.kind j.idempotencyKey

/-! ## Job lists under the requests -/

/-- The same jobs in order, each with its kind and key, the statuses related by `R`. -/
def Restatused (R : AgentJob → AgentJob → Prop) (js js' : List AgentJob) : Prop :=
  List.Forall₂ (fun j j' => j'.kind = j.kind ∧ j'.idempotencyKey = j.idempotencyKey ∧ R j j') js js'

theorem Restatused.mem_old {R : AgentJob → AgentJob → Prop} {js js' : List AgentJob}
    (h : Restatused R js js') {j : AgentJob} (hj : j ∈ js) :
    ∃ j' ∈ js', j'.kind = j.kind ∧ j'.idempotencyKey = j.idempotencyKey ∧ R j j' := by
  induction h with
  | nil => cases hj
  | cons hrel _ ih =>
    rcases List.mem_cons.mp hj with rfl | hj
    · exact ⟨_, List.mem_cons_self, hrel⟩
    · obtain ⟨j', hj', hrel'⟩ := ih hj
      exact ⟨j', List.mem_cons_of_mem _ hj', hrel'⟩

theorem Restatused.mem_new {R : AgentJob → AgentJob → Prop} {js js' : List AgentJob}
    (h : Restatused R js js') {j' : AgentJob} (hj : j' ∈ js') :
    ∃ j ∈ js, j'.kind = j.kind ∧ j'.idempotencyKey = j.idempotencyKey ∧ R j j' := by
  induction h with
  | nil => cases hj
  | cons hrel _ ih =>
    rcases List.mem_cons.mp hj with rfl | hj
    · exact ⟨_, List.mem_cons_self, hrel⟩
    · obtain ⟨j, hj, hrel'⟩ := ih hj
      exact ⟨j, List.mem_cons_of_mem _ hj, hrel'⟩

theorem restatused_refl {R : AgentJob → AgentJob → Prop} (hR : ∀ j, R j j) (js : List AgentJob) :
    Restatused R js js := by
  induction js with
  | nil => exact List.Forall₂.nil
  | cons j js ih => exact List.Forall₂.cons ⟨rfl, rfl, hR j⟩ ih

theorem restatused_map {R : AgentJob → AgentJob → Prop} {f : AgentJob → AgentJob}
    (hf : ∀ j, (f j).kind = j.kind ∧ (f j).idempotencyKey = j.idempotencyKey ∧ R j (f j))
    (js : List AgentJob) : Restatused R js (js.map f) := by
  induction js with
  | nil => exact List.Forall₂.nil
  | cons j js ih => exact List.Forall₂.cons (hf j) ih

theorem Restatused.keyed {R : AgentJob → AgentJob → Prop} {js js' : List AgentJob}
    (h : Restatused R js js') (hkeyed : ∀ j ∈ js, KeyOf j.kind j.idempotencyKey) :
    ∀ j ∈ js', KeyOf j.kind j.idempotencyKey := by
  intro j' hj'
  obtain ⟨j, hj, hkind, hkey, -⟩ := h.mem_new hj'
  rw [hkind, hkey]
  exact hkeyed j hj

/-- A job that was open stays open. -/
def StaysOpen (j j' : AgentJob) : Prop := j.status.isOpen = true → j'.status.isOpen = true

/-- The list around its `i`-th job, which is the one replaced. -/
theorem set_split {js : List AgentJob} {i : ℕ} {job : AgentJob} (h : js[i]? = some job) :
    ∃ front back, js = front ++ job :: back ∧ ∀ job', js.set i job' = front ++ job' :: back := by
  obtain ⟨hi, rfl⟩ := List.getElem?_eq_some_iff.mp h
  refine ⟨js.take i, js.drop (i + 1), ?_, ?_⟩
  · simp
  · intro job'
    rw [List.set_eq_take_append_cons_drop, if_pos hi]

theorem enqueueAgentJob_jobs (s : TenantInstallation) (kind : JobKind) (key : String) :
    (∃ j ∈ s.jobs, j.idempotencyKey = key) ∧ enqueueAgentJob s kind key = s ∨
      (∀ j ∈ s.jobs, j.idempotencyKey ≠ key) ∧
        enqueueAgentJob s kind key =
          { s with jobs := s.jobs ++ [{ kind := kind, idempotencyKey := key }] } := by
  unfold enqueueAgentJob
  by_cases h : (s.jobs.any fun j => j.idempotencyKey == key) = true
  · rw [if_pos h]
    exact Or.inl ⟨by simpa using h, rfl⟩
  · rw [if_neg h]
    exact Or.inr ⟨by simpa using h, rfl⟩

theorem enqueueAgentJob_keyed {s : TenantInstallation} {kind : JobKind} {key : String}
    (hkeyed : Keyed s) (hkey : KeyOf kind key) : Keyed (enqueueAgentJob s kind key) := by
  rcases enqueueAgentJob_jobs s kind key with ⟨-, heq⟩ | ⟨-, heq⟩
  · rw [heq]
    exact hkeyed
  · rw [heq]
    intro j hj
    rcases List.mem_append.mp hj with hj | hj
    · exact hkeyed j hj
    · obtain rfl := List.mem_singleton.mp hj
      exact hkey

/-- An enqueue that no ended job swallows leaves an open job of the kind. -/
theorem hasOpen_enqueueAgentJob {s : TenantInstallation} {kind : JobKind} {key : String}
    (hkeyed : Keyed s) (hkey : KeyOf kind key) (hfree : ¬KeyFinished s key) :
    HasOpen (enqueueAgentJob s kind key) kind := by
  rcases enqueueAgentJob_jobs s kind key with ⟨⟨j, hj, hjkey⟩, heq⟩ | ⟨-, heq⟩
  · have hkind : j.kind = kind := (hjkey ▸ hkeyed j hj).kind_eq hkey
    have hopen : j.status.isOpen = true := by
      by_contra hclosed
      exact hfree ⟨j, hj, hjkey, by simpa using hclosed⟩
    rw [heq]
    exact ⟨j, hj, hkind, hopen⟩
  · rw [heq]
    exact ⟨⟨kind, key, .pending, none⟩, by simp, rfl, rfl⟩

theorem hasOpen_enqueue_of {s : TenantInstallation} {kind k : JobKind} {key : String}
    (h : HasOpen s k) : HasOpen (enqueueAgentJob s kind key) k := by
  obtain ⟨j, hj, hkind, hopen⟩ := h
  rcases enqueueAgentJob_jobs s kind key with ⟨-, heq⟩ | ⟨-, heq⟩
  · rw [heq]
    exact ⟨j, hj, hkind, hopen⟩
  · rw [heq]
    exact ⟨j, List.mem_append_left _ hj, hkind, hopen⟩

/-- A new job is not an ended one. -/
theorem keyFinished_of_enqueue {s : TenantInstallation} {kind : JobKind} {key key' : String}
    (h : KeyFinished (enqueueAgentJob s kind key) key') : KeyFinished s key' := by
  obtain ⟨j, hj, hjkey, hclosed⟩ := h
  rcases enqueueAgentJob_jobs s kind key with ⟨-, heq⟩ | ⟨-, heq⟩
  · rw [heq] at hj
    exact ⟨j, hj, hjkey, hclosed⟩
  · rw [heq] at hj
    rcases List.mem_append.mp hj with hj | hj
    · exact ⟨j, hj, hjkey, hclosed⟩
    · obtain rfl := List.mem_singleton.mp hj
      cases hclosed

/-! ## The invariant -/

structure Inv (s : TenantInstallation) : Prop where
  keyed : Keyed s
  claimed : ∀ j ∈ s.jobs, j.status = .inFlight → j.claimedAt ≠ none
  fresh : s.state = .pending → s.jobs = []
  connected : s.state = .agentConnected →
    ∃ j, s.jobs = [j] ∧ j.kind = .preflight ∧ j.status.isOpen = true
  provisioning : s.state = .provisioning → Driven s .installHelmRelease
  upgrading : s.state = .upgrading → Driven s .upgradeHelmRelease

theorem Driven.restatused {s : TenantInstallation} {js' : List AgentJob} {apply : JobKind}
    (h : Driven s apply) (hjobs : Restatused StaysOpen s.jobs js') :
    Driven { s with jobs := js' } apply := by
  have hopen : ∀ k, HasOpen s k → HasOpen { s with jobs := js' } k := by
    rintro k ⟨j, hj, hkind, ho⟩
    obtain ⟨j', hj', hkind', -, hstays⟩ := hjobs.mem_old hj
    exact ⟨j', hj', hkind'.trans hkind, hstays ho⟩
  rcases h with hwait | ⟨happly, hfree⟩
  · exact Or.inl (hopen _ hwait)
  · refine Or.inr ⟨hopen _ happly, ?_⟩
    rintro ⟨j', hj', hkey, hclosed⟩
    obtain ⟨j, hj, -, hkey', hstays⟩ := hjobs.mem_new hj'
    refine hfree ⟨j, hj, hkey' ▸ hkey, ?_⟩
    by_contra hjopen
    rw [hstays (by simpa using hjopen)] at hclosed
    cases hclosed

/-- A change of statuses that ends no job keeps the invariant. -/
theorem Inv.restatused {s : TenantInstallation} {js' : List AgentJob} (h : Inv s)
    (hjobs : Restatused StaysOpen s.jobs js')
    (hclaimed : ∀ j ∈ js', j.status = .inFlight → j.claimedAt ≠ none) :
    Inv { s with jobs := js' } where
  keyed := hjobs.keyed h.keyed
  claimed := hclaimed
  fresh hstate := by
    have hnil := h.fresh hstate
    rw [hnil] at hjobs
    cases hjobs
    rfl
  connected hstate := by
    obtain ⟨j, hone, hkind, hopen⟩ := h.connected hstate
    rw [hone] at hjobs
    obtain _ | ⟨hrel, hrest⟩ := hjobs
    cases hrest
    exact ⟨_, rfl, hrel.1.trans hkind, hrel.2.2 hopen⟩
  provisioning hstate := (h.provisioning hstate).restatused hjobs
  upgrading hstate := (h.upgrading hstate).restatused hjobs

theorem claimFirst_restatused (now : ℤ) (js : List AgentJob) :
    Restatused StaysOpen js (claimFirst now js) := by
  induction js with
  | nil => exact List.Forall₂.nil
  | cons j js ih =>
    unfold claimFirst
    split
    · exact List.Forall₂.cons ⟨rfl, rfl, fun _ => rfl⟩ (restatused_refl (fun _ => id) js)
    · exact List.Forall₂.cons ⟨rfl, rfl, id⟩ ih

theorem claimFirst_claimed {now : ℤ} {js : List AgentJob}
    (h : ∀ j ∈ js, j.status = .inFlight → j.claimedAt ≠ none) :
    ∀ j ∈ claimFirst now js, j.status = .inFlight → j.claimedAt ≠ none := by
  induction js with
  | nil => exact h
  | cons j js ih =>
    unfold claimFirst
    have htail : ∀ k ∈ js, k.status = .inFlight → k.claimedAt ≠ none :=
      fun k hk => h k (List.mem_cons_of_mem _ hk)
    split
    · intro k hk hflight
      rcases List.mem_cons.mp hk with rfl | hk
      · simp
      · exact htail k hk hflight
    · intro k hk hflight
      rcases List.mem_cons.mp hk with rfl | hk
      · exact h k List.mem_cons_self hflight
      · exact ih htail k hk hflight

/-- A reclaim puts a stale job back to pending or leaves the job. -/
theorem reclaimOne_cases (now : ℤ) (j : AgentJob) :
    reclaimOne now j = j ∨ reclaimOne now j = { j with status := .pending, claimedAt := none } ∧
      j.status = .inFlight ∧ ∃ c, j.claimedAt = some c ∧ c < now - staleClaimThreshold := by
  unfold reclaimOne
  split
  · rename_i c hstatus hclaimed
    split
    · rename_i hstale
      exact Or.inr ⟨rfl, hstatus, c, hclaimed, hstale⟩
    · exact Or.inl rfl
  · exact Or.inl rfl

theorem reclaimOne_restatused (now : ℤ) (j : AgentJob) :
    (reclaimOne now j).kind = j.kind ∧ (reclaimOne now j).idempotencyKey = j.idempotencyKey ∧
      StaysOpen j (reclaimOne now j) := by
  rcases reclaimOne_cases now j with heq | ⟨heq, -⟩
  · rw [heq]
    exact ⟨rfl, rfl, id⟩
  · rw [heq]
    exact ⟨rfl, rfl, fun _ => rfl⟩

theorem Inv.reclaimStale {s : TenantInstallation} (h : Inv s) (now : ℤ) :
    Inv (reclaimStale s now) := by
  apply h.restatused (restatused_map (reclaimOne_restatused now) s.jobs)
  intro j' hj' hflight
  obtain ⟨j, hj, rfl⟩ := List.mem_map.mp hj'
  rcases reclaimOne_cases now j with heq | ⟨heq, -⟩
  · rw [heq] at hflight ⊢
    exact h.claimed j hj hflight
  · rw [heq] at hflight
    cases hflight

theorem Inv.claimJob {s : TenantInstallation} (h : Inv s) (now : ℤ) : Inv (claimJob s now) := by
  have hreclaimed := h.reclaimStale now
  exact hreclaimed.restatused (claimFirst_restatused now _) (claimFirst_claimed hreclaimed.claimed)

/-! ## Completed jobs -/

section Mark

variable {s : TenantInstallation} {id : ℕ} {job : AgentJob}

/-- The row with the job in its terminal status. -/
def mark (s : TenantInstallation) (id : ℕ) (job : AgentJob) (status : JobStatus) :
    TenantInstallation := { s with jobs := s.jobs.set id { job with status := status } }

theorem mark_keyed (hkeyed : Keyed s) (hjob : s.jobs[id]? = some job) (status : JobStatus) :
    Keyed (mark s id job status) := by
  intro j hj
  rcases List.mem_or_eq_of_mem_set hj with hj | rfl
  · exact hkeyed j hj
  · exact hkeyed job (List.mem_of_getElem? hjob)

theorem mark_claimed (hclaimed : ∀ j ∈ s.jobs, j.status = .inFlight → j.claimedAt ≠ none)
    (status : JobStatus) (hstatus : status ≠ .inFlight) :
    ∀ j ∈ (mark s id job status).jobs, j.status = .inFlight → j.claimedAt ≠ none := by
  intro j hj hflight
  rcases List.mem_or_eq_of_mem_set hj with hj | rfl
  · exact hclaimed j hj hflight
  · exact absurd hflight hstatus

/-- The open jobs of the other kinds stay. -/
theorem mark_hasOpen {kind : JobKind} (h : HasOpen s kind) (hjob : s.jobs[id]? = some job)
    (hkind : job.kind ≠ kind) (status : JobStatus) : HasOpen (mark s id job status) kind := by
  obtain ⟨j, hj, hjkind, hopen⟩ := h
  obtain ⟨front, back, hjobs, hset⟩ := set_split hjob
  refine ⟨j, ?_, hjkind, hopen⟩
  show j ∈ s.jobs.set id { job with status := status }
  rw [hjobs, List.mem_append, List.mem_cons] at hj
  rw [hset, List.mem_append, List.mem_cons]
  rcases hj with hj | rfl | hj
  · exact Or.inl hj
  · exact absurd hjkind hkind
  · exact Or.inr (Or.inr hj)

/-- Marking one job ends no key but its own. -/
theorem mark_keyFinished {key : String} {status : JobStatus}
    (h : KeyFinished (mark s id job status) key) (hkey : job.idempotencyKey ≠ key) :
    KeyFinished s key := by
  obtain ⟨j, hj, hjkey, hclosed⟩ := h
  rcases List.mem_or_eq_of_mem_set hj with hj | rfl
  · exact ⟨j, hj, hjkey, hclosed⟩
  · exact absurd hjkey hkey

theorem key_ne_of_kind_ne (hkeyed : Keyed s) (hjob : s.jobs[id]? = some job) {kind : JobKind}
    {key : String} (hkey : KeyOf kind key) (hkind : job.kind ≠ kind) :
    job.idempotencyKey ≠ key := by
  intro heq
  exact hkind ((heq ▸ hkeyed job (List.mem_of_getElem? hjob)).kind_eq hkey)

theorem Driven.mark {apply : JobKind} (h : Driven s apply) (hkeyed : Keyed s)
    (hjob : s.jobs[id]? = some job) (hwait : job.kind ≠ .waitForReady)
    (happly : job.kind ≠ apply) (status : JobStatus) : Driven (mark s id job status) apply := by
  rcases h with hopen | ⟨hopen, hfree⟩
  · exact Or.inl (mark_hasOpen hopen hjob hwait status)
  · refine Or.inr ⟨mark_hasOpen hopen hjob happly status, ?_⟩
    intro hfin
    exact hfree (mark_keyFinished hfin (key_ne_of_kind_ne hkeyed hjob (keyOf_wait s _ _) hwait))

/-- The success of an apply job leaves its readiness wait to run. -/
theorem hasOpen_wait_of_applied {apply : JobKind} (h : Driven s apply) (hkeyed : Keyed s)
    (hjob : s.jobs[id]? = some job) (hwait : job.kind ≠ .waitForReady) :
    HasOpen (enqueueAgentJob (mark s id job .succeeded) .waitForReady
      (waitKey s apply s.desiredChartVersion)) .waitForReady := by
  have hkey := keyOf_wait s apply s.desiredChartVersion
  rcases h with hopen | ⟨-, hfree⟩
  · exact hasOpen_enqueue_of (mark_hasOpen hopen hjob hwait _)
  · apply hasOpen_enqueueAgentJob (mark_keyed hkeyed hjob _) hkey
    intro hfin
    exact hfree (mark_keyFinished hfin (key_ne_of_kind_ne hkeyed hjob hkey hwait))

end Mark

theorem not_keyFinished_of_kinds {s : TenantInstallation} {kind : JobKind} {key : String}
    (hkeyed : Keyed s) (hkey : KeyOf kind key) (hnone : ∀ j ∈ s.jobs, j.kind ≠ kind) :
    ¬KeyFinished s key := by
  rintro ⟨j, hj, hjkey, -⟩
  exact hnone j hj ((hjkey ▸ hkeyed j hj).kind_eq hkey)

theorem enqueueAgentJob_claimed {s : TenantInstallation} {kind : JobKind} {key : String}
    (h : ∀ j ∈ s.jobs, j.status = .inFlight → j.claimedAt ≠ none) :
    ∀ j ∈ (enqueueAgentJob s kind key).jobs, j.status = .inFlight → j.claimedAt ≠ none := by
  rcases enqueueAgentJob_jobs s kind key with ⟨-, heq⟩ | ⟨-, heq⟩
  · rw [heq]
    exact h
  · rw [heq]
    intro j hj hflight
    rcases List.mem_append.mp hj with hj | hj
    · exact h j hj hflight
    · obtain rfl := List.mem_singleton.mp hj
      cases hflight

@[simp] theorem enqueueAgentJob_state (s : TenantInstallation) (kind : JobKind) (key : String) :
    (enqueueAgentJob s kind key).state = s.state := by
  rcases enqueueAgentJob_jobs s kind key with ⟨-, heq⟩ | ⟨-, heq⟩ <;> rw [heq]

@[simp] theorem enqueueAgentJob_version (s : TenantInstallation) (kind : JobKind) (key : String) :
    (enqueueAgentJob s kind key).desiredChartVersion = s.desiredChartVersion := by
  rcases enqueueAgentJob_jobs s kind key with ⟨-, heq⟩ | ⟨-, heq⟩ <;> rw [heq]

@[simp] theorem waitKey_enqueueAgentJob (s : TenantInstallation) (kind : JobKind) (key : String)
    (apply : JobKind) (version : String) :
    waitKey (enqueueAgentJob s kind key) apply version = waitKey s apply version := by
  rcases enqueueAgentJob_jobs s kind key with ⟨-, heq⟩ | ⟨-, heq⟩
  · rw [heq]
  · rw [heq]
    rfl

/-! ## The steps keep the invariant -/

theorem Inv.advance_preflight {s : TenantInstallation} {id : ℕ} {job : AgentJob} (h : Inv s)
    (hjob : s.jobs[id]? = some job) (hkind : job.kind = .preflight)
    (hstate : s.state = .agentConnected) :
    Inv (enqueueAgentJob { mark s id job .succeeded with state := .provisioning }
      .installHelmRelease (installKey s s.desiredChartRef s.desiredChartVersion)) := by
  have hmarked := mark_keyed h.keyed hjob .succeeded
  have hclaimed : ∀ j ∈ (mark s id job .succeeded).jobs, j.status = .inFlight →
      j.claimedAt ≠ none := mark_claimed h.claimed .succeeded (by decide)
  -- The preflight job is the only one there is.
  have honly : ∀ j ∈ (mark s id job .succeeded).jobs, j.kind = .preflight := by
    obtain ⟨j₀, hone, hkind₀, -⟩ := h.connected hstate
    intro j hj
    rcases List.mem_or_eq_of_mem_set hj with hj | rfl
    · rw [hone] at hj
      rw [List.mem_singleton.mp hj, hkind₀]
    · exact hkind
  have hinstall : ¬KeyFinished (mark s id job .succeeded)
      (installKey s s.desiredChartRef s.desiredChartVersion) :=
    not_keyFinished_of_kinds hmarked (keyOf_install s _ _)
      fun j hj => by rw [honly j hj]; decide
  have hwait : ¬KeyFinished (mark s id job .succeeded)
      (waitKey s .installHelmRelease s.desiredChartVersion) :=
    not_keyFinished_of_kinds hmarked (keyOf_wait s _ _) fun j hj => by rw [honly j hj]; decide
  refine ⟨enqueueAgentJob_keyed hmarked (keyOf_install s _ _), enqueueAgentJob_claimed hclaimed,
    ?_, ?_, ?_, ?_⟩
  · intro hs
    rw [enqueueAgentJob_state] at hs
    cases hs
  · intro hs
    rw [enqueueAgentJob_state] at hs
    cases hs
  · intro _
    refine Or.inr ⟨hasOpen_enqueueAgentJob hmarked (keyOf_install s _ _) hinstall, ?_⟩
    intro hfin
    rw [enqueueAgentJob_version, waitKey_enqueueAgentJob] at hfin
    have hmarked' := keyFinished_of_enqueue hfin
    exact hwait hmarked'
  · intro hs
    rw [enqueueAgentJob_state] at hs
    cases hs

theorem Inv.advance_apply {s : TenantInstallation} {id : ℕ} {job : AgentJob} (h : Inv s)
    (hjob : s.jobs[id]? = some job) (happly : job.kind.applyState = some s.state) :
    Inv (enqueueAgentJob (mark s id job .succeeded) .waitForReady
      (waitKey s job.kind s.desiredChartVersion)) := by
  have hwait : job.kind ≠ .waitForReady := by
    intro hk
    rw [hk] at happly
    cases happly
  have hdriven : Driven s job.kind := by
    cases hk : job.kind with
    | preflight => rw [hk] at happly; cases happly
    | waitForReady => exact absurd hk hwait
    | installHelmRelease =>
      rw [hk] at happly
      exact h.provisioning (Option.some.inj happly).symm
    | upgradeHelmRelease =>
      rw [hk] at happly
      exact h.upgrading (Option.some.inj happly).symm
  have hopen := hasOpen_wait_of_applied hdriven h.keyed hjob hwait
  have hbusy : s.state = .provisioning ∨ s.state = .upgrading := by
    cases hk : job.kind with
    | preflight => rw [hk] at happly; cases happly
    | waitForReady => exact absurd hk hwait
    | installHelmRelease => rw [hk] at happly; exact Or.inl (Option.some.inj happly).symm
    | upgradeHelmRelease => rw [hk] at happly; exact Or.inr (Option.some.inj happly).symm
  refine ⟨enqueueAgentJob_keyed (mark_keyed h.keyed hjob _) (keyOf_wait s _ _),
    enqueueAgentJob_claimed (mark_claimed h.claimed _ (by decide)), ?_, ?_, fun _ => Or.inl hopen,
    fun _ => Or.inl hopen⟩
  · intro hs
    rw [enqueueAgentJob_state] at hs
    have hs' : s.state = .pending := hs
    rw [hs'] at hbusy
    rcases hbusy with hb | hb <;> cases hb
  · intro hs
    rw [enqueueAgentJob_state] at hs
    have hs' : s.state = .agentConnected := hs
    rw [hs'] at hbusy
    rcases hbusy with hb | hb <;> cases hb

/-- A success that the state does not take ends a job nothing depended on. -/
theorem Inv.mark {s : TenantInstallation} {id : ℕ} {job : AgentJob} (h : Inv s)
    (hjob : s.jobs[id]? = some job)
    (hpreflight : ¬(job.kind = .preflight ∧ s.state = .agentConnected))
    (happly : job.kind.applyState ≠ some s.state)
    (hwait : ¬(job.kind = .waitForReady ∧ (s.state = .provisioning ∨ s.state = .upgrading))) :
    Inv (mark s id job .succeeded) := by
  refine ⟨mark_keyed h.keyed hjob _, mark_claimed h.claimed _ (by decide), ?_, ?_, ?_, ?_⟩
  · intro hs
    have hnil := h.fresh hs
    rw [hnil] at hjob
    cases hjob
  · intro hs
    obtain ⟨j, hone, hkind, -⟩ := h.connected hs
    have hmem := List.mem_of_getElem? hjob
    rw [hone, List.mem_singleton] at hmem
    exact absurd ⟨hmem ▸ hkind, hs⟩ hpreflight
  · intro hs
    have hs' : s.state = .provisioning := hs
    apply (h.provisioning hs').mark h.keyed hjob
    · exact fun hk => hwait ⟨hk, Or.inl hs'⟩
    · intro hk
      rw [hk, hs'] at happly
      exact happly rfl
  · intro hs
    have hs' : s.state = .upgrading := hs
    apply (h.upgrading hs').mark h.keyed hjob
    · exact fun hk => hwait ⟨hk, Or.inr hs'⟩
    · intro hk
      rw [hk, hs'] at happly
      exact happly rfl

theorem Inv.completeJob {s : TenantInstallation} (h : Inv s) (id : ℕ) (success built : Bool) :
    Inv (completeJob s id success built) := by
  unfold Agents.completeJob
  cases hjob : s.jobs[id]? with
  | none => exact h
  | some job =>
    dsimp only
    split
    · exact h
    · split
      · show Inv (advance s (Agents.mark s id job .succeeded) job.kind built)
        unfold advance
        split
        · rename_i hpre
          split
          · exact h.advance_preflight hjob hpre.1 hpre.2
          · exact h
        · rename_i hpre
          split
          · rename_i happly
            split
            · exact h.advance_apply hjob happly
            · exact h
          · rename_i happly
            split
            · exact ⟨mark_keyed h.keyed hjob _, mark_claimed h.claimed _ (by decide), nofun, nofun,
                nofun, nofun⟩
            · rename_i hwait
              exact h.mark hjob hpre happly hwait
      · exact ⟨mark_keyed h.keyed hjob .failed, mark_claimed h.claimed .failed (by decide), nofun,
          nofun, nofun, nofun⟩

theorem Inv.register {s : TenantInstallation} (h : Inv s) {dies : Bool}
    (hdies : s.state = .pending → dies = false) : Inv (register s dies) := by
  unfold Agents.register
  split
  · rename_i hstate
    rw [hdies hstate]
    have hnil := h.fresh hstate
    have hone : (enqueueAgentJob { s with state := .agentConnected } .preflight
        (preflightKey s)) = { s with
          state := .agentConnected
          jobs := [{ kind := .preflight, idempotencyKey := preflightKey s }] } := by
      unfold enqueueAgentJob
      simp [hnil]
    show Inv (enqueueAgentJob { s with state := .agentConnected } .preflight (preflightKey s))
    rw [hone]
    refine ⟨?_, ?_, nofun, fun _ => ⟨_, rfl, rfl, rfl⟩, nofun, nofun⟩
    · intro j hj
      obtain rfl := List.mem_singleton.mp hj
      exact keyOf_preflight s
    · intro j hj hflight
      obtain rfl := List.mem_singleton.mp hj
      cases hflight
  · exact h

theorem retryJobs_restatused (js : List AgentJob) :
    Restatused StaysOpen js (js.map fun j =>
      if j.status = .inFlight ∨ j.status = .failed then
        { j with status := .pending, claimedAt := none }
      else j) := by
  apply restatused_map
  intro j
  split
  · exact ⟨rfl, rfl, fun _ => rfl⟩
  · exact ⟨rfl, rfl, id⟩

/-- The statuses behind a retry: what had succeeded, and pending. -/
theorem mem_retryJobs {js : List AgentJob} {j' : AgentJob}
    (h : j' ∈ js.map fun j => if j.status = .inFlight ∨ j.status = .failed then
      { j with status := .pending, claimedAt := none } else j) :
    ∃ j ∈ js, j'.kind = j.kind ∧ j'.idempotencyKey = j.idempotencyKey ∧
      (j'.status = .pending ∨ j'.status = .succeeded ∧ j.status = .succeeded) := by
  obtain ⟨j, hj, rfl⟩ := List.mem_map.mp h
  refine ⟨j, hj, ?_⟩
  cases hs : j.status <;> simp [hs]

theorem Inv.retryInstall {s : TenantInstallation} (h : Inv s) (hleads : Leads s .retryInstall) :
    Inv (retryInstall s) := by
  have hrestatused := retryJobs_restatused s.jobs
  have hclaimed : ∀ j' ∈ s.jobs.map (fun j =>
      if j.status = .inFlight ∨ j.status = .failed then
        { j with status := .pending, claimedAt := none } else j),
      j'.status = .inFlight → j'.claimedAt ≠ none := by
    intro j' hj' hflight
    obtain ⟨j, -, -, -, hp | ⟨hs, -⟩⟩ := mem_retryJobs hj'
    · rw [hp] at hflight
      cases hflight
    · rw [hs] at hflight
      cases hflight
  unfold Agents.retryInstall
  dsimp only
  split
  · rename_i hdegraded
    obtain ⟨hstate, hretried⟩ := hdegraded
    obtain ⟨f, hf⟩ := List.exists_mem_of_ne_nil _ hretried
    have hfailed : ∃ j ∈ s.jobs, j.status = .failed := by
      obtain ⟨hmem, hstatus⟩ := List.mem_filter.mp hf
      exact ⟨f, hmem, by simpa using hstatus⟩
    have hpick : (((s.jobs.filter fun j => j.status = .failed).any
        fun j => j.kind == .upgradeHelmRelease) = true ∨ s.desiredAction = .upgrade) ↔
        (∃ j ∈ s.jobs, j.status = .failed ∧ j.kind = .upgradeHelmRelease) ∨
          s.desiredAction = .upgrade := by
      simp [List.any_eq_true]
    have hdriven : ∀ state, Driven { s with
        state := state
        jobs := s.jobs.map fun j => if j.status = .inFlight ∨ j.status = .failed then
          { j with status := .pending, claimedAt := none } else j } (resumeKind s) := by
      intro state
      have hopen : ∀ k, HasUnsucceeded s k → HasOpen { s with
          state := state
          jobs := s.jobs.map fun j => if j.status = .inFlight ∨ j.status = .failed then
            { j with status := .pending, claimedAt := none } else j } k := by
        rintro k ⟨j, hj, hkind, hns⟩
        refine ⟨_, List.mem_map_of_mem hj, ?_⟩
        cases hs : j.status with
        | succeeded => exact absurd hs hns
        | pending => simp [hs, hkind, JobStatus.isOpen]
        | inFlight => simp [hkind, JobStatus.isOpen]
        | failed => simp [hkind, JobStatus.isOpen]
      rcases hleads hstate hfailed with hwait | ⟨happly, hfree⟩
      · exact Or.inl (hopen _ hwait)
      · refine Or.inr ⟨hopen _ happly, ?_⟩
        rintro ⟨j', hj', hkey, hclosed⟩
        obtain ⟨j, hj, -, hjkey, hp | ⟨-, hs⟩⟩ := mem_retryJobs hj'
        · rw [hp] at hclosed
          cases hclosed
        · exact hfree ⟨j, hj, hjkey ▸ hkey, hs⟩
    unfold resumeKind at hdriven
    refine ⟨hrestatused.keyed h.keyed, hclaimed, ?_, ?_, ?_, ?_⟩
    · intro hs
      dsimp only at hs
      split at hs <;> cases hs
    · intro hs
      dsimp only at hs
      split at hs <;> cases hs
    · intro hs
      dsimp only at hs
      split at hs
      · cases hs
      · rename_i hno
        rw [if_neg (mt hpick.mpr hno)] at hdriven
        exact hdriven _
    · intro hs
      dsimp only at hs
      split at hs
      · rename_i hyes
        rw [if_pos (hpick.mp hyes)] at hdriven
        exact hdriven _
      · cases hs
  · exact h.restatused hrestatused hclaimed

/-- A dispatched upgrade. -/
theorem Inv.dispatch {s : TenantInstallation} (h : Inv s) {ref version : String}
    (hleads : HasOpen s .waitForReady ∨
      (HasOpen s .upgradeHelmRelease ∨ ¬KeyFinished s (upgradeKey s ref version)) ∧
        ¬KeyFinished s (waitKey s .upgradeHelmRelease version)) :
    Inv (enqueueAgentJob { s with
      desiredChartRef := ref, desiredChartVersion := version, desiredAction := .upgrade
      state := .upgrading } .upgradeHelmRelease (upgradeKey s ref version)) := by
  have hkey := keyOf_upgrade s ref version
  refine ⟨enqueueAgentJob_keyed h.keyed hkey, enqueueAgentJob_claimed h.claimed, ?_, ?_, ?_, ?_⟩
  · intro hs
    rw [enqueueAgentJob_state] at hs
    cases hs
  · intro hs
    rw [enqueueAgentJob_state] at hs
    cases hs
  · intro hs
    rw [enqueueAgentJob_state] at hs
    cases hs
  · intro _
    rcases hleads with hwait | ⟨hupgrade, hfree⟩
    · exact Or.inl (hasOpen_enqueue_of hwait)
    · refine Or.inr ⟨?_, ?_⟩
      · rcases hupgrade with hopen | hunfinished
        · exact hasOpen_enqueue_of hopen
        · exact hasOpen_enqueueAgentJob h.keyed hkey hunfinished
      · intro hfin
        rw [enqueueAgentJob_version, waitKey_enqueueAgentJob] at hfin
        have hold := keyFinished_of_enqueue hfin
        exact hfree hold

theorem Inv.issueAgent {s : TenantInstallation} (h : Inv s) {ref version : String} {built : Bool}
    (hleads : Leads s (.issueAgent ref version built)) : Inv (issueAgent s ref version built) := by
  unfold Agents.issueAgent
  split
  · exact h
  · rename_i hmoved
    dsimp only
    split
    · exact h
    · exact h
    · rename_i hstate
      exact ⟨h.keyed, h.claimed, fun _ => h.fresh hstate,
        fun hs => absurd (hs.symm.trans hstate) (by decide),
        fun hs => absurd (hs.symm.trans hstate) (by decide),
        fun hs => absurd (hs.symm.trans hstate) (by decide)⟩
    · rename_i hstate
      exact ⟨h.keyed, h.claimed, fun hs => absurd (hs.symm.trans hstate) (by decide),
        fun _ => h.connected hstate, fun hs => absurd (hs.symm.trans hstate) (by decide),
        fun hs => absurd (hs.symm.trans hstate) (by decide)⟩
    · rename_i hstate
      split
      · rename_i hbuilt
        exact h.dispatch (hleads hmoved hbuilt (Or.inl hstate))
      · exact h
    · rename_i hstate
      split
      · rename_i hbuilt
        exact h.dispatch (hleads hmoved hbuilt (Or.inr hstate))
      · exact h

theorem Inv.step {s : TenantInstallation} (h : Inv s) (o : Op) (hleads : Leads s o) :
    Inv (step s o) := by
  cases o with
  | register dies => exact h.register hleads
  | reclaimStale now => exact h.reclaimStale now
  | claim now => exact h.claimJob now
  | postEvent => exact h
  | complete id success built => exact h.completeJob id success built
  | retryInstall => exact h.retryInstall hleads
  | issueAgent ref version built => exact h.issueAgent hleads

end SocTalk.Agents
