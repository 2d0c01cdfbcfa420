import Mathlib.Algebra.GroupWithZero.Nat
import SocTalk.Agents.Wedge
import Mathlib.Algebra.Order.Group.Nat
import Mathlib.Algebra.Order.BigOperators.Group.List

/-! The agent's successes bring a busy installation to active: each lowers what is left to do,
and there is always one to take. -/
namespace SocTalk.Agents
open Transition

/-- The claims of a job that may still come; one from before `t0` has to turn stale first. -/
def weight (t0 : ℤ) (j : AgentJob) : ℕ :=
  match j.status, j.claimedAt with
  | .pending, _ => 2
  | .inFlight, some c => if t0 ≤ c then 1 else 3
  | .inFlight, none => 3
  | .succeeded, _ => 0
  | .failed, _ => 0

def jobsAhead (t0 : ℤ) (js : List AgentJob) : ℕ := (js.map (weight t0)).sum

/-- A readiness wait that is still to be created. -/
def waitAhead (s : TenantInstallation) (apply : JobKind) : ℕ :=
  if ∃ j ∈ s.jobs, j.idempotencyKey = waitKey s apply s.desiredChartVersion then 0 else 3

def createdAhead (s : TenantInstallation) : ℕ :=
  match s.state with
  | .agentConnected => 6
  | .provisioning => waitAhead s .installHelmRelease
  | .upgrading => waitAhead s .upgradeHelmRelease
  | .pending => 0
  | .active => 0
  | .degraded => 0

def leftToDo (t0 : ℤ) (s : TenantInstallation) : ℕ := jobsAhead t0 s.jobs + createdAhead s

/-! ## Claims -/

theorem weight_reclaimOne {t0 now : ℤ} {j : AgentJob}
    (h : j.status = .inFlight → ∀ c, j.claimedAt = some c → t0 ≤ c →
      now - staleClaimThreshold ≤ c) :
    weight t0 (reclaimOne now j) ≤ weight t0 j := by
  rcases reclaimOne_cases now j with heq | ⟨heq, hflight, c, hclaimed, hstale⟩
  · rw [heq]
  · have hold : ¬t0 ≤ c := by
      intro hc
      have hlive := h hflight c hclaimed hc
      omega
    have hweight : weight t0 j = 3 := by
      simp [weight, hflight, hclaimed, hold]
    rw [heq, hweight]
    simp [weight]

theorem jobsAhead_reclaim {t0 now : ℤ} {js : List AgentJob}
    (h : ∀ j ∈ js, j.status = .inFlight → ∀ c, j.claimedAt = some c → t0 ≤ c →
      now - staleClaimThreshold ≤ c) :
    jobsAhead t0 (js.map (reclaimOne now)) ≤ jobsAhead t0 js := by
  unfold jobsAhead
  rw [List.map_map]
  apply List.sum_le_sum
  intro j hj
  exact weight_reclaimOne (h j hj)

theorem jobsAhead_claimFirst {t0 now : ℤ} (hnow : t0 ≤ now) {js : List AgentJob}
    (h : ∃ j ∈ js, j.status = .pending) : jobsAhead t0 (claimFirst now js) < jobsAhead t0 js := by
  induction js with
  | nil =>
    obtain ⟨j, hj, -⟩ := h
    cases hj
  | cons j js ih =>
    unfold claimFirst
    by_cases hpending : j.status = .pending
    · rw [if_pos hpending]
      have hnew : weight t0 { j with status := .inFlight, claimedAt := some now } = 1 := by
        simp [weight, hnow]
      have hold : weight t0 j = 2 := by
        simp [weight, hpending]
      simp only [jobsAhead, List.map_cons, List.sum_cons, hnew, hold]
      omega
    · rw [if_neg hpending]
      obtain ⟨k, hk, hkpending⟩ := h
      have hrest : ∃ j ∈ js, j.status = .pending := by
        rcases List.mem_cons.mp hk with rfl | hk
        · exact absurd hkpending hpending
        · exact ⟨k, hk, hkpending⟩
      have hlt := ih hrest
      simp only [jobsAhead, List.map_cons, List.sum_cons] at hlt ⊢
      omega

/-- Jobs keep their keys, so what is to be created stays. -/
theorem createdAhead_restatused {R : AgentJob → AgentJob → Prop} {s : TenantInstallation}
    {js' : List AgentJob} (h : Restatused R s.jobs js') :
    createdAhead { s with jobs := js' } = createdAhead s := by
  have hkeys : ∀ key, (∃ j ∈ js', j.idempotencyKey = key) ↔
      ∃ j ∈ s.jobs, j.idempotencyKey = key := by
    intro key
    constructor
    · rintro ⟨j', hj', hkey⟩
      obtain ⟨j, hj, -, hsame, -⟩ := h.mem_new hj'
      exact ⟨j, hj, hsame ▸ hkey⟩
    · rintro ⟨j, hj, hkey⟩
      obtain ⟨j', hj', -, hsame, -⟩ := h.mem_old hj
      exact ⟨j', hj', hsame.trans hkey⟩
  have hwait : ∀ apply, waitAhead { s with jobs := js' } apply = waitAhead s apply := by
    intro apply
    have hiff := hkeys (waitKey s apply s.desiredChartVersion)
    unfold waitAhead
    by_cases hnew : ∃ j ∈ js', j.idempotencyKey = waitKey s apply s.desiredChartVersion
    · rw [if_pos (hiff.mp hnew)]
      exact if_pos hnew
    · rw [if_neg (mt hiff.mpr hnew)]
      exact if_neg hnew
  unfold createdAhead
  rw [hwait, hwait]

theorem leftToDo_claimJob {t0 now : ℤ} {s : TenantInstallation} (hnow : t0 ≤ now)
    (hlive : ∀ j ∈ s.jobs, j.status = .inFlight → ∀ c, j.claimedAt = some c → t0 ≤ c →
      now - staleClaimThreshold ≤ c)
    (hpending : ∃ j ∈ (reclaimStale s now).jobs, j.status = .pending) :
    leftToDo t0 (claimJob s now) < leftToDo t0 s := by
  have hreclaim : jobsAhead t0 (reclaimStale s now).jobs ≤ jobsAhead t0 s.jobs :=
    jobsAhead_reclaim hlive
  have hclaim := jobsAhead_claimFirst hnow hpending
  have hcreated : createdAhead (claimJob s now) = createdAhead s := by
    have hfirst : createdAhead (claimJob s now) = createdAhead (reclaimStale s now) :=
      createdAhead_restatused (s := reclaimStale s now) (claimFirst_restatused now _)
    rw [hfirst]
    exact createdAhead_restatused (restatused_map (reclaimOne_restatused now) s.jobs)
  show jobsAhead t0 (claimFirst now (reclaimStale s now).jobs) + createdAhead (claimJob s now) <
    jobsAhead t0 s.jobs + createdAhead s
  omega

/-! ## Completions -/

section Complete

variable {s : TenantInstallation} {id : ℕ} {job : AgentJob}

theorem weight_inFlight (t0 : ℤ) (h : job.status = .inFlight) : 0 < weight t0 job := by
  unfold weight
  rw [h]
  cases job.claimedAt with
  | none => exact Nat.succ_pos 2
  | some c =>
    dsimp only
    split
    · omega
    · omega

theorem jobsAhead_mark (t0 : ℤ) (hjob : s.jobs[id]? = some job) (hflight : job.status = .inFlight) :
    jobsAhead t0 (mark s id job .succeeded).jobs < jobsAhead t0 s.jobs := by
  obtain ⟨front, back, hjobs, hset⟩ := set_split hjob
  have hold : jobsAhead t0 s.jobs =
      jobsAhead t0 front + (weight t0 job + jobsAhead t0 back) := by
    rw [hjobs]
    simp [jobsAhead]
  have hnew : jobsAhead t0 (mark s id job .succeeded).jobs =
      jobsAhead t0 front + jobsAhead t0 back := by
    show jobsAhead t0 (s.jobs.set id { job with status := .succeeded }) = _
    rw [hset]
    simp [jobsAhead, weight]
  have hpos := weight_inFlight t0 hflight
  omega

theorem jobsAhead_enqueue (t0 : ℤ) (s : TenantInstallation) (kind : JobKind) (key : String) :
    jobsAhead t0 (enqueueAgentJob s kind key).jobs ≤ jobsAhead t0 s.jobs + 2 := by
  rcases enqueueAgentJob_jobs s kind key with ⟨-, heq⟩ | ⟨-, heq⟩
  · rw [heq]
    omega
  · rw [heq]
    simp [jobsAhead, weight]

/-- An enqueue leaves a job with the key, and adds one only if there was none. -/
theorem jobsAhead_enqueue_wait (t0 : ℤ) (s : TenantInstallation) (apply : JobKind) :
    jobsAhead t0 (enqueueAgentJob s .waitForReady
        (waitKey s apply s.desiredChartVersion)).jobs +
      waitAhead (enqueueAgentJob s .waitForReady (waitKey s apply s.desiredChartVersion)) apply ≤
      jobsAhead t0 s.jobs + waitAhead s apply := by
  rcases enqueueAgentJob_jobs s .waitForReady (waitKey s apply s.desiredChartVersion) with
    ⟨-, heq⟩ | ⟨hnone, heq⟩
  · rw [heq]
  · have hold : waitAhead s apply = 3 := by
      apply if_neg
      rintro ⟨j, hj, hkey⟩
      exact hnone j hj hkey
    have hnew : waitAhead (enqueueAgentJob s .waitForReady
        (waitKey s apply s.desiredChartVersion)) apply = 0 := by
      rw [heq]
      apply if_pos
      exact ⟨⟨.waitForReady, waitKey s apply s.desiredChartVersion, .pending, none⟩, by simp, rfl⟩
    have hjobs := jobsAhead_enqueue t0 s .waitForReady (waitKey s apply s.desiredChartVersion)
    omega

theorem createdAhead_mark (hjob : s.jobs[id]? = some job) (status : JobStatus) :
    createdAhead (mark s id job status) = createdAhead s := by
  obtain ⟨front, back, hjobs, hset⟩ := set_split hjob
  have hrestatused : Restatused (fun _ _ => True) s.jobs
      (s.jobs.set id { job with status := status }) := by
    rw [hset, hjobs]
    unfold Restatused
    apply List.rel_append
    · exact restatused_refl (fun _ => trivial) front
    · exact List.Forall₂.cons ⟨rfl, rfl, trivial⟩ (restatused_refl (fun _ => trivial) back)
  exact createdAhead_restatused hrestatused

theorem completeJob_success (hjob : s.jobs[id]? = some job) (hflight : job.status = .inFlight) :
    completeJob s id true true = advance s (mark s id job .succeeded) job.kind true := by
  unfold completeJob
  rw [hjob]
  simp [hflight, JobStatus.isOpen, mark]

theorem leftToDo_enqueue_install (t0 : ℤ) {t : TenantInstallation} (ht : t.state = .provisioning)
    (key : String) :
    leftToDo t0 (enqueueAgentJob t .installHelmRelease key) ≤ jobsAhead t0 t.jobs + 5 := by
  have hjobs := jobsAhead_enqueue t0 t .installHelmRelease key
  have hcreated : createdAhead (enqueueAgentJob t .installHelmRelease key) ≤ 3 := by
    unfold createdAhead
    rw [enqueueAgentJob_state, ht]
    show waitAhead _ _ ≤ 3
    unfold waitAhead
    split
    · omega
    · omega
  unfold leftToDo
  omega

/-- A success leads to active, or keeps the installation busy with less left to do. -/
theorem completeJob_cases (t0 : ℤ) (hbusy : Busy s) (hjob : s.jobs[id]? = some job)
    (hflight : job.status = .inFlight) :
    (completeJob s id true true).state = .active ∨
      Busy (completeJob s id true true) ∧
        leftToDo t0 (completeJob s id true true) < leftToDo t0 s := by
  have hmark := jobsAhead_mark t0 hjob hflight
  have hcreated := createdAhead_mark hjob .succeeded
  rw [completeJob_success hjob hflight]
  unfold advance
  simp only [if_true]
  split
  · -- The preflight job brings the install job, one wait is then still to come.
    rename_i hpre
    refine Or.inr ⟨Or.inr (Or.inl (enqueueAgentJob_state _ _ _)), ?_⟩
    have hleft : createdAhead s = 6 := by
      unfold createdAhead
      rw [hpre.2]
    have hnow := leftToDo_enqueue_install t0
      (t := { mark s id job .succeeded with state := .provisioning }) rfl
      (installKey s s.desiredChartRef s.desiredChartVersion)
    have hsame : jobsAhead t0 s.jobs + createdAhead s = leftToDo t0 s := rfl
    refine lt_of_le_of_lt hnow ?_
    show jobsAhead t0 (mark s id job .succeeded).jobs + 5 < leftToDo t0 s
    omega
  · split
    · rename_i happly
      refine Or.inr ⟨?_, ?_⟩
      · unfold Busy
        rw [enqueueAgentJob_state]
        exact hbusy
      · have hwait := jobsAhead_enqueue_wait t0 (mark s id job .succeeded) job.kind
        have hstate : ∀ t : TenantInstallation, t.state = s.state →
            createdAhead t = waitAhead t job.kind := by
          intro t ht
          unfold createdAhead
          rw [ht]
          cases hkind : job.kind with
          | preflight => rw [hkind] at happly; cases happly
          | waitForReady => rw [hkind] at happly; cases happly
          | installHelmRelease =>
            rw [hkind] at happly
            rw [← Option.some.inj happly]
          | upgradeHelmRelease =>
            rw [hkind] at happly
            rw [← Option.some.inj happly]
        have hmarked : createdAhead (mark s id job .succeeded) =
            waitAhead (mark s id job .succeeded) job.kind := hstate _ rfl
        have hthen := hstate (enqueueAgentJob (mark s id job .succeeded) .waitForReady
          (waitKey s job.kind s.desiredChartVersion)) (enqueueAgentJob_state _ _ _)
        unfold leftToDo
        rw [hthen]
        refine lt_of_le_of_lt hwait ?_
        omega
    · split
      · exact Or.inl rfl
      · refine Or.inr ⟨hbusy, ?_⟩
        unfold leftToDo
        omega

end Complete

/-! ## Every way on leads to active -/

theorem Inv.hasOpenJob {s : TenantInstallation} (h : Inv s) (hbusy : Busy s) : HasOpenJob s := by
  have hdriven : ∀ apply, Driven s apply → HasOpenJob s := by
    intro apply hdriven
    rcases hdriven with ⟨j, hj, -, hopen⟩ | ⟨⟨j, hj, -, hopen⟩, -⟩
    · exact ⟨j, hj, hopen⟩
    · exact ⟨j, hj, hopen⟩
  rcases hbusy with hstate | hstate | hstate
  · obtain ⟨j, hone, -, hopen⟩ := h.connected hstate
    exact ⟨j, by simp [hone], hopen⟩
  · exact hdriven _ (h.provisioning hstate)
  · exact hdriven _ (h.upgrading hstate)

/-- Some time from `t0` on is late enough for every claim to be stale. -/
theorem exists_late (t0 : ℤ) (js : List AgentJob) :
    ∃ now, t0 ≤ now ∧ ∀ j ∈ js, ∀ c, j.claimedAt = some c → c < now - staleClaimThreshold := by
  induction js with
  | nil => exact ⟨t0, le_refl t0, by simp⟩
  | cons j js ih =>
    obtain ⟨now, hnow, hjs⟩ := ih
    cases hclaimed : j.claimedAt with
    | none =>
      refine ⟨now, hnow, ?_⟩
      intro k hk c hc
      rcases List.mem_cons.mp hk with rfl | hk
      · rw [hclaimed] at hc
        cases hc
      · exact hjs k hk c hc
    | some d =>
      refine ⟨max now (d + staleClaimThreshold + 1), by omega, ?_⟩
      intro k hk c hc
      rcases List.mem_cons.mp hk with rfl | hk
      · rw [hclaimed] at hc
        have hcd : d = c := Option.some.inj hc
        omega
      · have hlt := hjs k hk c hc
        omega

theorem Inv.exists_agentActs {s : TenantInstallation} (h : Inv s) (hbusy : Busy s) (t0 : ℤ) :
    ∃ t, AgentActs t0 s t := by
  by_cases hown : ∃ j ∈ s.jobs, j.status = .inFlight ∧ ∃ c, j.claimedAt = some c ∧ t0 ≤ c
  · obtain ⟨j, hj, hflight, c, hclaimed, hc⟩ := hown
    obtain ⟨id, hid⟩ := List.getElem?_of_mem hj
    exact ⟨_, AgentActs.complete id j c hid hflight hclaimed hc⟩
  · -- Whatever is in flight is from before: it turns stale, and a claim is open again.
    obtain ⟨now, hnow, hlate⟩ := exists_late t0 s.jobs
    refine ⟨_, AgentActs.claim now hnow ?_ ?_⟩
    · intro j hj hflight c hclaimed hc
      exact absurd ⟨j, hj, hflight, c, hclaimed, hc⟩ hown
    · obtain ⟨j, hj, hopen⟩ := h.hasOpenJob hbusy
      refine ⟨reclaimOne now j, List.mem_map_of_mem hj, ?_⟩
      cases hstatus : j.status with
      | succeeded => simp [hstatus, JobStatus.isOpen] at hopen
      | failed => simp [hstatus, JobStatus.isOpen] at hopen
      | pending => simp [reclaimOne, hstatus]
      | inFlight =>
        obtain ⟨c, hclaimed⟩ := Option.ne_none_iff_exists'.mp (h.claimed j hj hstatus)
        have hstale := hlate j hj c hclaimed
        simp [reclaimOne, hstatus, hclaimed, hstale]

theorem AgentSucceeds.cases {t0 : ℤ} {s t : TenantInstallation} (hbusy : Busy s)
    (h : AgentSucceeds t0 s t) :
    t.state = .active ∨ Busy t ∧ leftToDo t0 t < leftToDo t0 s := by
  rcases h with hacts | ⟨id, job, hjob, hflight, rfl⟩
  · cases hacts with
    | claim now hnow hlive hpending =>
      exact Or.inr ⟨hbusy, leftToDo_claimJob hnow hlive hpending⟩
    | complete id job c hjob hflight _ _ => exact completeJob_cases t0 hbusy hjob hflight
  · exact completeJob_cases t0 hbusy hjob hflight

theorem Inv.agentSucceeds {t0 : ℤ} {s t : TenantInstallation} (h : Inv s)
    (hsucceeds : AgentSucceeds t0 s t) : Inv t := by
  rcases hsucceeds with hacts | ⟨id, job, -, -, rfl⟩
  · cases hacts with
    | claim now _ _ _ => exact h.claimJob now
    | complete id job c _ _ _ _ => exact h.completeJob id true true
  · exact h.completeJob id true true

theorem Inv.neverWedged {s : TenantInstallation} (h : Inv s) : NeverWedged s := by
  intro hbusy
  refine ⟨h.hasOpenJob hbusy, ?_⟩
  intro t0
  refine Inevitable.of_measure (I := fun s => Inv s ∧ Busy s) (leftToDo t0) ?_ ?_ ⟨h, hbusy⟩
  · rintro s ⟨hinv, hb⟩ _
    exact hinv.exists_agentActs hb t0
  · rintro s t ⟨hinv, hb⟩ _ hsucceeds
    rcases hsucceeds.cases hb with hactive | ⟨hb', hlt⟩
    · exact Or.inl hactive
    · exact Or.inr ⟨⟨hinv.agentSucceeds hsucceeds, hb'⟩, hlt⟩

/-! ## Runs -/

/-- An installation as it is inserted. -/
def created (id ref version : String) : TenantInstallation :=
  { id := id, desiredChartRef := ref, desiredChartVersion := version }

theorem inv_created (id ref version : String) : Inv (created id ref version) where
  keyed := by simp [Keyed, created]
  claimed := by simp [created]
  fresh _ := rfl
  connected := nofun
  provisioning := nofun
  upgrading := nofun

/-- Where every dispatched upgrade and every resumption has a job that leads on, no reachable
installation is wedged. -/
theorem neverWedged_of_leads {id ref version : String} {s : TenantInstallation}
    (hrun : Run step Leads (created id ref version) s) : NeverWedged s := by
  have hinv : Inv s := hrun.inv (fun _ o h hleads => h.step o hleads) (inv_created id ref version)
  exact hinv.neverWedged

instance (s : TenantInstallation) (kind : JobKind) : Decidable (HasOpen s kind) :=
  inferInstanceAs (Decidable (∃ j ∈ s.jobs, j.kind = kind ∧ j.status.isOpen = true))

instance (s : TenantInstallation) (kind : JobKind) : Decidable (HasUnsucceeded s kind) :=
  inferInstanceAs (Decidable (∃ j ∈ s.jobs, j.kind = kind ∧ j.status ≠ .succeeded))

instance (s : TenantInstallation) (key : String) : Decidable (KeyFinished s key) :=
  inferInstanceAs (Decidable (∃ j ∈ s.jobs, j.idempotencyKey = key ∧ j.status.isOpen = false))

instance (s : TenantInstallation) (key : String) : Decidable (KeySucceeded s key) :=
  inferInstanceAs (Decidable (∃ j ∈ s.jobs, j.idempotencyKey = key ∧ j.status = .succeeded))

instance (s : TenantInstallation) : (o : Op) → Decidable (Leads s o)
  | .register dies => inferInstanceAs (Decidable (s.state = .pending → dies = false))
  | .issueAgent ref version built => inferInstanceAs (Decidable
      (¬(s.desiredChartRef = ref ∧ s.desiredChartVersion = version) → built = true →
        s.state = .active ∨ s.state = .degraded →
          HasOpen s .waitForReady ∨
            (HasOpen s .upgradeHelmRelease ∨ ¬KeyFinished s (upgradeKey s ref version)) ∧
              ¬KeyFinished s (waitKey s .upgradeHelmRelease version)))
  | .retryInstall => inferInstanceAs (Decidable
      (s.state = .degraded → (∃ j ∈ s.jobs, j.status = .failed) →
        HasUnsucceeded s .waitForReady ∨ HasUnsucceeded s (resumeKind s) ∧
          ¬KeySucceeded s (waitKey s (resumeKind s) s.desiredChartVersion)))
  | .reclaimStale _ => inferInstanceAs (Decidable True)
  | .claim _ => inferInstanceAs (Decidable True)
  | .postEvent => inferInstanceAs (Decidable True)
  | .complete _ _ _ => inferInstanceAs (Decidable True)

/-- An install, an upgrade that fails and is retried, the agent's pod lost on the way. -/
def upgradeRetried : List Op :=
  [.register false, .claim 0, .complete 0 true true, .claim 1, .complete 1 true true, .claim 2,
    .complete 2 true true, .issueAgent "soctalk" "2" true, .claim 3, .complete 3 false true,
    .retryInstall, .claim 4]

theorem neverWedged_upgradeRetried :
    ∃ s, s.state = .upgrading ∧ NeverWedged s := by
  have hrun : ∃ s, runOps step Leads (created "i" "soctalk" "1") upgradeRetried = some s ∧
      s.state = .upgrading := by
    refine ⟨(runOps step Leads (created "i" "soctalk" "1") upgradeRetried).get (by decide +kernel),
      by simp, by decide +kernel⟩
  obtain ⟨s, hops, hstate⟩ := hrun
  exact ⟨s, hstate, neverWedged_of_leads (Run.of_runOps hops)⟩

/-- Up to version 2, back to version 1, and to version 2 again. -/
def upgradedAgain : List Op :=
  [.register false, .claim 0, .complete 0 true true, .claim 1, .complete 1 true true, .claim 2,
    .complete 2 true true, .issueAgent "soctalk" "2" true, .claim 3, .complete 3 true true,
    .claim 4, .complete 4 true true, .issueAgent "soctalk" "1" true, .claim 5,
    .complete 5 true true, .claim 6, .complete 6 true true, .issueAgent "soctalk" "2" true]

/-- The second upgrade to version 2 finds its key taken by the first: nothing is left to run. -/
theorem wedged_upgradedAgain :
    ¬∀ ops : List Op, NeverWedged (ops.foldl step (created "i" "soctalk" "1")) := by
  intro h
  have hbusy : Busy (upgradedAgain.foldl step (created "i" "soctalk" "1")) :=
    Or.inr (Or.inr (by decide +kernel))
  obtain ⟨⟨j, hj, hopen⟩, -⟩ := h upgradedAgain hbusy
  have hnone : ∀ j ∈ (upgradedAgain.foldl step (created "i" "soctalk" "1")).jobs,
      j.status.isOpen = false := by decide +kernel
  rw [hnone j hj] at hopen
  cases hopen

end SocTalk.Agents
