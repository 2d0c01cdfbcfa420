import Mathlib.Algebra.Order.BigOperators.Group.Finset
import Mathlib.Data.Finset.Range
import SocTalk.Provisioning.Rollout

/-! What a process's worker has left to do: the attempts left of every job, the tenants that are
still to be rolled, and the phase of its own job. -/
namespace SocTalk.Provisioning.Platform
open scoped BigOperators

/-! ## The foreign key -/

/-- A job's tenant exists. -/
def Referenced (s : State) : Prop := ∀ t, s.tenants ≤ t → ∀ kind, (s.tenant t).queue kind = none

theorem Referenced.lt {s : State} (h : Referenced s) {t : ℕ} {kind : JobKind} {job : QueuedJob}
    (hjob : (s.tenant t).queue kind = some job) : t < s.tenants := by
  by_contra hge
  rw [h t (by omega) kind] at hjob
  cases hjob

theorem Referenced.update {s : State} (h : Referenced s) (t : ℕ) (f : Tenant → Tenant)
    (hf : ∀ kind, (s.tenant t).queue kind = none → (f (s.tenant t)).queue kind = none) :
    Referenced (s.update t f) := by
  intro u hu kind
  by_cases hut : u = t
  · subst hut
    rw [update_self]
    exact hf kind (h u hu kind)
  · rw [update_of_ne s hut]
    exact h u hu kind

theorem setQueue_self (T : Tenant) (kind : JobKind) (job : Option QueuedJob) :
    (T.setQueue kind job).queue kind = job := Function.update_self ..

theorem setQueue_of_ne (T : Tenant) {kind kind' : JobKind} (h : kind' ≠ kind)
    (job : Option QueuedJob) : (T.setQueue kind job).queue kind' = T.queue kind' :=
  Function.update_of_ne h ..

theorem setQueue_none {T : Tenant} {kind kind' : JobKind} {job : QueuedJob} {new : Option QueuedJob}
    (hjob : T.queue kind = some job) (h : T.queue kind' = none) :
    (T.setQueue kind new).queue kind' = none := by
  have hne : kind' ≠ kind := by
    rintro rfl
    rw [h] at hjob
    cases hjob
  rw [setQueue_of_ne T hne]
  exact h

theorem onRow_none {run : Running} {f : QueuedJob → Option QueuedJob} {T : Tenant} {kind : JobKind}
    (h : T.queue kind = none) : (onRow run f T).queue kind = none := by
  unfold onRow
  split
  · rename_i job hjob
    split
    · exact setQueue_none hjob h
    · exact h
  · exact h

theorem Referenced.enqueue {s : State} (h : Referenced s) (t : ℕ) (kind : JobKind) :
    Referenced (enqueue s t kind) := by
  unfold Platform.enqueue
  split
  · exact h
  · rename_i hno
    have hlt : t < s.tenants := by
      by_contra hge
      exact hno (Or.inr (by omega))
    intro u hu kind'
    have hut : u ≠ t := by
      have hsame : s.tenants ≤ u := hu
      omega
    show ((s.update t fun T => T.setQueue kind (some ⟨s.minted, 0, 5, none⟩)).tenant u).queue kind' =
      none
    rw [update_of_ne s hut]
    exact h u hu kind'

theorem Referenced.leave {s : State} (h : Referenced s) (p : ℕ) (run : Running)
    {f : QueuedJob → Option QueuedJob} {g : Tenant → Tenant}
    (hg : ∀ T, (g T).queue = T.queue) :
    Referenced (leave s p run fun T => onRow run f (g T)) := by
  have hupdate : Referenced (s.update run.tenant fun T => onRow run f (g T)) :=
    h.update _ _ fun kind hnone => onRow_none (by rw [hg]; exact hnone)
  exact hupdate

theorem Referenced.onJob {s : State} (h : Referenced s) {p : ℕ} {f : Running → State}
    (hf : ∀ run, Referenced (f run)) : Referenced (onJob s p f) := by
  unfold Platform.onJob
  split
  · exact hf _
  · exact h

theorem Referenced.load {s : State} (h : Referenced s) (p : ℕ) (run : Running) :
    Referenced (load s p run) := by
  have hleave : ∀ f, Referenced (Platform.leave s p run (onRow run f)) :=
    fun f => h.leave p run (g := fun T => T) fun _ => rfl
  have hfail : ∀ terminal, Referenced (Platform.leave s p run (recordFailure run terminal)) :=
    fun terminal => hleave _
  have hdone : Referenced (Platform.leave s p run (recordSuccess run)) := hleave _
  have henter : Referenced (enter s p run .loaded) := h
  unfold Platform.load
  dsimp only
  split
  · exact hfail true
  · split
    · exact henter
    · split
      · exact hfail false
      · split
        · exact hdone
        · exact henter
    · split
      · exact hdone
      · split
        · exact hfail false
        · split
          · exact hdone
          · exact henter

theorem Referenced.succeed {s : State} (h : Referenced s) (p : ℕ) (run : Running) :
    Referenced (succeed s p run) := by
  unfold Platform.succeed
  split
  · rename_i event _ _
    exact h.leave p run (g := fun T => { T with events := T.events ++ [event] }) fun _ => rfl
  · rename_i event _ _
    exact h.leave p run
      (g := fun T => { T with events := T.events ++ [event], state := .active }) fun _ => rfl
  · exact h.leave p run (g := fun T => { T with state := .archived, deleted := true }) fun _ => rfl
  · exact h

theorem Referenced.fail {s : State} (h : Referenced s) (p : ℕ) (run : Running) :
    Referenced (fail s p run) := by
  unfold Platform.fail
  split
  · exact h
  · exact h.leave p run (g := fun T => T) fun _ => rfl
  · rename_i event _ _
    exact h.leave p run
      (g := fun T => { T with events := T.events ++ [event], state := .degraded }) fun _ => rfl
  · exact h.leave p run (g := fun T => { T with state := .degraded }) fun _ => rfl

theorem Referenced.claim {s : State} (h : Referenced s) (p t : ℕ) (kind : JobKind) :
    Referenced (claim s p t kind) := by
  unfold Platform.claim
  split
  · rename_i P job _ hjob
    split
    · have hupdate : Referenced (s.update t fun T => T.setQueue kind
          (some { job with attempts := job.attempts + 1, claimedAt := some s.clock })) :=
        h.update _ _ fun _ hnone => setQueue_none hjob hnone
      exact hupdate
    · exact h
  · exact h

theorem Referenced.reclaim {s : State} (h : Referenced s) (stale t : ℕ) (kind : JobKind) :
    Referenced (reclaim s stale t kind) := by
  unfold Platform.reclaim
  split
  · rename_i job hjob
    split
    · split
      · exact h.update _ _ fun _ hnone => setQueue_none hjob hnone
      · exact h
    · exact h
  · exact h

theorem Referenced.step {settings : RollSettings} {stale : ℕ} {s : State} (h : Referenced s)
    (o : Op) : Referenced (step settings stale s o) := by
  cases o with
  | tick d => exact h
  | start fingerprint =>
    unfold Platform.step
    dsimp only
    split
    · exact h
    · exact h
  | stop p => exact h
  | lifecycle t state deleted =>
    exact h.update t (fun T => { T with state := state, deleted := deleted }) fun _ hnone => hnone
  | issueAgent t =>
    exact h.update t (fun T => { T with agentManaged := true }) fun _ hnone => hnone
  | enqueue t kind => exact h.enqueue t kind
  | decide p =>
    unfold Platform.step
    dsimp only
    split
    · split
      · exact h
      · exact h
    · exact h
  | queue p =>
    unfold Platform.step
    dsimp only
    split
    · exact h.enqueue _ _
    · exact h
  | claim p t kind => exact h.claim p t kind
  | load p =>
    refine h.onJob fun run => ?_
    split
    · exact h.load p run
    · exact h
  | helmUpgrade p =>
    refine h.onJob fun run => ?_
    split
    · split
      · exact h
      · exact h
    · exact h
  | upgraded p t recorded =>
    unfold Platform.step
    dsimp only
    split
    · split
      · rename_i P _ _
        have hupdate : Referenced
            (s.update t fun T => { T with renders := T.renders ++ [P.startedAt] }) :=
          h.update _ _ fun _ hnone => hnone
        exact hupdate
      · exact h
    · exact h
  | upgradeFailed p t =>
    unfold Platform.step
    dsimp only
    split
    · split
      · have hmodify : Referenced (s.modify p fun P => { P with upgrades := P.upgrades.erase t }) := h
        refine hmodify.onJob fun run => ?_
        split
        · split
          · exact hmodify.fail p run
          · exact hmodify
        · exact hmodify
      · exact h
    · exact h
  | succeed p => exact h.onJob fun run => h.succeed p run
  | fail p =>
    refine h.onJob fun run => ?_
    split
    · exact h
    · exact h.fail p run
  | abort p => exact h.onJob fun run => h.leave p run (g := fun T => T) fun _ => rfl
  | reclaim t kind => exact h.reclaim stale t kind

/-! ## What is left to do -/

/-- The process runs the job of this row. -/
def Process.Owns (P : Process) (t : ℕ) (kind : JobKind) (job : QueuedJob) : Prop :=
  ∃ run ∈ P.job, run.tenant = t ∧ run.kind = kind ∧ run.id = job.id

instance (P : Process) (t : ℕ) (kind : JobKind) (job : QueuedJob) :
    Decidable (P.Owns t kind job) := by unfold Process.Owns; infer_instance

/-- A sweep rolls the tenant, unless it is busy. -/
def Process.Due (P : Process) (T : Tenant) : Prop :=
  T.state = .active ∧ T.deleted = false ∧ T.agentManaged = false ∧
    isOutdated (latestRender T.events) P.fingerprint = true ∧
    renderedByLater (latestRender T.events) P.startedAt = false

/-- No reconcile is queued for it either. -/
def Process.Needs (P : Process) (T : Tenant) : Prop := P.Due T ∧ T.queue .reconcile = none

instance (P : Process) (T : Tenant) : Decidable (P.Needs T) := by
  unfold Process.Needs Process.Due
  infer_instance

/-- Every attempt left counts six; a row in the process's own hands has its attempt taken. -/
def rowWeight (P : Process) (t : ℕ) (kind : JobKind) : Option QueuedJob → ℕ
  | none => 0
  | some job =>
    if P.Owns t kind job then
      if job.attempts < job.maxAttempts then 6 * (job.maxAttempts - job.attempts) + 6 else 0
    else 6 * (job.maxAttempts - job.attempts) + if job.claimedAt.isNone then 6 else 7

def rollWeight (P : Process) (T : Tenant) : ℕ := if P.Needs T then 38 else 0

def tenantWeight (P : Process) (t : ℕ) (T : Tenant) : ℕ :=
  rowWeight P t .provision (T.queue .provision) + rowWeight P t .reconcile (T.queue .reconcile) +
    rowWeight P t .decommission (T.queue .decommission) + rollWeight P T

def Phase.weight : Phase → ℕ
  | .claimed => 5
  | .loaded => 4
  | .upgrading => 2
  | .rendered _ => 1

def processWeight (P : Process) : ℕ :=
  (P.job.elim 0 fun run => run.phase.weight) + P.upgrades.length + if P.picked = [] then 1 else 0

def weight (s : State) (P : Process) : ℕ :=
  ∑ t ∈ Finset.range s.tenants, tenantWeight P t (s.tenant t) + processWeight P

/-- Only one term of the sum changes. -/
theorem sum_range_add {F G : ℕ → ℕ} {n t : ℕ} (ht : t < n) (h : ∀ u, u ≠ t → F u = G u) :
    ∑ u ∈ Finset.range n, F u + G t = ∑ u ∈ Finset.range n, G u + F t := by
  have hF := Finset.add_sum_erase (Finset.range n) F (Finset.mem_range.mpr ht)
  have hG := Finset.add_sum_erase (Finset.range n) G (Finset.mem_range.mpr ht)
  have hsame : ∑ u ∈ (Finset.range n).erase t, F u = ∑ u ∈ (Finset.range n).erase t, G u :=
    Finset.sum_congr rfl fun u hu => h u (Finset.ne_of_mem_erase hu)
  omega

/-- The worker's steps change one tenant, and what of the others depends on the job is that it is
not theirs. -/
theorem weight_lt {s s' : State} {P P' : Process} {t : ℕ} (ht : t < s.tenants)
    (htenants : s'.tenants = s.tenants) (hothers : ∀ u, u ≠ t → s'.tenant u = s.tenant u)
    (hsame : ∀ u, u ≠ t → ∀ T, tenantWeight P' u T = tenantWeight P u T)
    (hlt : tenantWeight P' t (s'.tenant t) + processWeight P' <
      tenantWeight P t (s.tenant t) + processWeight P) : weight s' P' < weight s P := by
  have hsum := sum_range_add (F := fun u => tenantWeight P' u (s'.tenant u))
    (G := fun u => tenantWeight P u (s.tenant u)) ht fun u hu => by
      show tenantWeight P' u (s'.tenant u) = tenantWeight P u (s.tenant u)
      rw [hothers u hu, hsame u hu]
  unfold weight
  rw [htenants]
  omega

theorem weight_lt_of_process {s s' : State} {P P' : Process} (htenants : s'.tenants = s.tenants)
    (hsame : ∀ t, tenantWeight P' t (s'.tenant t) = tenantWeight P t (s.tenant t))
    (hlt : processWeight P' < processWeight P) : weight s' P' < weight s P := by
  unfold weight
  rw [htenants, Finset.sum_congr rfl fun t _ => hsame t]
  omega

/-- The weight of a tenant depends on the process's platform, and on its job if it is the
tenant's. -/
theorem tenantWeight_congr (P P' : Process) (hstart : P'.startedAt = P.startedAt)
    (hplat : P'.fingerprint = P.fingerprint) {t : ℕ}
    (hjob : ∀ kind job, P'.Owns t kind job ↔ P.Owns t kind job) (T : Tenant) :
    tenantWeight P' t T = tenantWeight P t T := by
  have hrow : ∀ kind row, rowWeight P' t kind row = rowWeight P t kind row := by
    intro kind row
    cases row with
    | none => rfl
    | some job =>
      unfold rowWeight
      simp only [hjob]
  have hneeds : P'.Needs T ↔ P.Needs T := by
    unfold Process.Needs Process.Due
    rw [hstart, hplat]
  unfold tenantWeight rollWeight
  simp only [hrow, hneeds]

/-! ## A job ends -/

theorem not_owns {P : Process} (hjob : P.job = none) (t : ℕ) (kind : JobKind) (job : QueuedJob) :
    ¬P.Owns t kind job := by
  rintro ⟨run, hrun, -⟩
  rw [hjob] at hrun
  cases hrun

/-- The row goes, or is pending again if an attempt is left. -/
def Returns (f : QueuedJob → Option QueuedJob) : Prop :=
  ∀ job, f job = none ∨ job.attempts < job.maxAttempts ∧ f job = some { job with claimedAt := none }

section Leave

variable {P : Process} {run : Running} {f : QueuedJob → Option QueuedJob}

theorem rowWeight_idle {t : ℕ} {kind : JobKind} {row : Option QueuedJob}
    (h : ∀ job ∈ row, ¬P.Owns t kind job) :
    rowWeight { P with job := none } t kind row = rowWeight P t kind row := by
  cases row with
  | none => rfl
  | some job =>
    unfold rowWeight
    dsimp only
    rw [if_neg (not_owns (P := { P with job := none }) rfl t kind job), if_neg (h job rfl)]

theorem rowWeight_returned (hrun : P.job = some run) (hf : Returns f) {job : QueuedJob}
    (hid : job.id = run.id) :
    rowWeight { P with job := none } run.tenant run.kind (f job) ≤
      rowWeight P run.tenant run.kind (some job) := by
  have howns : P.Owns run.tenant run.kind job := ⟨run, hrun, rfl, rfl, hid.symm⟩
  rcases hf job with hnone | ⟨hlt, hsome⟩
  · rw [hnone]
    exact Nat.zero_le _
  · rw [hsome]
    unfold rowWeight
    dsimp only
    rw [if_neg (not_owns (P := { P with job := none }) rfl _ _ _), if_pos howns, if_pos hlt]
    exact le_rfl

theorem rowWeight_onRow (hrun : P.job = some run) (hf : Returns f) (T : Tenant) (kind : JobKind) :
    rowWeight { P with job := none } run.tenant kind ((onRow run f T).queue kind) ≤
      rowWeight P run.tenant kind (T.queue kind) := by
  have hother : ∀ job ∈ T.queue kind, (kind = run.kind → job.id ≠ run.id) →
      ¬P.Owns run.tenant kind job := by
    rintro job - hid ⟨run', hrun', -, hkind, hid'⟩
    obtain rfl := Option.some.inj (hrun.symm.trans hrun')
    exact hid hkind.symm hid'.symm
  unfold onRow
  split
  · rename_i job hjob
    split
    · rename_i hid
      by_cases hkind : kind = run.kind
      · subst hkind
        rw [hjob, setQueue_self]
        exact rowWeight_returned hrun hf hid
      · rw [setQueue_of_ne T hkind]
        exact (rowWeight_idle fun job' hjob' => hother job' hjob' fun h => absurd h hkind).le
    · rename_i hid
      refine (rowWeight_idle fun job' hjob' => hother job' hjob' fun h => ?_).le
      rw [h, hjob] at hjob'
      obtain rfl := Option.some.inj hjob'
      exact hid
  · rename_i hnone
    refine (rowWeight_idle fun job' hjob' => hother job' hjob' fun h => ?_).le
    rw [h, hnone] at hjob'
    cases hjob'

theorem tenantWeight_onRow (hrun : P.job = some run) (hf : Returns f) {T : Tenant}
    {g : Tenant → Tenant} (hg : (g T).queue = T.queue)
    (hneeds : P.Needs (onRow run f (g T)) → P.Needs T) :
    tenantWeight { P with job := none } run.tenant (onRow run f (g T)) ≤
      tenantWeight P run.tenant T := by
  have hrow : ∀ kind, rowWeight { P with job := none } run.tenant kind
      ((onRow run f (g T)).queue kind) ≤ rowWeight P run.tenant kind (T.queue kind) := by
    intro kind
    rw [← hg]
    exact rowWeight_onRow hrun hf (g T) kind
  have hroll : rollWeight { P with job := none } (onRow run f (g T)) ≤ rollWeight P T := by
    unfold rollWeight
    by_cases hnew : P.Needs (onRow run f (g T))
    · rw [if_pos (hneeds hnew)]
      split
      · exact le_rfl
      · exact Nat.zero_le _
    · have hnew' : ¬({ P with job := none } : Process).Needs (onRow run f (g T)) := hnew
      rw [if_neg hnew']
      exact Nat.zero_le _
  have hprovision := hrow .provision
  have hreconcile := hrow .reconcile
  have hdecommission := hrow .decommission
  unfold tenantWeight
  omega

end Leave

end SocTalk.Provisioning.Platform
