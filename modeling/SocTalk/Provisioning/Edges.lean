import SocTalk.Provisioning.Controller

/-! Which changes of a tenant's state the sessions make, and what the log of lifecycle events
says of them. -/
namespace SocTalk.Provisioning
open ReadCommitted

/-- Every change of state a session makes, from the state it loaded. -/
inductive Change : TenantState → EventType → TenantState → Prop
  | provisioningStarted : Change .pending .provisioningStarted .provisioning
  | retryRequested : Change .degraded .retryRequested .provisioning
  | activated : Change .provisioning .active .active
  | provisioningFailed : Change .provisioning .provisioningFailed .degraded
  | reconcileFailed : Change .active .reconcileFailed .degraded
  | suspended {s} (h : .suspended ∈ VALID_TRANSITIONS s) : Change s .suspended .suspended
  | resumed {s} (h : .active ∈ VALID_TRANSITIONS s) : Change s .resumed .active
  | decommissionStarted {s} (h : hasLeft s = false) : Change s .decommissionStarted .decommissioning
  | archived {s} (h : hasLeft s) : Change s .archived .archived
  | namespaceMissing : Change .active .degradedNamespaceMissing .degraded
  | podsNotReady : Change .active .degradedPodsNotReady .degraded
  | recovered : Change .degraded .recovered .active
  | decommissionDetected {s} (h : s = .active ∨ s = .degraded) :
      Change s .decommissionDetected .decommissioning
  | projected {s} (c : Completion) (h : operatorSet s = false) (hne : s ≠ c.targetState) :
      Change s c.eventType c.targetState

/-- Writes that leave the state alone, and events that report no change of it. Only the cluster
and the repair of a missing namespace write what stands under `p`. -/
def Write.Quiet (p : Prop) : Write → Prop
  | .setState _ => False
  | .event e => e.event.changes = false
  | .setRuntime runtime => runtime.namespaceMissingSince = none ∨ p
  | .cluster _ => p
  | _ => True

/-- What a statement writes, by its label. -/
inductive Shape (p : Prop) : Label → View DB Resource → List Write → Prop
  | transition {v l e t} (h : Change l.state e t) (he : e = .decommissionDetected → p) :
      Shape p (.transition l e t) v (l.transitionWrites e t)
  | heartbeat {v l runtime} (h : runtime.namespaceMissingSince = l.marker) :
      Shape p (.heartbeat l) v [.setRuntime runtime]
  | quiet {lab v ws} (h : ∀ w ∈ ws, Write.Quiet p w) : Shape p lab v ws

section Shaped

variable {p : Prop} {next : Program}

theorem shaped_commit : Shaped (Shape p) commit := trivial

theorem shaped_select {next : View DB Resource → Program} (h : ∀ v, Shaped (Shape p) (next v)) :
    Shaped (Shape p) (select next) := fun v => ⟨.quiet (by simp), h v⟩

theorem shaped_load {next : Loaded → Program} (h : ∀ l, Shaped (Shape p) (next l)) :
    Shaped (Shape p) (load next) := shaped_select fun _ => h _

theorem shaped_quiet {lab : Label} {writes : View DB Resource → List Write}
    {next : View DB Resource → Program} (hw : ∀ v, ∀ w ∈ writes v, w.Quiet p)
    (h : ∀ v, Shaped (Shape p) (next v)) : Shaped (Shape p) (.stmt lab writes next) :=
  fun v => ⟨.quiet (hw v), h v⟩

theorem shaped_execute {ws : List Write} (hw : ∀ w ∈ ws, w.Quiet p) (h : Shaped (Shape p) next) :
    Shaped (Shape p) (execute ws next) := shaped_quiet (fun _ => hw) fun _ => h

theorem quiet_event {l : Loaded} {e : EventType} {t : TenantState} (h : l.state = t) :
    (Write.event (l.entry e t)).Quiet p := by
  show decide (some l.state ≠ some t) = false
  simp [h]

theorem shaped_emitEvent (l : Loaded) (e : EventType) (h : Shaped (Shape p) next) :
    Shaped (Shape p) (emitEvent l e next) := by
  refine shaped_execute ?_ h
  intro w hw
  obtain rfl := List.mem_singleton.mp hw
  exact quiet_event rfl

theorem shaped_transition {l : Loaded} {t : TenantState} {e : EventType} {next : Loaded → Program}
    (hc : Change l.state e t) (he : e = .decommissionDetected → p)
    (h : Shaped (Shape p) (next (l.withState t))) : Shaped (Shape p) (transition l t e next) :=
  fun _ => ⟨.transition hc he, h⟩

theorem shaped_runSteps {outcome : Step → Outcome} {l : Loaded} {failed : EventType}
    (hc : Change l.state failed .degraded) (he : failed = .decommissionDetected → p)
    (h : Shaped (Shape p) next) (steps : List Step) :
    Shaped (Shape p) (runSteps outcome l failed next steps) := by
  induction steps with
  | nil => exact h
  | cons s steps ih =>
    rw [runSteps, Shaped]
    split
    · exact shaped_emitEvent l _ ih
    · exact ih
    · exact shaped_transition hc he trivial

theorem shaped_provision (profile : Profile) (outcome : Step → Outcome) :
    Shaped (Shape p) (provision profile outcome) := by
  have hfrom : ∀ l : Loaded, l.state = .provisioning →
      Shaped (Shape p) (provisionFrom profile outcome l) := by
    intro l hl
    refine shaped_select fun v => ?_
    split
    · exact shaped_emitEvent l _ trivial
    · refine shaped_runSteps (hl ▸ Change.provisioningFailed) (by simp) ?_ _
      unfold finalizeActive
      split
      · trivial
      · exact shaped_transition (hl ▸ Change.activated) (by simp) trivial
  refine shaped_load fun l => ?_
  cases hl : l.state with
  | pending => exact shaped_transition (hl ▸ Change.provisioningStarted) (by simp) (hfrom _ rfl)
  | degraded => exact shaped_transition (hl ▸ Change.retryRequested) (by simp) (hfrom _ rfl)
  | provisioning => exact hfrom l hl
  | _ => trivial

theorem shaped_reconcile (profile : Profile) (outcome : Step → Outcome) (llmTiers : Bool) :
    Shaped (Shape p) (reconcile profile outcome llmTiers) := by
  refine shaped_load fun l => ?_
  split
  · trivial
  · rename_i hl
    have hl : l.state = .active := not_not.mp hl
    refine shaped_select fun v => ?_
    split
    · exact shaped_emitEvent l _ trivial
    · refine shaped_emitEvent l _ (shaped_runSteps (hl ▸ Change.reconcileFailed) (by simp) ?_ _)
      exact shaped_emitEvent l _ trivial

theorem shaped_archive {l : Loaded} (hl : hasLeft l.state) :
    Shaped (Shape p) (transition l .archived .archived fun _ => commit) :=
  shaped_transition (Change.archived hl) (by simp) trivial

theorem shaped_tearDown (fails : Release → Bool) {l : Loaded} (hl : hasLeft l.state)
    (releases : List Release) : Shaped (Shape p) (tearDown fails l releases) := by
  induction releases with
  | nil => exact shaped_quiet (by simp [Write.Quiet]) fun _ => shaped_archive hl
  | cons release releases ih =>
    show Shaped (Shape p) (if fails release then .rollback
      else execute [helmUninstalled l] (tearDown fails l releases))
    split
    · trivial
    · exact shaped_execute (by simp [helmUninstalled, Write.Quiet, LifecycleEvent.changes]) ih

theorem shaped_decommission (fails : Release → Bool) : Shaped (Shape p) (decommission fails) := by
  refine shaped_load fun l => ?_
  split
  · rename_i hl
    exact shaped_tearDown fails hl _
  · rename_i hl
    have hnot : hasLeft l.state = false := by simpa using hl
    exact shaped_transition (Change.decommissionStarted hnot) (by simp) (shaped_tearDown fails rfl _)

theorem shaped_runJob (h : Shaped (Shape p) next) : Shaped (Shape p) (runJob next) := by
  refine shaped_select fun v => ?_
  split
  · trivial
  · exact h

theorem shaped_finalizeArchive {l : Loaded} (hl : sweeps l.state)
    (hp : l.state ≠ .decommissioning → p) : Shaped (Shape p) (finalizeArchive l) := by
  have harchive : ∀ l : Loaded, hasLeft l.state →
      Shaped (Shape p) (if l.tenant.deletedAt = none then
        .stmt .execute (fun v => [.setDeletedAt v.db.cluster.clock]) fun _ =>
        transition l .archived .archived fun _ => commit
      else transition l .archived .archived fun _ => commit : Program) := by
    intro l hl
    split
    · exact shaped_quiet (by simp [Write.Quiet]) fun _ => shaped_archive hl
    · exact shaped_archive hl
  unfold finalizeArchive
  split
  · rename_i hd
    exact harchive l (by simp [hasLeft, hd])
  · rename_i hd
    refine shaped_transition (Change.decommissionDetected ?_) (fun _ => hp hd) (harchive _ rfl)
    simpa [sweeps, hd] using hl

theorem shaped_reconcileMissingNamespace (hp : p) (grace : ℕ) (l : Loaded) :
    Shaped (Shape p) (reconcileMissingNamespace grace l) := by
  refine shaped_execute (by simp [Write.Quiet]) (shaped_quiet (by simp) fun v => ?_)
  split
  · trivial
  · rename_i hguard
    have hl : sweeps l.state := by
      by_contra hno
      exact hguard (by simp [hno])
    dsimp only
    split
    · exact shaped_finalizeArchive hl fun _ => hp
    · split
      · split
        · exact shaped_finalizeArchive hl fun _ => hp
        · trivial
      · refine shaped_execute (by simp [Write.Quiet, hp]) ?_
        split
        · rename_i ha
          have hc : Change l.state .degradedNamespaceMissing .degraded := ha ▸ .namespaceMissing
          exact shaped_transition (l := { l with cluster := v.db.cluster }) hc
            (by simp) trivial
        · trivial

theorem shaped_reconcilePresentNamespace (allReady : Bool) (l : Loaded) :
    Shaped (Shape p) (reconcilePresentNamespace allReady l) := by
  have hclearing : ∀ next : Program, Shaped (Shape p) next → Shaped (Shape p) (if l.marker = none then next
      else execute [.setRuntime { l.tenant.runtime with namespaceMissingSince := none }] next) := by
    intro next hnext
    split
    · exact hnext
    · exact shaped_execute (by simp [Write.Quiet]) hnext
  refine shaped_execute (by simp [Write.Quiet]) (shaped_select fun v => ?_)
  dsimp only
  split
  · trivial
  · split
    · rename_i ha
      split
      · exact hclearing _ (shaped_transition (ha.1 ▸ Change.podsNotReady) (by simp) trivial)
      · exact hclearing _ shaped_commit
    · split
      · rename_i hd
        exact hclearing _ (shaped_transition (hd.1 ▸ Change.recovered) (by simp) trivial)
      · split
        · trivial
        · exact shaped_execute (by simp [Write.Quiet]) shaped_commit

theorem shaped_syncState (hp : p) (grace : ℕ) : Shaped (Shape p) (syncState grace) := by
  refine shaped_load fun l => ?_
  split
  · trivial
  refine shaped_select fun v => ?_
  split
  · trivial
  refine shaped_select fun v => ?_
  split
  · trivial
  split
  · exact shaped_reconcileMissingNamespace hp grace l
  refine shaped_select fun v => ?_
  split
  · trivial
  · exact shaped_reconcilePresentNamespace _ l

theorem shaped_asserted {t : TenantState} {e : EventType}
    (h : ∀ s, t ∈ VALID_TRANSITIONS s → Change s e t) (he : e ≠ .decommissionDetected) :
    Shaped (Shape p) (asserted t e) := by
  refine shaped_load fun l => ?_
  split
  · rename_i ht
    exact shaped_transition (h _ ht) (fun heq => absurd heq he) trivial
  · trivial

theorem shaped_suspend : Shaped (Shape p) suspend :=
  shaped_asserted (fun _ => Change.suspended) (by simp)

theorem shaped_resume : Shaped (Shape p) resume := shaped_asserted (fun _ => Change.resumed) (by simp)

theorem shaped_issueAgent : Shaped (Shape p) (execute [.install] commit) :=
  shaped_execute (by simp [Write.Quiet]) shaped_commit

theorem shaped_heartbeat (version health : String) :
    Shaped (Shape p) (heartbeat version health) :=
  shaped_load fun _ _ => ⟨.heartbeat rfl, shaped_commit⟩

theorem shaped_enqueue (kind : JobKind) (h : Shaped (Shape p) next) :
    Shaped (Shape p) (enqueue kind next) := by
  refine shaped_quiet (fun v w hw => ?_) fun v => ?_
  · split at hw
    · cases hw
    · obtain rfl := List.mem_singleton.mp hw
      trivial
  · split
    · trivial
    · exact h

theorem shaped_decommissionTenant : Shaped (Shape p) decommissionTenant := by
  refine shaped_load fun l => shaped_select fun v => ?_
  have hqueue : Shaped (Shape p)
      (if activeJob v.db .decommission then commit else enqueue .decommission commit) := by
    split
    · trivial
    · exact shaped_enqueue _ trivial
  dsimp only
  split
  · exact hqueue
  · rename_i hl
    exact shaped_transition (Change.decommissionStarted (by simpa using hl)) (by simp) hqueue

theorem shaped_retryProvisioning : Shaped (Shape p) retryProvisioning := by
  refine shaped_load fun l => ?_
  split
  · trivial
  refine shaped_select fun v => ?_
  have hdone : Shaped (Shape p) (emitEvent l .retryRequested commit) := shaped_emitEvent l _ trivial
  dsimp only
  split
  · exact hdone
  split
  · refine shaped_quiet (fun v w hw => ?_) fun v => ?_
    · split at hw
      · cases hw
      · obtain rfl := List.mem_singleton.mp hw
        trivial
    · split
      · trivial
      · exact hdone
  · exact shaped_enqueue _ hdone

theorem shaped_reconcileTenant : Shaped (Shape p) reconcileTenant := by
  refine shaped_load fun l => ?_
  split
  · trivial
  refine shaped_select fun v => ?_
  split
  · trivial
  dsimp only
  split
  · exact shaped_emitEvent l _ trivial
  · exact shaped_enqueue _ (shaped_emitEvent l _ trivial)

theorem shaped_project (c : Completion) : Shaped (Shape p) (projectInstallationStateToTenant c) := by
  refine shaped_load fun l => ?_
  split
  · trivial
  · rename_i hop
    split
    · trivial
    · rename_i hne
      have he : c.eventType ≠ .decommissionDetected := by cases c <;> decide
      exact shaped_transition (Change.projected c (by simpa using hop) hne)
        (fun heq => absurd heq he) trivial

theorem shaped_updateJob (i : ℕ) (applies : ProvisioningJob → Bool)
    (change : ProvisioningJob → ProvisioningJob) : Shaped (Shape p) (updateJob i applies change) := by
  refine shaped_quiet (fun v w hw => ?_) fun _ => trivial
  split at hw
  · split at hw
    · obtain rfl := List.mem_singleton.mp hw
      trivial
    · cases hw
  · cases hw

/-- The repair of a missing namespace and the cluster. -/
def Req.Repairs : Req → Prop
  | .syncState => True
  | .cluster _ => True
  | _ => False

/-- Every statement of every session changes the state by a `Change` of what it loaded, with the
event that says so, or leaves it alone. -/
theorem shaped_serve (grace session : ℕ) (req : Req) (hp : req.Repairs → p) :
    Shaped (Shape p) (serve grace session req) := by
  cases req with
  | enqueue kind => exact shaped_enqueue kind trivial
  | claim i => exact shaped_updateJob i _ _
  | recordSuccess i => exact shaped_updateJob i _ _
  | recordFailure i terminal => exact shaped_updateJob i _ _
  | reclaimStale i => exact shaped_updateJob i _ _
  | provision profile outcome => exact shaped_runJob (shaped_provision profile outcome)
  | reconcile profile llmTiers outcome => exact shaped_runJob (shaped_reconcile _ _ _)
  | decommission fails => exact shaped_runJob (shaped_decommission fails)
  | syncState => exact shaped_syncState (hp trivial) grace
  | suspend => exact shaped_suspend
  | resume => exact shaped_resume
  | decommissionTenant => exact shaped_decommissionTenant
  | retryProvisioning => exact shaped_retryProvisioning
  | reconcileTenant => exact shaped_reconcileTenant
  | issueAgent => exact shaped_issueAgent
  | project c => exact shaped_project c
  | heartbeat version health => exact shaped_heartbeat version health
  | cluster change =>
    refine shaped_quiet (fun _ w hw => ?_) fun _ => trivial
    obtain rfl := List.mem_singleton.mp hw
    exact hp trivial

end Shaped

/-! ## What a statement does to the state and its history -/

theorem applyAll_quiet {p : Prop} {ws : List Write} (h : ∀ w ∈ ws, w.Quiet p) (db : DB) :
    history (store.applyAll ws db) = history db ∧
      (store.applyAll ws db).tenant.state = db.tenant.state := by
  induction ws generalizing db with
  | nil => exact ⟨rfl, rfl⟩
  | cons w ws ih =>
    obtain ⟨hhist, hstate⟩ := ih (fun w' hw' => h w' (List.mem_cons_of_mem w hw')) (w.apply db)
    have hw := h w List.mem_cons_self
    have hone : history (w.apply db) = history db ∧ (w.apply db).tenant.state = db.tenant.state := by
      cases w with
      | setState => exact hw.elim
      | event e =>
        have hq : e.event.changes = false := hw
        refine ⟨?_, rfl⟩
        rw [history_event, hq]
        exact List.append_nil _
      | _ => exact ⟨rfl, rfl⟩
    rw [Store.applyAll_cons]
    exact ⟨hhist.trans hone.1, hstate.trans hone.2⟩

/-- Setting the state that is there writes an event that reports no change. -/
theorem transitionWrites_quiet {l : Loaded} {e : EventType} {t : TenantState} (h : l.state = t) :
    ∀ w ∈ l.transitionWrites e t, w.Quiet True := by
  unfold Loaded.transitionWrites
  rw [if_pos h]
  intro w hw
  obtain rfl := List.mem_singleton.mp hw
  exact quiet_event h

theorem applyAll_transition {l : Loaded} {e : EventType} {t : TenantState} (h : l.state ≠ t)
    (db : DB) : history (store.applyAll (l.transitionWrites e t) db) = history db ++ [l.entry e t] ∧
      (store.applyAll (l.transitionWrites e t) db).tenant.state = t := by
  have hchanges : (l.entry e t).event.changes = true :=
    decide_eq_true (p := some l.state ≠ some t) fun heq => h (Option.some.inj heq)
  have hwrites : l.transitionWrites e t = [.setState t, .event (l.entry e t)] := by
    unfold Loaded.transitionWrites
    rw [if_neg h]
    rfl
  rw [hwrites]
  refine ⟨?_, rfl⟩
  show history ((Write.event (l.entry e t)).apply ((Write.setState t).apply db)) = _
  rw [history_event, hchanges]
  rfl

end SocTalk.Provisioning
