import Mathlib.Data.List.Pairwise
import SocTalk.Provisioning.Platform

/-! In what order the processes render one tenant, and what the last of them comes to. -/
namespace SocTalk.Provisioning.Platform

/-- The process runs a job that may render the tenant, or still runs a helm upgrade of it. -/
def Process.Holds (P : Process) (t : ℕ) : Prop :=
  t ∈ P.upgrades ∨ ∃ run ∈ P.job, run.tenant = t ∧ run.renders

instance (P : Process) (t : ℕ) : Decidable (P.Holds t) := by unfold Process.Holds; infer_instance

/-- A job that renders is claimed by a process that started no earlier than the one that made the
tenant's last render, and while no other process holds the tenant. -/
def orderly (s : State) : Op → Prop
  | .claim p t kind => kind ≠ .decommission →
      (∀ r ∈ (s.tenant t).renders.getLast?, r ≤ p) ∧
        ∀ Q ∈ s.processes, Q.startedAt ≠ p → ¬ Q.Holds t
  | _ => True

instance (s : State) (o : Op) : Decidable (orderly s o) := by
  cases o <;> unfold orderly <;> infer_instance

structure Ordered (s : State) : Prop where
  sorted : ∀ t, (s.tenant t).renders.Pairwise (· ≤ ·)
  behind : ∀ P ∈ s.processes, ∀ t, P.Holds t → ∀ r ∈ (s.tenant t).renders, r ≤ P.startedAt
  alone : ∀ P ∈ s.processes, ∀ Q ∈ s.processes, ∀ t, P.Holds t → Q.Holds t →
    P.startedAt = Q.startedAt

/-- The process's job has rendered the tenant and its event is not committed. -/
def Process.Pends (P : Process) (t : ℕ) (e : HelmApplied) : Prop :=
  ∃ run ∈ P.job, run.tenant = t ∧ run.phase = .rendered e

/-- No render and no new process. -/
structure Still (s s' : State) : Prop where
  clock : s.clock ≤ s'.clock
  started : s'.started = s.started
  renders : ∀ t, (s'.tenant t).renders = (s.tenant t).renders
  known : ∀ P ∈ s'.processes, ∃ Q ∈ s.processes,
    Q.startedAt = P.startedAt ∧ Q.fingerprint = P.fingerprint
  pends : ∀ P ∈ s'.processes, ∀ t e, P.Pends t e → ∃ Q ∈ s.processes, Q.Pends t e
  events : ∀ t, ∀ e ∈ (s'.tenant t).events,
    e ∈ (s.tenant t).events ∨ ∃ Q ∈ s.processes, Q.Pends t e

/-- Nor does a process take hold of a tenant. -/
structure Calm (s s' : State) : Prop extends Still s s' where
  holds : ∀ P ∈ s'.processes, ∀ t, P.Holds t →
    ∃ Q ∈ s.processes, Q.startedAt = P.startedAt ∧ Q.Holds t

theorem Ordered.calm {s s' : State} (h : Ordered s) (hc : Calm s s') : Ordered s' := by
  refine ⟨fun t => ?_, fun P hP t ht r hr => ?_, fun P hP Q hQ t htP htQ => ?_⟩
  · rw [hc.renders]
    exact h.sorted t
  · obtain ⟨P', hP', hstart, hold⟩ := hc.holds P hP t ht
    rw [hc.renders] at hr
    exact hstart ▸ h.behind P' hP' t hold r hr
  · obtain ⟨P', hP', hstartP, holdP⟩ := hc.holds P hP t htP
    obtain ⟨Q', hQ', hstartQ, holdQ⟩ := hc.holds Q hQ t htQ
    rw [← hstartP, ← hstartQ]
    exact h.alone P' hP' Q' hQ' t holdP holdQ

theorem Still.refl (s : State) : Still s s where
  clock := le_rfl
  started := rfl
  renders _ := rfl
  known P hP := ⟨P, hP, rfl, rfl⟩
  pends P hP _ _ h := ⟨P, hP, h⟩
  events _ _ h := Or.inl h

theorem Calm.refl (s : State) : Calm s s := ⟨Still.refl s, fun P hP _ ht => ⟨P, hP, rfl, ht⟩⟩

theorem Still.trans {s s' s'' : State} (h : Still s s') (h' : Still s' s'') : Still s s'' where
  clock := h.clock.trans h'.clock
  started := h'.started.trans h.started
  renders t := (h'.renders t).trans (h.renders t)
  known P hP := by
    obtain ⟨Q, hQ, hstart, hplat⟩ := h'.known P hP
    obtain ⟨R, hR, hstart', hplat'⟩ := h.known Q hQ
    exact ⟨R, hR, hstart'.trans hstart, hplat'.trans hplat⟩
  pends P hP t e he := by
    obtain ⟨Q, hQ, he'⟩ := h'.pends P hP t e he
    exact h.pends Q hQ t e he'
  events t e he := by
    rcases h'.events t e he with he | ⟨Q, hQ, he⟩
    · exact h.events t e he
    · exact Or.inr (h.pends Q hQ t e he)

theorem Calm.trans {s s' s'' : State} (h : Calm s s') (h' : Calm s' s'') : Calm s s'' := by
  refine ⟨h.toStill.trans h'.toStill, fun P hP t ht => ?_⟩
  obtain ⟨Q, hQ, hstart, hold⟩ := h'.holds P hP t ht
  obtain ⟨R, hR, hstart', hold'⟩ := h.holds Q hQ t hold
  exact ⟨R, hR, hstart'.trans hstart, hold'⟩

theorem calm_update {s : State} {t : ℕ} {f : Tenant → Tenant}
    (hf : (f (s.tenant t)).renders = (s.tenant t).renders)
    (he : ∀ e ∈ (f (s.tenant t)).events,
      e ∈ (s.tenant t).events ∨ ∃ Q ∈ s.processes, Q.Pends t e) : Calm s (s.update t f) := by
  refine ⟨⟨le_rfl, rfl, fun u => ?_, fun P hP => ⟨P, hP, rfl, rfl⟩, fun P hP _ _ h => ⟨P, hP, h⟩,
    fun u e hu => ?_⟩, fun P hP _ ht => ⟨P, hP, rfl, ht⟩⟩
  · by_cases hut : u = t
    · subst hut
      rw [update_self]
      exact hf
    · rw [update_of_ne s hut]
  · by_cases hut : u = t
    · subst hut
      rw [update_self] at hu
      exact he e hu
    · rw [update_of_ne s hut] at hu
      exact Or.inl hu

theorem mem_modify {s : State} {p : ℕ} {f : Process → Process} {P : Process}
    (h : P ∈ (s.modify p f).processes) :
    P ∈ s.processes ∨ ∃ Q ∈ s.processes, Q.startedAt = p ∧ P = f Q := by
  obtain ⟨Q, hQ, rfl⟩ := List.mem_map.mp h
  by_cases hp : Q.startedAt = p
  · rw [if_pos hp]
    exact Or.inr ⟨Q, hQ, hp, rfl⟩
  · rw [if_neg hp]
    exact Or.inl hQ

theorem calm_modify {s : State} {p : ℕ} {f : Process → Process}
    (hsame : ∀ P : Process, (f P).startedAt = P.startedAt ∧ (f P).fingerprint = P.fingerprint)
    (hpends : ∀ P ∈ s.processes, P.startedAt = p → ∀ t e, (f P).Pends t e →
      ∃ Q ∈ s.processes, Q.Pends t e)
    (hholds : ∀ P ∈ s.processes, P.startedAt = p → ∀ t, (f P).Holds t →
      ∃ Q ∈ s.processes, Q.startedAt = p ∧ Q.Holds t) : Calm s (s.modify p f) := by
  refine ⟨⟨le_rfl, rfl, fun _ => rfl, fun P hP => ?_, fun P hP t e he => ?_,
    fun _ _ h => Or.inl h⟩, fun P hP t ht => ?_⟩
  · rcases mem_modify hP with hold | ⟨Q, hQ, -, rfl⟩
    · exact ⟨P, hold, rfl, rfl⟩
    · exact ⟨Q, hQ, (hsame Q).1.symm, (hsame Q).2.symm⟩
  · rcases mem_modify hP with hold | ⟨Q, hQ, hp, rfl⟩
    · exact ⟨P, hold, he⟩
    · exact hpends Q hQ hp t e he
  · rcases mem_modify hP with hold | ⟨Q, hQ, hp, rfl⟩
    · exact ⟨P, hold, rfl, ht⟩
    · obtain ⟨R, hR, hstart, hold⟩ := hholds Q hQ hp t ht
      exact ⟨R, hR, hstart.trans (by rw [(hsame Q).1, hp]), hold⟩

/-- A change beside the job and the upgrades. -/
theorem calm_modify_beside {s : State} {p : ℕ} {f : Process → Process}
    (hsame : ∀ P : Process, (f P).startedAt = P.startedAt ∧ (f P).fingerprint = P.fingerprint)
    (hjob : ∀ P : Process, (f P).job = P.job) (hup : ∀ P : Process, (f P).upgrades ⊆ P.upgrades) :
    Calm s (s.modify p f) := by
  refine calm_modify hsame (fun P hP _ t e he => ⟨P, hP, ?_⟩) fun P hP hp t ht => ⟨P, hP, hp, ?_⟩
  · unfold Process.Pends at he
    rwa [hjob] at he
  · unfold Process.Holds at ht
    rw [hjob] at ht
    exact ht.imp (fun hmem => hup P hmem) id

theorem find_spec {s : State} {p : ℕ} {P : Process} (h : s.find p = some P) :
    P ∈ s.processes ∧ P.startedAt = p :=
  ⟨List.mem_of_find?_eq_some h, by simpa using List.find?_some h⟩

/-! ## The jobs -/

theorem onRow_same (run : Running) (f : QueuedJob → Option QueuedJob) (T : Tenant) :
    (onRow run f T).renders = T.renders ∧ (onRow run f T).events = T.events := by
  unfold onRow
  split
  · split <;> exact ⟨rfl, rfl⟩
  · exact ⟨rfl, rfl⟩

theorem calm_enqueue (s : State) (t : ℕ) (kind : JobKind) : Calm s (enqueue s t kind) := by
  unfold enqueue
  split
  · exact Calm.refl s
  · have hupdate : Calm s (s.update t fun T => T.setQueue kind (some ⟨s.minted, 0, 5, none⟩)) :=
      calm_update rfl fun _ he => Or.inl he
    exact ⟨⟨le_rfl, rfl, hupdate.renders, hupdate.known, hupdate.pends, hupdate.events⟩,
      hupdate.holds⟩

theorem calm_leave {s : State} (p : ℕ) (run : Running) {f : Tenant → Tenant}
    (hf : (f (s.tenant run.tenant)).renders = (s.tenant run.tenant).renders)
    (he : ∀ e ∈ (f (s.tenant run.tenant)).events,
      e ∈ (s.tenant run.tenant).events ∨ ∃ Q ∈ s.processes, Q.Pends run.tenant e) :
    Calm s (leave s p run f) := by
  refine (calm_update hf he).trans (calm_modify (fun _ => ⟨rfl, rfl⟩) ?_ ?_)
  · rintro P - - t e ⟨run', hrun', -⟩
    cases hrun'
  · intro P hP hp t ht
    rcases ht with hmem | ⟨run', hrun', -⟩
    · exact ⟨P, hP, hp, Or.inl hmem⟩
    · cases hrun'

/-- The job leaves its row only. -/
theorem calm_leave_row (s : State) (p : ℕ) (run : Running) (f : QueuedJob → Option QueuedJob) :
    Calm s (leave s p run (onRow run f)) := by
  refine calm_leave p run (onRow_same _ _ _).1 fun e he => Or.inl ?_
  rwa [(onRow_same _ _ _).2] at he

section Job

variable {s : State} {p : ℕ} {P : Process} {run : Running}

/-- The job leaves its row, and its tenant in another state. -/
theorem calm_leave_state {g : Tenant → Tenant} (hg : ∀ T, (g T).renders = T.renders ∧
      (g T).events = T.events) (f : QueuedJob → Option QueuedJob) :
    Calm s (leave s p run fun T => onRow run f (g T)) := by
  refine calm_leave p run ((onRow_same _ _ _).1.trans (hg _).1) fun e he => Or.inl ?_
  rwa [(onRow_same _ _ _).2, (hg _).2] at he

/-- The job leaves its row, with its event committed. -/
theorem calm_leave_event (hP : s.find p = some P) (hrun : P.job = some run) {event : HelmApplied}
    (hphase : run.phase = .rendered event) {g : Tenant → Tenant}
    (hg : ∀ T, (g T).renders = T.renders ∧ (g T).events = T.events ++ [event])
    (f : QueuedJob → Option QueuedJob) : Calm s (leave s p run fun T => onRow run f (g T)) := by
  refine calm_leave p run ((onRow_same _ _ _).1.trans (hg _).1) fun e he => ?_
  rw [(onRow_same _ _ _).2, (hg _).2] at he
  rcases List.mem_append.mp he with he | he
  · exact Or.inl he
  · obtain rfl := List.mem_singleton.mp he
    exact Or.inr ⟨P, (find_spec hP).1, run, hrun, rfl, hphase⟩

theorem calm_enter (hP : s.find p = some P) (hrun : P.job = some run) :
    Calm s (enter s p run .loaded) := by
  obtain ⟨hmem, hp⟩ := find_spec hP
  refine calm_modify (fun _ => ⟨rfl, rfl⟩) ?_ ?_
  · rintro Q - - t e ⟨run', hrun', -, hphase⟩
    obtain rfl := Option.some.inj hrun'
    cases hphase
  · intro Q hQ hq t ht
    rcases ht with hup | ⟨run', hrun', htenant, hrenders⟩
    · exact ⟨Q, hQ, hq, Or.inl hup⟩
    · obtain rfl := Option.some.inj hrun'
      exact ⟨P, hmem, hp, Or.inr ⟨run, hrun, htenant, hrenders⟩⟩

theorem calm_load (hP : s.find p = some P) (hrun : P.job = some run) :
    Calm s (load s p run) := by
  have hfail : ∀ terminal, Calm s (leave s p run (recordFailure run terminal)) :=
    fun terminal => calm_leave_row s p run _
  have hdone : Calm s (leave s p run (recordSuccess run)) := calm_leave_row s p run _
  have hload := calm_enter hP hrun
  unfold load
  dsimp only
  split
  · exact hfail true
  · split
    · exact hload
    · split
      · exact hfail false
      · split
        · exact hdone
        · exact hload
    · split
      · exact hdone
      · split
        · exact hfail false
        · split
          · exact hdone
          · exact hload

theorem calm_helmUpgrade (hP : s.find p = some P) (hrun : P.job = some run)
    (hr : run.renders) : Calm s (helmUpgrade s p run) := by
  obtain ⟨hmem, hp⟩ := find_spec hP
  have hold : P.Holds run.tenant := Or.inr ⟨run, hrun, rfl, hr⟩
  refine calm_modify (fun _ => ⟨rfl, rfl⟩) ?_ ?_
  · rintro Q - - t e ⟨run', hrun', -, hphase⟩
    obtain rfl := Option.some.inj hrun'
    cases hphase
  · intro Q hQ hq t ht
    rcases ht with hup | ⟨run', hrun', htenant, -⟩
    · rcases List.mem_cons.mp hup with rfl | hup
      · exact ⟨P, hmem, hp, hold⟩
      · exact ⟨Q, hQ, hq, Or.inl hup⟩
    · obtain rfl := Option.some.inj hrun'
      exact ⟨P, hmem, hp, htenant ▸ hold⟩

theorem calm_succeed (hP : s.find p = some P) (hrun : P.job = some run) :
    Calm s (succeed s p run) := by
  unfold succeed
  split
  · rename_i event _ hphase
    exact calm_leave_event hP hrun hphase
      (g := fun T => { T with events := T.events ++ [event] }) (fun _ => ⟨rfl, rfl⟩) _
  · rename_i event _ hphase
    exact calm_leave_event hP hrun hphase
      (g := fun T => { T with events := T.events ++ [event], state := .active })
      (fun _ => ⟨rfl, rfl⟩) _
  · exact calm_leave_state (g := fun T => { T with state := .archived, deleted := true })
      (fun _ => ⟨rfl, rfl⟩) _
  · exact Calm.refl s

theorem calm_fail (hP : s.find p = some P) (hrun : P.job = some run) : Calm s (fail s p run) := by
  unfold fail
  split
  · exact Calm.refl s
  · exact calm_leave_row s p run _
  · rename_i event hphase _
    exact calm_leave_event hP hrun hphase
      (g := fun T => { T with events := T.events ++ [event], state := .degraded })
      (fun _ => ⟨rfl, rfl⟩) _
  · exact calm_leave_state (g := fun T => { T with state := .degraded }) (fun _ => ⟨rfl, rfl⟩) _

end Job

theorem calm_onJob {s : State} {p : ℕ} {f : Running → State}
    (h : ∀ P run, s.find p = some P → P.job = some run → Calm s (f run)) :
    Calm s (onJob s p f) := by
  unfold onJob
  split
  · rename_i run hrun
    obtain ⟨P, hP, hjob⟩ := Option.bind_eq_some_iff.mp hrun
    exact h P run hP hjob
  · exact Calm.refl s

/-! ## One step -/

/-- What the steps do, but for a new process, a claim and the end of a helm upgrade. -/
theorem calm_step {settings : RollSettings} {stale : ℕ} (s : State) {o : Op}
    (hstart : ∀ fingerprint, o ≠ .start fingerprint) (hclaim : ∀ p t kind, o ≠ .claim p t kind)
    (hupgraded : ∀ p t recorded, o ≠ .upgraded p t recorded) :
    Calm s (step settings stale s o) := by
  cases o with
  | start fingerprint => exact absurd rfl (hstart fingerprint)
  | claim p t kind => exact absurd rfl (hclaim p t kind)
  | upgraded p t recorded => exact absurd rfl (hupgraded p t recorded)
  | tick d =>
    have hrefl := Calm.refl s
    exact ⟨⟨Nat.le_add_right _ _, rfl, hrefl.renders, hrefl.known, hrefl.pends, hrefl.events⟩,
      hrefl.holds⟩
  | stop p =>
    have hsub : ∀ P ∈ (step settings stale s (.stop p)).processes, P ∈ s.processes :=
      fun P hP => (List.mem_filter.mp hP).1
    exact ⟨⟨le_rfl, rfl, fun _ => rfl, fun P hP => ⟨P, hsub P hP, rfl, rfl⟩,
      fun P hP _ _ he => ⟨P, hsub P hP, he⟩, fun _ _ he => Or.inl he⟩,
      fun P hP _ ht => ⟨P, hsub P hP, rfl, ht⟩⟩
  | lifecycle t state deleted =>
    exact calm_update (f := fun T => { T with state := state, deleted := deleted }) rfl
      fun _ he => Or.inl he
  | issueAgent t =>
    exact calm_update (f := fun T => { T with agentManaged := true }) rfl fun _ he => Or.inl he
  | enqueue t kind => exact calm_enqueue s t kind
  | decide p =>
    unfold Platform.step
    dsimp only
    split
    · split
      · exact calm_modify_beside (fun _ => ⟨rfl, rfl⟩) (fun _ => rfl) fun _ _ h => h
      · exact Calm.refl s
    · exact Calm.refl s
  | queue p =>
    unfold Platform.step
    dsimp only
    split
    · exact (calm_enqueue s _ _).trans
        (calm_modify_beside (fun _ => ⟨rfl, rfl⟩) (fun _ => rfl) fun _ _ h => h)
    · exact Calm.refl s
  | load p =>
    refine calm_onJob fun P run hP hrun => ?_
    split
    · exact calm_load hP hrun
    · exact Calm.refl s
  | helmUpgrade p =>
    refine calm_onJob fun P run hP hrun => ?_
    split
    · split
      · rename_i hr
        exact calm_helmUpgrade hP hrun hr
      · exact Calm.refl s
    · exact Calm.refl s
  | upgradeFailed p t =>
    unfold Platform.step
    dsimp only
    split
    · split
      · have hmodify : Calm s (s.modify p fun P => { P with upgrades := P.upgrades.erase t }) :=
          calm_modify_beside (fun _ => ⟨rfl, rfl⟩) (fun _ => rfl) fun _ _ h => List.mem_of_mem_erase h
        refine hmodify.trans (calm_onJob fun P run hP hrun => ?_)
        split
        · split
          · exact calm_fail hP hrun
          · exact Calm.refl _
        · exact Calm.refl _
      · exact Calm.refl s
    · exact Calm.refl s
  | succeed p => exact calm_onJob fun P run hP hrun => calm_succeed hP hrun
  | fail p =>
    refine calm_onJob fun P run hP hrun => ?_
    split
    · exact Calm.refl s
    · exact calm_fail hP hrun
  | abort p => exact calm_onJob fun P run _ _ => calm_leave_row s p run _
  | reclaim t kind =>
    unfold Platform.step
    dsimp only
    unfold Platform.reclaim
    split
    · split
      · split
        · exact calm_update rfl fun _ he => Or.inl he
        · exact Calm.refl s
      · exact Calm.refl s
    · exact Calm.refl s

/-! ## The order -/

theorem le_of_last {p : ℕ} {rs : List ℕ} (hs : rs.Pairwise (· ≤ ·))
    (hlast : ∀ r ∈ rs.getLast?, r ≤ p) : ∀ r ∈ rs, r ≤ p := by
  intro r hr
  have hle := hs.rel_getLast hr
  have hmem : rs.getLast (List.ne_nil_of_mem hr) ∈ rs.getLast? :=
    List.getLast?_eq_some_getLast (List.ne_nil_of_mem hr)
  exact hle.trans (hlast _ hmem)

theorem Ordered.claim {s : State} (h : Ordered s) {p t : ℕ} {kind : JobKind}
    (hc : orderly s (.claim p t kind)) : Ordered (claim s p t kind) := by
  unfold Platform.claim
  split
  · rename_i P job hP hjob
    split
    · obtain ⟨hmem, hp⟩ := find_spec hP
      have hupdate : Calm s (s.update t fun T => T.setQueue kind
          (some { job with attempts := job.attempts + 1, claimedAt := some s.clock })) :=
        calm_update rfl fun _ he => Or.inl he
      have hs := h.calm hupdate
      generalize hs' : s.update t (fun T => T.setQueue kind
          (some { job with attempts := job.attempts + 1, claimedAt := some s.clock })) = s' at *
      have hprocs : s'.processes = s.processes := by rw [← hs']; rfl
      -- A process of the new state holds what it held, or is `p` and holds `t`.
      have hnew : ∀ Q ∈ (s'.modify p fun P => { P with job := some ⟨t, kind, job.id, .claimed⟩ }).processes,
          ∀ u, Q.Holds u → (∃ R ∈ s'.processes, R.startedAt = Q.startedAt ∧ R.Holds u) ∨
            Q.startedAt = p ∧ u = t ∧ kind ≠ .decommission := by
        intro Q hQ u hu
        rcases mem_modify hQ with hold | ⟨R, hR, hr, rfl⟩
        · exact Or.inl ⟨Q, hold, rfl, hu⟩
        · rcases hu with hup | ⟨run, hrun, htenant, hrenders⟩
          · exact Or.inl ⟨R, hR, rfl, Or.inl hup⟩
          · obtain rfl := Option.some.inj hrun
            exact Or.inr ⟨hr, htenant.symm, by simpa [Running.renders] using hrenders⟩
      have hlast : kind ≠ .decommission → ∀ r ∈ (s'.tenant t).renders, r ≤ p := by
        intro hk r hr
        rw [hupdate.renders] at hr
        exact le_of_last (h.sorted t) (hc hk).1 r hr
      have hfree : kind ≠ .decommission → ∀ R ∈ s'.processes, R.Holds t → R.startedAt = p := by
        intro hk R hR hold
        by_contra hne
        exact (hc hk).2 R (hprocs ▸ hR) hne hold
      refine ⟨hs.sorted, ?_, ?_⟩
      · intro Q hQ u hu r hr
        rcases hnew Q hQ u hu with ⟨R, hR, hstart, hold⟩ | ⟨hq, rfl, hk⟩
        · exact hstart ▸ hs.behind R hR u hold r hr
        · exact hq ▸ hlast hk r hr
      · intro Q hQ R hR u hu hu'
        rcases hnew Q hQ u hu with ⟨Q', hQ', hstart, hold⟩ | ⟨hq, rfl, hk⟩
        · rcases hnew R hR u hu' with ⟨R', hR', hstart', hold'⟩ | ⟨hr, rfl, hk⟩
          · rw [← hstart, ← hstart']
            exact hs.alone Q' hQ' R' hR' u hold hold'
          · rw [← hstart, hr]
            exact hfree hk Q' hQ' hold
        · rcases hnew R hR u hu' with ⟨R', hR', hstart', hold'⟩ | ⟨hr, -, -⟩
          · rw [hq, ← hstart']
            exact (hfree hk R' hR' hold').symm
          · rw [hq, hr]
    · exact h
  · exact h

theorem Ordered.upgraded {s : State} (h : Ordered s) {P : Process} (hP : P ∈ s.processes) {t : ℕ}
    (ht : t ∈ P.upgrades) (recorded : Bool) : Ordered (Platform.upgraded s P t recorded) := by
  have hhold : P.Holds t := Or.inl ht
  have hupdate : (Platform.upgraded s P t recorded).tenant =
      (s.update t fun T => { T with renders := T.renders ++ [P.startedAt] }).tenant := rfl
  have hother : ∀ u, u ≠ t →
      ((Platform.upgraded s P t recorded).tenant u).renders = (s.tenant u).renders := by
    intro u hu
    rw [hupdate, update_of_ne s hu]
  have hself : ((Platform.upgraded s P t recorded).tenant t).renders =
      (s.tenant t).renders ++ [P.startedAt] := by
    rw [hupdate, update_self]
  have hnew : ∀ Q ∈ (Platform.upgraded s P t recorded).processes, ∀ u, Q.Holds u →
      ∃ R ∈ s.processes, R.startedAt = Q.startedAt ∧ R.Holds u := by
    intro Q hQ u hu
    rcases mem_modify hQ with hold | ⟨R, hR, hr, rfl⟩
    · exact ⟨Q, hold, rfl, hu⟩
    · rcases hu with hup | ⟨run, hrun, htenant, hrenders⟩
      · exact ⟨R, hR, rfl, Or.inl (List.mem_of_mem_erase hup)⟩
      · obtain ⟨run', hrun', hsame⟩ := Option.map_eq_some_iff.mp hrun
        have hkeep : run'.tenant = run.tenant ∧ run'.renders = run.renders := by
          rw [← hsame]
          split
          · split <;> exact ⟨rfl, rfl⟩
          · exact ⟨rfl, rfl⟩
        exact ⟨P, hP, hr.symm, Or.inr ⟨run', hrun', hkeep.1.trans htenant, hkeep.2 ▸ hrenders⟩⟩
  refine ⟨fun u => ?_, fun Q hQ u hu r hr => ?_, fun Q hQ R hR u hu hu' => ?_⟩
  · by_cases hut : u = t
    · subst hut
      rw [hself, List.pairwise_append]
      refine ⟨h.sorted u, List.pairwise_singleton _ _, fun r hr q hq => ?_⟩
      rw [List.mem_singleton.mp hq]
      exact h.behind P hP u hhold r hr
    · rw [hother u hut]
      exact h.sorted u
  · obtain ⟨Q', hQ', hstart, hold⟩ := hnew Q hQ u hu
    by_cases hut : u = t
    · subst hut
      rw [hself] at hr
      rcases List.mem_append.mp hr with hr | hr
      · exact hstart ▸ h.behind Q' hQ' u hold r hr
      · rw [List.mem_singleton.mp hr, ← hstart]
        exact (h.alone P hP Q' hQ' u hhold hold).le
    · rw [hother u hut] at hr
      exact hstart ▸ h.behind Q' hQ' u hold r hr
  · obtain ⟨Q', hQ', hstart, hold⟩ := hnew Q hQ u hu
    obtain ⟨R', hR', hstart', hold'⟩ := hnew R hR u hu'
    rw [← hstart, ← hstart']
    exact h.alone Q' hQ' R' hR' u hold hold'

theorem Ordered.start {s : State} (h : Ordered s) {settings : RollSettings} {stale fingerprint : ℕ} :
    Ordered (Platform.step settings stale s (.start fingerprint)) := by
  unfold Platform.step
  dsimp only
  split
  · exact h
  · have hnew : ∀ P ∈ s.processes ++ [⟨s.clock + 1, fingerprint, [], none, []⟩], ∀ t, P.Holds t →
        P ∈ s.processes := by
      intro P hP t ht
      rcases List.mem_append.mp hP with hP | hP
      · exact hP
      · rw [List.mem_singleton.mp hP] at ht
        rcases ht with hup | ⟨run, hrun, -⟩
        · cases hup
        · cases hrun
    exact ⟨h.sorted, fun P hP t ht => h.behind P (hnew P hP t ht) t ht,
      fun P hP Q hQ t ht ht' => h.alone P (hnew P hP t ht) Q (hnew Q hQ t ht') t ht ht'⟩

theorem Ordered.step {settings : RollSettings} {stale : ℕ} {s : State} (h : Ordered s) {o : Op}
    (hc : orderly s o) : Ordered (step settings stale s o) := by
  cases o with
  | claim p t kind => exact h.claim hc
  | start fingerprint => exact h.start
  | upgraded p t recorded =>
    unfold Platform.step
    dsimp only
    split
    · rename_i P hP
      split
      · rename_i ht
        exact h.upgraded (find_spec hP).1 ht recorded
      · exact h
    · exact h
  | _ => exact h.calm (calm_step s (by simp) (by simp) (by simp))

/-! ## The record -/

/-- The event was emitted before now, by a render of the tenant, with its process's platform. -/
def Sound (s : State) (t : ℕ) (e : HelmApplied) : Prop :=
  e.timestamp < s.clock ∧ ∀ r ∈ e.record,
    (r.startedAt, r.fingerprint) ∈ s.started ∧ r.startedAt ∈ (s.tenant t).renders

structure Recorded (s : State) : Prop where
  bounded : ∀ q ∈ s.started, q.1 ≤ s.clock
  platforms : ∀ q ∈ s.started, ∀ q' ∈ s.started, q.2 = q'.2 → q.1 = q'.1
  known : ∀ P ∈ s.processes, (P.startedAt, P.fingerprint) ∈ s.started
  rendered : ∀ t, ∀ r ∈ (s.tenant t).renders, ∃ fingerprint, (r, fingerprint) ∈ s.started
  pending : ∀ P ∈ s.processes, ∀ t e, P.Pends t e → Sound s t e
  events : ∀ t, ∀ e ∈ (s.tenant t).events, Sound s t e

theorem Recorded.still {s s' : State} (h : Recorded s) (hs : Still s s') : Recorded s' := by
  have hsound : ∀ t e, Sound s t e → Sound s' t e := by
    intro t e he
    refine ⟨he.1.trans_le hs.clock, fun r hr => ?_⟩
    rw [hs.started, hs.renders]
    exact he.2 r hr
  refine ⟨?_, ?_, fun P hP => ?_, fun t r hr => ?_, fun P hP t e he => ?_, fun t e he => ?_⟩
  · rw [hs.started]
    exact fun q hq => (h.bounded q hq).trans hs.clock
  · rw [hs.started]
    exact h.platforms
  · obtain ⟨Q, hQ, hstart, hplat⟩ := hs.known P hP
    rw [hs.started, ← hstart, ← hplat]
    exact h.known Q hQ
  · rw [hs.renders] at hr
    rw [hs.started]
    exact h.rendered t r hr
  · obtain ⟨Q, hQ, he'⟩ := hs.pends P hP t e he
    exact hsound t e (h.pending Q hQ t e he')
  · rcases hs.events t e he with he | ⟨Q, hQ, he⟩
    · exact hsound t e (h.events t e he)
    · exact hsound t e (h.pending Q hQ t e he)

theorem still_claim (s : State) (p t : ℕ) (kind : JobKind) : Still s (claim s p t kind) := by
  unfold claim
  split
  · rename_i P job _ _
    split
    · have hupdate : Calm s (s.update t fun T => T.setQueue kind
          (some { job with attempts := job.attempts + 1, claimedAt := some s.clock })) :=
        calm_update rfl fun _ he => Or.inl he
      refine hupdate.toStill.trans ⟨le_rfl, rfl, fun _ => rfl, fun Q hQ => ?_, fun Q hQ u e he => ?_,
        fun _ _ h => Or.inl h⟩
      · rcases mem_modify hQ with hold | ⟨R, hR, -, rfl⟩
        · exact ⟨Q, hold, rfl, rfl⟩
        · exact ⟨R, hR, rfl, rfl⟩
      · rcases mem_modify hQ with hold | ⟨R, hR, -, rfl⟩
        · exact ⟨Q, hold, he⟩
        · obtain ⟨run, hrun, -, hphase⟩ := he
          obtain rfl := Option.some.inj hrun
          cases hphase
    · exact Still.refl s
  · exact Still.refl s

theorem Recorded.start {s : State} (h : Recorded s) {settings : RollSettings}
    {stale fingerprint : ℕ} : Recorded (Platform.step settings stale s (.start fingerprint)) := by
  unfold Platform.step
  dsimp only
  split
  · exact h
  · rename_i hfresh
    have hsound : ∀ t e, Sound s t e → Sound
        { s with
          clock := s.clock + 1
          started := s.started ++ [(s.clock + 1, fingerprint)]
          processes := s.processes ++ [⟨s.clock + 1, fingerprint, [], none, []⟩] } t e :=
      fun t e he => ⟨Nat.lt_succ_of_lt he.1, fun r hr =>
        ⟨List.mem_append_left _ (he.2 r hr).1, (he.2 r hr).2⟩⟩
    have hnew : ∀ q ∈ s.started, q.2 ≠ fingerprint := by
      intro q hq heq
      exact hfresh (List.mem_map.mpr ⟨q, hq, heq⟩)
    refine ⟨fun q hq => ?_, fun q hq q' hq' heq => ?_, fun P hP => ?_, fun t r hr => ?_,
      fun P hP t e he => ?_, fun t e he => hsound t e (h.events t e he)⟩
    · rcases List.mem_append.mp hq with hq | hq
      · exact Nat.le_succ_of_le (h.bounded q hq)
      · rw [List.mem_singleton.mp hq]
    · rcases List.mem_append.mp hq with hq | hq
      · rcases List.mem_append.mp hq' with hq' | hq'
        · exact h.platforms q hq q' hq' heq
        · rw [List.mem_singleton.mp hq'] at heq
          exact absurd heq (hnew q hq)
      · rcases List.mem_append.mp hq' with hq' | hq'
        · rw [List.mem_singleton.mp hq] at heq
          exact absurd heq.symm (hnew q' hq')
        · rw [List.mem_singleton.mp hq, List.mem_singleton.mp hq']
    · rcases List.mem_append.mp hP with hP | hP
      · exact List.mem_append_left _ (h.known P hP)
      · rw [List.mem_singleton.mp hP]
        exact List.mem_append_right _ List.mem_cons_self
    · obtain ⟨f, hf⟩ := h.rendered t r hr
      exact ⟨f, List.mem_append_left _ hf⟩
    · rcases List.mem_append.mp hP with hP | hP
      · exact hsound t e (h.pending P hP t e he)
      · rw [List.mem_singleton.mp hP] at he
        obtain ⟨run, hrun, -⟩ := he
        cases hrun

theorem renders_upgraded (s : State) (P : Process) (t : ℕ) (recorded : Bool) (u : ℕ) :
    ((upgraded s P t recorded).tenant u).renders =
      (s.tenant u).renders ++ if u = t then [P.startedAt] else [] := by
  have hupdate : (upgraded s P t recorded).tenant =
      (s.update t fun T => { T with renders := T.renders ++ [P.startedAt] }).tenant := rfl
  rw [hupdate]
  by_cases hu : u = t
  · subst hu
    rw [update_self, if_pos rfl]
  · rw [update_of_ne s hu, if_neg hu, List.append_nil]

theorem events_upgraded (s : State) (P : Process) (t : ℕ) (recorded : Bool) (u : ℕ) :
    ((upgraded s P t recorded).tenant u).events = (s.tenant u).events := by
  have hupdate : (upgraded s P t recorded).tenant =
      (s.update t fun T => { T with renders := T.renders ++ [P.startedAt] }).tenant := rfl
  rw [hupdate]
  by_cases hu : u = t
  · subst hu
    rw [update_self]
  · rw [update_of_ne s hu]

theorem Recorded.upgraded {s : State} (h : Recorded s) {P : Process} (hP : P ∈ s.processes)
    (t : ℕ) (recorded : Bool) : Recorded (Platform.upgraded s P t recorded) := by
  have hsound : ∀ u e, Sound s u e → Sound (Platform.upgraded s P t recorded) u e := by
    intro u e he
    refine ⟨Nat.lt_succ_of_lt he.1, fun r hr => ⟨(he.2 r hr).1, ?_⟩⟩
    rw [renders_upgraded]
    exact List.mem_append_left _ (he.2 r hr).2
  have hevent : Sound (Platform.upgraded s P t recorded) t
      ⟨s.clock, if recorded then some ⟨P.fingerprint, P.startedAt⟩ else none⟩ := by
    refine ⟨Nat.lt_succ_self _, fun r hr => ?_⟩
    cases recorded with
    | false => cases hr
    | true =>
      obtain rfl := Option.some.inj hr
      refine ⟨h.known P hP, ?_⟩
      rw [renders_upgraded, if_pos rfl]
      exact List.mem_append_right _ List.mem_cons_self
  refine ⟨fun q hq => Nat.le_succ_of_le (h.bounded q hq), h.platforms, fun Q hQ => ?_,
    fun u r hr => ?_, fun Q hQ u e he => ?_, fun u e he => hsound u e (h.events u e ?_)⟩
  · rcases mem_modify hQ with hold | ⟨R, hR, -, rfl⟩
    · exact h.known Q hold
    · exact h.known R hR
  · rw [renders_upgraded] at hr
    rcases List.mem_append.mp hr with hr | hr
    · exact h.rendered u r hr
    · split at hr
      · rw [List.mem_singleton.mp hr]
        exact ⟨P.fingerprint, h.known P hP⟩
      · cases hr
  · rcases mem_modify hQ with hold | ⟨R, hR, -, rfl⟩
    · exact hsound u e (h.pending Q hold u e he)
    · obtain ⟨run, hrun, htenant, hphase⟩ := he
      obtain ⟨run', hrun', hsame⟩ := Option.map_eq_some_iff.mp hrun
      have hold : run = run' → Sound (Platform.upgraded s P t recorded) u e := by
        rintro rfl
        exact hsound u e (h.pending P hP u e ⟨run, hrun', htenant, hphase⟩)
      split at hsame
      · split at hsame
        · rename_i ht
          rw [← hsame] at htenant hphase
          have hut : u = t := htenant.symm.trans ht
          have he : e = ⟨s.clock, if recorded then some ⟨P.fingerprint, P.startedAt⟩ else none⟩ :=
            (Phase.rendered.inj hphase).symm
          rw [hut, he]
          exact hevent
        · exact hold hsame.symm
      · exact hold hsame.symm
  · rwa [events_upgraded] at he

theorem Recorded.step {settings : RollSettings} {stale : ℕ} {s : State} (h : Recorded s) (o : Op) :
    Recorded (step settings stale s o) := by
  cases o with
  | claim p t kind => exact h.still (still_claim s p t kind)
  | start fingerprint => exact h.start
  | upgraded p t recorded =>
    unfold Platform.step
    dsimp only
    split
    · rename_i P hP
      split
      · exact h.upgraded (find_spec hP).1 t recorded
      · exact h
    · exact h
  | _ => exact h.still (calm_step s (by simp) (by simp) (by simp)).toStill

/-- A tenant that the newest process finds neither busy nor outdated was last rendered by it. -/
theorem renderedBy_of_not_rolls {s : State} (hr : Recorded s) (ho : Ordered s) {P : Process}
    (hP : P ∈ s.processes) (hnewest : ∀ q ∈ s.started, q.1 ≤ P.startedAt) {t : ℕ}
    (hbusy : (s.tenant t).busy = false) (hrolls : rolls P (s.tenant t) = false) :
    (s.tenant t).renders.getLast? = some P.startedAt := by
  have hle : ∀ r ∈ (s.tenant t).renders, r ≤ P.startedAt := by
    intro r hrt
    obtain ⟨f, hf⟩ := hr.rendered t r hrt
    exact hnewest _ hf
  have hmem : P.startedAt ∈ (s.tenant t).renders := by
    unfold rolls isOutdated renderedByLater at hrolls
    cases hlatest : latestRender (s.tenant t).events with
    | none => simp [hbusy, hlatest] at hrolls
    | some e =>
      have hsound := hr.events t e (List.argmax_mem hlatest)
      cases hrec : e.record with
      | none => simp [hbusy, hlatest, hrec] at hrolls
      | some r =>
        obtain ⟨hstarted, hrender⟩ := hsound.2 r hrec
        have hearly : r.startedAt ≤ P.startedAt := hnewest _ hstarted
        have hplat : r.fingerprint = P.fingerprint := by
          by_contra hne
          simp [hbusy, hlatest, hrec, hne] at hrolls
          omega
        have hsame : r.startedAt = P.startedAt :=
          hr.platforms _ hstarted _ (hr.known P hP) hplat
        rwa [← hsame]
  have hne := List.ne_nil_of_mem hmem
  rw [List.getLast?_eq_some_getLast hne]
  have hlast := (ho.sorted t).rel_getLast hmem
  exact congrArg some (le_antisymm (hle _ (List.getLast_mem hne)) hlast)

end SocTalk.Provisioning.Platform
