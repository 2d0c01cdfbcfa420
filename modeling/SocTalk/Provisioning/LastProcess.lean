import SocTalk.Provisioning.Backlog

/-! The newest process, alone: what each step of its worker leaves to do. -/
namespace SocTalk.Provisioning.Platform

/-- Between two jobs, with no sweep under way. -/
def Process.Idle (P : Process) : Prop := P.job = none ∧ P.picked = []

/-- How far the process's job has come. -/
def Process.At (P : Process) (s : State) (run : Running) : Prop :=
  match run.phase with
  | .claimed => True
  | .loaded => True
  | .upgrading => run.renders ∧ run.tenant ∈ P.upgrades
  | .rendered event => run.renders ∧ event.record = some ⟨P.fingerprint, P.startedAt⟩ ∧
      ∀ e ∈ (s.tenant run.tenant).events, e.timestamp < event.timestamp

/-- The newest process alone, past its grace period; what is in flight is its job or stale. -/
structure Working (settings : RollSettings) (stale : ℕ) (s : State) (P : Process) : Prop where
  ordered : Ordered s
  recorded : Recorded s
  referenced : Referenced s
  processes : s.processes = [P]
  newest : ∀ q ∈ s.started, q.1 ≤ P.startedAt
  enabled : settings.enabled = true
  uptime : P.startedAt + settings.grace ≤ s.clock
  stranded : ∀ t kind job, (s.tenant t).queue kind = some job → ∀ c, job.claimedAt = some c →
    P.Owns t kind job ∨ c + stale < s.clock
  running : ∀ run ∈ P.job, P.picked = [] ∧ run.tenant < s.tenants ∧ P.At s run
  distinct : P.picked.Nodup
  picked : ∀ t ∈ P.picked, t < s.tenants ∧ P.Needs (s.tenant t)

theorem modify_single {s : State} {P : Process} (h : s.processes = [P]) (f : Process → Process) :
    (s.modify P.startedAt f).processes = [f P] := by
  simp [State.modify, h]

theorem find_single {s : State} {P : Process} (h : s.processes = [P]) :
    s.find P.startedAt = some P := by
  simp [State.find, h]

theorem onJob_single {s : State} {P : Process} (h : s.processes = [P]) {run : Running}
    (hrun : P.job = some run) (f : Running → State) : onJob s P.startedAt f = f run := by
  simp [onJob, find_single h, hrun]

/-- The step is taken, and lowers the weight. -/
def Lowers (settings : RollSettings) (stale : ℕ) (s : State) (P : Process) (s' : State) : Prop :=
  ∃ P', P'.startedAt = P.startedAt ∧ Working settings stale s' P' ∧ weight s' P' < weight s P

section Working

variable {settings : RollSettings} {stale : ℕ} {s : State} {P : Process}

theorem Working.claim_orderly (h : Working settings stale s P) (t : ℕ) (kind : JobKind) :
    orderly s (.claim P.startedAt t kind) := by
  intro _
  refine ⟨fun r hr => ?_, fun Q hQ hne => ?_⟩
  · obtain ⟨fingerprint, hstarted⟩ := h.recorded.rendered t r (List.mem_of_getLast? hr)
    exact h.newest _ hstarted
  · rw [h.processes] at hQ
    exact absurd (congrArg Process.startedAt (List.mem_singleton.mp hQ)) hne

/-- The jobs, and what has been picked, as a step leaves them. -/
theorem Working.next (h : Working settings stale s P) {o : Op} (ho : orderly s o) {s' : State}
    (hs : step settings stale s o = s') {P' : Process} (hprocesses : s'.processes = [P'])
    (hstart : P'.startedAt = P.startedAt) (hstarted : s'.started = s.started)
    (hclock : s.clock ≤ s'.clock)
    (hstranded : ∀ t kind job, (s'.tenant t).queue kind = some job → ∀ c, job.claimedAt = some c →
      P'.Owns t kind job ∨ c + stale < s'.clock)
    (hrunning : ∀ run ∈ P'.job, P'.picked = [] ∧ run.tenant < s'.tenants ∧ P'.At s' run)
    (hdistinct : P'.picked.Nodup)
    (hpicked : ∀ t ∈ P'.picked, t < s'.tenants ∧ P'.Needs (s'.tenant t)) :
    Working settings stale s' P' where
  ordered := hs ▸ h.ordered.step ho
  recorded := hs ▸ h.recorded.step o
  referenced := hs ▸ h.referenced.step o
  processes := hprocesses
  newest := by
    rw [hstarted, hstart]
    exact h.newest
  enabled := h.enabled
  uptime := by
    rw [hstart]
    exact h.uptime.trans hclock
  stranded := hstranded
  running := hrunning
  distinct := hdistinct
  picked := hpicked

theorem onRow_row {run : Running} {f : QueuedJob → Option QueuedJob} (hf : Returns f) {T : Tenant}
    {kind : JobKind} {job : QueuedJob} (h : (onRow run f T).queue kind = some job) :
    job.claimedAt = none ∨ T.queue kind = some job ∧ (kind = run.kind → job.id ≠ run.id) := by
  unfold onRow at h
  split at h
  · rename_i old hold
    split at h
    · by_cases hkind : kind = run.kind
      · subst hkind
        rw [setQueue_self] at h
        rcases hf old with hnone | ⟨-, hsome⟩
        · rw [hnone] at h
          cases h
        · rw [hsome] at h
          exact Or.inl (by rw [← Option.some.inj h])
      · rw [setQueue_of_ne T hkind] at h
        exact Or.inr ⟨h, fun hk => absurd hk hkind⟩
    · rename_i hid
      refine Or.inr ⟨h, fun hk => ?_⟩
      rw [hk, hold] at h
      obtain rfl := Option.some.inj h
      exact hid
  · rename_i hnone
    refine Or.inr ⟨h, fun hk => ?_⟩
    rw [hk, hnone] at h
    cases h

theorem Working.leave (h : Working settings stale s P) {run : Running} (hrun : P.job = some run)
    {f : QueuedJob → Option QueuedJob} (hf : Returns f) {g : Tenant → Tenant}
    (hg : ∀ T, (g T).queue = T.queue)
    (hneeds : P.Needs (onRow run f (g (s.tenant run.tenant))) → P.Needs (s.tenant run.tenant))
    {o : Op} (ho : orderly s o)
    (hs : step settings stale s o = Platform.leave s P.startedAt run fun T => onRow run f (g T)) :
    Lowers settings stale s P (step settings stale s o) := by
  obtain ⟨hpicked, hlt, -⟩ := h.running run hrun
  rw [hs]
  have hself : (Platform.leave s P.startedAt run fun T => onRow run f (g T)).tenant run.tenant =
      onRow run f (g (s.tenant run.tenant)) :=
    update_self s run.tenant fun T => onRow run f (g T)
  have hothers : ∀ u, u ≠ run.tenant →
      (Platform.leave s P.startedAt run fun T => onRow run f (g T)).tenant u = s.tenant u :=
    fun u hu => update_of_ne s hu fun T => onRow run f (g T)
  have hnotowned : ∀ u kind job, u ≠ run.tenant → ¬P.Owns u kind job := by
    rintro u kind job hu ⟨run', hrun', htenant, -⟩
    obtain rfl := Option.some.inj (hrun.symm.trans hrun')
    exact hu htenant.symm
  have hprocesses := modify_single (s := s.update run.tenant fun T => onRow run f (g T))
    h.processes fun Q => { Q with job := none }
  refine ⟨{ P with job := none }, rfl, h.next ho hs hprocesses rfl rfl le_rfl ?_ nofun ?_ ?_, ?_⟩
  · intro t kind job hjob c hc
    by_cases ht : t = run.tenant
    · subst ht
      rw [hself] at hjob
      rcases onRow_row hf hjob with hnone | ⟨hold, hid⟩
      · rw [hnone] at hc
        cases hc
      · rw [hg] at hold
        refine (h.stranded _ kind job hold c hc).imp_left ?_
        rintro ⟨run', hrun', -, hkind, hid'⟩
        obtain rfl := Option.some.inj (hrun.symm.trans hrun')
        exact absurd hid'.symm (hid hkind.symm)
    · rw [hothers t ht] at hjob
      exact (h.stranded t kind job hjob c hc).imp_left fun howns =>
        absurd howns (hnotowned t kind job ht)
  · rw [hpicked]
    exact List.nodup_nil
  · rw [hpicked]
    nofun
  · refine weight_lt hlt rfl hothers (fun u hu T => ?_) ?_
    · refine tenantWeight_congr P { P with job := none } rfl rfl (fun kind job => ?_) T
      exact iff_of_false (not_owns rfl u kind job) (hnotowned u kind job hu)
    · rw [hself]
      have htenant := tenantWeight_onRow hrun hf (hg _) hneeds
      have hphase : 0 < run.phase.weight := by
        cases run.phase <;> exact Nat.succ_pos _
      have hprocess : processWeight { P with job := none } + run.phase.weight = processWeight P := by
        simp only [processWeight, hrun, Option.elim]
        omega
      omega

/-- A step that leaves the tenants but for their renders. -/
theorem Working.stays (h : Working settings stale s P) {o : Op} (ho : orderly s o) {s' : State}
    (hs : step settings stale s o = s') {P' : Process} (hprocesses : s'.processes = [P'])
    (hstart : P'.startedAt = P.startedAt) (hplat : P'.fingerprint = P.fingerprint)
    (hstarted : s'.started = s.started) (hclock : s.clock ≤ s'.clock)
    (htenants : s'.tenants = s.tenants)
    (hsame : ∀ t, ∃ renders, s'.tenant t = { s.tenant t with renders := renders })
    (howns : ∀ t kind job, P'.Owns t kind job ↔ P.Owns t kind job)
    (hrunning : ∀ run ∈ P'.job, P'.picked = [] ∧ run.tenant < s.tenants ∧ P'.At s' run)
    (hdistinct : P'.picked.Nodup)
    (hpicked : ∀ t ∈ P'.picked, t < s.tenants ∧ P'.Needs (s.tenant t))
    (hlt : processWeight P' < processWeight P) :
    Lowers settings stale s P (step settings stale s o) := by
  rw [hs]
  refine ⟨P', hstart, h.next ho hs hprocesses hstart hstarted hclock ?_ ?_ hdistinct ?_, ?_⟩
  · intro t kind job hjob c hc
    obtain ⟨renders, ht⟩ := hsame t
    rw [ht] at hjob
    rcases h.stranded t kind job hjob c hc with howned | hstale
    · exact Or.inl ((howns t kind job).mpr howned)
    · exact Or.inr (hstale.trans_le hclock)
  · rw [htenants]
    exact hrunning
  · intro t ht
    obtain ⟨renders, hrenders⟩ := hsame t
    rw [htenants, hrenders]
    exact hpicked t ht
  · refine weight_lt_of_process htenants (fun t => ?_) hlt
    obtain ⟨renders, hrenders⟩ := hsame t
    rw [hrenders, tenantWeight_congr P P' hstart hplat (howns t)]
    rfl

theorem due_onRow (P : Process) (run : Running) (f : QueuedJob → Option QueuedJob) (T : Tenant) :
    P.Due (onRow run f T) ↔ P.Due T := by
  unfold onRow
  split
  · split
    · rfl
    · rfl
  · rfl

theorem needs_onRow {run : Running} (hkind : run.kind ≠ .reconcile)
    {f : QueuedJob → Option QueuedJob} {T : Tenant} (h : P.Needs (onRow run f T)) : P.Needs T := by
  refine ⟨(due_onRow P run f T).mp h.1, ?_⟩
  have hqueue := h.2
  unfold onRow at hqueue
  split at hqueue
  · split at hqueue
    · rwa [setQueue_of_ne T (Ne.symm hkind)] at hqueue
    · exact hqueue
  · exact hqueue

theorem returns_success : Returns fun _ => none := fun _ => Or.inl rfl

theorem returns_failure (terminal : Bool) : Returns fun job =>
    if terminal || job.maxAttempts ≤ job.attempts then none
    else some { job with claimedAt := none } := by
  intro job
  dsimp only
  split
  · exact Or.inl rfl
  · rename_i hno
    refine Or.inr ⟨?_, rfl⟩
    simp only [Bool.or_eq_true, decide_eq_true_eq, not_or] at hno
    omega

/-- A job that ends before its steps leaves a tenant that is not due, or is no reconcile. -/
theorem Working.leave_row (h : Working settings stale s P) {run : Running}
    (hrun : P.job = some run) {f : QueuedJob → Option QueuedJob} (hf : Returns f)
    (hdue : run.kind = .reconcile → ¬P.Due (s.tenant run.tenant)) {o : Op} (ho : orderly s o)
    (hs : step settings stale s o = Platform.leave s P.startedAt run (onRow run f)) :
    Lowers settings stale s P (step settings stale s o) := by
  refine h.leave hrun hf (g := fun T => T) (fun _ => rfl) (fun hneeds => ?_) ho hs
  by_cases hkind : run.kind = .reconcile
  · exact absurd ((due_onRow P run f _).mp hneeds.1) (hdue hkind)
  · exact needs_onRow hkind hneeds

theorem Working.enter (h : Working settings stale s P) {run : Running} (hrun : P.job = some run)
    (hphase : run.phase = .claimed) {o : Op} (ho : orderly s o)
    (hs : step settings stale s o = Platform.enter s P.startedAt run .loaded) :
    Lowers settings stale s P (step settings stale s o) := by
  obtain ⟨hpicked, hlt, -⟩ := h.running run hrun
  refine h.stays ho hs (modify_single h.processes _) rfl rfl rfl le_rfl rfl
    (fun t => ⟨_, rfl⟩) ?_ ?_ h.distinct h.picked ?_
  · intro t kind job
    simp [Process.Owns, hrun]
  · intro run' hrun'
    obtain rfl := Option.some.inj hrun'
    exact ⟨hpicked, hlt, trivial⟩
  · simp only [processWeight, hrun, Option.elim, hphase, Phase.weight]
    omega

theorem load_cases (s : State) (p : ℕ) (run : Running) :
    (∃ terminal, load s p run = leave s p run (recordFailure run terminal) ∧
      (run.kind = .reconcile → (s.tenant run.tenant).state ≠ .active)) ∨
    (load s p run = leave s p run (recordSuccess run) ∧
      (run.kind = .reconcile → (s.tenant run.tenant).agentManaged = true)) ∨
    load s p run = enter s p run .loaded := by
  unfold load
  dsimp only
  split
  · rename_i hgone
    refine Or.inl ⟨true, rfl, fun _ hactive => ?_⟩
    rcases hgone with hstate | hstate
    · rw [hactive] at hstate
      cases hstate
    · rw [hactive] at hstate
      cases hstate
  · split
    · exact Or.inr (Or.inr rfl)
    · split
      · rename_i hactive
        exact Or.inl ⟨false, rfl, fun _ => hactive⟩
      · split
        · rename_i hmanaged
          exact Or.inr (Or.inl ⟨rfl, fun _ => hmanaged⟩)
        · exact Or.inr (Or.inr rfl)
    · rename_i hkind
      have hother : run.kind = .reconcile → False := by
        rw [hkind]
        nofun
      split
      · exact Or.inr (Or.inl ⟨rfl, fun h => (hother h).elim⟩)
      · split
        · exact Or.inl ⟨false, rfl, fun h => (hother h).elim⟩
        · split
          · exact Or.inr (Or.inl ⟨rfl, fun h => (hother h).elim⟩)
          · exact Or.inr (Or.inr rfl)

theorem Working.load (h : Working settings stale s P) {run : Running} (hrun : P.job = some run)
    (hphase : run.phase = .claimed) :
    Lowers settings stale s P (step settings stale s (.load P.startedAt)) := by
  have hs : step settings stale s (.load P.startedAt) = Platform.load s P.startedAt run := by
    unfold Platform.step
    dsimp only
    rw [onJob_single h.processes hrun, hphase]
  rcases load_cases s P.startedAt run with ⟨terminal, hload, hactive⟩ | ⟨hload, hmanaged⟩ | hload
  · exact h.leave_row hrun (returns_failure terminal)
      (fun hkind hdue => hactive hkind hdue.1) trivial (hs.trans hload)
  · refine h.leave_row hrun returns_success (fun hkind hdue => ?_) trivial (hs.trans hload)
    have hnot := hdue.2.2.1
    rw [hmanaged hkind] at hnot
    cases hnot
  · exact h.enter hrun hphase trivial (hs.trans hload)

theorem Working.helmUpgrade (h : Working settings stale s P) {run : Running}
    (hrun : P.job = some run) (hphase : run.phase = .loaded) (hr : run.renders) :
    Lowers settings stale s P (step settings stale s (.helmUpgrade P.startedAt)) := by
  obtain ⟨hpicked, hlt, -⟩ := h.running run hrun
  have hs : step settings stale s (.helmUpgrade P.startedAt) =
      Platform.helmUpgrade s P.startedAt run := by
    unfold Platform.step
    dsimp only
    rw [onJob_single h.processes hrun, hphase]
    exact if_pos hr
  refine h.stays trivial hs (modify_single h.processes _) rfl rfl rfl le_rfl rfl
    (fun t => ⟨_, rfl⟩) ?_ ?_ h.distinct h.picked ?_
  · intro t kind job
    simp [Process.Owns, hrun]
  · intro run' hrun'
    obtain rfl := Option.some.inj hrun'
    exact ⟨hpicked, hlt, hr, List.mem_cons_self⟩
  · simp only [processWeight, hrun, Option.elim, hphase, Phase.weight, List.length_cons]
    omega

/-- The event is the tenant's latest, with the process's platform. -/
theorem not_due_append {es : List HelmApplied} {event : HelmApplied}
    (hrecord : event.record = some ⟨P.fingerprint, P.startedAt⟩)
    (hlatest : ∀ e ∈ es, e.timestamp < event.timestamp) {T : Tenant}
    (hevents : T.events = es ++ [event]) : ¬P.Due T := by
  intro hdue
  have hnew : latestRender T.events = some event := by
    unfold latestRender
    rw [hevents, List.argmax_concat]
    cases hold : List.argmax (fun e : HelmApplied => e.timestamp) es with
    | none => rfl
    | some e =>
      have hlt := hlatest e (List.argmax_mem hold)
      simp [hlt]
  have houtdated := hdue.2.2.2.1
  unfold isOutdated at houtdated
  simp [hnew, hrecord] at houtdated

theorem Working.succeed (h : Working settings stale s P) {run : Running} (hrun : P.job = some run)
    (hdone : run.kind = .decommission ∧ run.phase = .loaded ∨
      run.renders ∧ ∃ event, run.phase = .rendered event) :
    Lowers settings stale s P (step settings stale s (.succeed P.startedAt)) := by
  obtain ⟨-, -, hat⟩ := h.running run hrun
  have hs : step settings stale s (.succeed P.startedAt) = Platform.succeed s P.startedAt run := by
    unfold Platform.step
    dsimp only
    rw [onJob_single h.processes hrun]
  unfold Platform.succeed at hs
  rcases hdone with ⟨hkind, hphase⟩ | ⟨hrenders, event, hphase⟩
  · rw [hkind, hphase] at hs
    refine h.leave hrun returns_success (g := fun T => { T with state := .archived, deleted := true })
      (fun _ => rfl) (fun hneeds => ?_) trivial hs
    have hdue := (due_onRow P run _ _).mp hneeds.1
    cases hdue.1
  · unfold Process.At at hat
    rw [hphase] at hat
    obtain ⟨-, hrecord, hlatest⟩ := hat
    rw [hphase] at hs
    cases hkind : run.kind with
    | decommission => simp [Running.renders, hkind] at hrenders
    | reconcile =>
      rw [hkind] at hs
      refine h.leave hrun returns_success (g := fun T => { T with events := T.events ++ [event] })
        (fun _ => rfl) (fun hneeds => ?_) trivial hs
      have hdue := (due_onRow P run _ _).mp hneeds.1
      exact absurd hdue (not_due_append hrecord hlatest rfl)
    | provision =>
      rw [hkind] at hs
      refine h.leave hrun returns_success
        (g := fun T => { T with events := T.events ++ [event], state := .active })
        (fun _ => rfl) (fun hneeds => ?_) trivial hs
      have hdue := (due_onRow P run _ _).mp hneeds.1
      exact absurd hdue (not_due_append hrecord hlatest rfl)

theorem Working.upgraded (h : Working settings stale s P) {t : ℕ} (ht : t ∈ P.upgrades) :
    Lowers settings stale s P (step settings stale s (.upgraded P.startedAt t true)) := by
  have hs : step settings stale s (.upgraded P.startedAt t true) =
      Platform.upgraded s P t true := by
    unfold Platform.step
    dsimp only
    rw [find_single h.processes]
    exact if_pos ht
  have hprocesses : (Platform.upgraded s P t true).processes = _ := modify_single
    (s := s.update t fun T => { T with renders := T.renders ++ [P.startedAt] }) h.processes _
  have hlength : (P.upgrades.erase t).length + 1 = P.upgrades.length := by
    rw [List.length_erase_of_mem ht]
    have hpos := List.length_pos_of_mem ht
    omega
  refine h.stays trivial hs hprocesses rfl rfl rfl (Nat.le_succ _) rfl (fun u => ?_) ?_ ?_
    h.distinct h.picked ?_
  · by_cases hu : u = t
    · subst hu
      exact ⟨_, update_self s u fun T => { T with renders := T.renders ++ [P.startedAt] }⟩
    · exact ⟨_, update_of_ne s hu fun T => { T with renders := T.renders ++ [P.startedAt] }⟩
  · intro u kind job
    cases hjob : P.job with
    | none => simp [Process.Owns, hjob]
    | some run =>
      simp only [Process.Owns, hjob, Option.map_some, Option.mem_some_iff]
      cases hphase : run.phase <;> simp
      split <;> simp
  · intro run' hrun'
    obtain ⟨run, hrun, rfl⟩ := Option.map_eq_some_iff.mp hrun'
    obtain ⟨hpicked, hlt, hat⟩ := h.running run hrun
    unfold Process.At at hat ⊢
    cases hphase : run.phase with
    | claimed =>
      simp only [hphase]
      exact ⟨hpicked, hlt, trivial⟩
    | loaded =>
      simp only [hphase]
      exact ⟨hpicked, hlt, trivial⟩
    | upgrading =>
      rw [hphase] at hat
      by_cases htenant : run.tenant = t
      · simp only [htenant, if_true, events_upgraded]
        exact ⟨hpicked, htenant ▸ hlt, hat.1, trivial, fun e he => (h.recorded.events t e he).1⟩
      · simp only [htenant, if_false, hphase]
        exact ⟨hpicked, hlt, hat.1, (List.mem_erase_of_ne htenant).mpr hat.2⟩
    | rendered event =>
      rw [hphase] at hat
      simp only [hphase, events_upgraded]
      exact ⟨hpicked, hlt, hat⟩
  · cases hjob : P.job with
    | none =>
      simp only [processWeight, hjob, Option.map_none, Option.elim]
      omega
    | some run =>
      simp only [processWeight, hjob, Option.map_some, Option.elim]
      cases hphase : run.phase with
      | upgrading =>
        by_cases htenant : run.tenant = t
        · simp only [htenant, if_true, Phase.weight]
          omega
        · simp only [htenant, if_false, hphase]
          omega
      | _ =>
        simp only [hphase]
        omega

/-! ## The queue -/

/-- Only one row changes. -/
theorem tenantWeight_setQueue {P' : Process} {t : ℕ} {kind : JobKind}
    (hother : ∀ kind' job, kind' ≠ kind → (P'.Owns t kind' job ↔ P.Owns t kind' job)) (T : Tenant)
    (new : Option QueuedJob) :
    tenantWeight P' t (T.setQueue kind new) + rowWeight P t kind (T.queue kind) + rollWeight P T =
      tenantWeight P t T + rowWeight P' t kind new + rollWeight P' (T.setQueue kind new) := by
  have hrow : ∀ kind', kind' ≠ kind → rowWeight P' t kind' ((T.setQueue kind new).queue kind') =
      rowWeight P t kind' (T.queue kind') := by
    intro kind' hne
    rw [setQueue_of_ne T hne]
    cases T.queue kind' with
    | none => rfl
    | some job =>
      unfold rowWeight
      simp only [hother kind' job hne]
  have hself := setQueue_self T kind new
  unfold tenantWeight
  cases kind with
  | provision =>
    have hreconcile := hrow .reconcile (by simp)
    have hdecommission := hrow .decommission (by simp)
    rw [hself]
    omega
  | reconcile =>
    have hprovision := hrow .provision (by simp)
    have hdecommission := hrow .decommission (by simp)
    rw [hself]
    omega
  | decommission =>
    have hprovision := hrow .provision (by simp)
    have hreconcile := hrow .reconcile (by simp)
    rw [hself]
    omega

theorem rollWeight_setQueue (P : Process) (T : Tenant) (kind : JobKind) (job : QueuedJob) :
    rollWeight P (T.setQueue kind (some job)) ≤ rollWeight P T := by
  unfold rollWeight
  split
  · rename_i hnew
    have hold : P.Needs T := by
      refine ⟨hnew.1, ?_⟩
      have hqueue := hnew.2
      by_cases hkind : kind = .reconcile
      · subst hkind
        rw [setQueue_self] at hqueue
        cases hqueue
      · rwa [setQueue_of_ne T (Ne.symm hkind)] at hqueue
    rw [if_pos hold]
  · exact Nat.zero_le _

theorem weight_setQueue {s' : State} {P' : Process} {t : ℕ} {kind : JobKind}
    {new : Option QueuedJob} (ht : t < s.tenants) (htenants : s'.tenants = s.tenants)
    (htenant : s'.tenant = (s.update t fun T => T.setQueue kind new).tenant)
    (hstart : P'.startedAt = P.startedAt) (hplat : P'.fingerprint = P.fingerprint)
    (howns : ∀ u k job, ¬(u = t ∧ k = kind) → (P'.Owns u k job ↔ P.Owns u k job))
    (hlt : rowWeight P' t kind new + rollWeight P' ((s.tenant t).setQueue kind new) +
        processWeight P' <
      rowWeight P t kind ((s.tenant t).queue kind) + rollWeight P (s.tenant t) + processWeight P) :
    weight s' P' < weight s P := by
  refine weight_lt ht htenants (fun u hu => ?_) (fun u hu T => ?_) ?_
  · rw [htenant]
    exact update_of_ne s hu _
  · exact tenantWeight_congr P P' hstart hplat (fun k job => howns u k job fun h => hu h.1) T
  · have hother := tenantWeight_setQueue
      (fun k job hk => howns t k job fun h => hk h.2) (s.tenant t) new
    rw [htenant, update_self]
    omega

theorem queue_update {t u : ℕ} {kind k : JobKind} {new : Option QueuedJob} {job : QueuedJob}
    (h : ((s.update t fun T => T.setQueue kind new).tenant u).queue k = some job) :
    (u = t ∧ k = kind ∧ new = some job) ∨ (s.tenant u).queue k = some job := by
  by_cases hu : u = t
  · subst hu
    rw [update_self] at h
    by_cases hk : k = kind
    · subst hk
      rw [setQueue_self] at h
      exact Or.inl ⟨rfl, rfl, h⟩
    · rw [setQueue_of_ne _ hk] at h
      exact Or.inr h
  · rw [update_of_ne s hu] at h
    exact Or.inr h

theorem Working.claim (h : Working settings stale s P) (hidle : P.Idle) {t : ℕ} {kind : JobKind}
    {job : QueuedJob} (hjob : (s.tenant t).queue kind = some job) (hpending : job.claimedAt = none) :
    Lowers settings stale s P (step settings stale s (.claim P.startedAt t kind)) := by
  have hs : step settings stale s (.claim P.startedAt t kind) =
      (s.update t fun T => T.setQueue kind
        (some { job with attempts := job.attempts + 1, claimedAt := some s.clock })).modify P.startedAt
        fun Q => { Q with job := some ⟨t, kind, job.id, .claimed⟩ } := by
    show Platform.claim s P.startedAt t kind = _
    unfold Platform.claim
    rw [find_single h.processes, hjob]
    simp [hidle.1, hpending]
  have hprocesses := modify_single (s := s.update t fun T => T.setQueue kind
    (some { job with attempts := job.attempts + 1, claimedAt := some s.clock })) h.processes
    fun Q => { Q with job := some ⟨t, kind, job.id, .claimed⟩ }
  have hlt := h.referenced.lt hjob
  rw [hs]
  refine ⟨{ P with job := some ⟨t, kind, job.id, .claimed⟩ }, rfl,
    h.next (h.claim_orderly t kind) hs hprocesses rfl rfl le_rfl ?_ ?_ ?_ ?_, ?_⟩
  · intro u k job' hjob' c hc
    rcases queue_update hjob' with ⟨rfl, rfl, hnew⟩ | hold
    · obtain rfl := Option.some.inj hnew
      exact Or.inl ⟨_, rfl, rfl, rfl, rfl⟩
    · rcases h.stranded u k job' hold c hc with howns | hstale
      · exact absurd howns (not_owns hidle.1 u k job')
      · exact Or.inr hstale
  · intro run hrun
    obtain rfl := Option.some.inj hrun
    exact ⟨hidle.2, hlt, trivial⟩
  · exact h.distinct
  · rw [hidle.2]
    nofun
  · refine weight_setQueue hlt rfl rfl rfl rfl (fun u k job' hne => ?_) ?_
    · refine iff_of_false ?_ (not_owns hidle.1 u k job')
      rintro ⟨run, hrun, htenant, hkind, -⟩
      obtain rfl := Option.some.inj hrun
      exact hne ⟨htenant.symm, hkind.symm⟩
    · have howns : ({ P with job := some ⟨t, kind, job.id, .claimed⟩ } : Process).Owns t kind
          { job with attempts := job.attempts + 1, claimedAt := some s.clock } :=
        ⟨_, rfl, rfl, rfl, rfl⟩
      have hroll := rollWeight_setQueue P (s.tenant t) kind
        { job with attempts := job.attempts + 1, claimedAt := some s.clock }
      have hold : rowWeight P t kind (some job) = 6 * (job.maxAttempts - job.attempts) + 6 := by
        unfold rowWeight
        dsimp only
        rw [if_neg (not_owns hidle.1 t kind job), hpending]
        rfl
      have hnew : rowWeight { P with job := some ⟨t, kind, job.id, .claimed⟩ } t kind
          (some { job with attempts := job.attempts + 1, claimedAt := some s.clock }) ≤
            6 * (job.maxAttempts - job.attempts) := by
        unfold rowWeight
        dsimp only
        rw [if_pos howns]
        split
        · omega
        · omega
      have hprocess : processWeight { P with job := some ⟨t, kind, job.id, .claimed⟩ } =
          processWeight P + 5 := by
        simp only [processWeight, hidle.1, Option.elim, Phase.weight]
        omega
      have hsame : rollWeight { P with job := some ⟨t, kind, job.id, .claimed⟩ }
          ((s.tenant t).setQueue kind
            (some { job with attempts := job.attempts + 1, claimedAt := some s.clock })) =
          rollWeight P ((s.tenant t).setQueue kind
            (some { job with attempts := job.attempts + 1, claimedAt := some s.clock })) := rfl
      rw [hjob, hold, hprocess, hsame]
      omega

theorem Working.reclaim (h : Working settings stale s P) (hidle : P.Idle) {t : ℕ} {kind : JobKind}
    {job : QueuedJob} (hjob : (s.tenant t).queue kind = some job) {c : ℕ}
    (hclaimed : job.claimedAt = some c) (hold : c + stale < s.clock) :
    Lowers settings stale s P (step settings stale s (.reclaim t kind)) := by
  have hs : step settings stale s (.reclaim t kind) =
      s.update t fun T => T.setQueue kind (some { job with claimedAt := none }) := by
    show Platform.reclaim s stale t kind = _
    unfold Platform.reclaim
    rw [hjob]
    dsimp only
    rw [hclaimed]
    exact if_pos hold
  rw [hs]
  refine ⟨P, rfl, h.next (o := .reclaim t kind) trivial hs h.processes rfl rfl le_rfl ?_ ?_
    h.distinct ?_, ?_⟩
  · intro u k job' hjob' c' hc
    rcases queue_update hjob' with ⟨-, -, hnew⟩ | hsame
    · obtain rfl := Option.some.inj hnew
      cases hc
    · exact h.stranded u k job' hsame c' hc
  · intro run hrun
    rw [hidle.1] at hrun
    cases hrun
  · rw [hidle.2]
    nofun
  · refine weight_setQueue (h.referenced.lt hjob) rfl rfl rfl rfl (fun _ _ _ _ => Iff.rfl) ?_
    have hroll := rollWeight_setQueue P (s.tenant t) kind { job with claimedAt := none }
    have hflight : rowWeight P t kind (some job) = 6 * (job.maxAttempts - job.attempts) + 7 := by
      unfold rowWeight
      dsimp only
      rw [if_neg (not_owns hidle.1 t kind job), hclaimed]
      rfl
    have hnew : rowWeight P t kind (some { job with claimedAt := none }) =
        6 * (job.maxAttempts - job.attempts) + 6 := by
      unfold rowWeight
      dsimp only
      rw [if_neg (not_owns hidle.1 t kind _)]
      rfl
    rw [hjob, hflight, hnew]
    omega

theorem Working.queue (h : Working settings stale s P) (hpicked : P.picked ≠ []) :
    Lowers settings stale s P (step settings stale s (.queue P.startedAt)) := by
  have hfree : P.job = none := by
    rw [Option.eq_none_iff_forall_not_mem]
    exact fun run hrun => hpicked (h.running run hrun).1
  obtain ⟨t, rest, hlist⟩ := List.exists_cons_of_ne_nil hpicked
  obtain ⟨hlt, hneeds⟩ := h.picked t (by rw [hlist]; exact List.mem_cons_self)
  have hdistinct := h.distinct
  rw [hlist, List.nodup_cons] at hdistinct
  have hnone : ¬(((s.tenant t).queue .reconcile).isSome ∨ s.tenants ≤ t) := by
    rw [hneeds.2]
    simp only [Option.isSome_none, Bool.false_eq_true, false_or]
    omega
  have hs : step settings stale s (.queue P.startedAt) =
      { s.update t fun T => T.setQueue .reconcile (some ⟨s.minted, 0, 5, none⟩) with
        minted := s.minted + 1 }.modify P.startedAt fun Q => { Q with picked := Q.picked.tail } := by
    unfold Platform.step
    dsimp only
    rw [find_single h.processes]
    simp only [Option.bind_some, hlist, List.head?_cons]
    unfold Platform.enqueue
    rw [if_neg hnone]
  have hprocesses := modify_single (s := { s.update t fun T =>
      T.setQueue .reconcile (some ⟨s.minted, 0, 5, none⟩) with minted := s.minted + 1 })
    h.processes fun Q => { Q with picked := Q.picked.tail }
  rw [hs]
  refine ⟨{ P with picked := P.picked.tail }, rfl,
    h.next (o := .queue P.startedAt) trivial hs hprocesses rfl rfl le_rfl ?_ ?_ ?_ ?_, ?_⟩
  · intro u k job hjob c hc
    rcases queue_update hjob with ⟨-, -, hnew⟩ | hold
    · obtain rfl := Option.some.inj hnew
      cases hc
    · exact h.stranded u k job hold c hc
  · intro run hrun
    rw [hfree] at hrun
    cases hrun
  · show P.picked.tail.Nodup
    rw [hlist]
    exact hdistinct.2
  · intro u hu
    have hmem : u ∈ rest := by
      rw [hlist] at hu
      exact hu
    have hut : u ≠ t := by
      rintro rfl
      exact hdistinct.1 hmem
    obtain ⟨hlt', hneeds'⟩ := h.picked u (by rw [hlist]; exact List.mem_cons_of_mem t hmem)
    refine ⟨hlt', ?_⟩
    show P.Needs ((s.update t fun T =>
      T.setQueue .reconcile (some ⟨s.minted, 0, 5, none⟩)).tenant u)
    rw [update_of_ne s hut]
    exact hneeds'
  · refine weight_setQueue hlt rfl rfl rfl rfl (fun _ _ _ _ => Iff.rfl) ?_
    have hrow : rowWeight { P with picked := P.picked.tail } t .reconcile
        (some ⟨s.minted, 0, 5, none⟩) = 36 := by
      unfold rowWeight
      dsimp only
      rw [if_neg (not_owns (P := { P with picked := P.picked.tail }) hfree t .reconcile _)]
      rfl
    have hafter : rollWeight { P with picked := P.picked.tail }
        ((s.tenant t).setQueue .reconcile (some ⟨s.minted, 0, 5, none⟩)) = 0 := by
      refine if_neg fun hneeds' => ?_
      have hqueue := hneeds'.2
      rw [setQueue_self] at hqueue
      cases hqueue
    have hbefore : rollWeight P (s.tenant t) = 38 := if_pos hneeds
    have hprocess : processWeight { P with picked := P.picked.tail } ≤ processWeight P + 1 := by
      simp only [processWeight, if_neg hpicked]
      split
      · omega
      · omega
    rw [hrow, hafter, hbefore, hneeds.2]
    omega

theorem Working.decide (h : Working settings stale s P) (hidle : P.Idle)
    (hselected : selectTenantsToRoll settings s P ≠ []) :
    Lowers settings stale s P (step settings stale s (.decide P.startedAt)) := by
  have hs : step settings stale s (.decide P.startedAt) =
      s.modify P.startedAt fun Q => { Q with picked := selectTenantsToRoll settings s P } := by
    unfold Platform.step
    dsimp only
    rw [find_single h.processes]
    simp [hidle.1]
  have hsub : (selectTenantsToRoll settings s P).Sublist
      ((activeTenants s).filter fun t => rolls P (s.tenant t)) := by
    unfold selectTenantsToRoll
    split
    · exact List.nil_sublist _
    · split
      · exact List.nil_sublist _
      · exact List.take_sublist _ _
  refine h.stays trivial hs (modify_single h.processes _) rfl rfl rfl le_rfl rfl
    (fun t => ⟨_, rfl⟩) (fun _ _ _ => Iff.rfl) ?_ ?_ ?_ ?_
  · intro run hrun
    rw [hidle.1] at hrun
    cases hrun
  · exact ((List.nodup_range.filter _).filter _).sublist hsub
  · intro t ht
    obtain ⟨hactive, hrolls⟩ := List.mem_filter.mp (hsub.subset ht)
    obtain ⟨hrange, hstate⟩ := List.mem_filter.mp hactive
    refine ⟨List.mem_range.mp hrange, ?_⟩
    simp only [Bool.and_eq_true, decide_eq_true_eq, Bool.not_eq_true'] at hstate
    unfold rolls Tenant.busy at hrolls
    simp only [Bool.and_eq_true, Bool.not_eq_true', Bool.or_eq_false_iff,
      Option.isSome_eq_false_iff, Option.isNone_iff_eq_none] at hrolls
    exact ⟨⟨hstate.1.1, hstate.1.2, hstate.2, hrolls.1.2, hrolls.2⟩, hrolls.1.1.1.2⟩
  · simp only [processWeight]
    rw [if_neg hselected, if_pos hidle.2]
    omega

end Working

end SocTalk.Provisioning.Platform
