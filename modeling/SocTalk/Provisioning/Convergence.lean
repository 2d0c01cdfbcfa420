import SocTalk.Provisioning.LastProcess

/-! The fleet converges: while its helm upgrades succeed, the worker of the last process brings every
active tenant to its platform. -/
namespace SocTalk.Provisioning.Platform
open Transition

/-! ## The worker -/

/-- What the worker of process `p` does while its helm upgrades succeed and are recorded; a sweep
that picks no tenant changes nothing. -/
inductive Works (settings : RollSettings) (stale p : ℕ) (s : State) : Op → Prop
  | queue {P} : s.find p = some P → P.picked ≠ [] → Works settings stale p s (.queue p)
  | reclaim {P t kind job c} : s.find p = some P → P.Idle → (s.tenant t).queue kind = some job →
      job.claimedAt = some c → c + stale < s.clock → Works settings stale p s (.reclaim t kind)
  | claim {P t kind job} : s.find p = some P → P.Idle → (s.tenant t).queue kind = some job →
      job.claimedAt = none → Works settings stale p s (.claim p t kind)
  | decide {P} : s.find p = some P → P.Idle → selectTenantsToRoll settings s P ≠ [] →
      Works settings stale p s (.decide p)
  | load {P run} : s.find p = some P → P.job = some run → run.phase = .claimed →
      Works settings stale p s (.load p)
  | helmUpgrade {P run} : s.find p = some P → P.job = some run → run.phase = .loaded →
      run.renders → Works settings stale p s (.helmUpgrade p)
  | upgraded {P t} : s.find p = some P → t ∈ P.upgrades → Works settings stale p s (.upgraded p t true)
  | succeed {P run} : s.find p = some P → P.job = some run →
      (run.kind = .decommission ∧ run.phase = .loaded ∨
        run.renders ∧ ∃ event, run.phase = .rendered event) → Works settings stale p s (.succeed p)

def WorkerStep (settings : RollSettings) (stale p : ℕ) (s s' : State) : Prop :=
  ∃ o, Works settings stale p s o ∧ s' = step settings stale s o

/-- The last render of every active tenant is by process `p`. -/
def Converged (p : ℕ) (s : State) : Prop :=
  ∀ t ∈ activeTenants s, (s.tenant t).renders.getLast? = some p

section Working

variable {settings : RollSettings} {stale : ℕ} {s : State} {P : Process}

/-- Each of the worker's steps leaves less to do. -/
theorem Working.step (h : Working settings stale s P) {o : Op}
    (hw : Works settings stale P.startedAt s o) :
    Lowers settings stale s P (step settings stale s o) := by
  have hfind : ∀ {Q}, s.find P.startedAt = some Q → Q = P := by
    intro Q hQ
    exact (Option.some.inj ((find_single h.processes).symm.trans hQ)).symm
  cases hw with
  | queue hQ hpicked =>
    obtain rfl := hfind hQ
    exact h.queue hpicked
  | reclaim hQ hidle hjob hclaimed hold =>
    obtain rfl := hfind hQ
    exact h.reclaim hidle hjob hclaimed hold
  | claim hQ hidle hjob hpending =>
    obtain rfl := hfind hQ
    exact h.claim hidle hjob hpending
  | decide hQ hidle hselected =>
    obtain rfl := hfind hQ
    exact h.decide hidle hselected
  | load hQ hrun hphase =>
    obtain rfl := hfind hQ
    exact h.load hrun hphase
  | helmUpgrade hQ hrun hphase hr =>
    obtain rfl := hfind hQ
    exact h.helmUpgrade hrun hphase hr
  | upgraded hQ ht =>
    obtain rfl := hfind hQ
    exact h.upgraded ht
  | succeed hQ hrun hdone =>
    obtain rfl := hfind hQ
    exact h.succeed hrun hdone

/-- Until every active tenant is on its platform, the worker has a step to take. -/
theorem Working.exists_step (h : Working settings stale s P) (hno : ¬Converged P.startedAt s) :
    ∃ o, Works settings stale P.startedAt s o := by
  have hfind := find_single h.processes
  cases hjob : P.job with
  | some run =>
    obtain ⟨-, -, hat⟩ := h.running run hjob
    unfold Process.At at hat
    cases hphase : run.phase with
    | claimed => exact ⟨_, .load hfind hjob hphase⟩
    | loaded =>
      by_cases hkind : run.kind = .decommission
      · exact ⟨_, .succeed hfind hjob (Or.inl ⟨hkind, hphase⟩)⟩
      · exact ⟨_, .helmUpgrade hfind hjob hphase (decide_eq_true hkind)⟩
    | upgrading =>
      rw [hphase] at hat
      exact ⟨_, .upgraded hfind hat.2⟩
    | rendered event =>
      rw [hphase] at hat
      exact ⟨_, .succeed hfind hjob (Or.inr ⟨hat.1, event, hphase⟩)⟩
  | none =>
    by_cases hpicked : P.picked = []
    · have hidle : P.Idle := ⟨hjob, hpicked⟩
      by_cases hrow : ∃ t kind job, (s.tenant t).queue kind = some job
      · obtain ⟨t, kind, job, hrow⟩ := hrow
        cases hclaimed : job.claimedAt with
        | none => exact ⟨_, .claim hfind hidle hrow hclaimed⟩
        | some c =>
          rcases h.stranded t kind job hrow c hclaimed with howns | hstale
          · exact absurd howns (not_owns hjob t kind job)
          · exact ⟨_, .reclaim hfind hidle hrow hclaimed hstale⟩
      · refine ⟨_, .decide hfind hidle fun hselected => hno ?_⟩
        intro t ht
        have hfree : (s.tenant t).busy = false := by
          have hnone : ∀ kind, (s.tenant t).queue kind = none := by
            intro kind
            by_contra hsome
            obtain ⟨job, hjob'⟩ := Option.ne_none_iff_exists'.mp hsome
            exact hrow ⟨t, kind, job, hjob'⟩
          simp [Tenant.busy, hnone]
        refine renderedBy_of_not_rolls h.recorded h.ordered
          (by rw [h.processes]; exact List.mem_singleton_self P) h.newest hfree ?_
        have huptime := h.uptime
        have hpositive := settings.positive
        unfold selectTenantsToRoll at hselected
        rw [h.enabled, if_neg (by simp), if_neg (by omega), List.take_eq_nil_iff] at hselected
        rcases hselected with hzero | hnil
        · omega
        · exact Bool.eq_false_iff.mpr (List.filter_eq_nil_iff.mp hnil t ht)
    · exact ⟨_, .queue hfind hpicked⟩

end Working

/-! ## Every run -/

/-- Only process `p` is left, the newest there has been, between two jobs and past its grace period;
the claims of the others are stale. -/
structure Remains (settings : RollSettings) (stale p : ℕ) (s : State) : Prop where
  alone : ∃ P, s.processes = [P] ∧ P.startedAt = p ∧ P.Idle
  newest : ∀ q ∈ s.started, q.1 ≤ p
  enabled : settings.enabled = true
  uptime : p + settings.grace ≤ s.clock
  stranded : ∀ t kind job, (s.tenant t).queue kind = some job → ∀ c, job.claimedAt = some c →
    c + stale < s.clock

/-- Nothing is rendered yet; jobs may be queued. -/
structure Fresh (s : State) : Prop where
  processes : s.processes = []
  started : s.started = []
  tenants : ∀ t, (s.tenant t).renders = [] ∧ (s.tenant t).events = []
  referenced : Referenced s

theorem Fresh.ordered {s : State} (h : Fresh s) : Ordered s := by
  refine ⟨fun t => ?_, ?_, ?_⟩
  · rw [(h.tenants t).1]
    exact List.Pairwise.nil
  · rw [h.processes]
    nofun
  · rw [h.processes]
    nofun

theorem Fresh.recorded {s : State} (h : Fresh s) : Recorded s := by
  refine ⟨?_, ?_, ?_, fun t r hr => ?_, ?_, fun t e he => ?_⟩
  · rw [h.started]
    nofun
  · rw [h.started]
    nofun
  · rw [h.processes]
    nofun
  · rw [(h.tenants t).1] at hr
    cases hr
  · rw [h.processes]
    nofun
  · rw [(h.tenants t).2] at he
    cases he

theorem Remains.working {settings : RollSettings} {stale p : ℕ} {s : State}
    (h : Remains settings stale p s) (ho : Ordered s) (hr : Recorded s) (hf : Referenced s) :
    ∃ P, P.startedAt = p ∧ Working settings stale s P := by
  obtain ⟨P, hprocesses, rfl, hjob, hpicked⟩ := h.alone
  refine ⟨P, rfl, ho, hr, hf, hprocesses, h.newest, h.enabled, h.uptime,
    fun t kind job hrow c hc => Or.inr (h.stranded t kind job hrow c hc), ?_, ?_, ?_⟩
  · rw [hjob]
    nofun
  · rw [hpicked]
    exact List.nodup_nil
  · rw [hpicked]
    nofun

/-- The fleet converges, whatever order its worker takes its steps in. -/
theorem Working.converges {settings : RollSettings} {stale : ℕ} {s : State} {P : Process}
    (h : Working settings stale s P) :
    Inevitable (WorkerStep settings stale P.startedAt) (WorkerStep settings stale P.startedAt)
      (Converged P.startedAt) s := by
  refine Inevitable.of_measure
    (I := fun s' => ∃ Q, Q.startedAt = P.startedAt ∧ Working settings stale s' Q)
    (fun s' => s'.processes.head?.elim 0 (weight s')) ?_ ?_ ⟨P, rfl, h⟩
  · rintro s' ⟨Q, hQ, hworking⟩ hno
    obtain ⟨o, hw⟩ := hworking.exists_step (hQ ▸ hno)
    exact ⟨_, o, hQ ▸ hw, rfl⟩
  · rintro s' s'' ⟨Q, hQ, hworking⟩ - ⟨o, hw, rfl⟩
    obtain ⟨R, hR, hworking', hlt⟩ := hworking.step (hQ.symm ▸ hw)
    refine Or.inr ⟨⟨R, hR.trans hQ, hworking'⟩, ?_⟩
    rw [hworking.processes, hworking'.processes]
    exact hlt

/-- Where the renders are claimed in order, no tenant goes back to an older process's platform, and
once only the newest process remains it brings every active tenant to its own. -/
theorem renders_in_order {settings : RollSettings} {stale : ℕ} {s₀ s : State} (h₀ : Fresh s₀)
    (hrun : Run (step settings stale) orderly s₀ s) :
    (∀ t, (s.tenant t).renders.Pairwise (· ≤ ·)) ∧ ∀ p, Remains settings stale p s →
      Inevitable (WorkerStep settings stale p) (WorkerStep settings stale p) (Converged p) s := by
  have hordered : Ordered s := hrun.inv (fun _ _ h hc => h.step hc) h₀.ordered
  have hrecorded : Recorded s := hrun.inv (fun _ o h _ => h.step o) h₀.recorded
  have hreferenced : Referenced s := hrun.inv (fun _ o h _ => h.step o) h₀.referenced
  constructor
  · exact hordered.sorted
  · intro p hremains
    obtain ⟨P, rfl, hworking⟩ := hremains.working hordered hrecorded hreferenced
    exact hworking.converges

/-! ## Two runs -/

def oneTenant : State where
  clock := 0
  started := []
  processes := []
  tenants := 1
  minted := 0
  tenant _ := ⟨.active, false, false, fun _ => none, [], []⟩

theorem fresh_oneTenant : Fresh oneTenant := ⟨rfl, rfl, fun _ => ⟨rfl, rfl⟩, fun _ _ _ => rfl⟩

def rollAll : RollSettings := ⟨true, 10, 1, le_rfl⟩

/-- A process renders the tenant, a newer one starts, and the older one stops in a second
reconcile. -/
def succession : List Op :=
  [.start 7, .enqueue 0 .reconcile, .claim 1 0 .reconcile, .load 1, .helmUpgrade 1,
    .upgraded 1 0 true, .succeed 1, .start 8, .enqueue 0 .reconcile, .claim 1 0 .reconcile, .stop 1,
    .tick 200]

theorem renders_in_order_succession :
    ∃ s, (s.tenant 0).renders = [1] ∧ (∀ t, (s.tenant t).renders.Pairwise (· ≤ ·)) ∧
      Inevitable (WorkerStep rollAll 100 3) (WorkerStep rollAll 100 3) (Converged 3) s := by
  obtain ⟨s, hs⟩ : ∃ s, runOps (step rollAll 100) orderly oneTenant succession = some s :=
    Option.isSome_iff_exists.mp (by decide +kernel)
  have halone : (runOps (step rollAll 100) orderly oneTenant succession).map
      (fun s => (s.processes.map fun P => (P.startedAt, P.job.isNone, P.picked), s.started, s.clock)) =
      some ([(3, true, [])], [(1, 7), (3, 8)], 203) := by
    decide +kernel
  have htenant : (runOps (step rollAll 100) orderly oneTenant succession).map
      (fun s => (s.tenants, (s.tenant 0).renders,
        ([.provision, .reconcile, .decommission] : List JobKind).map fun kind =>
          ((s.tenant 0).queue kind).bind (·.claimedAt))) = some (1, [1], [none, some 3, none]) := by
    decide +kernel
  rw [hs] at halone htenant
  simp only [Option.map_some, Option.some.injEq, Prod.mk.injEq, List.map_cons, List.map_nil,
    List.cons.injEq, and_true] at halone htenant
  obtain ⟨hprocesses, hstarted, hclock⟩ := halone
  obtain ⟨P, hP, hfields⟩ := List.map_eq_singleton_iff.mp hprocesses
  simp only [Prod.mk.injEq, Option.isNone_iff_eq_none] at hfields
  obtain ⟨htenants, hrenders, hprovision, hreconcile, hdecommission⟩ := htenant
  have hrun := Run.of_runOps hs
  have href : Referenced s := hrun.inv (fun _ o h _ => h.step o) fresh_oneTenant.referenced
  have hlast := renders_in_order fresh_oneTenant hrun
  refine ⟨s, hrenders, hlast.1, hlast.2 3 ⟨⟨P, hP, hfields⟩, ?_, rfl, ?_, ?_⟩⟩
  · rw [hstarted]
    decide
  · rw [hclock]
    decide
  · intro t kind job hjob c hc
    have hlt := href.lt hjob
    have ht : t = 0 := by omega
    subst ht
    have hbind : ((s.tenant 0).queue kind).bind (·.claimedAt) = some c := by
      rw [hjob]
      exact hc
    cases kind with
    | provision =>
      rw [hprovision] at hbind
      cases hbind
    | reconcile =>
      rw [hreconcile] at hbind
      obtain rfl := Option.some.inj hbind
      omega
    | decommission =>
      rw [hdecommission] at hbind
      cases hbind

/-- The newer process's sweep rolls the tenant; a reconcile queued through the API then falls to the
older one. -/
def rolledBack : List Op :=
  [.start 7, .start 8, .tick 10, .decide 2, .queue 2, .claim 2 0 .reconcile, .load 2, .helmUpgrade 2,
    .upgraded 2 0 true, .succeed 2, .enqueue 0 .reconcile, .claim 1 0 .reconcile, .load 1,
    .helmUpgrade 1, .upgraded 1 0 true, .succeed 1]

theorem rolledBack_renders :
    ¬∀ ops : List Op, ((ops.foldl (step rollAll 100) oneTenant).tenant 0).renders.Pairwise
      (· ≤ ·) := by
  intro h
  have hrenders : ((rolledBack.foldl (step rollAll 100) oneTenant).tenant 0).renders = [2, 1] := by
    decide +kernel
  have hsorted := h rolledBack
  rw [hrenders] at hsorted
  revert hsorted
  decide

end SocTalk.Provisioning.Platform
