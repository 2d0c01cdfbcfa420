import SocTalk.Provisioning.Edges

/-! An operator's suspension or decommission against the writers that loaded the tenant before
it: the sweep, the jobs and the completions of the L2 agent. -/
namespace SocTalk.Provisioning
open ReadCommitted

def EventType.decides (e : EventType) : Bool := e = .suspended || e = .decommissionStarted

def Entry.decides (e : Entry) : Bool := e.event.eventType.decides

def Entry.resumes (e : Entry) : Bool := e.event.eventType = .resumed

/-- The state is set to active or degraded, and not by the operator. -/
def Entry.revives (e : Entry) : Bool :=
  !e.resumes && (e.event.toState = some .active || e.event.toState = some .degraded)

/-- No decision of the operator was committed between the moment such a writer loaded the tenant
and its own change. -/
def Unclobbered (es : List Entry) : Prop :=
  ∀ i, ∀ h : i < es.length, es[i].revives → ∀ d ∈ (es.take i).drop es[i].read, d.decides = false

instance (es : List Entry) : Decidable (Unclobbered es) := by unfold Unclobbered; infer_instance

/-- A writer that leads the state back finds it in no state of the operator's, and no resume has
been committed since it loaded the tenant. -/
def undecided : Label → View DB Resource → Prop
  | .transition l e t, v => e ≠ .resumed → operatorSet t = false →
      operatorSet v.db.tenant.state = false ∧ ∀ r ∈ (history v.db).drop l.read, r.resumes = false
  | _, _ => True

instance (lab : Label) (v : View DB Resource) : Decidable (undecided lab v) := by
  cases lab <;> unfold undecided <;> infer_instance

/-! ## The invariant -/

/-- Once decided, the state is the operator's until a resume. -/
def Decided (db : DB) : Prop :=
  ∀ k, (∃ d ∈ (history db).drop k, d.decides) →
    (∀ r ∈ (history db).drop k, r.resumes = false) → operatorSet db.tenant.state

structure Obeyed (db : DB) : Prop where
  decided : Decided db
  unclobbered : Unclobbered (history db)

theorem unclobbered_concat {es : List Entry} {x : Entry} (h : Unclobbered es)
    (hx : x.revives → ∀ d ∈ es.drop x.read, d.decides = false) : Unclobbered (es ++ [x]) := by
  intro i hi hrev
  by_cases hlast : i < es.length
  · have hget : (es ++ [x])[i] = es[i] := List.getElem_append_left hlast
    have htake : (es ++ [x]).take i = es.take i := List.take_append_of_le_length (by omega)
    rw [hget] at hrev ⊢
    rw [htake]
    exact h i hlast hrev
  · have hi' : i = es.length := by
      have hlen : (es ++ [x]).length = es.length + 1 := by simp
      omega
    subst hi'
    have hget : (es ++ [x])[es.length] = x := List.getElem_concat_length rfl _
    rw [hget] at hrev ⊢
    rw [List.take_left]
    exact hx hrev

theorem Change.operatorSet_of_decides {s t : TenantState} {e : EventType} (h : Change s e t)
    (hd : e.decides) : operatorSet t := by
  cases h with
  | suspended => rfl
  | decommissionStarted => rfl
  | projected c => cases c <;> cases hd
  | _ => cases hd

theorem Obeyed.transition {db : DB} (h : Obeyed db) {l : Loaded} {e : EventType} {t : TenantState}
    (hc : Change l.state e t) (hne : l.state ≠ t)
    (hcond : undecided (.transition l e t) ⟨db, fun _ => false⟩) :
    Obeyed (store.applyAll (l.transitionWrites e t) db) := by
  obtain ⟨hhist, hstate⟩ := applyAll_transition (e := e) hne db
  have hbefore : e ≠ .resumed → operatorSet t = false →
      ∀ k, (∀ r ∈ (history db).drop k, r.resumes = false) →
      ∀ d ∈ (history db).drop k, d.decides = false := by
    intro he ht k hr d hd
    by_contra hdec
    have hset := h.decided k ⟨d, hd, by simpa using hdec⟩ hr
    rw [(hcond he ht).1] at hset
    cases hset
  constructor
  · intro k hdec hres
    rw [hhist] at hdec hres
    rw [hstate]
    by_contra hset
    have ht : operatorSet t = false := by simpa using hset
    by_cases hk : k ≤ (history db).length
    · rw [List.drop_append_of_le_length hk] at hdec hres
      have he : e ≠ .resumed := by
        rintro rfl
        have hlast := hres (l.entry .resumed t) (by simp)
        cases hlast
      obtain ⟨d, hd, hdd⟩ := hdec
      rcases List.mem_append.mp hd with hd | hd
      · have hnone := hbefore he ht k (fun r hr => hres r (List.mem_append_left _ hr)) d hd
        rw [hnone] at hdd
        cases hdd
      · obtain rfl := List.mem_singleton.mp hd
        exact hset (hc.operatorSet_of_decides hdd)
    · have hnil : ((history db) ++ [l.entry e t]).drop k = [] := by
        apply List.drop_eq_nil_of_le
        rw [List.length_append, List.length_singleton]
        omega
      rw [hnil] at hdec
      obtain ⟨d, hd, -⟩ := hdec
      cases hd
  · rw [hhist]
    refine unclobbered_concat h.unclobbered fun hrev => ?_
    simp only [Entry.revives, Entry.resumes, Loaded.entry, Bool.and_eq_true, Bool.or_eq_true,
      Bool.not_eq_true', decide_eq_true_eq, Option.some.injEq] at hrev
    have he : e ≠ .resumed := of_decide_eq_false hrev.1
    have ht : operatorSet t = false := by
      rcases hrev.2 with rfl | rfl <;> rfl
    exact hbefore he ht l.read (hcond he ht).2

theorem keeps_obeyed (grace session : ℕ) (req : Req) :
    Keeps store undecided Obeyed (serve grace session req) fun ws _ => ws = [] := by
  have hsame : ∀ {db db' : DB}, history db' = history db →
      db'.tenant.state = db.tenant.state → Obeyed db → Obeyed db' := by
    intro db db' hh hs h
    refine ⟨?_, hh ▸ h.unclobbered⟩
    unfold Decided
    rw [hh, hs]
    exact h.decided
  refine Keeps.of_row .tenant (shaped_serve grace session req fun _ => trivial) ?_ row_tenant_congr ?_
  · intro db db' hrow h
    obtain ⟨ht, hh⟩ := Prod.mk.inj (Option.some.inj hrow)
    exact hsame hh.symm (congrArg Tenant.state ht.symm) h
  · intro lab db locked ws h hc hshape
    cases hshape with
    | quiet hq =>
      obtain ⟨hhist, hstate⟩ := applyAll_quiet hq db
      exact hsame hhist hstate h
    | @heartbeat _ l runtime _ =>
      have hq : ∀ w ∈ [Write.setRuntime runtime], w.Quiet True := by simp [Write.Quiet]
      obtain ⟨hhist, hstate⟩ := applyAll_quiet hq db
      exact hsame hhist hstate h
    | @transition _ l e t hchange _ =>
      by_cases hst : l.state = t
      · obtain ⟨hhist, hstate⟩ := applyAll_quiet (transitionWrites_quiet (e := e) hst) db
        exact hsame hhist hstate h
      · exact h.transition hchange hst hc

/-- Where every writer that leads the state back finds it undecided and not resumed since its
load, none of them sets it from before a decision of the operator. -/
theorem decisions_kept {grace : ℕ} {cluster : Cluster} {world : List Call}
    {sys : Sys DB Write Call Label Resource Req}
    (h : Run store (serve grace) undecided (start ⟨created cluster, world⟩) sys) :
    Unclobbered (history sys.shared.db) := by
  have h0 : Obeyed (created cluster) := by
    constructor
    · rintro k ⟨d, hd, -⟩
      cases k <;> cases hd
    · rintro i hi
      cases hi
  exact (Run.keeps (keeps_obeyed grace) h h0).unclobbered

/-- A sweep degrades the tenant, whose pods are not ready, before it is decommissioned. -/
def sweepThenDecommission : List (Event Req) :=
  provisioned ++ alone 5 .syncState 8 ++ alone 6 .decommissionTenant 5

theorem decisions_kept_sweepThenDecommission : ∃ sys,
    runEvents store (serve 900000000) undecided (start ⟨created emptyCluster, []⟩)
      sweepThenDecommission = some sys ∧
    sys.shared.db.tenant.state = .decommissioning ∧ Unclobbered (history sys.shared.db) := by
  have hlast : (runEvents store (serve 900000000) undecided (start ⟨created emptyCluster, []⟩)
      sweepThenDecommission).map (·.shared.db.tenant.state) = some .decommissioning := by
    decide +kernel
  obtain ⟨sys, hsys, heq⟩ := Option.map_eq_some_iff.mp hlast
  exact ⟨sys, hsys, heq, decisions_kept (Run.of_runEvents hsys)⟩

/-- The operator suspends the tenant between the sweep's load and its lock on the row. -/
def suspendDuringSweep : List (Event Req) :=
  provisioned ++ alone 5 .syncState 4 ++ alone 6 .suspend 3 ++ List.replicate 4 (.advance 5)

theorem suspension_clobbered : ∃ sys,
    runEvents store (serve 900000000) (fun _ _ => True) (start ⟨created emptyCluster, []⟩)
      suspendDuringSweep = some sys ∧
    sys.shared.db.tenant.state = .degraded ∧
    (sys.shared.db.log.map fun e => e.event).drop 10 =
      [⟨.suspended, some .active, some .suspended⟩,
        ⟨.degradedPodsNotReady, some .active, some .degraded⟩] ∧
    ¬ Unclobbered (history sys.shared.db) := by
  have hlast : (runEvents store (serve 900000000) (fun _ _ => True)
      (start ⟨created emptyCluster, []⟩) suspendDuringSweep).map
      (fun sys => (sys.shared.db.tenant.state, (sys.shared.db.log.map fun e => e.event).drop 10,
        decide (Unclobbered (history sys.shared.db)))) =
      some (.degraded, [⟨.suspended, some .active, some .suspended⟩,
        ⟨.degradedPodsNotReady, some .active, some .degraded⟩], false) := by decide +kernel
  obtain ⟨sys, hsys, heq⟩ := Option.map_eq_some_iff.mp hlast
  obtain ⟨hstate, hrest⟩ := Prod.mk.inj heq
  obtain ⟨hlog, hun⟩ := Prod.mk.inj hrest
  exact ⟨sys, hsys, hstate, hlog, of_decide_eq_false hun⟩

end SocTalk.Provisioning
