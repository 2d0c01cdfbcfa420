import SocTalk.Provisioning.Edges

/-! The log of lifecycle events as a record of the tenant's states: a path whose steps are the
events that report a change. -/
namespace SocTalk.Provisioning
open ReadCommitted

/-- The events lead from one state to the other, each that reports a change along an edge, from
the state the tenant was in. -/
def Recorded (edge : TenantState → TenantState → Prop) :
    TenantState → List Entry → TenantState → Prop
  | s, [], t => s = t
  | s, e :: es, t =>
    if e.event.changes then
      match e.event.toState with
      | some u => e.event.fromState = some s ∧ edge s u ∧ Recorded edge u es t
      | none => False
    else Recorded edge s es t

instance decidableRecorded (edge : TenantState → TenantState → Prop) [DecidableRel edge]
    (s : TenantState) (es : List Entry) (t : TenantState) : Decidable (Recorded edge s es t) := by
  induction es generalizing s with
  | nil => exact decEq s t
  | cons e es ih =>
    unfold Recorded
    cases e.event.toState with
    | none => infer_instance
    | some u => infer_instance

section Path

variable {edge : TenantState → TenantState → Prop} {s t u : TenantState} {es es' : List Entry}

/-- The events that report no change do not count. -/
theorem recorded_history :
    Recorded edge s (es.filter fun e => e.event.changes) t ↔ Recorded edge s es t := by
  induction es generalizing s with
  | nil => exact Iff.rfl
  | cons e es ih =>
    rw [List.filter_cons]
    split
    · rename_i hc
      unfold Recorded
      rw [if_pos hc, if_pos hc]
      cases e.event.toState with
      | none => exact Iff.rfl
      | some v => exact and_congr_right fun _ => and_congr_right fun _ => ih
    · rename_i hc
      rw [ih]
      conv_rhs => unfold Recorded
      rw [if_neg hc]

theorem recorded_append (h : Recorded edge s es t) (h' : Recorded edge t es' u) :
    Recorded edge s (es ++ es') u := by
  induction es generalizing s with
  | nil =>
    obtain rfl : s = t := h
    exact h'
  | cons e es ih =>
    rw [List.cons_append]
    unfold Recorded at h ⊢
    split
    · rename_i hc
      rw [if_pos hc] at h
      cases ht : e.event.toState with
      | none => simp only [ht] at h
      | some v =>
        simp only [ht] at h
        exact ⟨h.1, h.2.1, ih h.2.2⟩
    · rename_i hc
      rw [if_neg hc] at h
      exact ih h

theorem recorded_mono {edge' : TenantState → TenantState → Prop}
    (hle : ∀ s t, edge s t → edge' s t) (h : Recorded edge s es t) : Recorded edge' s es t := by
  induction es generalizing s with
  | nil => exact h
  | cons e es ih =>
    unfold Recorded at h ⊢
    split
    · rename_i hc
      rw [if_pos hc] at h
      cases ht : e.event.toState with
      | none => simp only [ht] at h
      | some v =>
        simp only [ht] at h
        exact ⟨h.1, hle _ _ h.2.1, ih h.2.2⟩
    · rename_i hc
      rw [if_neg hc] at h
      exact ih h

/-- A path whose edges keep off a state does not end there. -/
theorem recorded_avoids {bad : TenantState} (hedge : ∀ s t, edge s t → t ≠ bad) (hs : s ≠ bad)
    (h : Recorded edge s es t) : t ≠ bad := by
  induction es generalizing s with
  | nil =>
    obtain rfl : s = t := h
    exact hs
  | cons e es ih =>
    unfold Recorded at h
    split at h
    · cases ht : e.event.toState with
      | none => simp only [ht] at h
      | some v =>
        simp only [ht] at h
        exact ih (hedge _ _ h.2.1) h.2.2
    · exact ih hs h

end Path

/-! ## What the sessions record -/

/-- The session finds the state as it loaded it when it sets it. -/
def fresh : Label → View DB Resource → Prop
  | .transition l _ _, v => v.db.tenant.state = l.state
  | _, _ => True

instance (lab : Label) (v : View DB Resource) : Decidable (fresh lab v) :=
  match lab with
  | .transition l _ _ => inferInstanceAs (Decidable (v.db.tenant.state = l.state))
  | .select | .execute | .heartbeat _ | .recheck _ | .commit | .stamped _ | .cluster _ => isTrue trivial

/-- The edges of the sessions: those of `VALID_TRANSITIONS` up to `archived`, a decommission of a
tenant that never came up, and a completion of the L2 agent that comes before the first
provision. -/
def lifecycleEdge (s t : TenantState) : Prop :=
  t ∈ VALID_TRANSITIONS s ∨ t = .decommissioning ∧ (s = .pending ∨ s = .provisioning) ∨
    s = .pending ∧ (t = .active ∨ t = .degraded)

instance : DecidableRel lifecycleEdge := fun s t => by unfold lifecycleEdge; infer_instance

/-- A change of state as the code makes it. -/
def codeEdge (s t : TenantState) : Prop := s ≠ .purged ∧ s ≠ t ∧ ∃ e, Change s e t

theorem Change.ne_purged {s t : TenantState} {e : EventType} (h : Change s e t) : t ≠ .purged := by
  cases h with
  | projected c => cases c <;> decide
  | _ => decide

theorem lifecycleEdge_of_codeEdge {s t : TenantState} (h : codeEdge s t) : lifecycleEdge s t := by
  obtain ⟨hs, hne, e, hc⟩ := h
  cases hc with
  | suspended h => exact Or.inl h
  | resumed h => exact Or.inl h
  | decommissionStarted h => revert hs hne h; cases s <;> decide
  | archived h => revert hs hne h; cases s <;> decide
  | decommissionDetected h => rcases h with rfl | rfl <;> decide
  | projected c hop hne' =>
    revert hop hne'
    cases c <;> cases s <;> decide
  | _ => decide

/-- The changes that were committed lead from the creation to the committed state. -/
def Recording (db : DB) : Prop := Recorded codeEdge .pending (history db) db.tenant.state

theorem Recording.ne_purged {db : DB} (h : Recording db) : db.tenant.state ≠ .purged := by
  refine recorded_avoids ?_ (by decide) h
  rintro s t ⟨-, -, e, hc⟩
  exact hc.ne_purged

theorem Recording.transition {db : DB} (h : Recording db) {l : Loaded} {e : EventType}
    {t : TenantState} (hc : Change l.state e t) (hfresh : db.tenant.state = l.state)
    (hne : l.state ≠ t) : Recording (store.applyAll (l.transitionWrites e t) db) := by
  obtain ⟨hhist, hstate⟩ := applyAll_transition (e := e) hne db
  have hchanges : (l.entry e t).event.changes = true :=
    decide_eq_true (p := some l.state ≠ some t) fun heq => hne (Option.some.inj heq)
  have hedge : codeEdge l.state t := ⟨hfresh ▸ h.ne_purged, hne, e, hc⟩
  have hlast : Recorded codeEdge db.tenant.state [l.entry e t] t := by
    unfold Recorded
    rw [if_pos hchanges, hfresh]
    exact ⟨rfl, hedge, rfl⟩
  unfold Recording
  rw [hhist, hstate]
  exact recorded_append h hlast

theorem keeps_recording (grace session : ℕ) (req : Req) :
    Keeps store fresh Recording (serve grace session req) fun ws _ => ws = [] := by
  refine Keeps.of_row .tenant (shaped_serve grace session req fun _ => trivial) ?_ row_tenant_congr ?_
  · intro db db' hrow h
    obtain ⟨ht, hh⟩ := Prod.mk.inj (Option.some.inj hrow)
    unfold Recording at h ⊢
    rwa [← ht, ← hh]
  · intro lab db locked ws h hc hshape
    have hsame : (∀ w ∈ ws, Write.Quiet True w) → Recording (store.applyAll ws db) := by
      intro hq
      obtain ⟨hhist, hstate⟩ := applyAll_quiet hq db
      unfold Recording at h ⊢
      rwa [hhist, hstate]
    cases hshape with
    | quiet hq => exact hsame hq
    | heartbeat _ => exact hsame (by simp [Write.Quiet])
    | @transition _ l e t hchange _ =>
      by_cases hst : l.state = t
      · exact hsame (transitionWrites_quiet hst)
      · exact h.transition hchange hc hst

/-- In every run in which no session sets a state that another has changed since it loaded it,
the log is a record of the tenant's states along the edges of the code. -/
theorem changes_recorded {grace : ℕ} {cluster : Cluster} {world : List Call}
    {sys : Sys DB Write Call Label Resource Req}
    (h : Run store (serve grace) fresh (start ⟨created cluster, world⟩) sys) :
    Recorded lifecycleEdge .pending sys.shared.db.log sys.shared.db.tenant.state := by
  have h0 : Recording (created cluster) := rfl
  have hrec := Run.keeps (keeps_recording grace) h h0
  exact recorded_history.mp (recorded_mono (fun _ _ => lifecycleEdge_of_codeEdge) hrec)

def provisionThenSuspend : List (Event Req) := provisioned ++ alone 5 .suspend 3

theorem changes_recorded_provisionThenSuspend : ∃ sys,
    runEvents store (serve 900000000) fresh (start ⟨created emptyCluster, []⟩)
      provisionThenSuspend = some sys ∧
    sys.shared.db.tenant.state = .suspended ∧
    Recorded lifecycleEdge .pending sys.shared.db.log .suspended := by
  have hlast : (runEvents store (serve 900000000) fresh (start ⟨created emptyCluster, []⟩)
      provisionThenSuspend).map (·.shared.db.tenant.state) = some .suspended := by
    decide +kernel
  obtain ⟨sys, hsys, heq⟩ := Option.map_eq_some_iff.mp hlast
  exact ⟨sys, hsys, heq, heq ▸ changes_recorded (Run.of_runEvents hsys)⟩

def validTransition (s t : TenantState) : Prop := t ∈ VALID_TRANSITIONS s

instance : DecidableRel validTransition := fun s t => by unfold validTransition; infer_instance

/-- A tenant that was never provisioned is decommissioned. -/
theorem decommissionTenant_off_table : ∃ sys,
    runEvents store (serve 900000000) (fun _ _ => True) (start ⟨created emptyCluster, []⟩)
      (alone 0 .decommissionTenant 5) = some sys ∧
    sys.shared.db.tenant.state = .decommissioning ∧
    ¬ Recorded validTransition .pending sys.shared.db.log sys.shared.db.tenant.state := by
  have hlast : (runEvents store (serve 900000000) (fun _ _ => True)
      (start ⟨created emptyCluster, []⟩) (alone 0 .decommissionTenant 5)).map
      (fun sys => (sys.shared.db.tenant.state,
        decide (Recorded validTransition .pending sys.shared.db.log sys.shared.db.tenant.state))) =
      some (.decommissioning, false) := by decide +kernel
  obtain ⟨sys, hsys, heq⟩ := Option.map_eq_some_iff.mp hlast
  obtain ⟨hstate, hrec⟩ := Prod.mk.inj heq
  exact ⟨sys, hsys, hstate, of_decide_eq_false hrec⟩

end SocTalk.Provisioning
