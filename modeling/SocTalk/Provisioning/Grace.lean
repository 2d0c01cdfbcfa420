import SocTalk.Provisioning.Edges

/-! The grace clock of drift repair: the marker in the runtime against the time the namespace has
really been absent. -/
namespace SocTalk.Provisioning
open ReadCommitted

def DB.marker (db : DB) : Option ℕ := db.tenant.runtime.namespaceMissingSince

/-- The namespace has been absent for the whole of the last `grace`. -/
def AbsentFor (grace : ℕ) (c : Cluster) : Prop := ∃ since, c.absentSince = some since ∧ since + grace ≤ c.clock

instance (grace : ℕ) (c : Cluster) : Decidable (AbsentFor grace c) :=
  match h : c.absentSince with
  | none => isFalse fun ⟨_, hs, _⟩ => by rw [h] at hs; cases hs
  | some since =>
    decidable_of_iff (since + grace ≤ c.clock)
      ⟨fun hle => ⟨since, h, hle⟩, fun ⟨_, hs, hle⟩ => by rw [h] at hs; cases hs; exact hle⟩

/-- Each archival for missing workloads was decided in the full grace. -/
def ArchivedInTime (grace : ℕ) (es : List Entry) : Prop :=
  ∀ e ∈ es, e.event.eventType = .decommissionDetected → AbsentFor grace e.cluster

instance (grace : ℕ) (es : List Entry) : Decidable (ArchivedInTime grace es) := by
  unfold ArchivedInTime; infer_instance

/-- A marker is acted on, or written back by a heartbeat, only as it is stored; it is acted on
while the namespace is absent; and the namespace goes missing only when no marker is stored or
being stored. -/
def continuous : Label → View DB Resource → Prop
  | .recheck l, v => l.marker ≠ none → v.db.cluster.absentSince ≠ none ∧ v.db.marker = l.marker
  | .heartbeat l, v => v.db.marker = l.marker
  | .stamped now, v => ∀ since ∈ v.db.cluster.absentSince, since ≤ now
  | .cluster .vanish, v => v.db.cluster.absentSince = none → v.db.marker = none
  | _, _ => True

instance (lab : Label) (v : View DB Resource) : Decidable (continuous lab v) :=
  match lab with
  | .recheck l => inferInstanceAs (Decidable (l.marker ≠ none →
      v.db.cluster.absentSince ≠ none ∧ v.db.marker = l.marker))
  | .heartbeat l => inferInstanceAs (Decidable (v.db.marker = l.marker))
  | .stamped now => inferInstanceAs (Decidable (∀ since ∈ v.db.cluster.absentSince, since ≤ now))
  | .cluster .vanish => inferInstanceAs (Decidable (v.db.cluster.absentSince = none → v.db.marker = none))
  | .cluster (.tick _) | .cluster .appear | .cluster (.pods _) | .cluster (.reachable _) => isTrue trivial
  | .select | .execute | .transition _ _ _ | .commit => isTrue trivial

/-! ## The invariant -/

/-- A marker is no older than the absence, and no archival came early. -/
structure Graced (grace : ℕ) (db : DB) : Prop where
  marker : ∀ m since, db.marker = some m → db.cluster.absentSince = some since → since ≤ m
  archived : ArchivedInTime grace (history db)

/-- The writes pending against the committed rows leave the stored marker, clear it, or stamp a
new one; the cluster is not theirs to change. -/
structure Pending (grace : ℕ) (stamp : Option ℕ) (ws : List Write) (db : DB) : Prop where
  marker : ∀ m, (store.applyAll ws db).marker = some m → db.marker = some m ∨ stamp = some m
  archived : ArchivedInTime grace (history (store.applyAll ws db))
  cluster : ∀ change, .cluster change ∉ ws

variable {grace : ℕ} {stamp : Option ℕ}

theorem stable_pending : Stable store (Graced grace) (Pending grace stamp) := by
  intro ws db db' _ hI' hheld h
  rcases store.row_stable row_tenant_congr hheld with hfree | ⟨hsame, hview⟩
  · obtain ⟨ht, hh⟩ := Prod.mk.inj (Option.some.inj hfree)
    refine ⟨fun m hm => Or.inl ?_, hh ▸ hI'.archived, h.cluster⟩
    unfold DB.marker at hm ⊢
    rwa [ht] at hm
  · obtain ⟨ht, -⟩ := Prod.mk.inj (Option.some.inj hsame)
    obtain ⟨ht', hh'⟩ := Prod.mk.inj (Option.some.inj hview)
    refine ⟨fun m hm => ?_, hh' ▸ h.archived, h.cluster⟩
    have hmark := h.marker m
    unfold DB.marker at hm hmark ⊢
    rw [ht'] at hm
    rw [ht]
    exact hmark hm

theorem cluster_applyAll {ws : List Write} (h : ∀ change, .cluster change ∉ ws) (db : DB) :
    (store.applyAll ws db).cluster = db.cluster := by
  induction ws generalizing db with
  | nil => rfl
  | cons w ws ih =>
    have hw : (w.apply db).cluster = db.cluster := by
      cases w with
      | cluster change => exact absurd List.mem_cons_self (h change)
      | _ => rfl
    rw [Store.applyAll_cons]
    exact (ih (fun change hmem => h change (List.mem_cons_of_mem _ hmem)) (w.apply db)).trans hw

theorem Pending.commit {ws : List Write} {db : DB} (h : Pending grace stamp ws db)
    (hI : Graced grace db) (hstamp : ∀ now since, stamp = some now →
      db.cluster.absentSince = some since → since ≤ now) : Graced grace (store.applyAll ws db) := by
  refine ⟨fun m since hm hs => ?_, h.archived⟩
  rw [cluster_applyAll h.cluster] at hs
  rcases h.marker m hm with hold | hnew
  · exact hI.marker m since hold hs
  · exact hstamp m since hnew hs

/-! ## What the statements keep -/

theorem marker_applyAll_quiet {ws : List Write} (h : ∀ w ∈ ws, w.Quiet False) {db : DB} {m : ℕ}
    (hm : (store.applyAll ws db).marker = some m) : db.marker = some m := by
  induction ws generalizing db with
  | nil => exact hm
  | cons w ws ih =>
    have hnext := ih (fun w' hw' => h w' (List.mem_cons_of_mem w hw')) hm
    have hw := h w List.mem_cons_self
    cases w with
    | setRuntime runtime =>
      rcases hw with hnone | hfalse
      · have hcleared : runtime.namespaceMissingSince = some m := hnext
        rw [hnone] at hcleared
        cases hcleared
      · exact hfalse.elim
    | _ => exact hnext

theorem Pending.quiet {ws ws' : List Write} {db : DB} (h : Pending grace stamp ws db)
    (hq : ∀ w ∈ ws', w.Quiet False) : Pending grace stamp (ws ++ ws') db := by
  constructor
  · intro m hm
    rw [Store.applyAll_append] at hm
    exact h.marker m (marker_applyAll_quiet hq hm)
  · rw [Store.applyAll_append, (applyAll_quiet hq _).1]
    exact h.archived
  · intro change hmem
    rcases List.mem_append.mp hmem with hmem | hmem
    · exact h.cluster change hmem
    · exact hq _ hmem

theorem Pending.setRuntime {ws : List Write} {db : DB} (h : Pending grace stamp ws db)
    {runtime : Runtime} {stamp' : Option ℕ} (hm : ∀ m, runtime.namespaceMissingSince = some m →
      db.marker = some m ∨ stamp' = some m) :
    Pending grace stamp' (ws ++ [.setRuntime runtime]) db := by
  constructor
  · intro m hmark
    rw [Store.applyAll_append] at hmark
    exact hm m hmark
  · rw [Store.applyAll_append]
    exact h.archived
  · intro change hmem
    rcases List.mem_append.mp hmem with hmem | hmem
    · exact h.cluster change hmem
    · cases List.mem_singleton.mp hmem

theorem Pending.transition {ws : List Write} {db : DB} (h : Pending grace stamp ws db)
    {l : Loaded} {e : EventType} {t : TenantState}
    (he : e = .decommissionDetected → AbsentFor grace l.cluster) :
    Pending grace stamp (ws ++ l.transitionWrites e t) db := by
  have hmark : ∀ db : DB, (store.applyAll (l.transitionWrites e t) db).marker = db.marker := by
    intro db
    unfold Loaded.transitionWrites
    split <;> rfl
  constructor
  · intro m hm
    rw [Store.applyAll_append, hmark] at hm
    exact h.marker m hm
  · rw [Store.applyAll_append]
    by_cases hst : l.state = t
    · rw [(applyAll_quiet (transitionWrites_quiet hst) _).1]
      exact h.archived
    · rw [(applyAll_transition hst _).1]
      intro x hx hdet
      rcases List.mem_append.mp hx with hx | hx
      · exact h.archived x hx hdet
      · obtain rfl := List.mem_singleton.mp hx
        exact he hdet
  · intro change hmem
    rcases List.mem_append.mp hmem with hmem | hmem
    · exact h.cluster change hmem
    · unfold Loaded.transitionWrites at hmem
      split at hmem <;> simp at hmem

theorem keeps_commit {lab : Label} : Keeps store continuous (Graced grace) (.commit lab : Program)
    (Pending grace none) := fun _ _ _ hI h _ => h.commit hI fun _ _ hs => by cases hs

/-- Every session but the repair of a missing namespace leaves the marker to be what is stored. -/
theorem keeps_of_shaped {prog : Program} (h : Shaped (Shape False) prog) :
    Keeps store continuous (Graced grace) prog (Pending grace none) := by
  refine Keeps.of_shaped h stable_pending ?_ fun ws db hI hP => hP.commit hI fun _ _ hs => by cases hs
  intro lab ws db locked ws' _ hP hc hshape
  cases hshape with
  | quiet hq => exact hP.quiet hq
  | transition _ he => exact hP.transition fun heq => (he heq).elim
  | @heartbeat _ l runtime hm =>
    refine hP.setRuntime fun m hmark => ?_
    have hstored : (store.applyAll ws db).marker = l.marker := hc
    exact hP.marker m (by rw [hstored, ← hm, hmark])

section Statements

variable {next : Program}

theorem keeps_select {next : View DB Resource → Program}
    (h : ∀ v, Keeps store continuous (Graced grace) (next v) (Pending grace stamp)) :
    Keeps store continuous (Graced grace) (select next) (Pending grace stamp) := by
  intro ws db locked _ hP _
  refine ⟨Pending grace stamp, stable_pending, ?_, h _⟩
  rw [List.append_nil]
  exact hP

theorem keeps_load {next : Loaded → Program}
    (h : ∀ l, Keeps store continuous (Graced grace) (next l) (Pending grace stamp)) :
    Keeps store continuous (Graced grace) (load next) (Pending grace stamp) :=
  keeps_select fun _ => h _

theorem keeps_transition {l : Loaded} {e : EventType} {t : TenantState} {next : Loaded → Program}
    (he : e = .decommissionDetected → AbsentFor grace l.cluster)
    (h : Keeps store continuous (Graced grace) (next (l.withState t)) (Pending grace stamp)) :
    Keeps store continuous (Graced grace) (transition l t e next) (Pending grace stamp) :=
  fun _ _ _ _ hP _ => ⟨Pending grace stamp, stable_pending, hP.transition he, h⟩

theorem keeps_stamped (now : ℕ) : Keeps store continuous (Graced grace)
    (.commit (.stamped now) : Program) (Pending grace (some now)) := by
  intro ws db locked hI hP hc
  refine hP.commit hI fun m since hm hs => ?_
  obtain rfl := Option.some.inj hm
  exact hc since hs

end Statements

/-! ## The sweep -/

theorem keeps_finalizeArchive {l : Loaded} (hl : sweeps l.state)
    (h : l.state ≠ .decommissioning → AbsentFor grace l.cluster) :
    Keeps store continuous (Graced grace) (finalizeArchive l) (Pending grace none) := by
  by_cases hd : l.state = .decommissioning
  · exact keeps_of_shaped (shaped_finalizeArchive hl fun hne => hne hd)
  · have hrest := shaped_finalizeArchive (p := False)
      (l := l.withState .decommissioning) rfl fun hne => hne rfl
    unfold finalizeArchive at hrest ⊢
    rw [if_neg hd]
    exact keeps_transition (fun _ => h hd) (keeps_of_shaped hrest)

theorem keeps_reconcileMissingNamespace (l : Loaded) :
    Keeps store continuous (Graced grace) (reconcileMissingNamespace grace l)
      (Pending grace none) := by
  intro ws db locked _ hP _
  refine ⟨Pending grace none, stable_pending, hP.quiet (by simp [Write.Quiet]), ?_⟩
  intro ws db locked hI hP hc
  refine ⟨Pending grace none, stable_pending, ?_, ?_⟩
  · rw [List.append_nil]
    exact hP
  · dsimp only
    split
    · trivial
    · rename_i hguard
      have hl : sweeps l.state := by
        by_contra hno
        exact hguard (by simp [hno])
      split
      · rename_i hd
        exact keeps_finalizeArchive hl fun hne => absurd hd hne
      · split
        · rename_i since hmark
          split
          · rename_i hle
            refine keeps_finalizeArchive hl fun _ => ?_
            obtain ⟨habsent, hstored⟩ := hc (by rw [hmark]; simp)
            obtain ⟨t, ht⟩ := Option.ne_none_iff_exists'.mp habsent
            have hview : (store.applyAll ws db).marker = some since := hstored.trans hmark
            have hmarker : db.marker = some since := by
              rcases hP.marker since hview with hold | hnew
              · exact hold
              · cases hnew
            have hclock := cluster_applyAll hP.cluster db
            have htle : t ≤ since := hI.marker since t hmarker (hclock ▸ ht)
            have hle : since + grace ≤ (store.applyAll ws db).cluster.clock := hle
            have hsum : t + grace ≤ (store.applyAll ws db).cluster.clock := by omega
            exact ⟨t, ht, hsum⟩
          · exact keeps_commit
        · intro ws db locked _ hP _
          refine ⟨Pending grace (some _), stable_pending,
            hP.setRuntime fun m hm => Or.inr hm, ?_⟩
          split
          · exact keeps_transition (by simp) (keeps_stamped _)
          · exact keeps_stamped _

theorem keeps_syncState : Keeps store continuous (Graced grace) (syncState grace)
    (Pending grace none) := by
  refine keeps_load fun l => ?_
  split
  · trivial
  refine keeps_select fun v => ?_
  split
  · trivial
  refine keeps_select fun v => ?_
  split
  · trivial
  split
  · exact keeps_reconcileMissingNamespace _
  refine keeps_select fun v => ?_
  split
  · trivial
  · exact keeps_of_shaped (shaped_reconcilePresentNamespace _ _)

theorem keeps_cluster (change : ClusterChange) : Keeps store continuous (Graced grace)
    (.stmt .execute (fun _ => [.cluster change]) fun _ => .commit (.cluster change) : Program)
    fun ws _ => ws = [] := by
  rintro ws db locked - rfl -
  refine ⟨fun ws _ => ws = [.cluster change], fun _ _ _ _ _ _ h => h, rfl, ?_⟩
  rintro ws db locked hI rfl hc
  refine ⟨fun m since hmark habs => ?_, hI.archived⟩
  have hold : db.marker = some m := hmark
  have hnow : (db.cluster.change change).absentSince = some since := habs
  cases change with
  | appear => cases hnow
  | vanish =>
    cases hbefore : db.cluster.absentSince with
    | none =>
      have hnone : db.marker = none := hc hbefore
      rw [hold] at hnone
      cases hnone
    | some t =>
      refine hI.marker m since hold ?_
      simpa [Cluster.change, hbefore] using hnow
  | _ => exact hI.marker m since hold hnow

theorem keeps_graced (session : ℕ) (req : Req) :
    Keeps store continuous (Graced grace) (serve grace session req) fun ws _ => ws = [] := by
  have hstart : ∀ {prog : Program}, Keeps store continuous (Graced grace) prog (Pending grace none) →
      Keeps store continuous (Graced grace) prog fun ws _ => ws = [] := by
    intro prog h
    refine h.mono ?_
    rintro ws db hI rfl
    exact ⟨fun m hm => Or.inl hm, hI.archived, fun _ hmem => by cases hmem⟩
  cases req with
  | syncState => exact hstart keeps_syncState
  | cluster change => exact keeps_cluster change
  | _ => exact hstart (keeps_of_shaped (shaped_serve grace session _ fun h => h))

/-- In a run whose markers are fresh, every archival for missing workloads follows an absence of
the full grace. -/
theorem archived_after_grace {cluster : Cluster} {world : List Call}
    {sys : Sys DB Write Call Label Resource Req}
    (h : Run store (serve grace) continuous (start ⟨created cluster, world⟩) sys) :
    ArchivedInTime grace (history sys.shared.db) := by
  have h0 : Graced grace (created cluster) :=
    ⟨fun m since hm => (by cases hm), fun e he => (by cases he)⟩
  exact (Run.keeps keeps_graced h h0).archived

/-- The namespace goes missing; the sweep degrades the tenant and, a grace later, archives it. -/
def missingForGood : List (Event Req) :=
  provisioned ++ alone 5 (.cluster .vanish) 2 ++ alone 6 .syncState 8 ++
  alone 7 (.cluster (.tick 900000000)) 2 ++ alone 8 .syncState 9

theorem archived_after_grace_missingForGood : ∃ sys,
    runEvents store (serve 900000000) continuous (start ⟨created emptyCluster, []⟩)
      missingForGood = some sys ∧
    sys.shared.db.tenant.state = .archived ∧
    ArchivedInTime 900000000 (history sys.shared.db) := by
  have hlast : (runEvents store (serve 900000000) continuous (start ⟨created emptyCluster, []⟩)
      missingForGood).map (·.shared.db.tenant.state) = some .archived := by
    decide +kernel
  obtain ⟨sys, hsys, heq⟩ := Option.map_eq_some_iff.mp hlast
  exact ⟨sys, hsys, heq, archived_after_grace (Run.of_runEvents hsys)⟩

/-- The sweep has stamped its marker; a retried provision recreates the namespace and activates
the tenant; after the grace the namespace is missing for an instant. -/
def missingAfterRetry : List (Event Req) :=
  provisioned ++ alone 5 (.cluster .vanish) 2 ++ alone 6 .syncState 8 ++
  alone 7 .retryProvisioning 5 ++ alone 8 (.claim 1) 2 ++ alone 9 (.cluster .appear) 2 ++
  alone 10 (.provision .poc passes) 22 ++ alone 11 (.recordSuccess 1) 2 ++
  alone 12 (.cluster (.tick 900000000)) 2 ++ alone 13 (.cluster .vanish) 2 ++
  alone 14 .syncState 9

theorem archived_missingAfterRetry : ∃ sys,
    runEvents store (serve 900000000) (fun _ _ => True) (start ⟨created emptyCluster, []⟩)
      missingAfterRetry = some sys ∧
    sys.shared.db.tenant.state = .archived ∧
    sys.shared.db.cluster.absentSince = some sys.shared.db.cluster.clock ∧
    ¬ ArchivedInTime 900000000 (history sys.shared.db) := by
  have hlast : (runEvents store (serve 900000000) (fun _ _ => True)
      (start ⟨created emptyCluster, []⟩) missingAfterRetry).map
      (fun sys => (sys.shared.db.tenant.state,
        decide (sys.shared.db.cluster.absentSince = some sys.shared.db.cluster.clock),
        decide (ArchivedInTime 900000000 (history sys.shared.db)))) =
      some (.archived, true, false) := by decide +kernel
  obtain ⟨sys, hsys, heq⟩ := Option.map_eq_some_iff.mp hlast
  obtain ⟨hstate, hrest⟩ := Prod.mk.inj heq
  obtain ⟨habsent, htime⟩ := Prod.mk.inj hrest
  exact ⟨sys, hsys, hstate, of_decide_eq_true habsent, of_decide_eq_false htime⟩

end SocTalk.Provisioning
