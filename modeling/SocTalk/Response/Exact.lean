import SocTalk.Response.Dispatch
import SocTalk.Lib.Format

/-! What a dispatch is to enqueue, and when the code enqueues that. -/
namespace SocTalk.Response
open Py TriagePolicy Runs
open Provisioning.Configuration (PolicyRevision PolicyStatus latestRevision)

/-! ## Keys -/

/-- Within a run, a key names the playbook. -/
theorem playbook_of_idempotencyKey {runId id id' : String} {version version' : ℤ} {i i' : ℕ}
    (h : idempotencyKey runId id version i = idempotencyKey runId id' version' i') : id = id' := by
  have hchars := congrArg String.toList h
  unfold idempotencyKey at hchars
  simp only [String.toList_append, List.append_assoc] at hchars
  have hcolon : (":" : String).toList = [':'] := rfl
  have hat : ("@" : String).toList = ['@'] := rfl
  rw [hcolon, hat] at hchars
  have hindexed : (id.toList ++ '@' :: (toString version).toList) ++ ':' :: (toString i).toList =
      (id'.toList ++ '@' :: (toString version').toList) ++ ':' :: (toString i').toList := by
    simpa using hchars
  obtain ⟨hversioned, -⟩ := append_separator_inj (notMem_toString_nat (by decide))
    (notMem_toString_nat (by decide)) hindexed
  obtain ⟨hid, -⟩ := append_separator_inj
    (notMem_toString_int (by decide) (by decide)) (notMem_toString_int (by decide) (by decide))
    hversioned
  exact String.toList_inj.mp hid

/-! ## The outbox -/

theorem keys_insertRow (outbox : Outbox) (row : OutboxRow) (key : String) :
    key ∈ (insertRow outbox row).keys ↔ key ∈ outbox.keys ∨ key = row.idempotencyKey := by
  unfold insertRow
  split
  · rename_i hmem
    constructor
    · exact .inl
    · rintro (h | rfl)
      · exact h
      · exact hmem
  · simp [Outbox.keys]

theorem nodup_insertRow {outbox : Outbox} (h : outbox.keys.Nodup) (row : OutboxRow) :
    (insertRow outbox row).keys.Nodup := by
  unfold insertRow
  split
  · exact h
  · rename_i hnew
    unfold Outbox.keys at *
    rw [List.map_append, List.nodup_append]
    refine ⟨h, by simp, ?_⟩
    intro key hkey key' hkey' heq
    have hlast : key' = row.idempotencyKey := by simpa using hkey'
    exact hnew (hlast ▸ heq ▸ hkey)

theorem mem_insertRow {outbox : Outbox} {row row' : OutboxRow}
    (h : row' ∈ insertRow outbox row) : row' ∈ outbox ∨ row' = row := by
  unfold insertRow at h
  split at h
  · exact .inl h
  · simpa using h

theorem subset_insertRow (outbox : Outbox) (row : OutboxRow) : outbox ⊆ insertRow outbox row := by
  intro row' h
  unfold insertRow
  split
  · exact h
  · exact List.mem_append_left _ h

/-- What inserting some rows leaves. -/
structure Inserted (before : Outbox) (rows : List OutboxRow) (after : Outbox) : Prop where
  once : before.keys.Nodup → after.keys.Nodup
  kept : before ⊆ after
  new : ∀ row ∈ after, row ∈ before ∨ row ∈ rows
  keys : ∀ key, key ∈ after.keys ↔ key ∈ before.keys ∨ ∃ row ∈ rows, key = row.idempotencyKey

theorem inserted_foldl (rows : List OutboxRow) (outbox : Outbox) :
    Inserted outbox rows (rows.foldl insertRow outbox) := by
  induction rows generalizing outbox with
  | nil => exact ⟨fun h => h, fun _ h => h, fun _ h => .inl h, by simp⟩
  | cons row rows ih =>
    obtain ⟨honce, hkept, hnew, hkeys⟩ := ih (insertRow outbox row)
    constructor
    · exact fun h => honce (nodup_insertRow h row)
    · exact fun row' h => hkept (subset_insertRow outbox row h)
    · intro row' h
      rcases hnew row' h with h | h
      · rcases mem_insertRow h with h | rfl
        · exact .inl h
        · exact .inr List.mem_cons_self
      · exact .inr (List.mem_cons_of_mem _ h)
    · intro key
      rw [List.foldl_cons, hkeys, keys_insertRow]
      simp only [List.mem_cons, exists_eq_or_imp]
      tauto

/-! ## The playbooks in force -/

/-- The playbook has a revision that governs: shadow or active. -/
def GovernedByTenant (log : AuthoredLog) (id : String) : Prop :=
  ∃ row, latestRevision log.rows id = some row ∧ (row.status = .shadow ∨ row.status = .active)

/-- An active playbook of the tenant's own. -/
def ActiveAuthored (W : World) (tenantId : String) (pb : ResponsePlaybook) : Prop :=
  ∃ row, latestRevision W.log.rows row.policy = some row ∧ row.status = .active ∧
    authoredPlaybook tenantId row = some pb

/-- The active playbooks: the tenant's own, and the files' that none of its own governs. -/
def InForce (W : World) (tenantId : String) (pb : ResponsePlaybook) : Prop :=
  pb ∈ W.registry ∧ pb.status = .active ∧ ¬GovernedByTenant W.log pb.id ∨
    ActiveAuthored W tenantId pb

/-- An active file whose id the tenant's latest draft bears. -/
def ShadowedByDraft (W : World) (pb : ResponsePlaybook) : Prop :=
  pb ∈ W.registry ∧ pb.status = .active ∧
    ∃ row, latestRevision W.log.rows pb.id = some row ∧ row.status = .draft

/-- What the code takes to be in force: the files' ids must not be listed at all. -/
def Selected (W : World) (tenantId : String) (pb : ResponsePlaybook) : Prop :=
  pb ∈ W.registry ∧ pb.status = .active ∧ pb.id ∉ (listAuthored W.log).map (·.policy) ∨
    ActiveAuthored W tenantId pb

theorem mem_policies_iff {log : AuthoredLog} {id : String} :
    id ∈ (listAuthored log).map (·.policy) ↔
      ∃ row, latestRevision log.rows id = some row ∧ row.status ≠ .retired := by
  rw [List.mem_map]
  constructor
  · rintro ⟨row, hrow, rfl⟩
    exact ⟨row, mem_listAuthored.mp hrow⟩
  · intro ⟨row, hlatest, hretired⟩
    obtain rfl := (named_of_latest hlatest).1
    exact ⟨row, mem_listAuthored.mpr ⟨hlatest, hretired⟩, rfl⟩

theorem inForce_of_selected {W : World} {tenantId : String} {pb : ResponsePlaybook}
    (h : Selected W tenantId pb) : InForce W tenantId pb := by
  rcases h with ⟨hfile, hactive, hlisted⟩ | h
  · refine .inl ⟨hfile, hactive, fun ⟨row, hlatest, hstatus⟩ => hlisted ?_⟩
    refine mem_policies_iff.mpr ⟨row, hlatest, ?_⟩
    rcases hstatus with h | h <;> simp [h]
  · exact .inr h

theorem selected_or_shadowed {W : World} {tenantId : String} {pb : ResponsePlaybook}
    (h : InForce W tenantId pb) : Selected W tenantId pb ∨ ShadowedByDraft W pb := by
  rcases h with ⟨hfile, hactive, hgoverned⟩ | h
  · by_cases hlisted : pb.id ∈ (listAuthored W.log).map (·.policy)
    · obtain ⟨row, hlatest, hretired⟩ := mem_policies_iff.mp hlisted
      refine .inr ⟨hfile, hactive, row, hlatest, ?_⟩
      cases hstatus : row.status with
      | draft => rfl
      | shadow => exact absurd ⟨row, hlatest, .inl hstatus⟩ hgoverned
      | active => exact absurd ⟨row, hlatest, .inr hstatus⟩ hgoverned
      | retired => exact absurd hstatus hretired
    · exact .inl (.inl ⟨hfile, hactive, hlisted⟩)
  · exact .inl (.inr h)

theorem inForce_of_shadowed {W : World} {tenantId : String} {pb : ResponsePlaybook}
    (h : ShadowedByDraft W pb) : InForce W tenantId pb := by
  obtain ⟨hfile, hactive, row, hlatest, hdraft⟩ := h
  refine .inl ⟨hfile, hactive, fun ⟨row', hlatest', hstatus⟩ => ?_⟩
  obtain rfl : row = row' := Option.some.inj (hlatest.symm.trans hlatest')
  rcases hstatus with h | h <;> simp [hdraft] at h

theorem id_of_authoredPlaybook {log : AuthoredLog} {tenantId : String} {row : PolicyRevision Dict}
    {pb : ResponsePlaybook} (hlatest : latestRevision log.rows row.policy = some row)
    (h : authoredPlaybook tenantId row = some pb) : pb.id = row.policy := by
  unfold authoredPlaybook at h
  split at h
  · cases h
  · have hok : validateAuthored row.definition = .ok pb := by
      cases hv : validateAuthored row.definition with
      | error e => simp [hv, Except.toOption] at h
      | ok q => simpa [hv, Except.toOption] using h
    exact id_of_validateAuthored hok (named_of_latest hlatest).2

/-- No playbook that the code selects has the id of a shadowed one. -/
theorem id_ne_of_shadowed {W : World} {tenantId : String} {pb pb' : ResponsePlaybook}
    (h : ShadowedByDraft W pb) (h' : Selected W tenantId pb') : pb'.id ≠ pb.id := by
  obtain ⟨-, -, row, hlatest, hdraft⟩ := h
  intro hid
  rcases h' with ⟨-, -, hlisted⟩ | ⟨row', hlatest', hactive, hauthored⟩
  · exact hlisted (mem_policies_iff.mpr ⟨row, hid ▸ hlatest, by simp [hdraft]⟩)
  · have hpolicy := id_of_authoredPlaybook hlatest' hauthored
    rw [← hpolicy, hid, hlatest] at hlatest'
    obtain rfl := Option.some.inj hlatest'
    simp [hdraft] at hactive

/-! ## What the code selects -/

theorem setById_of_notMem {qs : List ResponsePlaybook} {pb : ResponsePlaybook}
    (h : pb.id ∉ qs.map (·.id)) : setById qs pb = qs ++ [pb] := by
  induction qs with
  | nil => rfl
  | cons q qs ih =>
    rw [List.map_cons, List.mem_cons, not_or] at h
    unfold setById
    rw [if_neg (Ne.symm h.1), ih h.2]
    rfl

/-- Merging playbooks of different ids keeps them all. -/
theorem foldl_setById {files authored : List ResponsePlaybook}
    (h : ((files ++ authored).map (·.id)).Nodup) :
    authored.foldl setById files = files ++ authored := by
  induction authored generalizing files with
  | nil => simp
  | cons pb authored ih =>
    have hsplit : files ++ pb :: authored = (files ++ [pb]) ++ authored := by simp
    have hnew : pb.id ∉ files.map (·.id) := by
      rw [List.map_append, List.nodup_append] at h
      intro hmem
      exact h.2.2 _ hmem pb.id (List.mem_map_of_mem List.mem_cons_self) rfl
    rw [List.foldl_cons, setById_of_notMem hnew, ih (hsplit ▸ h), hsplit]

theorem nodup_policies (log : AuthoredLog) : ((listAuthored log).map (·.policy)).Nodup := by
  have hlatest : (latestRevisions log.rows).Nodup := by
    refine List.Nodup.filterMap ?_ ?_
    · intro id id' row hrow hrow'
      rw [← (named_of_latest hrow).1, (named_of_latest hrow').1]
    · exact (List.perm_insertionSort _ _).nodup_iff.mpr (List.nodup_dedup _)
  refine List.Nodup.map_on ?_ (hlatest.filter _)
  intro row hrow row' hrow' hpolicy
  have hrow := (mem_listAuthored.mp hrow).1
  have hrow' := (mem_listAuthored.mp hrow').1
  exact Option.some.inj (hrow.symm.trans (hpolicy ▸ hrow'))

/-- The playbooks read off rows bear the rows' ids. -/
theorem ids_sublist {rows : List (PolicyRevision Dict)}
    {f : PolicyRevision Dict → Option ResponsePlaybook}
    (h : ∀ row ∈ rows, ∀ pb, f row = some pb → pb.id = row.policy) :
    ((rows.filterMap f).map (·.id)).Sublist (rows.map (·.policy)) := by
  induction rows with
  | nil => exact List.Sublist.refl _
  | cons row rows ih =>
    have htail := ih fun row' hrow' => h row' (List.mem_cons_of_mem _ hrow')
    cases hf : f row with
    | none =>
      rw [List.filterMap_cons_none hf]
      exact htail.cons _
    | some pb =>
      rw [List.filterMap_cons_some hf, List.map_cons, List.map_cons,
        h row List.mem_cons_self pb hf]
      exact htail.cons_cons _

theorem hasStatus_active {row : PolicyRevision Dict} :
    hasStatus row .active = true ↔ row.status = .active := by
  unfold hasStatus
  cases row.status <;> simp

/-- The tenant's own playbooks of a dispatch. -/
def authoredMatches (W : World) (tenantId : String) (t : Surface) : List ResponsePlaybook :=
  ((listAuthored W.log).filter fun row => hasStatus row .active).filterMap fun row =>
    (authoredPlaybook tenantId row).filter fun pb => playbookMatches pb t

theorem mem_authoredMatches {W : World} {tenantId : String} {t : Surface}
    {pb : ResponsePlaybook} : pb ∈ authoredMatches W tenantId t ↔
      ActiveAuthored W tenantId pb ∧ playbookMatches pb t = true := by
  unfold authoredMatches
  rw [List.mem_filterMap]
  constructor
  · intro ⟨row, hrow, hpb⟩
    obtain ⟨hlisted, hstatus⟩ := List.mem_filter.mp hrow
    obtain ⟨hauthored, hmatches⟩ := Option.filter_eq_some_iff.mp hpb
    exact ⟨⟨row, (mem_listAuthored.mp hlisted).1, hasStatus_active.mp hstatus, hauthored⟩,
      hmatches⟩
  · intro ⟨⟨row, hlatest, hactive, hauthored⟩, hmatches⟩
    have hlisted : row ∈ listAuthored W.log := mem_listAuthored.mpr ⟨hlatest, by simp [hactive]⟩
    exact ⟨row, List.mem_filter.mpr ⟨hlisted, hasStatus_active.mpr hactive⟩,
      Option.filter_eq_some_iff.mpr ⟨hauthored, hmatches⟩⟩

theorem ids_authoredMatches (W : World) (tenantId : String) (t : Surface) :
    ((authoredMatches W tenantId t).map (·.id)).Sublist
      ((listAuthored W.log).map (·.policy)) := by
  refine (ids_sublist ?_).trans (List.filter_sublist.map _)
  intro row hrow pb hpb
  have hlatest := (mem_listAuthored.mp (List.mem_filter.mp hrow).1).1
  exact id_of_authoredPlaybook hlatest (Option.filter_eq_some_iff.mp hpb).1

theorem mem_matched {W : World} {tenantId : String} {t : Surface} {pb : ResponsePlaybook} :
    pb ∈ matched W.registry tenantId W.log t .active ↔
      Selected W tenantId pb ∧ playbookMatches pb t = true := by
  let files := (matchResponsePlaybooks W.registry t .active).filter fun pb =>
    pb.id ∉ (listAuthored W.log).map (·.policy)
  have hfiles : ∀ q, q ∈ files ↔ (q ∈ W.registry ∧ q.status = .active ∧
      q.id ∉ (listAuthored W.log).map (·.policy)) ∧ playbookMatches q t = true := by
    intro q
    unfold files matchResponsePlaybooks
    rw [List.mem_filter, List.mem_filter, Bool.and_eq_true, decide_eq_true_eq, decide_eq_true_eq]
    tauto
  have hsublist := ids_authoredMatches W tenantId t
  have hnodup : ((files ++ authoredMatches W tenantId t).map (·.id)).Nodup := by
    rw [List.map_append, List.nodup_append]
    refine ⟨?_, hsublist.nodup (nodup_policies W.log), ?_⟩
    · have hfilter : files.Sublist W.registry := List.filter_sublist.trans List.filter_sublist
      exact (hfilter.map _).nodup W.registry_nodup
    · intro id hid id' hid' heq
      obtain ⟨q, hq, rfl⟩ := List.mem_map.mp hid
      exact ((hfiles q).mp hq).1.2.2 (heq ▸ hsublist.subset hid')
  have hmerged : matched W.registry tenantId W.log t .active =
      sortByPriority ((authoredMatches W tenantId t).foldl setById files) := rfl
  rw [hmerged, foldl_setById hnodup, mem_sortByPriority, List.mem_append, hfiles,
    mem_authoredMatches, ← or_and_right]
  exact Iff.rfl

/-! ## Exactness -/

/-- A row that a completed call is to enqueue: for an action, whose condition holds, of a matching
playbook in force, while nothing is switched off and the disposition is in effect. -/
def Wanted (W : World) (c : Completion) (effect : Disposition → Prop)
    (inForce : ResponsePlaybook → Prop) (row : OutboxRow) : Prop :=
  ∃ effective envelope pb i action, c.status = .completed ∧ c.effective = some effective ∧
    effect effective ∧ responseDispatchKilled W = false ∧
    buildEnvelope c.tenantId c.investigationId c.runId (c.verdict effective) c.evidence =
      .ok envelope ∧
    inForce pb ∧ playbookMatches pb (surfaceOf W envelope) = true ∧
    (pb.actionsFor (dispositionText effective))[i]? = some action ∧
    actionHolds (conditionContext envelope) action = true ∧ row = outboxRow envelope pb i action

/-- A close or an escalation of an investigation that is active takes effect. -/
def TookEffect (c : Completion) (effective : Disposition) : Prop :=
  effective ≠ .leaveOpen ∧ c.investigationActive = true

/-- An escalation of an investigation that is not active any more. -/
def LateEscalation (c : Completion) (effective : Disposition) : Prop :=
  effective = .escalate ∧ c.investigationActive = false

def Required (W : World) (c : Completion) : OutboxRow → Prop :=
  Wanted W c (TookEffect c) (InForce W c.tenantId)

/-- The outbox after a completion is as it is to be: one row for each key, nothing lost, every new
row required, and every required row enqueued, now or before. -/
structure Exact (W : World) (c : Completion) (before after : Outbox) : Prop where
  once : after.keys.Nodup
  kept : before ⊆ after
  sound : ∀ row ∈ after, row ∈ before ∨ Required W c row
  complete : ∀ row, Required W c row → row.idempotencyKey ∈ after.keys

/-- No draft stands before a file playbook that has something new to enqueue, and no escalation
with something new to enqueue comes too late. -/
structure Undisturbed (W : World) (c : Completion) (before : Outbox) : Prop where
  drafts : ∀ row, Wanted W c (TookEffect c) (ShadowedByDraft W) row →
    row.idempotencyKey ∈ before.keys
  late : ∀ row, Wanted W c (LateEscalation c) (Selected W c.tenantId) row →
    row.idempotencyKey ∈ before.keys

theorem Wanted.mono {W : World} {c : Completion} {effect effect' : Disposition → Prop}
    {inForce inForce' : ResponsePlaybook → Prop} {row : OutboxRow}
    (h : Wanted W c effect inForce row)
    (heffect : ∀ d, c.effective = some d → effect d → effect' d)
    (hforce : ∀ pb, inForce pb → inForce' pb) : Wanted W c effect' inForce' row := by
  obtain ⟨d, e, pb, i, action, hstatus, heff, hd, hkill, he, hpb, hrest⟩ := h
  exact ⟨d, e, pb, i, action, hstatus, heff, heffect d heff hd, hkill, he, hforce pb hpb, hrest⟩

/-! ## The code's rows -/

theorem mem_selectedActions {pb : ResponsePlaybook} {disposition : String} {ctx : Dict} {i : ℕ}
    {action : ResponseAction} : (i, action) ∈ selectedActions pb disposition ctx ↔
      (pb.actionsFor disposition)[i]? = some action ∧ actionHolds ctx action = true := by
  unfold selectedActions
  rw [List.mem_filter, List.mem_map]
  constructor
  · rintro ⟨⟨⟨a, j⟩, hmem, heq⟩, hholds⟩
    cases heq
    exact ⟨List.mem_zipIdx_iff_getElem?.mp hmem, hholds⟩
  · intro ⟨hget, hholds⟩
    exact ⟨⟨(action, i), List.mem_zipIdx_iff_getElem?.mpr hget, rfl⟩, hholds⟩

theorem mem_selectedRows {envelope : Envelope} {playbooks : List ResponsePlaybook}
    {row : OutboxRow} : row ∈ selectedRows envelope playbooks ↔ ∃ pb ∈ playbooks, ∃ i action,
      (pb.actionsFor envelope.verdict.effectiveDisposition)[i]? = some action ∧
      actionHolds (conditionContext envelope) action = true ∧
      row = outboxRow envelope pb i action := by
  unfold selectedRows
  rw [List.mem_flatMap]
  constructor
  · rintro ⟨pb, hpb, hrow⟩
    obtain ⟨⟨i, action⟩, hselected, rfl⟩ := List.mem_map.mp hrow
    obtain ⟨hget, hholds⟩ := mem_selectedActions.mp hselected
    exact ⟨pb, hpb, i, action, hget, hholds, rfl⟩
  · rintro ⟨pb, hpb, i, action, hget, hholds, rfl⟩
    exact ⟨pb, hpb, List.mem_map.mpr ⟨(i, action), mem_selectedActions.mpr ⟨hget, hholds⟩, rfl⟩⟩

/-- An envelope is of the run and the verdict that it is built for. -/
theorem of_buildEnvelope {tenantId investigationId runId : String} {verdict : Verdict}
    {evidence : List EvidenceRow} {e : Envelope}
    (h : buildEnvelope tenantId investigationId runId verdict evidence = .ok e) :
    e.tenantId = tenantId ∧ e.runId = runId ∧ e.verdict = verdict := by
  obtain ⟨facets, -, h⟩ := (bind_eq_ok _ _ _).mp h
  obtain ⟨vetoes, -, h⟩ := (bind_eq_ok _ _ _).mp h
  cases (pure_eq_ok _ _).mp h
  exact ⟨rfl, rfl, rfl⟩

/-- What the code's gate lets through. -/
def Gated (c : Completion) (effective : Disposition) : Prop :=
  effective ≠ .leaveOpen ∧ c.caseChanged = true

theorem gated_iff {c : Completion} {effective : Disposition} (h : c.effective = some effective) :
    Gated c effective ↔ TookEffect c effective ∨ LateEscalation c effective := by
  unfold Gated TookEffect LateEscalation Completion.caseChanged
  rw [h]
  cases effective <;> cases c.investigationActive <;> simp

theorem inserted_nil (outbox : Outbox) : Inserted outbox [] outbox :=
  inserted_foldl [] outbox

theorem completeRun_inserted (W : World) (c : Completion) (outbox : Outbox) :
    ∃ rows, Inserted outbox rows (completeRun W c outbox) ∧
      ∀ row, row ∈ rows ↔ Wanted W c (Gated c) (Selected W c.tenantId) row := by
  have hnothing : (∀ row, ¬Wanted W c (Gated c) (Selected W c.tenantId) row) →
      ∃ rows, Inserted outbox rows outbox ∧
        ∀ row, row ∈ rows ↔ Wanted W c (Gated c) (Selected W c.tenantId) row :=
    fun h => ⟨[], inserted_nil outbox, fun row => ⟨fun hmem => by simp at hmem,
      fun hwanted => absurd hwanted (h row)⟩⟩
  unfold completeRun
  cases heffective : c.effective with
  | none =>
    refine hnothing fun row ⟨d, e, pb, i, action, hstatus, heff, hrest⟩ => ?_
    simp [heffective] at heff
  | some effective =>
    dsimp only
    split
    · rename_i hgate
      obtain ⟨hstatus, hchanged, hopen⟩ := hgate
      unfold dispatchForCompletedRun
      cases henvelope : buildEnvelope c.tenantId c.investigationId c.runId (c.verdict effective)
          c.evidence with
      | error err =>
        refine hnothing fun row ⟨d, e, pb, i, action, _, heff, _, _, he, _⟩ => ?_
        obtain rfl : effective = d := Option.some.inj (heffective.symm.trans heff)
        simp [henvelope] at he
      | ok envelope =>
        simp only [bind, Except.bind, pure, Except.pure]
        cases hkilled : responseDispatchKilled W with
        | true =>
          refine hnothing fun row ⟨d, e, pb, i, action, _, _, _, hkill, _⟩ => ?_
          simp [hkilled] at hkill
        | false =>
          refine ⟨_, inserted_foldl _ outbox, fun row => ?_⟩
          rw [mem_selectedRows]
          have hverdict := (of_buildEnvelope henvelope).2.2
          have htext : envelope.verdict.effectiveDisposition = dispositionText effective := by
            rw [hverdict]
            rfl
          rw [htext]
          constructor
          · rintro ⟨pb, hpb, i, action, hget, hholds, hrow⟩
            obtain ⟨hselected, hmatches⟩ := mem_matched.mp hpb
            exact ⟨effective, envelope, pb, i, action, hstatus, heffective, ⟨hopen, hchanged⟩,
              hkilled, henvelope, hselected, hmatches, hget, hholds, hrow⟩
          · rintro ⟨d, e, pb, i, action, -, heff, -, -, he, hselected, hmatches, hget, hholds, hrow⟩
            obtain rfl : effective = d := Option.some.inj (heffective.symm.trans heff)
            obtain rfl : envelope = e := Except.ok.inj (henvelope.symm.trans he)
            exact ⟨pb, mem_matched.mpr ⟨hselected, hmatches⟩, i, action, hget, hholds, hrow⟩
    · rename_i hgate
      refine hnothing fun row ⟨d, e, pb, i, action, hstatus, heff, ⟨hopen, hchanged⟩, _⟩ => ?_
      obtain rfl : effective = d := Option.some.inj (heffective.symm.trans heff)
      exact hgate ⟨hstatus, hchanged, hopen⟩

theorem row_of_key {before after : Outbox} (hkept : before ⊆ after) (honce : after.keys.Nodup)
    {row : OutboxRow} (hrow : row ∈ after) (hkey : row.idempotencyKey ∈ before.keys) :
    row ∈ before := by
  obtain ⟨row', hrow', heq⟩ := List.mem_map.mp hkey
  have hsame : row' = row := List.inj_on_of_nodup_map honce (hkept hrow') hrow heq
  exact hsame ▸ hrow'

theorem undisturbed_of_exact {W : World} {c : Completion} {before : Outbox}
    (h : Exact W c before (completeRun W c before)) : Undisturbed W c before := by
  obtain ⟨rows, hinserted, hrows⟩ := completeRun_inserted W c before
  constructor
  · intro row hrow
    have hrequired : Required W c row :=
      hrow.mono (fun _ _ heffect => heffect) fun _ => inForce_of_shadowed
    rcases (hinserted.keys _).mp (h.complete row hrequired) with hkey | ⟨row', hrow', hkey⟩
    · exact hkey
    · obtain ⟨d, e, pb, i, action, -, heff, -, -, he, hshadowed, -, -, -, rfl⟩ := hrow
      obtain ⟨d', e', pb', i', action', -, heff', -, -, he', hselected, -, -, -, rfl⟩ :=
        (hrows row').mp hrow'
      obtain rfl : d = d' := Option.some.inj (heff.symm.trans heff')
      obtain rfl : e = e' := Except.ok.inj (he.symm.trans he')
      exact absurd (playbook_of_idempotencyKey hkey).symm (id_ne_of_shadowed hshadowed hselected)
  · intro row hrow
    have hlate : c.investigationActive = false := by
      obtain ⟨d, e, pb, i, action, -, -, hlate, -⟩ := hrow
      exact hlate.2
    have hmem : row ∈ rows := (hrows row).mpr
      (hrow.mono (fun d heff hd => (gated_iff heff).mpr (.inr hd)) fun _ hpb => hpb)
    have hkey : row.idempotencyKey ∈ (completeRun W c before).keys :=
      (hinserted.keys _).mpr (.inr ⟨row, hmem, rfl⟩)
    obtain ⟨row', hrow', heq⟩ := List.mem_map.mp hkey
    rcases h.sound row' hrow' with hbefore | hrequired
    · exact heq ▸ List.mem_map_of_mem hbefore
    · obtain ⟨d, e, pb, i, action, -, -, hactive, -⟩ := hrequired
      exact absurd hactive.2 (by simp [hlate])

theorem exact_of_undisturbed {W : World} {c : Completion} {before : Outbox}
    (hbefore : before.keys.Nodup) (h : Undisturbed W c before) :
    Exact W c before (completeRun W c before) := by
  obtain ⟨rows, hinserted, hrows⟩ := completeRun_inserted W c before
  have honce := hinserted.once hbefore
  constructor
  · exact honce
  · exact hinserted.kept
  · intro row hrow
    rcases hinserted.new row hrow with hold | hnew
    · exact .inl hold
    · have hwanted := (hrows row).mp hnew
      obtain ⟨d, e, pb, i, action, hstatus, heff, hgated, hrest⟩ := hwanted
      rcases (gated_iff heff).mp hgated with heffect | hlate
      · have hselected : Wanted W c (TookEffect c) (Selected W c.tenantId) row :=
          ⟨d, e, pb, i, action, hstatus, heff, heffect, hrest⟩
        exact .inr (hselected.mono (fun _ _ hd => hd) fun _ => inForce_of_selected)
      · have hkey := h.late row ⟨d, e, pb, i, action, hstatus, heff, hlate, hrest⟩
        exact .inl (row_of_key hinserted.kept honce hrow hkey)
  · intro row hrequired
    obtain ⟨d, e, pb, i, action, hstatus, heff, heffect, hkill, he, hforce, hrest⟩ := hrequired
    rw [hinserted.keys]
    rcases selected_or_shadowed hforce with hselected | hshadowed
    · have hgated := (gated_iff heff).mpr (.inl heffect)
      have hmem := (hrows row).mpr
        ⟨d, e, pb, i, action, hstatus, heff, hgated, hkill, he, hselected, hrest⟩
      exact .inr ⟨row, hmem, rfl⟩
    · exact .inl (h.drafts row
        ⟨d, e, pb, i, action, hstatus, heff, heffect, hkill, he, hshadowed, hrest⟩)

/-- Completions one after the other, each with what it finds. -/
def completeRuns (steps : List (World × Completion)) (outbox : Outbox) : Outbox :=
  steps.foldl (fun outbox step => completeRun step.1 step.2 outbox) outbox

theorem nodup_completeRuns (steps : List (World × Completion)) {outbox : Outbox}
    (h : outbox.keys.Nodup) : (completeRuns steps outbox).keys.Nodup := by
  induction steps generalizing outbox with
  | nil => exact h
  | cons step steps ih =>
    obtain ⟨rows, hinserted, -⟩ := completeRun_inserted step.1 step.2 outbox
    exact ih (hinserted.once h)

/-- After any completions and repetitions, each action of a playbook's version is enqueued at most
once for a run; and one more enqueues exactly what it is to, if and only if it is undisturbed. -/
theorem dispatch_exact_iff (steps : List (World × Completion)) (W : World) (c : Completion) :
    (∀ runId id version i, ((completeRuns steps []).filter fun row =>
      row.idempotencyKey = idempotencyKey runId id version i).length ≤ 1) ∧
    (Exact W c (completeRuns steps []) (completeRun W c (completeRuns steps [])) ↔
      Undisturbed W c (completeRuns steps [])) := by
  have hnodup : (completeRuns steps []).keys.Nodup := nodup_completeRuns steps List.nodup_nil
  constructor
  · intro runId id version i
    have hcount := List.nodup_iff_count_le_one.mp hnodup (idempotencyKey runId id version i)
    unfold Outbox.keys at hcount
    rw [List.count, List.countP_map, List.countP_eq_length_filter] at hcount
    simpa [Function.comp_def, beq_eq_decide] using hcount
  · exact ⟨undisturbed_of_exact, exact_of_undisturbed hnodup⟩

/-! A tenant that drafts over an active file playbook. -/

theorem contain_length : 1 ≤ "contain".length ∧ "contain".length ≤ 128 := by decide

theorem vetted_externalAction : (capabilityOf "external_action").isSome = true := by decide +kernel

theorem unconditional : ∀ c ∈ (none : Option Value), validateConditionOver responseStateContract c = true := by
  simp

def externalAction : ResponseAction where
  capability := "external_action"
  vetted := vetted_externalAction
  condition_valid := unconditional

theorem contain_lengths : [externalAction].length ≤ 8 ∧ ([] : List ResponseAction).length ≤ 4 := by decide

theorem silent_lengths : ([] : List ResponseAction).length ≤ 8 ∧ ([] : List ResponseAction).length ≤ 4 := by
  decide

theorem silent_onClose : ∀ action ∈ ([] : List ResponseAction), action.capability ∈ onCloseAllowed := by simp

/-- The file: each escalation calls an operator's endpoint. -/
def containPlaybook : ResponsePlaybook where
  id := "contain"
  id_length := contain_length
  response := { onEscalate := [externalAction], lengths := contain_lengths, close_tier := silent_onClose }

/-- A first draft under the same id, without any action yet. -/
def containDraft : ResponsePlaybook where
  id := "contain"
  id_length := contain_length
  tenant := "t1"
  status := .shadow
  response := { lengths := silent_lengths, close_tier := silent_onClose }

def draftedOver : World where
  registry := [containPlaybook]
  registry_nodup := by simp
  log := [⟨⟨"contain", 1, .draft, containDraft.dump⟩, rfl⟩]

def escalated : Completion where
  tenantId := "t1"
  investigationId := "c1"
  runId := "r1"
  status := .completed
  disposition := some .escalate
  investigationActive := true

/-- The draft silences the active file of its id. -/
theorem not_exact_draftedOver :
    ¬ ∀ (W : World) (c : Completion), Exact W c [] (completeRun W c []) := by
  intro hall
  have hnone : (completeRun draftedOver escalated []).keys = [] := by decide +kernel
  have hlatest : latestRevision draftedOver.log.rows "contain" =
      some ⟨"contain", 1, .draft, containDraft.dump⟩ := rfl
  have hgoverned : ¬GovernedByTenant draftedOver.log "contain" := by
    rintro ⟨row, hrow, hstatus⟩
    obtain rfl := Option.some.inj (hlatest.symm.trans hrow)
    simp at hstatus
  have hforce : InForce draftedOver "t1" containPlaybook :=
    .inl ⟨List.mem_cons_self, rfl, hgoverned⟩
  let envelope : Envelope := ⟨"t1", "c1", "r1", escalated.verdict .escalate, [], {}⟩
  let action : ResponseAction := { capability := "external_action", vetted := by decide +kernel,
                                   condition_valid := by simp }
  have hrequired : Required draftedOver escalated (outboxRow envelope containPlaybook 0 action) :=
    ⟨.escalate, envelope, containPlaybook, 0, action, rfl, rfl, ⟨by simp, rfl⟩, by decide +kernel,
      rfl, hforce, by decide +kernel, rfl, rfl, rfl⟩
  have hkey := (hall draftedOver escalated).complete _ hrequired
  rw [hnone] at hkey
  cases hkey

end SocTalk.Response
