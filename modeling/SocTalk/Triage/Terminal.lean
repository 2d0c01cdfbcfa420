import SocTalk.Lib.Transition
import SocTalk.Triage.Lifecycle

/-! An investigation that an analyst cancelled or merged away: which operations can still
change it, and that no other does. -/
namespace SocTalk.Triage
open Py Reviews Transition

/-- What an analyst's cancellation or merge leaves. -/
def TerminalByAnalyst (status : InvestigationStatus) : Prop :=
  status = cancelledStatus ∨ status = closedStatus

/-- A run of the investigation that the claim query could hand out. -/
def Claimable (db : DB) (investigation : ℕ) : Prop :=
  ∃ r ∈ db.runs, r.investigationId = investigation ∧ r.live = true ∧
    ∃ i ∈ db.investigations, i.id = investigation ∧ i.status = .active

/-- From `s` to `t` the status is as it was, no run is claimable, and the alerts linked to the
investigation are among those it had, unchanged. -/
structure StaysTerminal (s t : Cases) (investigation : ℕ) (status : InvestigationStatus) :
    Prop where
  status : ∀ i ∈ t.db.investigations, i.id = investigation → i.status = status
  noRun : ¬Claimable t.db investigation
  noAlert : ∀ a ∈ t.db.alerts, a.investigationId = some investigation → a ∈ s.db.alerts

/-- The alert an event is coalesced into: a new one, or a promoted one of a case that is not a
closed false positive. -/
def coalesceTarget (ctx : Context) (db : DB) (e : Ingest) (ts : ℤ) : Option Alert :=
  let signature := alertSignature ctx e.ruleId e.assetIds ts
  match db.alerts.find? fun a : Alert =>
    a.tenant == e.tenant && a.signature == signature && a.status == .new with
  | some existing => some existing
  | none =>
    match promotedAlert db e.tenant signature with
    | some (existing, investigation) =>
      if investigation.status = .autoClosedFp then none else some existing
    | none => none

def Unlinked (db : DB) (alert investigation : ℕ) : Prop :=
  ∀ a ∈ db.alerts, a.id = alert → a.investigationId ≠ some investigation

/-- The condition on an operation: no event is coalesced into an alert of the investigation,
no review of it is rejected, and no merge puts other alerts into it or closes it again under
another status. -/
def LeavesAlone (investigation : ℕ) (s : Cases) : CaseOp → Prop
  | .ingest ctx e =>
    (reserveSourceEvent s.db e (e.ts.getD ctx.now)).isSome = true →
      ∀ a ∈ coalesceTarget ctx s.db e (e.ts.getD ctx.now), Unlinked s.db a.id investigation
  | .decide _ review decision => decision = .reject →
    ∀ r ∈ s.reviews.find? fun r => r.id == review, r.investigationId = investigation →
        ∀ i ∈ s.db.investigations, i.id = investigation → i.tenant ≠ r.tenant
  | .merge _ tenant keep other =>
    (other = investigation → ∀ i ∈ s.db.investigations, i.id = investigation →
      i.tenant = tenant → i.status = closedStatus) ∧
    (keep = investigation → other ≠ investigation →
      ∀ a ∈ s.db.alerts, a.tenant = tenant → a.investigationId ≠ some other)
  | _ => True

/-! ## What a transaction keeps -/

section Steady

variable {x : ℕ} {st : InvestigationStatus} {db db' db'' : DB}

/-- The rows of the investigation have the status, and ids are minted from `nextId` on. -/
structure Held (x : ℕ) (st : InvestigationStatus) (db : DB) : Prop where
  status : ∀ i ∈ db.investigations, i.id = x → i.status = st
  minted : x < db.nextId
  alerts : ∀ a ∈ db.alerts, a.id < db.nextId

/-- The status is kept and no alert is linked or changed while linked. -/
structure Steady (x : ℕ) (st : InvestigationStatus) (db db' : DB) : Prop where
  held : Held x st db'
  linked : ∀ a ∈ db'.alerts, a.investigationId = some x → a ∈ db.alerts

theorem Held.steady (h : Held x st db) : Steady x st db db := ⟨h, fun _ ha _ => ha⟩

theorem Steady.trans (h : Steady x st db db') (h' : Steady x st db' db'') :
    Steady x st db db'' :=
  ⟨h'.held, fun a ha hlink => h.linked a (h'.linked a ha hlink) hlink⟩

/-- Other tables may change. -/
theorem Held.same (h : Held x st db) (hinvestigations : db'.investigations = db.investigations)
    (halerts : db'.alerts = db.alerts) (hnext : db.nextId ≤ db'.nextId) : Steady x st db db' := by
  refine ⟨⟨?_, lt_of_lt_of_le h.minted hnext, ?_⟩, ?_⟩
  · rw [hinvestigations]
    exact h.status
  · rw [halerts]
    exact fun a ha => lt_of_lt_of_le (h.alerts a ha) hnext
  · rw [halerts]
    exact fun a ha _ => ha

/-- Alerts may change that do not end up linked to the investigation. -/
theorem Held.mapAlerts (h : Held x st db) (f : Alert → Alert) (hid : ∀ a, (f a).id = a.id)
    (hlink : ∀ a ∈ db.alerts, (f a).investigationId = some x → f a = a) :
    Steady x st db { db with alerts := db.alerts.map f } := by
  refine ⟨⟨h.status, h.minted, ?_⟩, ?_⟩
  · intro a' ha'
    obtain ⟨a, ha, rfl⟩ := List.mem_map.mp ha'
    rw [hid]
    exact h.alerts a ha
  · intro a' ha' hx
    obtain ⟨a, ha, rfl⟩ := List.mem_map.mp ha'
    rw [hlink a ha hx]
    exact ha

theorem Held.updateAlert (h : Held x st db) (id : ℕ) (f : Alert → Alert)
    (hid : ∀ a, (f a).id = a.id)
    (hlink : ∀ a ∈ db.alerts, a.id = id → (f a).investigationId ≠ some x) :
    Steady x st db (db.updateAlert id f) := by
  apply h.mapAlerts
  · intro a
    split
    · exact hid a
    · rfl
  · intro a ha hx
    split at hx
    · rename_i heq
      exact absurd hx (hlink a ha heq)
    · rename_i hne
      exact if_neg hne

theorem Held.updateInvestigation (h : Held x st db) (id : ℕ) (f : Investigation → Investigation)
    (hid : ∀ i, (f i).id = i.id)
    (hstatus : ∀ i ∈ db.investigations, i.id = id → id = x → (f i).status = i.status) :
    Steady x st db (db.updateInvestigation id f) := by
  refine ⟨⟨?_, h.minted, h.alerts⟩, fun _ ha _ => ha⟩
  intro i' hi' hx
  obtain ⟨i, hi, rfl⟩ := List.mem_map.mp hi'
  by_cases heq : i.id = id
  · rw [if_pos heq] at hx ⊢
    rw [hid] at hx
    rw [hstatus i hi heq (heq.symm.trans hx)]
    exact h.status i hi hx
  · rw [if_neg heq] at hx ⊢
    exact h.status i hi hx

/-- A new investigation gets an id of its own. -/
theorem Held.openInvestigation (h : Held x st db) (i : Investigation) (hid : i.id = db.nextId) :
    Steady x st db { db with
      investigations := db.investigations ++ [i], nextId := db.nextId + 1 } := by
  have hminted := h.minted
  refine ⟨⟨?_, Nat.lt_succ_of_lt hminted, fun a ha => Nat.lt_succ_of_lt (h.alerts a ha)⟩,
    fun _ ha _ => ha⟩
  intro j hj hx
  rcases List.mem_append.mp hj with hj | hj
  · exact h.status j hj hx
  · obtain rfl := List.mem_singleton.mp hj
    omega

theorem Held.insertAlert (h : Held x st db) (a : Alert) (hid : a.id = db.nextId)
    (hlink : a.investigationId = none) :
    Steady x st db { db with alerts := db.alerts ++ [a], nextId := db.nextId + 1 } := by
  refine ⟨⟨h.status, Nat.lt_succ_of_lt h.minted, ?_⟩, ?_⟩
  · intro b hb
    rcases List.mem_append.mp hb with hb | hb
    · exact Nat.lt_succ_of_lt (h.alerts b hb)
    · obtain rfl := List.mem_singleton.mp hb
      show b.id < db.nextId + 1
      omega
  · intro b hb hx
    rcases List.mem_append.mp hb with hb | hb
    · exact hb
    · obtain rfl := List.mem_singleton.mp hb
      rw [hlink] at hx
      cases hx

theorem Held.setAlertStatus (h : Held x st db) (id : ℕ) (status : AlertStatus)
    {investigation : ℕ} (hne : investigation ≠ x) :
    Steady x st db (db.setAlertStatus id status investigation) := by
  apply h.updateAlert
  · intro a
    rfl
  · intro a _ _ hx
    exact hne (Option.some.inj hx)

/-- A new investigation with the alert it is opened for. -/
theorem Held.openFor (h : Held x st db) (i : Investigation) (hid : i.id = db.nextId) (alert : ℕ)
    (status : AlertStatus) :
    Steady x st db (DB.setAlertStatus { db with
      investigations := db.investigations ++ [i], nextId := db.nextId + 1 } alert status i.id) := by
  have hne : i.id ≠ x := by
    have hminted := h.minted
    omega
  have hopened := h.openInvestigation i hid
  exact hopened.trans (hopened.held.setAlertStatus alert status hne)

theorem Held.linkSourceEvent (h : Held x st db) (row alert : ℕ) :
    Steady x st db (linkSourceEvent db row alert) :=
  h.same rfl rfl (le_refl _)

theorem Held.moveKeys (h : Held x st db) (f : EntityKey → EntityKey) :
    Steady x st db { db with entityKeys := db.entityKeys.map f } :=
  h.same rfl rfl (le_refl _)

theorem Held.startRun (h : Held x st db) (investigation : ℕ) (settle : FloatVal) :
    Steady x st db (db.startRun investigation settle) :=
  h.same rfl rfl (Nat.le_succ _)

/-- A new investigation with its alert and its first run. -/
theorem Held.promoteFor (h : Held x st db) (i : Investigation) (hid : i.id = db.nextId)
    (alert : ℕ) (settle : FloatVal) :
    Steady x st db ((DB.setAlertStatus { db with
      investigations := db.investigations ++ [i], nextId := db.nextId + 1 } alert .promoted
        i.id).startRun i.id settle) := by
  have hopened := h.openFor i hid alert .promoted
  exact hopened.trans (hopened.held.startRun i.id settle)

theorem Held.flagNewEvidence (h : Held x st db) (tenant : Tenant) (investigation : ℕ) :
    Steady x st db (db.flagNewEvidence tenant investigation) := by
  unfold DB.flagNewEvidence
  split
  · apply h.updateInvestigation
    · intro i
      split <;> rfl
    · intro i _ _ _
      split <;> rfl
  · exact h.steady

theorem recordKeys_frame (tenant : Tenant) (alert investigation : ℕ) (keys : List Key)
    (occurredAt : ℤ) (db : DB) :
    (recordKeys db tenant alert investigation keys occurredAt).investigations =
        db.investigations ∧
      (recordKeys db tenant alert investigation keys occurredAt).alerts = db.alerts ∧
      (recordKeys db tenant alert investigation keys occurredAt).nextId = db.nextId := by
  unfold recordKeys
  induction keys generalizing db with
  | nil => exact ⟨rfl, rfl, rfl⟩
  | cons k ks ih => exact ih _

theorem Held.recordKeys (h : Held x st db) (tenant : Tenant) (alert investigation : ℕ)
    (keys : List Key) (occurredAt : ℤ) :
    Steady x st db (recordKeys db tenant alert investigation keys occurredAt) := by
  obtain ⟨hinvestigations, halerts, hnext⟩ :=
    recordKeys_frame tenant alert investigation keys occurredAt db
  exact h.same hinvestigations halerts (le_of_eq hnext.symm)

end Steady

/-! ## The cascade -/

section Cascade

variable {x : ℕ} {st : InvestigationStatus} {db db' : DB} {ctx : Context} {e : Ingest}

theorem TerminalByAnalyst.ne_active (h : TerminalByAnalyst st) : st ≠ .active := by
  rcases h with rfl | rfl
  · decide
  · decide

theorem TerminalByAnalyst.ne_autoClosedFp (h : TerminalByAnalyst st) : st ≠ .autoClosedFp := by
  rcases h with rfl | rfl
  · decide
  · decide

/-- A row of another status is of another investigation. -/
theorem Held.id_ne (h : Held x st db) {i : Investigation} (hi : i ∈ db.investigations)
    (hstatus : i.status ≠ st) : i.id ≠ x := by
  intro hx
  exact hstatus (h.status i hi hx)

theorem autoCloseAlert_steady (h : Held x st db) {tenant : Tenant} {alert investigation : ℕ}
    {window : Value} (hok : autoCloseAlert ctx db tenant alert window = .ok (investigation, db')) :
    Steady x st db db' := by
  unfold autoCloseAlert at hok
  split at hok
  · simp at hok
  · obtain ⟨micros, -, hok⟩ := (bind_eq_ok _ _ _).mp hok
    have hdb := congrArg Prod.snd ((pure_eq_ok _ _).mp hok)
    dsimp only at hdb
    rw [← hdb]
    exact h.openFor _ rfl _ _

theorem promote_steady (h : Held x st db) {c : Candidate} {out : Outcome}
    (hok : promote db e c = .ok (out, db')) : Steady x st db db' := by
  unfold promote at hok
  obtain ⟨settle, -, hok⟩ := (bind_eq_ok _ _ _).mp hok
  obtain ⟨⟨investigation, opened⟩, hpromote, hok⟩ := (bind_eq_ok _ _ _).mp hok
  have hdb := congrArg Prod.snd ((pure_eq_ok _ _).mp hok)
  dsimp only at hdb
  rw [← hdb]
  unfold promoteAlertToCase at hpromote
  split at hpromote
  · cases hpromote
  · have hopened := congrArg Prod.snd ((pure_eq_ok _ _).mp hpromote)
    dsimp only at hopened
    have hsteady : Steady x st db opened := by
      rw [← hopened]
      exact h.promoteFor _ rfl c.alert settle
    exact hsteady.trans (hsteady.held.recordKeys _ _ _ _ _)

/-- A reopened case was a closed false positive. -/
theorem checkAndReopen_steady (h : Held x st db) (hst : TerminalByAnalyst st) {ts : ℤ}
    {investigation : ℕ} (hok : checkAndReopen ctx db e ts = some (investigation, db')) :
    Steady x st db db' ∧ investigation ≠ x := by
  unfold checkAndReopen at hok
  dsimp only at hok
  split at hok
  · cases hok
  · rename_i i hfind
    have hi := List.mem_of_find?_eq_some hfind
    have hclosed : i.status = .autoClosedFp := by
      have hpred := List.find?_some hfind
      simp only [Bool.and_eq_true, beq_iff_eq] at hpred
      exact hpred.1.1.2
    have hne : i.id ≠ x := by
      apply h.id_ne hi
      rw [hclosed]
      exact hst.ne_autoClosedFp.symm
    have hactive : Steady x st db (db.updateInvestigation i.id fun row =>
        { row with status := .active, closedAt := none, reopenCount := row.reopenCount + 1 }) := by
      apply h.updateInvestigation
      · intro row
        rfl
      · intro _ _ _ hx
        exact absurd hx hne
    split at hok
    · obtain ⟨rfl, rfl⟩ := Prod.mk.inj (Option.some.inj hok)
      exact ⟨hactive, hne⟩
    · obtain ⟨rfl, rfl⟩ := Prod.mk.inj (Option.some.inj hok)
      exact ⟨hactive.trans (hactive.held.same rfl rfl (Nat.le_succ _)), hne⟩

theorem memoizedClose_steady (h : Held x st db) {c : Candidate} {investigation : ℕ}
    (hok : memoizedClose ctx db e c = .ok (.closed investigation db')) : Steady x st db db' := by
  unfold memoizedClose at hok
  split at hok
  · simp at hok
  · split at hok
    · simp at hok
    · split at hok
      · simp at hok
      · obtain ⟨veto, -, hok⟩ := (bind_eq_ok _ _ _).mp hok
        split at hok
        · simp at hok
        · split at hok
          · simp at hok
          · obtain ⟨⟨closed, closedDb⟩, hclose, hok⟩ := (bind_eq_ok _ _ _).mp hok
            have hreplay := (pure_eq_ok _ _).mp hok
            injection hreplay with _ hdb
            rw [← hdb]
            have hsteady := autoCloseAlert_steady h hclose
            exact hsteady.trans (hsteady.held.same rfl rfl (le_refl _))

theorem rulesAutoClose_steady (h : Held x st db) {c : Candidate} {denied : Bool}
    {investigation : ℕ}
    (hok : rulesAutoClose ctx db e c denied = .ok (some (investigation, db'))) :
    Steady x st db db' := by
  unfold rulesAutoClose at hok
  obtain ⟨closes, -, hok⟩ := (bind_eq_ok _ _ _).mp hok
  split at hok
  · obtain ⟨veto, -, hok⟩ := (bind_eq_ok _ _ _).mp hok
    split at hok
    · simp at hok
    · obtain ⟨⟨closed, closedDb⟩, hclose, hok⟩ := (bind_eq_ok _ _ _).mp hok
      have hpair := Option.some.inj ((pure_eq_ok _ _).mp hok)
      injection hpair with _ hdb
      rw [← hdb]
      exact autoCloseAlert_steady h hclose
  · simp at hok

theorem rulesOrPromote_steady (h : Held x st db) {c : Candidate} {denied : Bool} {out : Outcome}
    (hok : (do
      match ← rulesAutoClose ctx db e c denied with
      | some (investigation, db) => return (.autoClosed c.alert investigation, db)
      | none => promote db e c : M (Outcome × DB)) = .ok (out, db')) : Steady x st db db' := by
  obtain ⟨closed, hrules, hok⟩ := (bind_eq_ok _ _ _).mp hok
  cases closed with
  | none => exact promote_steady h hok
  | some closed =>
    obtain ⟨investigation, closedDb⟩ := closed
    have hdb := congrArg Prod.snd ((pure_eq_ok _ _).mp hok)
    dsimp only at hdb
    rw [← hdb]
    exact rulesAutoClose_steady h hrules

theorem closeOrPromote_steady (h : Held x st db) {c : Candidate} {out : Outcome}
    (hok : closeOrPromote ctx db e c = .ok (out, db')) : Steady x st db db' := by
  unfold closeOrPromote at hok
  obtain ⟨replay, hmemo, hok⟩ := (bind_eq_ok _ _ _).mp hok
  cases replay with
  | closed investigation closedDb =>
    have hdb := congrArg Prod.snd ((pure_eq_ok _ _).mp hok)
    dsimp only at hdb
    rw [← hdb]
    exact memoizedClose_steady h hmemo
  | passed => exact rulesOrPromote_steady h hok
  | denied => exact rulesOrPromote_steady h hok

theorem reopenOrDecide_steady (h : Held x st db) (hst : TerminalByAnalyst st) {c : Candidate}
    {out : Outcome} (hok : reopenOrDecide ctx db e c = .ok (out, db')) : Steady x st db db' := by
  unfold reopenOrDecide at hok
  split at hok
  · rename_i investigation reopened hreopen
    obtain ⟨hsteady, hne⟩ := checkAndReopen_steady h hst hreopen
    have hdb := congrArg Prod.snd ((pure_eq_ok _ _).mp hok)
    dsimp only at hdb
    rw [← hdb]
    exact hsteady.trans (hsteady.held.setAlertStatus _ _ hne)
  · exact closeOrPromote_steady h hok

theorem deconflictOrDecide_steady (h : Held x st db) (hst : TerminalByAnalyst st) {row : ℕ}
    {c : Candidate} (hfree : Unlinked db c.alert x) {out : Outcome}
    (hok : deconflictOrDecide ctx db e row c = .ok (out, db')) : Steady x st db db' := by
  unfold deconflictOrDecide at hok
  split at hok
  · split at hok
    · exact reopenOrDecide_steady h hst hok
    · rename_i d _
      have hrecorded : Steady x st db (recordEngagementObservation db e.tenant c.alert row d) := by
        unfold recordEngagementObservation
        split
        · exact h.steady
        · exact h.same rfl rfl (le_refl _)
      dsimp only at hok
      split at hok
      · have hdb := congrArg Prod.snd ((pure_eq_ok _ _).mp hok)
        dsimp only at hdb
        rw [← hdb]
        refine hrecorded.trans (hrecorded.held.updateAlert _ _ (fun _ => rfl) ?_)
        have hsame : (recordEngagementObservation db e.tenant c.alert row d).alerts =
            db.alerts := by
          unfold recordEngagementObservation
          split <;> rfl
        rw [hsame]
        exact hfree
      · exact hrecorded.trans (reopenOrDecide_steady hrecorded.held hst hok)
  · exact reopenOrDecide_steady h hst hok

/-- What correlation finds is active. -/
theorem findCorrelated_ne (h : Held x st db) (hst : TerminalByAnalyst st) {tenant : Tenant}
    {keys : List Key} {investigation : ℕ}
    (hfind : findCorrelatedInvestigation ctx db tenant keys = some investigation) :
    investigation ≠ x := by
  unfold findCorrelatedInvestigation at hfind
  obtain ⟨i, hi, rfl⟩ := Option.map_eq_some_iff.mp hfind
  have hmem := List.argmin_mem hi
  unfold correlatedInvestigations at hmem
  obtain ⟨row, -, hmem⟩ := List.mem_flatMap.mp hmem
  split at hmem
  · obtain ⟨hmem, hactive⟩ := List.mem_filter.mp hmem
    apply h.id_ne hmem
    have hstatus : i.status = .active := (of_decide_eq_true hactive).2
    rw [hstatus]
    exact hst.ne_active.symm
  · cases hmem

theorem triageFresh_steady (h : Held x st db) (hst : TerminalByAnalyst st) {row : ℕ}
    {c : Candidate} (hfree : Unlinked db c.alert x) {out : Outcome}
    (hok : triageFresh ctx db e row c = .ok (out, db')) : Steady x st db db' := by
  unfold triageFresh at hok
  split at hok
  · split at hok
    · rename_i investigation hfind
      have hne := findCorrelated_ne h hst hfind
      have hdb := congrArg Prod.snd ((pure_eq_ok _ _).mp hok)
      dsimp only at hdb
      rw [← hdb]
      unfold attachCorrelated
      have h₁ := h.setAlertStatus c.alert .promoted hne
      have h₂ := h₁.trans (h₁.held.recordKeys e.tenant c.alert investigation c.keys c.ts)
      exact h₂.trans (h₂.held.flagNewEvidence _ _)
    · exact deconflictOrDecide_steady h hst hfree hok
  · exact deconflictOrDecide_steady h hst hfree hok

/-- Coalescing into the target, or a fresh alert. -/
theorem upsertAlert_cases (ctx : Context) (db : DB) (e : Ingest) (ts : ℤ) :
    (∃ a up, coalesceTarget ctx db e ts = some a ∧
        upsertAlert ctx db e ts = (up, coalesce db e ts a) ∧ ∀ alert, up ≠ .fresh alert) ∨
      upsertAlert ctx db e ts =
        (.fresh db.nextId, insertAlert db e ts (alertSignature ctx e.ruleId e.assetIds ts)) := by
  unfold coalesceTarget upsertAlert
  dsimp only
  generalize db.alerts.find? _ = found
  generalize promotedAlert db e.tenant _ = promoted
  cases found with
  | some existing => exact Or.inl ⟨existing, .merged existing.id, rfl, rfl, nofun⟩
  | none =>
    cases promoted with
    | none => exact Or.inr rfl
    | some pair =>
      obtain ⟨existing, investigation⟩ := pair
      dsimp only
      by_cases hclosed : investigation.status = .autoClosedFp
      · rw [if_pos hclosed, if_pos hclosed]
        exact Or.inr rfl
      · rw [if_neg hclosed, if_neg hclosed]
        exact Or.inl ⟨existing, .attached existing.id investigation.id, rfl, rfl, nofun⟩

theorem insertAlert_steady (h : Held x st db) (ts : ℤ) (signature : String) :
    Steady x st db (insertAlert db e ts signature) ∧
      Unlinked (insertAlert db e ts signature) db.nextId x := by
  refine ⟨h.insertAlert _ rfl rfl, ?_⟩
  intro a ha hid
  rcases List.mem_append.mp ha with ha | ha
  · have hlt := h.alerts a ha
    omega
  · obtain rfl := List.mem_singleton.mp ha
    exact nofun

theorem describeAlert_steady (h : Held x st db) {alert : ℕ} (hfree : Unlinked db alert x)
    (description : Option String) :
    Steady x st db (describeAlert db alert description) ∧
      Unlinked (describeAlert db alert description) alert x := by
  unfold describeAlert
  split
  · exact ⟨h.steady, hfree⟩
  · split
    · exact ⟨h.steady, hfree⟩
    · refine ⟨h.updateAlert _ _ (fun _ => rfl) hfree, ?_⟩
      intro a' ha' hid
      obtain ⟨a, ha, rfl⟩ := List.mem_map.mp ha'
      split at hid
      · rename_i heq
        rw [if_pos heq]
        exact hfree a ha heq
      · rename_i hne
        exact absurd hid hne

theorem triageEvent_steady (h : Held x st db) (hst : TerminalByAnalyst st) {out : Outcome}
    (hfree : (reserveSourceEvent db e (e.ts.getD ctx.now)).isSome = true →
      ∀ a ∈ coalesceTarget ctx db e (e.ts.getD ctx.now), Unlinked db a.id x)
    (hok : triageEvent ctx db e = .ok (out, db')) : Steady x st db db' := by
  unfold triageEvent at hok
  dsimp only at hok
  cases hreserve : reserveSourceEvent db e (e.ts.getD ctx.now) with
  | none =>
    rw [hreserve] at hok
    have hdb := congrArg Prod.snd ((pure_eq_ok _ _).mp hok)
    dsimp only at hdb
    rw [← hdb]
    exact h.steady
  | some reserved =>
    obtain ⟨row, db₁⟩ := reserved
    rw [hreserve] at hok hfree
    have hreserved : Steady x st db db₁ ∧ ∀ ts, coalesceTarget ctx db₁ e ts =
        coalesceTarget ctx db e ts ∧ db₁.alerts = db.alerts := by
      unfold reserveSourceEvent at hreserve
      split at hreserve
      · cases hreserve
      · have hdb := congrArg Prod.snd (Option.some.inj hreserve)
        dsimp only at hdb
        rw [← hdb]
        exact ⟨h.same rfl rfl (Nat.le_succ _), fun ts => ⟨rfl, rfl⟩⟩
    obtain ⟨hsteady₁, htarget⟩ := hreserved
    obtain ⟨htarget, halerts⟩ := htarget (e.ts.getD ctx.now)
    rcases upsertAlert_cases ctx db₁ e (e.ts.getD ctx.now) with ⟨a, up, ha, hup, hmerged⟩ | hfresh
    · -- The event joins the target, which is not linked to the investigation.
      have hunlinked : Unlinked db₁ a.id x := by
        unfold Unlinked
        rw [halerts]
        exact hfree rfl a (htarget ▸ ha)
      have hsteady₂ : Steady x st db₁ (coalesce db₁ e (e.ts.getD ctx.now) a) :=
        hsteady₁.held.updateAlert _ _ (fun _ => rfl) hunlinked
      have hsteady₃ := hsteady₂.trans (hsteady₂.held.linkSourceEvent row up.alert)
      simp only [hup] at hok
      cases up with
      | fresh alert => exact absurd rfl (hmerged alert)
      | merged alert =>
        have hdb := congrArg Prod.snd ((pure_eq_ok _ _).mp hok)
        dsimp only at hdb
        rw [← hdb]
        exact hsteady₁.trans hsteady₃
      | attached alert investigation =>
        have hdb := congrArg Prod.snd ((pure_eq_ok _ _).mp hok)
        dsimp only at hdb
        rw [← hdb]
        exact hsteady₁.trans (hsteady₃.trans (hsteady₃.held.flagNewEvidence _ _))
    · obtain ⟨hsteady₂, hunlinked⟩ := insertAlert_steady (e := e) hsteady₁.held
        (e.ts.getD ctx.now) (alertSignature ctx e.ruleId e.assetIds (e.ts.getD ctx.now))
      have hsteady₃ := hsteady₂.trans (hsteady₂.held.linkSourceEvent row db₁.nextId)
      obtain ⟨hsteady₄, hunlinked'⟩ := describeAlert_steady hsteady₃.held hunlinked e.description
      simp only [hfresh] at hok
      have hsteady₅ := triageFresh_steady hsteady₄.held hst hunlinked' hok
      exact hsteady₁.trans (hsteady₃.trans (hsteady₄.trans hsteady₅))

end Cascade

/-! ## The other operations -/

section Operations

variable {x : ℕ} {st : InvestigationStatus} {s s' : Cases} {ctx : Context} {tenant : Tenant}

theorem startOnlyRun_steady {db db' : DB} (h : Held x st db) {investigation : ℕ}
    (hok : db.startOnlyRun investigation = some db') : Steady x st db db' := by
  unfold DB.startOnlyRun at hok
  split at hok
  · cases hok
  · rw [← Option.some.inj hok]
    exact h.startRun _ _

/-- A change of active cases only. -/
theorem Held.updateActive {db : DB} (h : Held x st db) (hst : TerminalByAnalyst st)
    (tenant : Tenant) (id : ℕ)
    (f : Investigation → Investigation) (hid : ∀ i, (f i).id = i.id) :
    Steady x st db (db.updateInvestigation id fun i =>
      if i.tenant = tenant ∧ i.status = .active then f i else i) := by
  apply h.updateInvestigation
  · intro i
    split
    · exact hid i
    · rfl
  · intro i hi heq hx
    have hne : ¬(i.tenant = tenant ∧ i.status = .active) := by
      intro hactive
      have hstatus := h.status i hi (heq.trans hx)
      rw [hactive.2] at hstatus
      exact hst.ne_active hstatus.symm
    rw [if_neg hne]

theorem recordHumanReviewRequested_steady (h : Held x st s.db) (hst : TerminalByAnalyst st)
    (investigation : ℕ) :
    Steady x st s.db (s.recordHumanReviewRequested tenant investigation).db := by
  have hraised := h.updateActive hst tenant investigation
    (fun i => { i with severity := max i.severity 12 }) fun _ => rfl
  unfold Cases.recordHumanReviewRequested
  dsimp only
  split
  · exact hraised.trans (hraised.held.same rfl rfl (Nat.le_succ _))
  · exact hraised

theorem applyDisposition_steady (h : Held x st s.db) (hst : TerminalByAnalyst st)
    {investigation : ℕ} {disposition : Option TriagePolicy.Disposition}
    (hok : s.applyDisposition ctx tenant investigation disposition = some s') :
    Steady x st s.db s'.db := by
  unfold Cases.applyDisposition at hok
  split at hok
  · obtain ⟨fields, -, hok⟩ := Option.bind_eq_some_iff.mp hok
    rw [← Option.some.inj hok]
    exact h.updateActive hst tenant investigation (fun i => i.closedAsFp ctx.now fields) fun _ => rfl
  · rw [← Option.some.inj hok]
    exact recordHumanReviewRequested_steady h hst investigation
  · rw [← Option.some.inj hok]
    exact h.steady

theorem followUp_steady (h : Held x st s.db) {investigation : ℕ}
    (hok : s.followUp tenant investigation = some s') : Steady x st s.db s'.db := by
  unfold Cases.followUp at hok
  dsimp only at hok
  split at hok
  · obtain ⟨db', hstart, hok⟩ := Option.bind_eq_some_iff.mp hok
    rw [← Option.some.inj hok]
    have hcleared := h.updateInvestigation investigation
      (fun i => if i.tenant = tenant then { i with hasNewEvidence := false } else i)
      (fun i => by split <;> rfl) (fun i _ _ _ => by split <;> rfl)
    exact hcleared.trans (startOnlyRun_steady hcleared.held hstart)
  · rw [← Option.some.inj hok]
    exact h.steady

theorem memoize_steady (ctx : Context) (tenant : Tenant) (h : Held x st s.db) (report : Report)
    (effective : Option TriagePolicy.Disposition) :
    Steady x st s.db (s.memoize ctx tenant report effective).db := by
  unfold Cases.memoize
  split
  · exact h.same rfl rfl (le_refl _)
  · exact h.steady

theorem completeRun_steady (h : Held x st s.db) (hst : TerminalByAnalyst st) {report : Report}
    (hok : s.completeRun ctx tenant report = some s') : Steady x st s.db s'.db := by
  unfold Cases.completeRun at hok
  split at hok
  · cases hok
  · dsimp only at hok
    split at hok
    · cases hok
    · generalize hended : ({ s with db := s.db.endRun report.run report.status } : Cases) = ended
        at hok
      have hsteady : Steady x st s.db ended.db := by
        rw [← hended]
        exact h.same rfl rfl (le_refl _)
      split at hok
      · rw [← Option.some.inj hok]
        exact hsteady
      · generalize report.effectiveDisposition _ = effective at hok
        obtain ⟨applied, happlied, hok⟩ := Option.bind_eq_some_iff.mp hok
        have hsteady₂ := hsteady.trans (applyDisposition_steady hsteady.held hst happlied)
        have hsteady₃ := hsteady₂.trans
          (memoize_steady ctx tenant hsteady₂.held report effective)
        exact hsteady₃.trans (followUp_steady hsteady₃.held hok)

theorem decideReview_steady (h : Held x st s.db) {review : ℕ} {decision : Reviews.Decision}
    (hleave : LeavesAlone x s (.decide ctx review decision))
    (hok : s.decideReview ctx review decision = some s') : Steady x st s.db s'.db := by
  unfold Cases.decideReview at hok
  split at hok
  · cases hok
  · rename_i row hrow
    dsimp only at hok
    split at hok
    · rename_i hreject
      obtain ⟨fields, -, hok⟩ := Option.bind_eq_some_iff.mp hok
      rw [← Option.some.inj hok]
      apply h.updateInvestigation
      · intro i
        split <;> rfl
      · intro i hi heq hx
        have hother := hleave hreject row hrow hx i hi (heq.trans hx)
        rw [if_neg hother]
    · rw [← Option.some.inj hok]
      exact h.steady

theorem cancelInvestigation_steady (h : Held x st s.db) (hst : TerminalByAnalyst st)
    {investigation : ℕ} (hok : s.cancelInvestigation ctx tenant investigation = some s') :
    Steady x st s.db s'.db := by
  unfold Cases.cancelInvestigation at hok
  split at hok
  · cases hok
  · rename_i i hfind
    split at hok
    · cases hok
    · rename_i hopen
      have hne : investigation ≠ x := by
        intro hx
        have hpred := List.find?_some hfind
        simp only [Bool.and_eq_true, beq_iff_eq] at hpred
        have hstatus := h.status i (List.mem_of_find?_eq_some hfind) (hpred.1.trans hx)
        rw [hstatus] at hopen
        rcases hst with rfl | rfl
        · exact hopen (by decide)
        · exact hopen (by decide)
      rw [← Option.some.inj hok]
      have hcancelled := h.updateInvestigation investigation
        (fun i => if i.tenant = tenant then
          { i with status := cancelledStatus, closedAt := some ctx.now } else i)
        (fun i => by split <;> rfl) (fun _ _ _ hx => absurd hx hne)
      exact hcancelled.trans (hcancelled.held.same rfl rfl (le_refl _))

theorem mergeInvestigations_steady (h : Held x st s.db) {keep other : ℕ}
    (hleave : LeavesAlone x s (.merge ctx tenant keep other)) :
    Steady x st s.db (s.mergeInvestigations ctx tenant keep other).db := by
  obtain ⟨hother, hkeep⟩ := hleave
  have hmoved := h.mapAlerts
    (fun a => if a.tenant = tenant ∧ a.investigationId = some other then
      { a with investigationId := some keep } else a)
    (fun a => by split <;> rfl)
    (by
      intro a ha hx
      split at hx
      · rename_i hof
        have hkx : keep = x := Option.some.inj hx
        by_cases hox : other = x
        · rw [if_pos hof, hkx, ← hox, ← hof.2]
        · exact absurd hof.2 (hkeep hkx hox a ha hof.1)
      · rename_i hnot
        exact if_neg hnot)
  have hkeys := hmoved.held.moveKeys fun k =>
    if k.tenant = tenant ∧ k.investigationId = some other then
      { k with investigationId := some keep } else k
  have hclosed := hkeys.held.updateInvestigation other
    (fun i => if i.tenant = tenant then
      { i with status := closedStatus, closedAt := some ctx.now } else i)
    (fun i => by split <;> rfl)
    (by
      intro i hi heq hx
      split
      · rename_i htenant
        exact (hother hx i hi (heq.trans hx) htenant).symm
      · rfl)
  exact hmoved.trans (hkeys.trans (hclosed.trans (hclosed.held.same rfl rfl (le_refl _))))

theorem detachAlert_steady (h : Held x st s.db) {alert : ℕ}
    (hok : s.detachAlert ctx tenant alert = some s') : Steady x st s.db s'.db := by
  unfold Cases.detachAlert at hok
  split at hok
  · cases hok
  · rename_i row hrow
    obtain ⟨db', hstart, hok⟩ := Option.bind_eq_some_iff.mp hok
    rw [← Option.some.inj hok]
    have hopened := h.openInvestigation
      { id := s.db.nextId, tenant := tenant, status := .active, severity := row.severity
        openedAt := ctx.now } rfl
    have hne : s.db.nextId ≠ x := ne_of_gt h.minted
    have hmoved := hopened.held.mapAlerts
      (fun a => if a.id = alert ∧ a.tenant = tenant then
        { a with investigationId := some s.db.nextId } else a)
      (fun a => by split <;> rfl)
      (by
        intro a _ hx
        split at hx
        · exact absurd (Option.some.inj hx) hne
        · rename_i hnot
          exact if_neg hnot)
    have hkeys := hmoved.trans (hmoved.held.moveKeys fun k =>
      if k.alertId = alert ∧ k.tenant = tenant then
        { k with investigationId := some s.db.nextId } else k)
    exact hopened.trans (hkeys.trans (startOnlyRun_steady hkeys.held hstart))

theorem transitionRun_steady (h : Held x st s.db) {run : ℕ} {live : Bool}
    (hok : s.transitionRun run live = some s') : Steady x st s.db s'.db := by
  unfold Cases.transitionRun at hok
  dsimp only at hok
  split at hok
  · cases hok
  · rw [← Option.some.inj hok]
    exact h.same rfl rfl (le_refl _)

/-- One operation that meets the condition. -/
theorem step_steady (h : Held x st s.db) (hst : TerminalByAnalyst st) {op : CaseOp}
    (hleave : LeavesAlone x s op) : Steady x st s.db (s.step op).db := by
  unfold Cases.step
  cases hrun : op.run s with
  | none => exact h.steady
  | some s' =>
    show Steady x st s.db s'.db
    cases op with
    | ingest ctx e =>
      obtain ⟨result, hresult, rfl⟩ := Option.map_eq_some_iff.mp hrun
      cases hok : triageEvent ctx s.db e with
      | error _ =>
        rw [hok] at hresult
        cases hresult
      | ok r =>
        rw [hok] at hresult
        obtain rfl := Option.some.inj hresult
        exact triageEvent_steady h hst hleave hok
    | complete ctx tenant report => exact completeRun_steady h hst hrun
    | decide ctx review decision => exact decideReview_steady h hleave hrun
    | expire review =>
      obtain rfl := Option.some.inj hrun
      exact h.steady
    | cancel ctx tenant investigation => exact cancelInvestigation_steady h hst hrun
    | merge ctx tenant keep other =>
      obtain rfl := Option.some.inj hrun
      exact mergeInvestigations_steady h hleave
    | detach ctx tenant alert => exact detachAlert_steady h hrun
    | transition run live => exact transitionRun_steady h hrun

end Operations

/-! ## Runs -/

/-- Every id in use is below the next one to be minted. -/
structure FreshIds (db : DB) : Prop where
  investigations : ∀ i ∈ db.investigations, i.id < db.nextId
  alerts : ∀ a ∈ db.alerts, a.id < db.nextId

/-- The investigation is there, and has the status. -/
structure HasStatus (db : DB) (investigation : ℕ) (status : InvestigationStatus) : Prop where
  present : ∃ i ∈ db.investigations, i.id = investigation
  status : ∀ i ∈ db.investigations, i.id = investigation → i.status = status

theorem Held.of_hasStatus {db : DB} {x : ℕ} {st : InvestigationStatus} (hfresh : FreshIds db)
    (h : HasStatus db x st) : Held x st db := by
  obtain ⟨i, hi, hid⟩ := h.present
  have hminted := hfresh.investigations i hi
  exact ⟨h.status, by omega, hfresh.alerts⟩

/-- A cancelled or merged investigation stays as it is under operations that leave it alone. -/
theorem stays_terminal {s t : Cases} {x : ℕ} {st : InvestigationStatus}
    (hst : TerminalByAnalyst st) (hfresh : FreshIds s.db) (hstatus : HasStatus s.db x st)
    (hrun : Transition.Run Cases.step (LeavesAlone x) s t) : StaysTerminal s t x st := by
  have hstep : ∀ mid op, Steady x st s.db (Cases.db mid) → LeavesAlone x mid op →
      Steady x st s.db (mid.step op).db :=
    fun mid op hmid hleave => hmid.trans (step_steady hmid.held hst hleave)
  have hsteady : (fun mid : Cases => Steady x st s.db mid.db) t :=
    hrun.inv hstep (Held.of_hasStatus hfresh hstatus).steady
  refine ⟨hsteady.held.status, ?_, hsteady.linked⟩
  rintro ⟨r, -, -, -, i, hi, hid, hactive⟩
  have hkept := hsteady.held.status i hi hid
  rw [hactive] at hkept
  exact hst.ne_active hkept.symm

instance (db : DB) (investigation : ℕ) : Decidable (Claimable db investigation) :=
  inferInstanceAs (Decidable (∃ r ∈ db.runs, r.investigationId = investigation ∧ r.live = true ∧
    ∃ i ∈ db.investigations, i.id = investigation ∧ i.status = .active))

instance (db : DB) (alert investigation : ℕ) : Decidable (Unlinked db alert investigation) :=
  inferInstanceAs (Decidable (∀ a ∈ db.alerts, a.id = alert →
    a.investigationId ≠ some investigation))

instance (x : ℕ) (s : Cases) : (op : CaseOp) → Decidable (LeavesAlone x s op)
  | .ingest ctx e => inferInstanceAs (Decidable
      ((reserveSourceEvent s.db e (e.ts.getD ctx.now)).isSome = true →
        ∀ a ∈ coalesceTarget ctx s.db e (e.ts.getD ctx.now), Unlinked s.db a.id x))
  | .decide _ review decision => inferInstanceAs (Decidable (decision = .reject →
      ∀ r ∈ s.reviews.find? fun r => r.id == review, r.investigationId = x →
        ∀ i ∈ s.db.investigations, i.id = x → i.tenant ≠ r.tenant))
  | .merge _ tenant keep other => inferInstanceAs (Decidable
      ((other = x → ∀ i ∈ s.db.investigations, i.id = x → i.tenant = tenant →
        i.status = closedStatus) ∧
      (keep = x → other ≠ x → ∀ a ∈ s.db.alerts, a.tenant = tenant →
        a.investigationId ≠ some other)))
  | .complete _ _ _ => inferInstanceAs (Decidable True)
  | .expire _ => inferInstanceAs (Decidable True)
  | .cancel _ _ _ => inferInstanceAs (Decidable True)
  | .detach _ _ _ => inferInstanceAs (Decidable True)
  | .transition _ _ => inferInstanceAs (Decidable True)

def escalates : Report := ⟨3, true, .completed, some .escalate, none, false, none⟩

/-- An alert is promoted, its run escalates it for review, and the analyst cancels the case. -/
def cancelledCase : Cases :=
  [.ingest quietContext (bruteForce "e1" 0), .complete quietContext 0 escalates,
    .cancel quietContext 0 2].foldl Cases.step ⟨{}, []⟩

theorem freshIds_cancelledCase : FreshIds cancelledCase.db :=
  ⟨by decide +kernel, by decide +kernel⟩

theorem hasStatus_cancelledCase : HasStatus cancelledCase.db 2 cancelledStatus :=
  ⟨by decide +kernel, by decide +kernel⟩

/-- A late completion, the same signature an hour later, an approval. -/
def laterEvents : List CaseOp :=
  [.complete quietContext 0 escalates, .ingest quietContext (bruteForce "e2" 3600000000),
    .decide quietContext 4 .approve]

theorem stays_terminal_laterEvents : ∃ t,
    runOps Cases.step (LeavesAlone 2) cancelledCase laterEvents = some t ∧
    t.db.investigations.length = 2 ∧ StaysTerminal cancelledCase t 2 cancelledStatus := by
  have hlast : (runOps Cases.step (LeavesAlone 2) cancelledCase laterEvents).map
      (fun t => t.db.investigations.length) = some 2 := by decide +kernel
  obtain ⟨t, ht, hlength⟩ := Option.map_eq_some_iff.mp hlast
  exact ⟨t, ht, hlength, stays_terminal (Or.inl rfl) freshIds_cancelledCase
    hasStatus_cancelledCase (Transition.Run.of_runOps ht)⟩

/-- The review outlives the cancellation, and its rejection closes the case once more, now as
a false positive that a matching event reopens. -/
theorem reopened_after_cancel :
    ¬∀ (s : Cases) (x : ℕ) (st : InvestigationStatus) (ops : List CaseOp), TerminalByAnalyst st →
      FreshIds s.db → HasStatus s.db x st → StaysTerminal s (ops.foldl Cases.step s) x st := by
  intro h
  have hstays := h cancelledCase 2 cancelledStatus
    [.decide quietContext 4 .reject, .ingest quietContext (bruteForce "e2" 3600000000)]
    (Or.inl rfl) freshIds_cancelledCase hasStatus_cancelledCase
  apply hstays.noRun
  decide +kernel

end SocTalk.Triage
