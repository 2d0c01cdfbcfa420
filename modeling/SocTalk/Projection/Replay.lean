import SocTalk.Projection.Panels

/-! The projection consumed batch by batch, saved and loaded in between, against one replay of the
whole log. -/
namespace SocTalk.Projection

open Py

/-! ## The stored projection -/

/-- What ends a consumption early: an exception of the reducer, or a cast that is refused. -/
inductive Failure where
  | raised (e : Exc)
  | castRefused

def Hypothesis.stored (h : Hypothesis) : Option Hypothesis := do
  let parent ← match h.parent with
    | none => some none
    | some v => v.stored.map some
  return { id := ← h.id.stored, label := ← h.label.stored, confidence := ← h.confidence.stored,
           rationale := ← h.rationale.stored, parent }

def Directive.stored (d : Directive) : Option Directive := do
  return { id := ← d.id.stored, text := ← d.text.stored, scope := ← d.scope.stored }

def BoundPolicy.stored (p : BoundPolicy) : Option BoundPolicy := do
  return { id := ← p.id.stored, version := ← p.version.stored }

def TimelineEntry.stored (t : TimelineEntry) : Option TimelineEntry := do
  return { seq := t.seq, ts := ← t.ts.stored, summary := ← t.summary.stored,
           source_event_id := ← t.source_event_id.stored }

/-- The four panels as the row holds them after the write. -/
def Facts.stored (s : Facts) : Option Facts := do
  return { hypotheses := ← s.hypotheses.mapM Hypothesis.stored
           active_directives := ← s.active_directives.mapM Directive.stored
           active_policies := ← s.active_policies.mapM BoundPolicy.stored
           timeline_summary := ← s.timeline_summary.mapM TimelineEntry.stored
           applied_seq := s.applied_seq }

/-- The facts read from the projection row, empty where there is no row. -/
def load_facts (row : Option Facts) : Facts := row.getD {}

def save_facts (facts : Facts) : Except Failure Facts :=
  match facts.stored with
  | some row => .ok row
  | none => .error .castRefused

def applyAll (facts : Facts) (events : List Event) : Except Failure Facts :=
  match events.foldlM apply_event facts with
  | .ok facts => .ok facts
  | .error e => .error (.raised e)

/-- `events` are the rows of the investigation in the order of `seq`. -/
def consume_new_events (events : List Event) (row : Option Facts) :
    Except Failure (Option Facts × ℕ) := do
  let facts := load_facts row
  let rows := events.filter fun e => facts.applied_seq < e.seq
  if rows.isEmpty then return (row, 0)
  else
    let facts ← applyAll facts rows
    let saved ← save_facts facts
    return (some saved, rows.length)

/-- The row that a rebuild leaves, and the facts it returns. -/
def replay (events : List Event) : Except Failure (Facts × Facts) := do
  let state ← applyAll {} events
  let saved ← save_facts state
  return (saved, state)

/-- The batches arrive one after another, each is consumed before the next arrives. -/
def consumeBatches (log : List Event) (row : Option Facts) :
    List (List Event) → Except Failure (Option Facts)
  | [] => .ok row
  | batch :: batches => do
    let (row, _) ← consume_new_events (log ++ batch) row
    consumeBatches (log ++ batch) row batches

/-! ## Which events fold -/

/-- The event leaves a hypothesis in the panel. -/
def Event.Opens (e : Event) : Prop :=
  e.kind? = some .alertIngested ∨ e.kind? = some .hypothesisUpdated

/-- The event brings in an identifier that no dictionary takes as a key. -/
def Event.Unhashable (e : Event) : Prop :=
  e.kind? = some .hypothesisUpdated ∧ e.id.hashable = false

/-- The payload of an event has the shape that its kind needs after the events `log`. -/
def Event.Folds (log : List Event) (e : Event) : Prop :=
  match e.kind? with
  | some .hypothesisUpdated | some .directiveAdded | some .directiveRemoved | some .policyBound =>
    (e.payload.lookup "id").isSome
  | some .confidenceRecalibrated =>
    (∃ o ∈ log, o.Opens) →
      (e.payload.getOr "confidences" (.dict [])).isDict ∧ ¬∃ o ∈ log, o.Unhashable
  | some .analystCorrection => (e.payload.getOr "path" (.str "")).text?.isSome
  | _ => True

/-- Each of `events` folds after `log` and the ones before it. -/
def FoldsAll (log : List Event) : List Event → Prop
  | [] => True
  | e :: events => e.Folds log ∧ FoldsAll (log ++ [e]) events

theorem foldsAll_append {log xs ys : List Event} :
    FoldsAll log (xs ++ ys) ↔ FoldsAll log xs ∧ FoldsAll (log ++ xs) ys := by
  induction xs generalizing log with
  | nil => simp [FoldsAll]
  | cons e xs ih => simp [FoldsAll, ih, and_assoc]

/-- The rows of one investigation in the order of `seq`, which a sequence hands out from one. -/
def Ordered (events : List Event) : Prop :=
  events.Pairwise (fun a b => a.seq < b.seq) ∧ ∀ e ∈ events, 0 < e.seq

/-! ## The projection of a log -/

/-- The timeline of a log. -/
def timeline (log : List Event) : List TimelineEntry :=
  (log.flatMap Event.entries).rtake TIMELINE_WINDOW

/-- What the facts hold once the events of `log` are folded. -/
structure Projects (log : List Event) (s : Facts) : Prop where
  seen : ∀ e ∈ log, e.seq ≤ s.applied_seq
  reached : s.applied_seq = 0 ∨ ∃ e ∈ log, e.seq = s.applied_seq
  opened : s.hypothesisIds ≠ [] ↔ ∃ e ∈ log, e.Opens
  unhashable : (∃ i ∈ s.hypothesisIds, i.hashable = false) ↔ ∃ e ∈ log, e.Unhashable
  hypotheses : Distinct s.hypothesisIds
  directives : Distinct s.directiveIds
  policies : Distinct s.policyIds
  timeline : s.timeline_summary = timeline log
  stored : s.Stored

theorem projects_nil : Projects [] {} := by
  constructor
  · simp
  · simp
  · simp [Facts.hypothesisIds]
  · simp [Facts.hypothesisIds]
  · simp [Facts.hypothesisIds, Distinct]
  · simp [Facts.directiveIds, Distinct]
  · simp [Facts.policyIds, Distinct]
  · simp [Projection.timeline]
  · constructor <;> simp

variable {log : List Event} {e : Event} {s s' : Facts}

theorem opened_step (e : Event) (ids : List Value) :
    e.hypothesisIds ids ≠ [] ↔ ids ≠ [] ∨ e.Opens := by
  unfold Event.hypothesisIds Event.Opens
  split
  · cases ids <;> simp [*]
  · unfold insertId
    split <;> simp_all
    rintro rfl
    simp_all
  · simp_all

theorem unhashable_step (e : Event) (ids : List Value) :
    (∃ i ∈ e.hypothesisIds ids, i.hashable = false) ↔
      (∃ i ∈ ids, i.hashable = false) ∨ e.Unhashable := by
  unfold Event.hypothesisIds Event.Unhashable
  split
  · cases ids <;> simp [*, Value.hashable]
  · rw [exists_mem_insertId fun i hi => by rw [hashable_eq hi]]
    simp [*]
  · simp_all

theorem distinct_hypothesisIds {ids : List Value} (h : Distinct ids) :
    Distinct (e.hypothesisIds ids) := by
  unfold Event.hypothesisIds
  split
  · split
    · exact List.pairwise_singleton _ _
    · exact h
  · exact h.insertId _
  · exact h

theorem distinct_directiveIds {ids : List Value} (h : Distinct ids) :
    Distinct (e.directiveIds ids) := by
  unfold Event.directiveIds
  split
  · exact h.insertId _
  · exact List.Pairwise.filter _ h
  · exact h

theorem distinct_policyIds {ids : List Value} (h : Distinct ids) : Distinct (e.policyIds ids) := by
  unfold Event.policyIds
  split
  · exact h.insertId _
  · exact h

/-- Trimming before an append does not show in the trimmed result. -/
theorem rtake_rtake_append {α : Type} (xs ys : List α) (n : ℕ) :
    (xs.rtake n ++ ys).rtake n = (xs ++ ys).rtake n := by
  simp only [List.rtake_eq_reverse_take_reverse, List.reverse_append, List.reverse_reverse]
  congr 1
  rw [List.take_append, List.take_append, List.take_take]
  congr 2
  omega

theorem length_timeline (log : List Event) : (timeline log).length ≤ TIMELINE_WINDOW := by
  unfold timeline List.rtake
  rw [List.length_drop]
  omega

theorem apply_event_ok (h : apply_event s e = .ok s') :
    s'.applied_seq = max s.applied_seq e.seq ∧
      Step e { s with applied_seq := max s.applied_seq e.seq } s' :=
  have hstep := step_fold h
  ⟨hstep.applied_seq, hstep⟩

/-- One more event. -/
theorem Projects.step (hs : Projects log s) (h : apply_event s e = .ok s') :
    Projects (log ++ [e]) s' := by
  obtain ⟨hseq, hstep⟩ := apply_event_ok h
  constructor
  · intro o ho
    rcases List.mem_append.mp ho with ho | ho
    · have hseen := hs.seen o ho
      omega
    · obtain rfl := List.mem_singleton.mp ho
      omega
  · by_cases hle : s.applied_seq ≤ e.seq
    · exact Or.inr ⟨e, by simp, by omega⟩
    · rcases hs.reached with hzero | ⟨o, ho, hoseq⟩
      · omega
      · exact Or.inr ⟨o, by simp [ho], by omega⟩
  · rw [hstep.hypotheses, opened_step]
    have hopened := hs.opened
    simp only [List.mem_append, List.mem_singleton, or_and_right, exists_or, exists_eq_left]
    rw [← hopened]
    rfl
  · rw [hstep.hypotheses, unhashable_step]
    have hunhashable := hs.unhashable
    simp only [List.mem_append, List.mem_singleton, or_and_right, exists_or, exists_eq_left]
      at hunhashable ⊢
    rw [← hunhashable]
    rfl
  · rw [hstep.hypotheses]
    exact distinct_hypothesisIds hs.hypotheses
  · rw [hstep.directives]
    exact distinct_directiveIds hs.directives
  · rw [hstep.policies]
    exact distinct_policyIds hs.policies
  · have hlen : s.timeline_summary.length ≤ TIMELINE_WINDOW := by
      rw [hs.timeline]
      exact length_timeline log
    rw [hstep.timeline hlen]
    show (s.timeline_summary ++ e.entries).rtake TIMELINE_WINDOW = _
    rw [hs.timeline]
    unfold Projection.timeline
    rw [rtake_rtake_append]
    simp
  · have hstored : Facts.Stored { s with applied_seq := max s.applied_seq e.seq } :=
      ⟨hs.stored.hypotheses, hs.stored.active_directives, hs.stored.active_policies,
        hs.stored.timeline_summary⟩
    exact hstep.stored hstored

theorem returns_recalibrate (payload : Dict) (h : Hypothesis) :
    Returns (recalibrate payload h) ↔
      (payload.getOr "confidences" (.dict [])).isDict = true ∧ h.id.hashable = true := by
  unfold recalibrate
  rw [returns_bind_iff, ← Value.returns_getKey]
  constructor
  · rintro ⟨v, hv, -⟩
    exact ⟨v, hv⟩
  · rintro ⟨v, hv⟩
    exact ⟨v, hv, returns_pure _⟩

theorem returns_recalibrateAll (payload : Dict) (hs : List Hypothesis) :
    Returns (hs.mapM (recalibrate payload)) ↔ (hs ≠ [] →
      (payload.getOr "confidences" (.dict [])).isDict = true ∧
        ¬∃ i ∈ hs.map (·.id), i.hashable = false) := by
  constructor
  · rintro ⟨hs', hok⟩ hne
    have hall := returns_of_mapM_eq_ok hok
    simp only [returns_recalibrate] at hall
    obtain ⟨h, hh⟩ := List.exists_mem_of_ne_nil hs hne
    refine ⟨(hall h hh).1, ?_⟩
    rintro ⟨i, hi, hfalse⟩
    obtain ⟨h', hh', rfl⟩ := List.mem_map.mp hi
    rw [(hall h' hh').2] at hfalse
    cases hfalse
  · intro hshape
    refine returns_mapM fun h hh => (returns_recalibrate payload h).mpr ?_
    obtain ⟨hdict, hids⟩ := hshape (List.ne_nil_of_mem hh)
    refine ⟨hdict, ?_⟩
    by_contra hfalse
    exact hids ⟨h.id, List.mem_map.mpr ⟨h, hh, rfl⟩, by simpa using hfalse⟩

theorem returns_item_then {d : Dict} {k : String} {f : Value → M Facts}
    (hf : ∀ v, Returns (f v)) : Returns (d.item k >>= f) ↔ (d.lookup k).isSome = true := by
  rw [returns_bind_iff, ← Dict.returns_item]
  constructor
  · rintro ⟨v, hv, -⟩
    exact ⟨v, hv⟩
  · rintro ⟨v, hv⟩
    exact ⟨v, hv, hf v⟩

theorem returns_apply_correction (s : Facts) (path value : Value) :
    Returns (apply_correction s path value) ↔ path.text?.isSome = true := by
  unfold apply_correction
  rw [returns_bind_iff, ← Value.returns_split '.']
  constructor
  · rintro ⟨parts, hparts, -⟩
    exact ⟨parts, hparts⟩
  · rintro ⟨parts, hparts⟩
    refine ⟨parts, hparts, ?_⟩
    split
    · split <;> exact returns_pure _
    · exact returns_pure _
    · exact returns_pure _

/-- The reducer returns on exactly the events that fold. -/
theorem Projects.returns_iff (hs : Projects log s) :
    Returns (apply_event s e) ↔ e.Folds log := by
  unfold apply_event
  cases hk : e.kind? with
  | none =>
    simp only [Facts.fold, Event.Folds, hk]
    exact iff_of_true (returns_pure _) trivial
  | some k =>
    cases k <;> simp only [Facts.fold, Event.Folds, hk]
    case alertIngested =>
      exact iff_of_true (returns_ite (fun _ => returns_pure _) fun _ => returns_pure _) trivial
    case hypothesisUpdated => exact returns_item_then fun _ => returns_pure _
    case confidenceRecalibrated =>
      rw [← hs.opened, ← hs.unhashable]
      have hids : s.hypothesisIds ≠ [] ↔ s.hypotheses ≠ [] := by simp [Facts.hypothesisIds]
      rw [hids, Facts.hypothesisIds, ← returns_recalibrateAll, returns_bind_iff]
      constructor
      · rintro ⟨hs', hok, -⟩
        exact ⟨hs', hok⟩
      · rintro ⟨hs', hok⟩
        exact ⟨hs', hok, returns_pure _⟩
    case directiveAdded =>
      exact returns_item_then fun _ => returns_ite (fun _ => returns_pure _) fun _ => returns_pure _
    case directiveRemoved => exact returns_item_then fun _ => returns_pure _
    case policyBound =>
      exact returns_item_then fun _ => returns_ite (fun _ => returns_pure _) fun _ => returns_pure _
    case analystCorrection => exact returns_apply_correction _ _ _
    all_goals exact iff_of_true (returns_pure _) trivial

/-- Folding a whole batch. -/
theorem Projects.foldlM (hs : Projects log s) (events : List Event) :
    (FoldsAll log events →
      ∃ s', events.foldlM apply_event s = .ok s' ∧ Projects (log ++ events) s') ∧
    (Returns (events.foldlM apply_event s) → FoldsAll log events) := by
  induction events generalizing log s with
  | nil => exact ⟨fun _ => ⟨s, rfl, by simpa using hs⟩, fun _ => trivial⟩
  | cons e events ih =>
    constructor
    · rintro ⟨hfolds, hrest⟩
      obtain ⟨s₁, hs₁⟩ := hs.returns_iff.mpr hfolds
      obtain ⟨s₂, hs₂, hp⟩ := (ih (hs.step hs₁)).1 hrest
      refine ⟨s₂, ?_, by simpa using hp⟩
      rw [List.foldlM_cons, hs₁]
      exact hs₂
    · intro hret
      rw [List.foldlM_cons, returns_bind_iff] at hret
      obtain ⟨s₁, hs₁, hrest⟩ := hret
      exact ⟨hs.returns_iff.mp ⟨s₁, hs₁⟩, (ih (hs.step hs₁)).2 hrest⟩

/-! ## Saving -/

theorem mapM_eq_self {α : Type} {f : α → Option α} {xs : List α} (h : ∀ x ∈ xs, f x = some x) :
    xs.mapM f = some xs := by
  induction xs with
  | nil => rfl
  | cons x xs ih =>
    have hx := h x (by simp)
    have hxs := ih fun y hy => h y (by simp [hy])
    simp [List.mapM_cons, hx, hxs]

theorem Hypothesis.Stored.stored {h : Hypothesis} (hh : h.Stored) : h.stored = some h := by
  have hid : h.id.stored = some h.id := hh.id
  have hlabel : h.label.stored = some h.label := hh.label
  have hconfidence : h.confidence.stored = some h.confidence := hh.confidence
  have hrationale : h.rationale.stored = some h.rationale := hh.rationale
  have hparent := hh.parent
  obtain ⟨id, label, confidence, rationale, parent⟩ := h
  cases parent with
  | none => simp_all [Hypothesis.stored]
  | some v =>
    have hv : v.stored = some v := hparent v rfl
    simp_all [Hypothesis.stored]

theorem Directive.Stored.stored {d : Directive} (hd : d.Stored) : d.stored = some d := by
  have hid : d.id.stored = some d.id := hd.id
  have htext : d.text.stored = some d.text := hd.text
  have hscope : d.scope.stored = some d.scope := hd.scope
  simp [Directive.stored, hid, htext, hscope]

theorem BoundPolicy.Stored.stored {p : BoundPolicy} (hp : p.Stored) : p.stored = some p := by
  have hid : p.id.stored = some p.id := hp.id
  have hversion : p.version.stored = some p.version := hp.version
  simp [BoundPolicy.stored, hid, hversion]

theorem TimelineEntry.Stored.stored {t : TimelineEntry} (ht : t.Stored) : t.stored = some t := by
  have hts : t.ts.stored = some t.ts := ht.ts
  have hsummary : t.summary.stored = some t.summary := ht.summary
  have hsource : t.source_event_id.stored = some t.source_event_id := ht.source_event_id
  simp [TimelineEntry.stored, hts, hsummary, hsource]

/-- Facts that came out of the column go back unchanged. -/
theorem save_facts_stored (hs : s.Stored) : save_facts s = .ok s := by
  have hh := mapM_eq_self fun h hmem => (hs.hypotheses h hmem).stored
  have hd := mapM_eq_self fun d hmem => (hs.active_directives d hmem).stored
  have hp := mapM_eq_self fun p hmem => (hs.active_policies p hmem).stored
  have ht := mapM_eq_self fun t hmem => (hs.timeline_summary t hmem).stored
  simp [save_facts, Facts.stored, hh, hd, hp, ht]

/-! ## Consumption -/

/-- Exactly the events that are not folded yet are selected. -/
theorem Projects.unseen (hs : Projects log s) {batch : List Event}
    (hord : Ordered (log ++ batch)) :
    (log ++ batch).filter (fun e => s.applied_seq < e.seq) = batch := by
  rw [List.filter_append]
  have hold : log.filter (fun e => s.applied_seq < e.seq) = [] := by
    refine List.filter_eq_nil_iff.mpr fun e he => ?_
    have hseen := hs.seen e he
    simpa using hseen
  have hnew : batch.filter (fun e => s.applied_seq < e.seq) = batch := by
    refine List.filter_eq_self.mpr fun e he => ?_
    have hpos := hord.2 e (by simp [he])
    rcases hs.reached with hzero | ⟨o, ho, hseq⟩
    · simpa [hzero] using hpos
    · have hlt := (List.pairwise_append.mp hord.1).2.2 o ho e he
      simpa [← hseq] using hlt
  rw [hold, hnew, List.nil_append]

/-- A consumption folds the batch that has arrived, or raises and leaves the row. -/
theorem consume_spec {row : Option Facts} (hs : Projects log (load_facts row))
    {batch : List Event} (hord : Ordered (log ++ batch)) :
    (FoldsAll log batch → ∃ row' n, consume_new_events (log ++ batch) row = .ok (row', n) ∧
      batch.foldlM apply_event (load_facts row) = .ok (load_facts row') ∧
      Projects (log ++ batch) (load_facts row')) ∧
    (Returns (consume_new_events (log ++ batch) row) → FoldsAll log batch) := by
  unfold consume_new_events
  dsimp only
  rw [hs.unseen hord]
  cases batch with
  | nil => exact ⟨fun _ => ⟨row, 0, rfl, rfl, by simpa using hs⟩, fun _ => trivial⟩
  | cons e batch =>
    rw [if_neg (by simp)]
    have hfold := hs.foldlM (e :: batch)
    constructor
    · intro hall
      obtain ⟨s', hs', hp⟩ := hfold.1 hall
      refine ⟨some s', (e :: batch).length, ?_, hs', hp⟩
      simp only [applyAll, hs']
      show (save_facts s' >>= _) = _
      rw [save_facts_stored hp.stored]
      rfl
    · intro hret
      obtain ⟨s', hs', -⟩ := (returns_bind_iff _ _).mp hret
      unfold applyAll at hs'
      split at hs'
      · exact hfold.2 ⟨_, ‹_›⟩
      · cases hs'

theorem foldlM_append_ok {xs ys : List Event} {t : Facts}
    (hx : xs.foldlM apply_event s = .ok t) :
    (xs ++ ys).foldlM apply_event s = ys.foldlM apply_event t := by
  rw [List.foldlM_append, hx]
  rfl

/-- What the batches leave is one fold of all their events. -/
theorem consumeBatches_spec {row : Option Facts} (hs : Projects log (load_facts row))
    (batches : List (List Event)) (hord : Ordered (log ++ batches.flatten)) :
    (FoldsAll log batches.flatten → ∃ row', consumeBatches log row batches = .ok row' ∧
      batches.flatten.foldlM apply_event (load_facts row) = .ok (load_facts row') ∧
      Projects (log ++ batches.flatten) (load_facts row')) ∧
    (Returns (consumeBatches log row batches) → FoldsAll log batches.flatten) := by
  induction batches generalizing log row with
  | nil => exact ⟨fun _ => ⟨row, rfl, rfl, by simpa using hs⟩, fun _ => trivial⟩
  | cons batch batches ih =>
    rw [List.flatten_cons, ← List.append_assoc] at hord
    have hhead : Ordered (log ++ batch) :=
      ⟨(List.pairwise_append.mp hord.1).1, fun e he => hord.2 e (List.mem_append_left _ he)⟩
    have hspec := consume_spec hs hhead
    rw [List.flatten_cons]
    constructor
    · intro hall
      obtain ⟨hbatch, hrest⟩ := foldsAll_append.mp hall
      obtain ⟨row₁, n, hok, hfold, hp⟩ := hspec.1 hbatch
      obtain ⟨row₂, hok₂, hfold₂, hp₂⟩ := (ih hp hord).1 hrest
      refine ⟨row₂, ?_, ?_, ?_⟩
      · rw [consumeBatches, hok]
        exact hok₂
      · rw [foldlM_append_ok hfold]
        exact hfold₂
      · rwa [← List.append_assoc]
    · intro hret
      rw [consumeBatches, returns_bind_iff] at hret
      obtain ⟨⟨row₁, n⟩, hok, hrest⟩ := hret
      have hbatch := hspec.2 ⟨_, hok⟩
      obtain ⟨row', n', hok', -, hp⟩ := hspec.1 hbatch
      obtain rfl : row' = row₁ := by
        rw [hok] at hok'
        exact (Prod.mk.inj (Except.ok.inj hok')).1.symm
      exact foldsAll_append.mpr ⟨hbatch, (ih hp hord).2 hrest⟩

/-! ## Replay safety -/

/-- The batches are consumed and leave the facts of one replay, with the bounded timeline, no
identifier twice, and nothing for a further consumption to do. -/
def ReplaySafe (batches : List (List Event)) : Prop :=
  ∃ row rebuilt, consumeBatches [] none batches = .ok row ∧
    replay batches.flatten = .ok rebuilt ∧ load_facts row = load_facts (some rebuilt.1) ∧
    (load_facts row).timeline_summary = timeline batches.flatten ∧
    Distinct (load_facts row).hypothesisIds ∧ Distinct (load_facts row).directiveIds ∧
    Distinct (load_facts row).policyIds ∧
    consume_new_events batches.flatten row = .ok (row, 0)

/-- However the events are batched, the projection is replay safe exactly when each of them has
the payload that its kind needs. -/
theorem replaySafe_iff (batches : List (List Event)) (hord : Ordered batches.flatten) :
    ReplaySafe batches ↔ FoldsAll [] batches.flatten := by
  have hnil : Projects [] (load_facts none) := projects_nil
  have hspec := consumeBatches_spec hnil batches (by simpa using hord)
  constructor
  · rintro ⟨row, -, hok, -⟩
    exact hspec.2 ⟨row, hok⟩
  · intro hall
    obtain ⟨row, hok, hfold, hp⟩ := hspec.1 hall
    rw [List.nil_append] at hp
    have hreplay : replay batches.flatten = .ok (load_facts row, load_facts row) := by
      have happly : applyAll {} batches.flatten = .ok (load_facts row) := by
        have hfold' : batches.flatten.foldlM apply_event {} = .ok (load_facts row) := hfold
        rw [applyAll, hfold']
      unfold replay
      rw [happly]
      show (save_facts (load_facts row) >>= _) = _
      rw [save_facts_stored hp.stored]
      rfl
    refine ⟨row, _, hok, hreplay, rfl, hp.timeline, hp.hypotheses, hp.directives, hp.policies, ?_⟩
    unfold consume_new_events
    have hnone : (batches.flatten ++ []).filter
        (fun e : Event => (load_facts row).applied_seq < e.seq) = [] := hp.unseen (by simpa using hord)
    rw [List.append_nil] at hnone
    simp only [hnone]
    rfl

/-- An alert, a hypothesis beside it, a recalibration of both and a correction. -/
def triagedCase : List (List Event) :=
  [[⟨1, "alert_ingested", [("rule_id", .str "5710")], .mssp_only, rfl⟩],
   [⟨2, "hypothesis_updated", [("id", .str "h1"), ("label", .str "brute force")], .mssp_only, rfl⟩,
    ⟨4, "confidence_recalibrated", [("confidences", .dict [("h1", .int 1)])], .mssp_only, rfl⟩],
   [⟨7, "analyst_correction", [("path", .str "hypotheses.h1.label"), ("value", .str "scan")],
      .customer_safe, rfl⟩]]

theorem replaySafe_triagedCase : ReplaySafe triagedCase := by
  refine (replaySafe_iff triagedCase ?_).mpr ?_
  · unfold Ordered triagedCase
    decide
  · refine ⟨trivial, rfl, fun _ => ⟨rfl, ?_⟩, rfl, trivial⟩
    rintro ⟨o, ho, -, hid⟩
    rcases List.mem_append.mp ho with ho | ho
    · obtain rfl := List.mem_singleton.mp ho
      cases hid
    · obtain rfl := List.mem_singleton.mp ho
      cases hid

/-- A directive that a worker posts without an identifier. -/
def unnamedDirective : List (List Event) :=
  [[⟨1, "directive_added", [("text", .str "isolate host"), ("occurred_at", .none)], .mssp_only,
    rfl⟩]]

theorem not_replaySafe_unnamedDirective : ¬ReplaySafe unnamedDirective := by
  rintro ⟨row, -, hok, -⟩
  have hraised : consumeBatches [] none unnamedDirective = .error (.raised .keyError) := rfl
  rw [hraised] at hok
  cases hok

end SocTalk.Projection
