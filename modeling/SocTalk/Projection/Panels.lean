import Mathlib.Tactic.NormNum
import SocTalk.Projection.Reducer

/-! What one event does to the projection, read off the identifiers in the panels, and which
events the reducer raises on. -/
namespace SocTalk.Projection

open Py

/-! ## Identifiers -/

theorem hashable_eq {a b : Value} (h : a.eq b = true) : a.hashable = b.hashable := by
  cases a <;> cases b <;> first | rfl | simp [Value.eq, Value.num?, Value.text?] at h

/-- The identifier in the payload, for the kinds that read one. -/
def Event.id (e : Event) : Value := e.payload.get "id"

def Facts.hypothesisIds (s : Facts) : List Value := s.hypotheses.map (·.id)

def Facts.directiveIds (s : Facts) : List Value := s.active_directives.map (·.id)

def Facts.policyIds (s : Facts) : List Value := s.active_policies.map (·.id)

/-- `bid` goes to the end of a panel that does not hold it. -/
def insertId (bid : Value) (ids : List Value) : List Value :=
  if ids.any fun i => i.eq bid then ids else ids ++ [bid]

/-- No identifier appears twice. -/
def Distinct (ids : List Value) : Prop := ids.Pairwise fun a b => a.eq b = false

theorem Distinct.insertId {ids : List Value} (h : Distinct ids) (bid : Value) :
    Distinct (insertId bid ids) := by
  unfold Projection.insertId
  by_cases hany : (ids.any fun i => i.eq bid) = true
  · rwa [if_pos hany]
  · rw [if_neg hany]
    have hnew : ∀ i ∈ ids, i.eq bid = false := by simpa using hany
    refine List.pairwise_append.mpr ⟨h, by simp, ?_⟩
    simpa using hnew

theorem exists_mem_insertId {P : Value → Prop} {bid : Value} {ids : List Value}
    (hP : ∀ i, i.eq bid = true → (P i ↔ P bid)) :
    (∃ i ∈ insertId bid ids, P i) ↔ (∃ i ∈ ids, P i) ∨ P bid := by
  unfold insertId
  by_cases hany : (ids.any fun i => i.eq bid) = true
  · rw [if_pos hany]
    obtain ⟨i, hi, heq⟩ : ∃ i ∈ ids, i.eq bid = true := by simpa using hany
    constructor
    · exact Or.inl
    · rintro (h | h)
      · exact h
      · exact ⟨i, hi, (hP i heq).mpr h⟩
  · rw [if_neg hany]
    simp [or_and_right, exists_or]

theorem ids_updateHypothesis (bid : Value) (payload : Dict) (hs : List Hypothesis) :
    (updateHypothesis bid payload hs).map (·.id) = insertId bid (hs.map (·.id)) := by
  induction hs with
  | nil => rfl
  | cons h hs ih =>
    unfold updateHypothesis
    by_cases heq : h.id.eq bid = true
    · simp [insertId, heq, Hypothesis.update]
    · rw [if_neg heq, List.map_cons, ih]
      unfold insertId
      have hfalse : h.id.eq bid = false := by simpa using heq
      simp only [List.map_cons, List.any_cons, hfalse, Bool.false_or]
      split <;> simp

theorem id_recalibrate {payload : Dict} {h h' : Hypothesis} (hok : recalibrate payload h = .ok h') :
    h'.id = h.id := by
  obtain ⟨updated, -, hret⟩ := (bind_eq_ok _ _ _).mp hok
  obtain rfl := (pure_eq_ok _ _).mp hret
  split <;> rfl

theorem ids_recalibrate {payload : Dict} {hs hs' : List Hypothesis}
    (hok : hs.mapM (recalibrate payload) = .ok hs') : hs'.map (·.id) = hs.map (·.id) := by
  induction hs generalizing hs' with
  | nil =>
    obtain rfl : [] = hs' := by simpa using hok
    rfl
  | cons h hs ih =>
    rw [List.mapM_cons, bind_eq_ok] at hok
    obtain ⟨h₁, hh, hrest⟩ := hok
    obtain ⟨hs₁, hhs, hret⟩ := (bind_eq_ok _ _ _).mp hrest
    obtain rfl := (pure_eq_ok _ _).mp hret
    rw [List.map_cons, List.map_cons, id_recalibrate hh, ih hhs]

theorem id_correct {h h' : Hypothesis} {field_name : String} {value : Value}
    (hc : h.correct field_name value = some h') : h'.id = h.id := by
  unfold Hypothesis.correct at hc
  split at hc <;> first | (obtain rfl := Option.some.inj hc; rfl) | cases hc

theorem ids_correctHypotheses {bid value : Value} {field_name : String} {hs hs' : List Hypothesis}
    (hc : correctHypotheses bid field_name value hs = some hs') :
    hs'.map (·.id) = hs.map (·.id) := by
  induction hs generalizing hs' with
  | nil => cases hc
  | cons h hs ih =>
    unfold correctHypotheses at hc
    cases hone : (if h.id.eq bid = true then h.correct field_name value else none) with
    | some h' =>
      obtain rfl : h' :: hs = hs' := by simpa [hone] using hc
      have hh : h.correct field_name value = some h' := (Option.ite_none_right_eq_some.mp hone).2
      rw [List.map_cons, List.map_cons, id_correct hh]
    | none =>
      simp only [hone] at hc
      obtain ⟨hs₁, hhs, rfl⟩ := Option.map_eq_some_iff.mp hc
      rw [List.map_cons, List.map_cons, ih hhs]

theorem ids_correctDirectives (bid value : Value) (ds : List Directive) :
    (correctDirectives bid value ds).map (·.id) = ds.map (·.id) := by
  induction ds with
  | nil => rfl
  | cons d ds ih =>
    unfold correctDirectives
    split
    · rfl
    · rw [List.map_cons, List.map_cons, ih]

/-! ## Stored values -/

theorem stored_getOr {d : Dict} (hd : (Value.dict d).Stored) (k : String) {dflt : Value}
    (h : dflt.Stored) : (d.getOr k dflt).Stored := by
  unfold Dict.getOr
  cases hv : d.lookup k with
  | none => exact h
  | some v => exact hd.lookup hv

theorem stored_get {d : Dict} (hd : (Value.dict d).Stored) (k : String) : (d.get k).Stored :=
  stored_getOr hd k rfl

theorem get_of_item {d : Dict} {k : String} {v : Value} (h : d.item k = .ok v) : d.get k = v := by
  unfold Dict.item at h
  unfold Dict.get
  cases hk : d.lookup k with
  | none => simp [hk] at h
  | some w => simpa [hk] using h

theorem stored_getKey {v key w : Value} (hv : v.Stored) (h : v.getKey key = .ok w) : w.Stored := by
  cases v with
  | dict d =>
    by_cases hkey : key.hashable = true
    · obtain rfl : (key.text?.bind fun k => d.lookup k).getD .none = w := by
        simpa [Value.getKey, hkey] using h
      cases key.text? with
      | none => rfl
      | some k => exact stored_get hv k
    · simp [Value.getKey, hkey] at h
  | _ => cases h

/-- Every value of the entry is as the column returns it. -/
structure Hypothesis.Stored (h : Hypothesis) : Prop where
  id : h.id.Stored
  label : h.label.Stored
  confidence : h.confidence.Stored
  rationale : h.rationale.Stored
  parent : ∀ v ∈ h.parent, v.Stored

structure TimelineEntry.Stored (t : TimelineEntry) : Prop where
  ts : t.ts.Stored
  summary : t.summary.Stored
  source_event_id : t.source_event_id.Stored

structure Directive.Stored (d : Directive) : Prop where
  id : d.id.Stored
  text : d.text.Stored
  scope : d.scope.Stored

structure BoundPolicy.Stored (p : BoundPolicy) : Prop where
  id : p.id.Stored
  version : p.version.Stored

structure Facts.Stored (s : Facts) : Prop where
  hypotheses : ∀ h ∈ s.hypotheses, h.Stored
  active_directives : ∀ d ∈ s.active_directives, d.Stored
  active_policies : ∀ p ∈ s.active_policies, p.Stored
  timeline_summary : ∀ t ∈ s.timeline_summary, t.Stored

theorem stored_half : (Value.float (.fin (1 / 2))).Stored := by
  have hsmall : |(1 / 2 : ℚ)| < 10 ^ 16 := by norm_num
  simp only [Value.Stored, Value.stored, FloatVal.stored, if_pos hsmall]

theorem stored_updateHypothesis {bid : Value} {payload : Dict} (hbid : bid.Stored)
    (hp : (Value.dict payload).Stored) {hs : List Hypothesis} (hall : ∀ h ∈ hs, h.Stored) :
    ∀ h ∈ updateHypothesis bid payload hs, h.Stored := by
  induction hs with
  | nil =>
    intro h hmem
    obtain rfl := List.mem_singleton.mp hmem
    constructor
    · exact hbid
    · exact stored_getOr hp _ rfl
    · exact stored_getOr hp _ stored_half
    · exact stored_getOr hp _ rfl
    · simpa using stored_get hp "parent"
  | cons h hs ih =>
    unfold updateHypothesis
    have hh : h.Stored := hall h (by simp)
    split
    · intro h' hmem
      rcases List.mem_cons.mp hmem with rfl | hmem
      · constructor
        · exact hh.id
        · exact stored_getOr hp _ hh.label
        · exact stored_getOr hp _ hh.confidence
        · exact stored_getOr hp _ hh.rationale
        · intro v hv
          cases hl : payload.lookup "parent" with
          | none => exact hh.parent v (by simpa [Hypothesis.update, hl] using hv)
          | some w =>
            obtain rfl : w = v := by simpa [Hypothesis.update, hl] using hv
            exact hp.lookup hl
      · exact hall h' (by simp [hmem])
    · intro h' hmem
      rcases List.mem_cons.mp hmem with rfl | hmem
      · exact hh
      · exact ih (fun y hy => hall y (by simp [hy])) h' hmem

theorem stored_recalibrate {payload : Dict} (hp : (Value.dict payload).Stored) {h h' : Hypothesis}
    (hh : h.Stored) (hok : recalibrate payload h = .ok h') : h'.Stored := by
  obtain ⟨updated, hget, hret⟩ := (bind_eq_ok _ _ _).mp hok
  obtain rfl := (pure_eq_ok _ _).mp hret
  have hempty : (Value.dict []).Stored := rfl
  have hupd : updated.Stored := stored_getKey (stored_getOr hp "confidences" hempty) hget
  split
  · exact { hh with confidence := hupd }
  · exact hh

theorem stored_correct {h h' : Hypothesis} {field_name : String} {value : Value} (hh : h.Stored)
    (hv : value.Stored) (hc : h.correct field_name value = some h') : h'.Stored := by
  unfold Hypothesis.correct at hc
  split at hc
  · obtain rfl := Option.some.inj hc
    exact { hh with label := hv }
  · obtain rfl := Option.some.inj hc
    exact { hh with confidence := hv }
  · obtain rfl := Option.some.inj hc
    exact { hh with rationale := hv }
  · cases hc

theorem stored_correctHypotheses {bid value : Value} {field_name : String}
    {hs hs' : List Hypothesis} (hall : ∀ h ∈ hs, h.Stored) (hv : value.Stored)
    (hc : correctHypotheses bid field_name value hs = some hs') : ∀ h ∈ hs', h.Stored := by
  induction hs generalizing hs' with
  | nil => cases hc
  | cons h hs ih =>
    have hh : h.Stored := hall h (by simp)
    have htail : ∀ h ∈ hs, h.Stored := fun y hy => hall y (by simp [hy])
    unfold correctHypotheses at hc
    cases hone : (if h.id.eq bid = true then h.correct field_name value else none) with
    | some h' =>
      obtain rfl : h' :: hs = hs' := by simpa [hone] using hc
      have hset : h.correct field_name value = some h' := (Option.ite_none_right_eq_some.mp hone).2
      simpa using ⟨stored_correct hh hv hset, htail⟩
    | none =>
      simp only [hone] at hc
      obtain ⟨hs₁, hhs, rfl⟩ := Option.map_eq_some_iff.mp hc
      simpa using ⟨hh, ih htail hhs⟩

theorem stored_correctDirectives {bid value : Value} (hv : value.Stored) {ds : List Directive}
    (hall : ∀ d ∈ ds, d.Stored) : ∀ d ∈ correctDirectives bid value ds, d.Stored := by
  induction ds with
  | nil => simp [correctDirectives]
  | cons d ds ih =>
    have hd : d.Stored := hall d (by simp)
    have htail : ∀ d ∈ ds, d.Stored := fun y hy => hall y (by simp [hy])
    unfold correctDirectives
    split
    · have hnew : ({ d with text := value } : Directive).Stored := { hd with text := hv }
      simpa using ⟨hnew, htail⟩
    · simpa using ⟨hd, ih htail⟩

/-! ## One event -/

/-- The identifiers of the hypotheses after the event. -/
def Event.hypothesisIds (e : Event) (ids : List Value) : List Value :=
  match e.kind? with
  | some .alertIngested => if ids.isEmpty then [.str "root"] else ids
  | some .hypothesisUpdated => insertId e.id ids
  | _ => ids

def Event.directiveIds (e : Event) (ids : List Value) : List Value :=
  match e.kind? with
  | some .directiveAdded => insertId e.id ids
  | some .directiveRemoved => ids.filter fun i => !i.eq e.id
  | _ => ids

def Event.policyIds (e : Event) (ids : List Value) : List Value :=
  match e.kind? with
  | some .policyBound => insertId e.id ids
  | _ => ids

/-- The entries that the timeline shows of an event. -/
def Event.entries (e : Event) : List TimelineEntry :=
  if e.kind? = some .timelineEntry then [e.entry] else []

section

variable {e : Event} (hk : e.kind? = some .timelineEntry)
include hk

theorem fold_timelineEntry (s : Facts) : s.fold e = pure { s with
    timeline_summary := (s.timeline_summary ++ [e.entry]).rtake TIMELINE_WINDOW } := by
  simp only [Facts.fold, hk]

theorem hypothesisIds_timelineEntry (ids : List Value) : e.hypothesisIds ids = ids := by
  simp [Event.hypothesisIds, hk]

theorem directiveIds_timelineEntry (ids : List Value) : e.directiveIds ids = ids := by
  simp [Event.directiveIds, hk]

theorem policyIds_timelineEntry (ids : List Value) : e.policyIds ids = ids := by
  simp [Event.policyIds, hk]

theorem entries_timelineEntry : e.entries = [e.entry] := by
  simp [Event.entries, hk]

end

/-- The panels `s'` that an event leaves of `s`. -/
structure Step (e : Event) (s s' : Facts) : Prop where
  applied_seq : s'.applied_seq = s.applied_seq
  hypotheses : s'.hypothesisIds = e.hypothesisIds s.hypothesisIds
  directives : s'.directiveIds = e.directiveIds s.directiveIds
  policies : s'.policyIds = e.policyIds s.policyIds
  timeline : s.timeline_summary.length ≤ TIMELINE_WINDOW →
    s'.timeline_summary = (s.timeline_summary ++ e.entries).rtake TIMELINE_WINDOW
  stored : s.Stored → s'.Stored

theorem rtake_of_length_le {α : Type} {xs : List α} {n : ℕ} (h : xs.length ≤ n) :
    xs.rtake n = xs := by
  have hzero : xs.length - n = 0 := by omega
  rw [List.rtake, hzero, List.drop_zero]

variable {e : Event} {s s' : Facts}

/-- An event that changes no panel but the hypotheses. -/
theorem Step.of_hypotheses {hs : List Hypothesis}
    (hids : hs.map (·.id) = e.hypothesisIds s.hypothesisIds)
    (hstored : (∀ h ∈ s.hypotheses, h.Stored) → ∀ h ∈ hs, h.Stored)
    (hd : e.directiveIds s.directiveIds = s.directiveIds)
    (hp : e.policyIds s.policyIds = s.policyIds) (ht : e.entries = []) :
    Step e s { s with hypotheses := hs } := by
  constructor
  · rfl
  · exact hids
  · exact hd.symm
  · exact hp.symm
  · intro hlen
    rw [ht, List.append_nil]
    exact (rtake_of_length_le hlen).symm
  · intro hs
    exact { hs with hypotheses := hstored hs.hypotheses }

theorem Step.of_directives {ds : List Directive}
    (hids : ds.map (·.id) = e.directiveIds s.directiveIds)
    (hstored : (∀ d ∈ s.active_directives, d.Stored) → ∀ d ∈ ds, d.Stored)
    (hh : e.hypothesisIds s.hypothesisIds = s.hypothesisIds)
    (hp : e.policyIds s.policyIds = s.policyIds) (ht : e.entries = []) :
    Step e s { s with active_directives := ds } := by
  constructor
  · rfl
  · exact hh.symm
  · exact hids
  · exact hp.symm
  · intro hlen
    rw [ht, List.append_nil]
    exact (rtake_of_length_le hlen).symm
  · intro hs
    exact { hs with active_directives := hstored hs.active_directives }

theorem Step.of_policies {ps : List BoundPolicy}
    (hids : ps.map (·.id) = e.policyIds s.policyIds)
    (hstored : (∀ p ∈ s.active_policies, p.Stored) → ∀ p ∈ ps, p.Stored)
    (hh : e.hypothesisIds s.hypothesisIds = s.hypothesisIds)
    (hd : e.directiveIds s.directiveIds = s.directiveIds) (ht : e.entries = []) :
    Step e s { s with active_policies := ps } := by
  constructor
  · rfl
  · exact hh.symm
  · exact hd.symm
  · exact hids
  · intro hlen
    rw [ht, List.append_nil]
    exact (rtake_of_length_le hlen).symm
  · intro hs
    exact { hs with active_policies := hstored hs.active_policies }

/-- An event that changes no panel. -/
theorem Step.same (hh : e.hypothesisIds s.hypothesisIds = s.hypothesisIds)
    (hd : e.directiveIds s.directiveIds = s.directiveIds)
    (hp : e.policyIds s.policyIds = s.policyIds) (ht : e.entries = []) : Step e s s :=
  Step.of_hypotheses hh.symm id hd hp ht

theorem any_directiveIds (bid : Value) :
    (s.directiveIds.any fun i => i.eq bid) = s.active_directives.any fun d => d.id.eq bid := by
  simp [Facts.directiveIds, List.any_map, Function.comp_def]

theorem any_policyIds (bid : Value) :
    (s.policyIds.any fun i => i.eq bid) = s.active_policies.any fun p => p.id.eq bid := by
  simp [Facts.policyIds, List.any_map, Function.comp_def]

theorem step_alertIngested (hk : e.kind? = some .alertIngested) (h : s.fold e = .ok s') :
    Step e s s' := by
  simp only [Facts.fold, hk] at h
  have hd : e.directiveIds s.directiveIds = s.directiveIds := by simp [Event.directiveIds, hk]
  have hp : e.policyIds s.policyIds = s.policyIds := by simp [Event.policyIds, hk]
  have ht : e.entries = [] := by simp [Event.entries, hk]
  by_cases hnone : s.hypotheses.isEmpty = true
  · rw [if_pos hnone] at h
    obtain rfl := (pure_eq_ok _ _).mp h
    have hids : s.hypothesisIds = [] := by simpa [Facts.hypothesisIds] using hnone
    refine Step.of_hypotheses ?_ (fun _ h hmem => ?_) hd hp ht
    · simp [Event.hypothesisIds, hk, hids]
    · obtain rfl := List.mem_singleton.mp hmem
      constructor
      · rfl
      · exact stored_getOr e.stored _ rfl
      · exact stored_getOr e.stored _ stored_half
      · rfl
      · simp
  · rw [if_neg hnone] at h
    obtain rfl := (pure_eq_ok _ _).mp h
    have hids : s.hypothesisIds.isEmpty = false := by simpa [Facts.hypothesisIds] using hnone
    exact Step.same (by simp [Event.hypothesisIds, hk, hids]) hd hp ht

theorem step_hypothesisUpdated (hk : e.kind? = some .hypothesisUpdated) (h : s.fold e = .ok s') :
    Step e s s' := by
  simp only [Facts.fold, hk] at h
  obtain ⟨bid, hbid, hret⟩ := (bind_eq_ok _ _ _).mp h
  obtain rfl := (pure_eq_ok _ _).mp hret
  obtain rfl : e.id = bid := get_of_item hbid
  refine Step.of_hypotheses ?_ ?_ ?_ ?_ ?_
  · simp only [Event.hypothesisIds, hk]
    exact ids_updateHypothesis _ _ _
  · exact stored_updateHypothesis (stored_get e.stored "id") e.stored
  · simp [Event.directiveIds, hk]
  · simp [Event.policyIds, hk]
  · simp [Event.entries, hk]

theorem step_confidenceRecalibrated (hk : e.kind? = some .confidenceRecalibrated)
    (h : s.fold e = .ok s') : Step e s s' := by
  simp only [Facts.fold, hk] at h
  obtain ⟨hs, hmap, hret⟩ := (bind_eq_ok _ _ _).mp h
  obtain rfl := (pure_eq_ok _ _).mp hret
  refine Step.of_hypotheses ?_ (fun hall h hmem => ?_) ?_ ?_ ?_
  · simp only [Event.hypothesisIds, hk]
    exact ids_recalibrate hmap
  · obtain ⟨h₀, hh₀, hok⟩ := (mem_of_mapM_eq_ok hmap h).mp hmem
    exact stored_recalibrate e.stored (hall h₀ hh₀) hok
  · simp [Event.directiveIds, hk]
  · simp [Event.policyIds, hk]
  · simp [Event.entries, hk]

theorem step_timelineEntry (hk : e.kind? = some .timelineEntry) (h : s.fold e = .ok s') :
    Step e s s' := by
  rw [fold_timelineEntry hk] at h
  obtain rfl := (pure_eq_ok _ _).mp h
  constructor
  · rfl
  · exact (hypothesisIds_timelineEntry hk _).symm
  · exact (directiveIds_timelineEntry hk _).symm
  · exact (policyIds_timelineEntry hk _).symm
  · intro _
    rw [entries_timelineEntry hk]
  · intro hs
    refine { hs with timeline_summary := fun t ht => ?_ }
    rcases List.mem_append.mp (List.mem_of_mem_drop ht) with ht | ht
    · exact hs.timeline_summary t ht
    · obtain rfl := List.mem_singleton.mp ht
      constructor
      · exact stored_get e.stored _
      · exact stored_getOr e.stored _ rfl
      · exact stored_get e.stored _

theorem step_directiveAdded (hk : e.kind? = some .directiveAdded) (h : s.fold e = .ok s') :
    Step e s s' := by
  simp only [Facts.fold, hk] at h
  obtain ⟨did, hdid, hret⟩ := (bind_eq_ok _ _ _).mp h
  obtain rfl : e.id = did := get_of_item hdid
  have hh : e.hypothesisIds s.hypothesisIds = s.hypothesisIds := by simp [Event.hypothesisIds, hk]
  have hp : e.policyIds s.policyIds = s.policyIds := by simp [Event.policyIds, hk]
  have ht : e.entries = [] := by simp [Event.entries, hk]
  have hd : e.directiveIds s.directiveIds = insertId e.id s.directiveIds := by
    simp [Event.directiveIds, hk]
  unfold insertId at hd
  rw [any_directiveIds] at hd
  by_cases hany : (s.active_directives.any fun d => d.id.eq e.id) = true
  · rw [if_pos hany] at hret hd
    obtain rfl := (pure_eq_ok _ _).mp hret
    exact Step.same hh hd hp ht
  · rw [if_neg hany] at hret hd
    obtain rfl := (pure_eq_ok _ _).mp hret
    refine Step.of_directives ?_ (fun hall d hmem => ?_) hh hp ht
    · rw [hd]
      simp [Facts.directiveIds]
    · rcases List.mem_append.mp hmem with hmem | hmem
      · exact hall d hmem
      · obtain rfl := List.mem_singleton.mp hmem
        constructor
        · exact stored_get e.stored "id"
        · exact stored_getOr e.stored _ rfl
        · exact stored_get e.stored _

theorem step_directiveRemoved (hk : e.kind? = some .directiveRemoved) (h : s.fold e = .ok s') :
    Step e s s' := by
  simp only [Facts.fold, hk] at h
  obtain ⟨did, hdid, hret⟩ := (bind_eq_ok _ _ _).mp h
  obtain rfl := (pure_eq_ok _ _).mp hret
  obtain rfl : e.id = did := get_of_item hdid
  refine Step.of_directives ?_ (fun hall d hmem => hall d (List.mem_of_mem_filter hmem)) ?_ ?_ ?_
  · simp [Event.directiveIds, hk, Facts.directiveIds, List.filter_map, Function.comp_def]
  · simp [Event.hypothesisIds, hk]
  · simp [Event.policyIds, hk]
  · simp [Event.entries, hk]

theorem step_policyBound (hk : e.kind? = some .policyBound) (h : s.fold e = .ok s') :
    Step e s s' := by
  simp only [Facts.fold, hk] at h
  obtain ⟨pid, hpid, hret⟩ := (bind_eq_ok _ _ _).mp h
  obtain rfl : e.id = pid := get_of_item hpid
  have hh : e.hypothesisIds s.hypothesisIds = s.hypothesisIds := by simp [Event.hypothesisIds, hk]
  have hd : e.directiveIds s.directiveIds = s.directiveIds := by simp [Event.directiveIds, hk]
  have ht : e.entries = [] := by simp [Event.entries, hk]
  have hp : e.policyIds s.policyIds = insertId e.id s.policyIds := by simp [Event.policyIds, hk]
  unfold insertId at hp
  rw [any_policyIds] at hp
  by_cases hany : (s.active_policies.any fun p => p.id.eq e.id) = true
  · rw [if_pos hany] at hret hp
    obtain rfl := (pure_eq_ok _ _).mp hret
    exact Step.same hh hd hp ht
  · rw [if_neg hany] at hret hp
    obtain rfl := (pure_eq_ok _ _).mp hret
    refine Step.of_policies ?_ (fun hall p hmem => ?_) hh hd ht
    · rw [hp]
      simp [Facts.policyIds]
    · rcases List.mem_append.mp hmem with hmem | hmem
      · exact hall p hmem
      · obtain rfl := List.mem_singleton.mp hmem
        constructor
        · exact stored_get e.stored "id"
        · exact stored_get e.stored _

theorem step_analystCorrection (hk : e.kind? = some .analystCorrection) (h : s.fold e = .ok s') :
    Step e s s' := by
  simp only [Facts.fold, hk] at h
  have hh : e.hypothesisIds s.hypothesisIds = s.hypothesisIds := by simp [Event.hypothesisIds, hk]
  have hd : e.directiveIds s.directiveIds = s.directiveIds := by simp [Event.directiveIds, hk]
  have hp : e.policyIds s.policyIds = s.policyIds := by simp [Event.policyIds, hk]
  have ht : e.entries = [] := by simp [Event.entries, hk]
  have hvalue : (e.payload.get "value").Stored := stored_get e.stored _
  obtain ⟨parts, -, hrest⟩ := (bind_eq_ok _ _ _).mp h
  split at hrest
  · split at hrest
    · obtain rfl := (pure_eq_ok _ _).mp hrest
      have hc := ‹correctHypotheses _ _ _ _ = some _›
      refine Step.of_hypotheses ?_ (fun hall => stored_correctHypotheses hall hvalue hc) hd hp ht
      rw [hh]
      exact ids_correctHypotheses hc
    · obtain rfl := (pure_eq_ok _ _).mp hrest
      exact Step.same hh hd hp ht
  · obtain rfl := (pure_eq_ok _ _).mp hrest
    refine Step.of_directives ?_ (fun hall => stored_correctDirectives hvalue hall) hh hp ht
    rw [hd]
    exact ids_correctDirectives _ _ _
  · obtain rfl := (pure_eq_ok _ _).mp hrest
    exact Step.same hh hd hp ht

/-- What the reducer makes of an event, whatever its kind. -/
theorem step_fold (h : s.fold e = .ok s') : Step e s s' := by
  cases hk : e.kind? with
  | none =>
    simp only [Facts.fold, hk] at h
    obtain rfl := (pure_eq_ok _ _).mp h
    apply Step.same <;>
      simp [Event.hypothesisIds, Event.directiveIds, Event.policyIds, Event.entries, hk]
  | some k =>
    cases k
    case alertIngested => exact step_alertIngested hk h
    case hypothesisUpdated => exact step_hypothesisUpdated hk h
    case confidenceRecalibrated => exact step_confidenceRecalibrated hk h
    case timelineEntry => exact step_timelineEntry hk h
    case directiveAdded => exact step_directiveAdded hk h
    case directiveRemoved => exact step_directiveRemoved hk h
    case policyBound => exact step_policyBound hk h
    case analystCorrection => exact step_analystCorrection hk h
    all_goals
      simp only [Facts.fold, hk] at h
      obtain rfl := (pure_eq_ok _ _).mp h
      apply Step.same <;>
        simp [Event.hypothesisIds, Event.directiveIds, Event.policyIds, Event.entries, hk]

end SocTalk.Projection
