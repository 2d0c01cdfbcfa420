import SocTalk.Authorization.Render

/-! The safety floor on the worker's auto-close: the vetoes that turn a false-positive
close into an escalation. -/
namespace SocTalk.TriagePolicy
open Py Authorization

/-- What the worker asks the control plane to do with the case. -/
inductive Disposition where
  | closeFp
  | escalate
  | leaveOpen
  deriving DecidableEq

inductive Veto where
  | ioc
  | unverifiedIoc
  | activeIncident
  | authzContradicted
  | killSwitch
  | volumeCap
  deriving DecidableEq

def Veto.value : Veto → String
  | .ioc => "ioc_present"
  | .unverifiedIoc => "ioc_unverified"
  | .activeIncident => "active_incident"
  | .authzContradicted => "authorization_contradicted"
  | .killSwitch => "auto_close_killed"
  | .volumeCap => "close_volume_cap"

/-- The set of values the enrichments cover; a member of a set must be hashable. -/
def enrichedValues (enrichments : List Value) : M (List Value) :=
  (enrichments.filter Value.isDict).mapM fun e => do
    let observable ← e.get "observable"
    let value ← (observable.orElse (.dict [])).get "value"
    if value.hashable then return value else throw .typeError

/-- One turn of the scan: an observable with a value that is not in `enriched`. -/
def uncovered (enriched : List Value) (o : Value) : M Bool := do
  if !o.isDict then return false
  let value ← o.get "value"
  if !value.truthy then return false
  if !value.hashable then throw .typeError
  return !enriched.any value.eq

def hasUnenrichedObservables (investigation : Value) : M Bool := do
  let observables := (← investigation.get "observables").orElse (.list [])
  if !observables.truthy then return false
  let enrichments ← ((← investigation.get "enrichments").orElse (.list [])).iter
  let enriched ← enrichedValues enrichments
  (← observables.iter).anyM (uncovered enriched)

/-- `correlation.active_incident`, whatever the type of the block. -/
def activeIncident (state : Dict) : Bool :=
  (field (Dict.get state "correlation") "active_incident").truthy

/-- A close with no verdict while an observable was never looked at. -/
def unverifiedIoc (final : Dict) (investigation : Value) : M Bool :=
  if !(Dict.get final "verdict").truthy then hasUnenrichedObservables investigation
  else return false

section

-- Schema validation of a recorded authorization context.
variable (validate : Value → Option AuthorizationContext)

def workerCloseVetoes (final : Dict) : M (List Veto) := do
  let investigation := (Dict.get final "investigation").orElse (.dict [])
  let ioc ← hasMaliciousSignal investigation
  let unverified ← unverifiedIoc final investigation
  let (authzClass, _) ← deriveAuthzClass (← parseAuthorizationContext validate investigation)
  return (if ioc then [Veto.ioc] else []) ++ (if unverified then [Veto.unverifiedIoc] else []) ++
    (if authzClass = .contradicted then [Veto.authzContradicted] else []) ++
    (if activeIncident final then [Veto.activeIncident] else [])

/-- A close with floor vetoes becomes an escalation; other dispositions pass through. -/
def applyWorkerFloor (final : Dict) (disposition : Option Disposition) :
    M (Option Disposition × List Veto) := do
  if disposition ≠ some .closeFp then return (disposition, [])
  let vetoes ← workerCloseVetoes validate final
  if !vetoes.isEmpty then return (some .escalate, vetoes)
  return (disposition, [])

end

/-! ## What the scans decide -/

/-- Every observable with a value is covered by some enrichment. -/
def Covered (investigation : Value) : Prop :=
  ∀ o ∈ elements (field investigation "observables"), o.isDict = true →
    (field o "value").truthy = true →
    ∃ e ∈ elements (field investigation "enrichments"), e.isDict = true ∧
      (field o "value").eq (field (field e "observable") "value") = true

/-- The recorded context, `none` when absent or invalid. -/
def authorizationContext (validate : Value → Option AuthorizationContext)
    (investigation : Value) : Option AuthorizationContext :=
  match field investigation "authorization_context" with
  | .none => none
  | raw => validate raw

def Contradicted (validate : Value → Option AuthorizationContext) (investigation : Value) : Prop :=
  ∃ components, deriveAuthzClass (authorizationContext validate investigation) =
    .ok (.contradicted, components)

theorem enrichedValues_eq {es vs : List Value} (h : enrichedValues es = .ok vs) (v : Value) :
    v ∈ vs ↔ ∃ e ∈ es, e.isDict = true ∧ field (field e "observable") "value" = v := by
  have hval : ∀ e : Value, e.isDict = true → ∀ w, (do
      let observable ← e.get "observable"
      let value ← (observable.orElse (.dict [])).get "value"
      if value.hashable then return value else throw .typeError : M Value) = .ok w →
      field (field e "observable") "value" = w := by
    intro e _ w hw
    obtain ⟨observable, ho, hw⟩ := (bind_eq_ok _ _ _).mp hw
    obtain ⟨value, hv, hw⟩ := (bind_eq_ok _ _ _).mp hw
    have hf := get_eq_ok hv
    rw [field_orElse] at hf
    split at hw
    · obtain rfl : value = w := by simpa using hw
      rw [get_eq_ok ho]
      exact hf
    · cases hw
  unfold enrichedValues at h
  rw [mem_of_mapM_eq_ok h]
  constructor
  · rintro ⟨e, he, hw⟩
    obtain ⟨hmem, hd⟩ := List.mem_filter.mp he
    exact ⟨e, hmem, hd, hval e hd v hw⟩
  · rintro ⟨e, hmem, hd, rfl⟩
    have he : e ∈ es.filter Value.isDict := List.mem_filter.mpr ⟨hmem, hd⟩
    obtain ⟨w, hw⟩ := returns_of_mapM_eq_ok h e he
    exact ⟨e, he, (hval e hd w hw).symm ▸ hw⟩

theorem uncovered_eq {enriched : List Value} {o : Value} {b : Bool}
    (h : uncovered enriched o = .ok b) :
    b = true ↔ o.isDict = true ∧ (field o "value").truthy = true ∧
      ∀ v ∈ enriched, (field o "value").eq v = false := by
  unfold uncovered at h
  cases hd : o.isDict with
  | false =>
    have hb : false = b := by simpa [hd] using h
    simp [← hb]
  | true =>
    simp only [hd, Bool.not_true, Bool.false_eq_true, if_false] at h
    obtain ⟨value, hv, h⟩ := (bind_eq_ok _ _ _).mp h
    rw [get_eq_ok hv]
    cases ht : value.truthy with
    | false =>
      have hb : false = b := by simpa [ht] using h
      simp [← hb]
    | true =>
      cases hh : value.hashable with
      | false => simp [ht, hh, throw, throwThe, MonadExceptOf.throw, bind, Except.bind] at h
      | true =>
        have hb : (!enriched.any value.eq) = b := by simpa [ht, hh] using h
        simp [← hb]

theorem hasUnenrichedObservables_eq {investigation : Value} {b : Bool}
    (h : hasUnenrichedObservables investigation = .ok b) : b = true ↔ ¬Covered investigation := by
  unfold hasUnenrichedObservables at h
  obtain ⟨obs, hobs, h⟩ := (bind_eq_ok _ _ _).mp h
  cases ht : obs.truthy with
  | false =>
    have hor : obs.orElse (.list []) = .list [] := by simp [Value.orElse, ht]
    have hb : false = b := by simpa [hor, Value.truthy] using h
    have hel : elements (field investigation "observables") = [] := by
      rw [get_eq_ok hobs]
      simp [elements, hor, Value.iter]
    simp [← hb, Covered, hel]
  | true =>
    have hor : obs.orElse (.list []) = obs := by simp [Value.orElse, ht]
    simp only [hor, ht, Bool.not_true, Bool.false_eq_true, if_false] at h
    obtain ⟨enr, henr, h⟩ := (bind_eq_ok _ _ _).mp h
    obtain ⟨es, hes, h⟩ := (bind_eq_ok _ _ _).mp h
    obtain ⟨enriched, hset, h⟩ := (bind_eq_ok _ _ _).mp h
    obtain ⟨os, hos, h⟩ := (bind_eq_ok _ _ _).mp h
    have hobsEl : elements (field investigation "observables") = os := by
      rw [get_eq_ok hobs]
      exact elements_eq (by rw [hor]; exact hos)
    have henrEl : elements (field investigation "enrichments") = es := by
      rw [get_eq_ok henr]
      exact elements_eq hes
    unfold Covered
    rw [hobsEl, henrEl]
    cases b with
    | true =>
      obtain ⟨o, ho, hp⟩ := anyM_eq_ok_true h
      obtain ⟨hd, hv, hno⟩ := (uncovered_eq hp).mp rfl
      refine ⟨fun _ hc => ?_, fun _ => rfl⟩
      obtain ⟨e, he, hed, heq⟩ := hc o ho hd hv
      have hmem := (enrichedValues_eq hset _).mpr ⟨e, he, hed, rfl⟩
      simp [hno _ hmem] at heq
    | false =>
      have hall := anyM_eq_ok_false h
      suffices hcov : _ from ⟨fun hf => absurd hf (by simp), fun hc => absurd hcov hc⟩
      intro o ho hd hv
      have hnot := (not_congr (uncovered_eq (hall o ho))).mp (by simp)
      obtain ⟨v, hmem, heq⟩ : ∃ v ∈ enriched, (field o "value").eq v = true := by
        by_contra hno
        refine hnot ⟨hd, hv, fun v hmem => ?_⟩
        simpa using fun he => hno ⟨v, hmem, he⟩
      obtain ⟨e, he, hed, rfl⟩ := (enrichedValues_eq hset _).mp hmem
      exact ⟨e, he, hed, heq⟩

/-! ## The vetoes -/

theorem authorizationContext_orElse (validate : Value → Option AuthorizationContext) (v : Value) :
    authorizationContext validate (v.orElse (.dict [])) = authorizationContext validate v := by
  unfold authorizationContext
  rw [field_orElse]

/-- Reading the context raises exactly when the investigation is no dictionary. -/
theorem parseAuthorizationContext_eq {validate : Value → Option AuthorizationContext}
    {investigation v : Value} (k : String) (h : investigation.get k = .ok v) :
    parseAuthorizationContext validate investigation =
      .ok (authorizationContext validate investigation) := by
  cases investigation with
  | dict d =>
    unfold parseAuthorizationContext authorizationContext
    rw [Value.get_dict]
    show (match Dict.get d "authorization_context" with
      | .none => pure none
      | raw => pure (validate raw) : M _) = .ok (match Dict.get d "authorization_context" with
      | .none => none
      | raw => validate raw)
    cases Dict.get d "authorization_context" <;> rfl
  | _ => cases h

section

variable (validate : Value → Option AuthorizationContext) (final : Dict)

/-- Nothing in the final state forbids an automatic close. -/
structure FloorClean : Prop where
  noMalicious : ¬Malicious (Dict.get final "investigation")
  notContradicted : ¬Contradicted validate (Dict.get final "investigation")
  noActiveIncident : activeIncident final = false
  lookedAt : (Dict.get final "verdict").truthy = true ∨ Covered (Dict.get final "investigation")

/-- The scans read well-shaped data: none of them raises. -/
structure ScansReturn : Prop where
  malicious : Returns (hasMaliciousSignal ((Dict.get final "investigation").orElse (.dict [])))
  observables : (Dict.get final "verdict").truthy = false →
    Returns (hasUnenrichedObservables ((Dict.get final "investigation").orElse (.dict [])))
  authorization :
    Returns (deriveAuthzClass (authorizationContext validate (Dict.get final "investigation")))

end

theorem workerCloseVetoes_eq_ok {validate : Value → Option AuthorizationContext} {final : Dict}
    {vetoes : List Veto} (h : workerCloseVetoes validate final = .ok vetoes) :
    ScansReturn validate final ∧ (vetoes = [] ↔ FloorClean validate final) := by
  unfold workerCloseVetoes at h
  obtain ⟨ioc, hioc, h⟩ := (bind_eq_ok _ _ _).mp h
  obtain ⟨unverified, hunv, h⟩ := (bind_eq_ok _ _ _).mp h
  obtain ⟨context, hctx, h⟩ := (bind_eq_ok _ _ _).mp h
  obtain ⟨⟨authzClass, components⟩, hcls, h⟩ := (bind_eq_ok _ _ _).mp h
  have hv := (pure_eq_ok _ _).mp h
  have hmal := hasMaliciousSignal_eq hioc
  obtain ⟨es, hes, -⟩ := (bind_eq_ok _ _ _).mp hioc
  rw [parseAuthorizationContext_eq _ hes, authorizationContext_orElse] at hctx
  obtain rfl := Except.ok.inj hctx
  have hcov : unverified = true ↔ (Dict.get final "verdict").truthy = false ∧
      ¬Covered (Dict.get final "investigation") := by
    cases ht : (Dict.get final "verdict").truthy with
    | true =>
      have hb : false = unverified := by simpa [unverifiedIoc, ht] using hunv
      simp [← hb]
    | false =>
      have hb := hasUnenrichedObservables_eq (by simpa [unverifiedIoc, ht] using hunv)
      simpa [Covered] using hb
  have hcon : authzClass = .contradicted ↔
      Contradicted validate (Dict.get final "investigation") := by
    unfold Contradicted
    rw [hcls]
    constructor
    · rintro rfl
      exact ⟨components, rfl⟩
    · rintro ⟨c, hc⟩
      exact congrArg Prod.fst (Except.ok.inj hc)
  refine ⟨⟨⟨ioc, hioc⟩, fun ht => ⟨unverified, by simpa [unverifiedIoc, ht] using hunv⟩, ⟨_, hcls⟩⟩, ?_⟩
  have hmal' : ioc = true ↔ Malicious (Dict.get final "investigation") := by
    simpa [Malicious] using hmal
  subst hv
  constructor
  · intro hnil
    simp only [List.append_eq_nil_iff, ite_eq_right_iff, List.cons_ne_nil, imp_false] at hnil
    obtain ⟨⟨⟨hi, hu⟩, hc⟩, ha⟩ := hnil
    refine ⟨fun hm => hi (hmal'.mpr hm), fun hm => hc (hcon.mpr hm), by simpa using ha, ?_⟩
    by_contra hno
    obtain ⟨hv, hn⟩ := not_or.mp hno
    exact hu (hcov.mpr ⟨by simpa using hv, hn⟩)
  · rintro ⟨hm, hc, ha, hl⟩
    have h1 : ¬ioc = true := fun hi => hm (hmal'.mp hi)
    have h2 : ¬unverified = true := by
      intro hu
      obtain ⟨hf, hn⟩ := hcov.mp hu
      rcases hl with hl | hl
      · simp [hf] at hl
      · exact hn hl
    have h3 : ¬authzClass = .contradicted := fun hi => hc (hcon.mp hi)
    simp [h1, h2, h3, ha]

theorem returns_workerCloseVetoes {validate : Value → Option AuthorizationContext} {final : Dict}
    (h : ScansReturn validate final) : Returns (workerCloseVetoes validate final) := by
  obtain ⟨⟨ioc, hioc⟩, hobs, hcls⟩ := h
  obtain ⟨es, hes, -⟩ := (bind_eq_ok _ _ _).mp hioc
  unfold workerCloseVetoes
  refine Returns.bind ⟨ioc, hioc⟩ fun _ _ => ?_
  have hunv : Returns (unverifiedIoc final ((Dict.get final "investigation").orElse (.dict []))) :=
    returns_ite (fun ht => hobs (by simpa using ht)) fun _ => ⟨_, rfl⟩
  refine hunv.bind fun _ _ => ?_
  rw [parseAuthorizationContext_eq _ hes, authorizationContext_orElse]
  refine Returns.bind ⟨_, rfl⟩ fun _ hc => ?_
  obtain rfl := Except.ok.inj hc
  exact hcls.bind fun _ _ => ⟨_, rfl⟩

/-- The floor on a close: it is kept only in a clean state and escalated in any other. -/
theorem applyWorkerFloor_close {validate : Value → Option AuthorizationContext} {final : Dict}
    {d : Option Disposition} {vetoes : List Veto}
    (h : applyWorkerFloor validate final (some .closeFp) = .ok (d, vetoes)) :
    (FloorClean validate final ∧ d = some .closeFp) ∨
      (¬FloorClean validate final ∧ d = some .escalate) := by
  unfold applyWorkerFloor at h
  simp only [ne_eq, not_true_eq_false, if_false] at h
  obtain ⟨vs, hvs, h⟩ := (bind_eq_ok _ _ _).mp h
  obtain ⟨-, hiff⟩ := workerCloseVetoes_eq_ok hvs
  cases vs with
  | nil =>
    have hd := (pure_eq_ok _ _).mp h
    exact Or.inl ⟨hiff.mp rfl, (congrArg Prod.fst hd).symm⟩
  | cons v vs =>
    have hd := (pure_eq_ok _ _).mp h
    exact Or.inr ⟨fun hc => by simpa using hiff.mpr hc, (congrArg Prod.fst hd).symm⟩

theorem returns_applyWorkerFloor_close_iff (validate : Value → Option AuthorizationContext)
    (final : Dict) :
    Returns (applyWorkerFloor validate final (some .closeFp)) ↔ ScansReturn validate final := by
  unfold applyWorkerFloor
  simp only [ne_eq, not_true_eq_false, if_false]
  constructor
  · intro h
    obtain ⟨vs, hvs, -⟩ := (returns_bind_iff _ _).mp h
    exact (workerCloseVetoes_eq_ok hvs).1
  · intro h
    exact (returns_workerCloseVetoes h).bind fun vs _ =>
      returns_ite (fun _ => ⟨_, rfl⟩) fun _ => ⟨_, rfl⟩

theorem applyWorkerFloor_of_ne (validate : Value → Option AuthorizationContext) (final : Dict)
    {d : Option Disposition} (h : d ≠ some .closeFp) :
    applyWorkerFloor validate final d = .ok (d, []) := by
  unfold applyWorkerFloor
  rw [if_pos h]
  rfl

end SocTalk.TriagePolicy
