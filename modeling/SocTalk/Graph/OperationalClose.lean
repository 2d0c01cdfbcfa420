import SocTalk.Graph.Run

/-! The operational close is taken on the word of the alerts: what the check demands of them, and
what it passes over. -/
namespace SocTalk.Graph
open Py Authorization TriagePolicy

/-- The router's answer to an investigation under a policy that closes its class. -/
def takesOperationalClose (p : TriagePolicy) (investigation : Value) : M Bool := do
  let s ← stashVetoes { investigation := investigation, triagePolicy := some p } p
  return routeFromResolveTriagePolicy s = .operationalClose

/-! ## What an alert vouches for -/

def mitreKeys : List String := ["ids", "tactics", "techniques", "id", "tactic", "technique"]

def MitreMapped (alert : Dict) : Prop :=
  ∃ k ∈ mitreKeys, (field (Dict.get alert "mitre") k).truthy = true

/-- One of the alert's rule groups is one of the class. -/
def CarriesClass (classGroups : List String) (alert : Dict) : Prop :=
  ∃ g ∈ elements (Dict.get alert "rule_groups"), lower g.toText ∈ classGroups.map lower

/-- The alert states a level, and the level is within the limit. -/
def LevelWithin (alert : Dict) : Prop :=
  ∃ n, toInt (Dict.get alert "level") = .ok n ∧ n ≤ operationalMaxLevel

/-- An alert that is its class and nothing more. -/
structure Attests (classGroups : List String) (alert : Dict) : Prop where
  carries : CarriesClass classGroups alert
  mitre : ¬MitreMapped alert
  level : LevelWithin alert

/-- Every alert vouches for the class, whatever stands among the alerts, and no indicator is on the
investigation. -/
structure Operational (classGroups : List String) (investigation : Dict) : Prop where
  alerts : ∀ v ∈ elements (Dict.get investigation "alerts"),
    ∃ alert, v = .dict alert ∧ Attests classGroups alert
  observables : (Dict.get investigation "observables").truthy = false
  signal : ¬Malicious (.dict investigation)

/-- The check returns, and the close is taken on nothing but alerts that vouch for it. -/
def ClosesOnAttestation (p : TriagePolicy) (investigation : Dict) : Prop :=
  ∃ taken, takesOperationalClose p (.dict investigation) = .ok taken ∧
    (taken = true → Operational p.appliesTo.ruleGroups investigation)

/-! ## What the check reads -/

/-- The alerts that are mappings; the check sees no others. -/
def mappings (investigation : Dict) : List Dict :=
  (elements (Dict.get investigation "alerts")).filterMap fun
    | .dict alert => some alert
    | _ => none

/-- `for … in v or []` is possible. -/
def Iterable (v : Value) : Prop := Returns (v.orElse (.list [])).iter

def LevelRead (alert : Dict) : Prop := Returns (toInt ((Dict.get alert "level").orElse (.int 0)))

def LevelAbove (alert : Dict) : Prop :=
  ∃ n, toInt ((Dict.get alert "level").orElse (.int 0)) = .ok n ∧ operationalMaxLevel < n

/-- No read raises: what cannot be read comes after an alert that has settled the scan. -/
structure AlertsRead (classGroups : List String) (investigation : Dict) : Prop where
  alerts : Iterable (Dict.get investigation "alerts")
  groups : classGroups ≠ [] → GuardedBy (fun a => ¬CarriesClass classGroups a)
    (fun a => ¬Iterable (Dict.get a "rule_groups")) (mappings investigation)
  mitre : GuardedBy MitreMapped
    (fun a => (Dict.get a "mitre").truthy = true ∧ (Dict.get a "mitre").isDict = false)
    (mappings investigation)
  level : GuardedBy LevelAbove (fun a => ¬LevelRead a) (mappings investigation)
  enrichments : Iterable (Dict.get investigation "enrichments")

/-- One of the indicators that the check looks for is there. -/
def Vetoed (classGroups : List String) (investigation : Dict) : Prop :=
  (classGroups ≠ [] ∧ (mappings investigation = [] ∨
    ∃ a ∈ mappings investigation, ¬CarriesClass classGroups a)) ∨
  (∃ a ∈ mappings investigation, MitreMapped a) ∨
  (Dict.get investigation "observables").truthy = true ∨
  (∃ a ∈ mappings investigation, LevelAbove a) ∨ Malicious (.dict investigation)

/-- What the check does not hold against the close: an element that is no mapping, a level that is
not stated, and a policy that names no rule group. -/
def Overlooked (classGroups : List String) (v : Value) : Prop :=
  classGroups = [] ∨ v.isDict = false ∨ ∃ a, v = .dict a ∧ ¬Returns (toInt (Dict.get a "level"))

theorem mem_mappings {investigation a : Dict} :
    a ∈ mappings investigation ↔ .dict a ∈ elements (Dict.get investigation "alerts") := by
  unfold mappings
  rw [List.mem_filterMap]
  constructor
  · rintro ⟨v, hv, h⟩
    cases v with
    | dict d =>
      obtain rfl : d = a := by simpa using h
      exact hv
    | _ => cases h
  · intro h
    exact ⟨.dict a, h, rfl⟩

/-! ## The reads, one by one -/

theorem elements_of_iterable {v : Value} (h : Iterable v) :
    (v.orElse (.list [])).iter = .ok (elements v) := by
  obtain ⟨xs, hxs⟩ := h
  rw [hxs, elements_eq hxs]

theorem alertsOf_eq {investigation : Dict} (h : Iterable (Dict.get investigation "alerts")) :
    alertsOf (.dict investigation) = .ok (mappings investigation) := by
  have hget : (Value.dict investigation).get "alerts" = .ok (Dict.get investigation "alerts") := rfl
  unfold alertsOf
  rw [hget]
  simp only [bind, Except.bind, elements_of_iterable h]
  rfl

theorem returns_alertsOf_iff {investigation : Dict} :
    Returns (alertsOf (.dict investigation)) ↔ Iterable (Dict.get investigation "alerts") := by
  constructor
  · rintro ⟨alerts, h⟩
    obtain ⟨raw, hraw, h⟩ := (bind_eq_ok _ _ _).mp h
    obtain ⟨xs, hxs, -⟩ := (bind_eq_ok _ _ _).mp h
    have hget : Dict.get investigation "alerts" = raw := by simpa [Value.get, Dict.get] using hraw
    exact ⟨xs, by rw [hget]; exact hxs⟩
  · exact fun h => ⟨_, alertsOf_eq h⟩

theorem attestsClass_eq_ok {classGroups : List String} {a : Dict} {b : Bool}
    (h : attestsClass (classGroups.map lower) a = .ok b) :
    b = true ↔ CarriesClass classGroups a := by
  unfold attestsClass at h
  obtain ⟨groups, hgroups, hb⟩ := (bind_eq_ok _ _ _).mp h
  have hb := (pure_eq_ok _ _).mp hb
  rw [← hb, List.any_eq_true]
  unfold CarriesClass
  rw [elements_eq hgroups]
  simp only [List.contains_iff_mem]

theorem returns_attestsClass_iff {classGroups : List String} {a : Dict} :
    Returns (attestsClass classGroups a) ↔ Iterable (Dict.get a "rule_groups") := by
  unfold attestsClass
  rw [returns_bind_iff]
  constructor
  · rintro ⟨groups, hgroups, -⟩
    exact ⟨groups, hgroups⟩
  · rintro ⟨groups, hgroups⟩
    exact ⟨groups, hgroups, _, rfl⟩

theorem CarriesClass.iterable {classGroups : List String} {a : Dict}
    (h : CarriesClass classGroups a) : Iterable (Dict.get a "rule_groups") := by
  obtain ⟨g, hg, -⟩ := h
  unfold elements at hg
  unfold Iterable
  split at hg
  · rename_i xs hxs
    exact ⟨xs, hxs⟩
  · cases hg

theorem attestsClass_iff {classGroups : List String} {a : Dict} :
    attestsClass (classGroups.map lower) a = .ok true ↔ CarriesClass classGroups a :=
  eq_ok_true_iff (fun _ => attestsClass_eq_ok) fun h => returns_attestsClass_iff.mpr h.iterable

/-- The scan of a mapping's keys never raises. -/
theorem hasMitre_dict (d : Dict) :
    hasMitre (.dict d) = .ok (mitreKeys.any fun k => (Dict.get d k).truthy) := by
  have hget : ∀ k, (do return (← (Value.dict d).get k).truthy : M Bool) =
      .ok (Dict.get d k).truthy := fun k => rfl
  unfold hasMitre
  split
  · rename_i hfalsy
    have hd : d = [] := by simpa [Value.truthy] using hfalsy
    subst hd
    rfl
  · simp only [hget, mitreKeys]
    generalize ["ids", "tactics", "techniques", "id", "tactic", "technique"] = keys
    induction keys with
    | nil => rfl
    | cons k keys ih =>
      rw [List.anyM_cons, List.any_cons]
      cases (Dict.get d k).truthy with
      | true => rfl
      | false => exact ih

/-- A value that is no mapping is none at all, or makes the scan raise. -/
theorem hasMitre_of_not_dict {v : Value} (h : v.isDict = false) :
    hasMitre v = if v.truthy then .error .attributeError else .ok false := by
  cases v with
  | dict d => cases h
  | _ =>
    unfold hasMitre
    cases Value.truthy _ <;> rfl

theorem hasMitre_eq_ok {a : Dict} {b : Bool} (h : hasMitre (Dict.get a "mitre") = .ok b) :
    b = true ↔ MitreMapped a := by
  unfold MitreMapped
  cases hdict : (Dict.get a "mitre").isDict with
  | true =>
    cases hm : Dict.get a "mitre" with
    | dict d =>
      rw [hm, hasMitre_dict] at h
      obtain rfl := Except.ok.inj h
      simp [field]
    | _ => simp [hm, Value.isDict] at hdict
  | false =>
    rw [hasMitre_of_not_dict hdict] at h
    split at h
    · cases h
    · rename_i hfalsy
      obtain rfl := Except.ok.inj h
      have hfield := field_of_falsy (by simpa using hfalsy : (Dict.get a "mitre").truthy = false)
      simp [hfield, Value.truthy]

theorem returns_hasMitre_iff {v : Value} :
    Returns (hasMitre v) ↔ ¬(v.truthy = true ∧ v.isDict = false) := by
  cases hdict : v.isDict with
  | true =>
    cases v with
    | dict d => simp [hasMitre_dict]
    | _ => cases hdict
  | false =>
    rw [hasMitre_of_not_dict hdict]
    cases v.truthy <;> simp

theorem hasMitre_iff {a : Dict} : hasMitre (Dict.get a "mitre") = .ok true ↔ MitreMapped a := by
  refine eq_ok_true_iff (fun _ => hasMitre_eq_ok) fun h => returns_hasMitre_iff.mpr ?_
  rintro ⟨-, hdict⟩
  obtain ⟨k, -, hk⟩ := h
  unfold field at hk
  split at hk
  · rename_i d hd
    rw [hd] at hdict
    cases hdict
  · cases hk

/-- A level that is stated is read as it is, whether it counts as true or not. -/
theorem toInt_orElse {v : Value} {n : ℤ} (h : toInt v = .ok n) :
    toInt (v.orElse (.int 0)) = .ok n := by
  unfold Value.orElse
  split
  · exact h
  · rename_i hfalsy
    cases v with
    | int m =>
      have hm : m = 0 := by simpa [Value.truthy] using hfalsy
      exact hm ▸ h
    | bool b =>
      have hb : b = false := by simpa [Value.truthy] using hfalsy
      subst hb
      exact h
    | float x =>
      have hx : x = .fin 0 := by simpa [Value.truthy] using hfalsy
      subst hx
      simpa [toInt] using h
    | str s =>
      have hs : s = "" := by simpa [Value.truthy] using hfalsy
      subst hs
      cases h
    | enum s =>
      have hs : s = "" := by simpa [Value.truthy] using hfalsy
      subst hs
      cases h
    | _ => cases h

theorem returns_hasMaliciousSignal_iff {investigation : Dict} :
    Returns (hasMaliciousSignal (.dict investigation)) ↔
      Iterable (Dict.get investigation "enrichments") := by
  unfold hasMaliciousSignal
  constructor
  · rintro ⟨b, h⟩
    obtain ⟨raw, hraw, h⟩ := (bind_eq_ok _ _ _).mp h
    obtain ⟨es, hes, -⟩ := (bind_eq_ok _ _ _).mp h
    have hget : Dict.get investigation "enrichments" = raw := by
      simpa [Value.get, Dict.get] using hraw
    exact ⟨es, by rw [hget]; exact hes⟩
  · rintro ⟨es, hes⟩
    refine Returns.bind ⟨_, rfl⟩ fun raw hraw => ?_
    have hget : Dict.get investigation "enrichments" = raw := by
      simpa [Value.get, Dict.get] using hraw
    refine Returns.bind ⟨es, by rw [← hget]; exact hes⟩ fun es' _ => ?_
    exact returns_ite (fun _ => ⟨_, rfl⟩) fun _ => ⟨_, rfl⟩

/-! ## The scans -/

/-- The class attestation of the check. -/
def attestation (classGroups : List String) (alerts : List Dict) : M Bool :=
  if (classGroups.map lower).isEmpty then pure true
  else if alerts.isEmpty then pure false
  else alerts.allM (attestsClass (classGroups.map lower))

theorem attestation_eq_ok {classGroups : List String} {alerts : List Dict} {b : Bool}
    (h : attestation classGroups alerts = .ok b) :
    b = false ↔ classGroups ≠ [] ∧ (alerts = [] ∨ ∃ a ∈ alerts, ¬CarriesClass classGroups a) := by
  unfold attestation at h
  split at h
  · rename_i hempty
    have hb : true = b := by simpa using h
    have hnil : classGroups = [] := by simpa using hempty
    simp [← hb, hnil]
  · rename_i hgroups
    have hne : classGroups ≠ [] := by simpa using hgroups
    split at h
    · rename_i hempty
      have hb : false = b := by simpa using h
      have hnil : alerts = [] := by simpa using hempty
      simp [← hb, hnil, hne]
    · rename_i halerts
      have hsome : alerts ≠ [] := by simpa using halerts
      have hall := allM_eq_ok h
      simp only [attestsClass_iff] at hall
      rw [← Bool.not_eq_true, hall]
      simp [hne, hsome]

theorem returns_attestation_iff {classGroups : List String} {alerts : List Dict} :
    Returns (attestation classGroups alerts) ↔ (classGroups ≠ [] →
      GuardedBy (fun a => ¬CarriesClass classGroups a)
        (fun a => ¬Iterable (Dict.get a "rule_groups")) alerts) := by
  unfold attestation
  split
  · rename_i hempty
    have hnil : classGroups = [] := by simpa using hempty
    simp [hnil]
  · rename_i hgroups
    have hne : classGroups ≠ [] := by simpa using hgroups
    split
    · rename_i hempty
      have hnil : alerts = [] := by simpa using hempty
      simp [hnil, GuardedBy]
    · rw [returns_allM_iff]
      simp only [ne_eq, hne, not_false_eq_true, forall_const]
      refine GuardedBy.congr (fun a _ hread => ?_) fun a _ => not_congr returns_attestsClass_iff
      exact eq_ok_false_iff (fun b hb => attestsClass_eq_ok hb) (not_not.mp hread)

/-- A technique mapping is looked for on one alert after another. -/
theorem mitreScan_eq_ok {alerts : List Dict} {b : Bool}
    (h : alerts.anyM (fun a => hasMitre (Dict.get a "mitre")) = .ok b) :
    b = true ↔ ∃ a ∈ alerts, MitreMapped a := by
  simp only [anyM_eq_ok h, hasMitre_iff]

theorem returns_mitreScan_iff {alerts : List Dict} :
    Returns (alerts.anyM fun a => hasMitre (Dict.get a "mitre")) ↔ GuardedBy MitreMapped
      (fun a => (Dict.get a "mitre").truthy = true ∧ (Dict.get a "mitre").isDict = false)
      alerts := by
  rw [returns_anyM_iff]
  refine GuardedBy.congr (fun a _ _ => hasMitre_iff) fun a _ => ?_
  rw [returns_hasMitre_iff, not_not]

/-- Whether an alert's level is above the limit. -/
def severe (a : Dict) : M Bool := do
  return operationalMaxLevel < (← toInt ((Dict.get a "level").orElse (.int 0)))

theorem severe_iff {a : Dict} : severe a = .ok true ↔ LevelAbove a := by
  unfold severe LevelAbove
  rw [bind_eq_ok]
  simp only [pure_eq_ok, decide_eq_true_eq]

theorem returns_severe_iff {a : Dict} : Returns (severe a) ↔ LevelRead a := by
  unfold severe
  rw [returns_bind_iff]
  constructor
  · rintro ⟨n, hn, -⟩
    exact ⟨n, hn⟩
  · rintro ⟨n, hn⟩
    exact ⟨n, hn, _, rfl⟩

theorem levelScan_eq_ok {alerts : List Dict} {b : Bool} (h : alerts.anyM severe = .ok b) :
    b = true ↔ ∃ a ∈ alerts, LevelAbove a := by
  simp only [anyM_eq_ok h, severe_iff]

theorem returns_levelScan_iff {alerts : List Dict} :
    Returns (alerts.anyM severe) ↔ GuardedBy LevelAbove (fun a => ¬LevelRead a) alerts := by
  rw [returns_anyM_iff]
  exact GuardedBy.congr (fun a _ _ => severe_iff) fun a _ => not_congr returns_severe_iff

/-! ## The check -/

theorem operationalCloseVetoes_eq (investigation : Dict) (classGroups : List String) :
    operationalCloseVetoes (.dict investigation) classGroups = (do
      let alerts ← alertsOf (.dict investigation)
      let attested ← attestation classGroups alerts
      let mitre ← alerts.anyM fun a => hasMitre (Dict.get a "mitre")
      let above ← alerts.anyM severe
      let malicious ← hasMaliciousSignal (.dict investigation)
      return (if attested then [] else [.unattestedClass]) ++ (if mitre then [.mitre] else []) ++
        (if (Dict.get investigation "observables").truthy then [.observables] else []) ++
        (if above then [.severity] else []) ++ (if malicious then [.malicious] else [])) := by
  unfold operationalCloseVetoes
  refine bind_congr fun alerts => ?_
  unfold attestation
  dsimp only
  split
  · rfl
  · split <;> rfl

theorem returns_vetoes_iff {investigation : Dict} {classGroups : List String} :
    Returns (operationalCloseVetoes (.dict investigation) classGroups) ↔
      AlertsRead classGroups investigation := by
  rw [operationalCloseVetoes_eq]
  constructor
  · rintro ⟨vetoes, h⟩
    obtain ⟨alerts, halerts, h⟩ := (bind_eq_ok _ _ _).mp h
    obtain ⟨attested, hattested, h⟩ := (bind_eq_ok _ _ _).mp h
    obtain ⟨mitre, hmitre, h⟩ := (bind_eq_ok _ _ _).mp h
    obtain ⟨above, habove, h⟩ := (bind_eq_ok _ _ _).mp h
    obtain ⟨malicious, hmalicious, -⟩ := (bind_eq_ok _ _ _).mp h
    have hiter := returns_alertsOf_iff.mp ⟨alerts, halerts⟩
    obtain rfl : mappings investigation = alerts := by
      rw [alertsOf_eq hiter] at halerts
      exact Except.ok.inj halerts
    exact {
      alerts := hiter
      groups := returns_attestation_iff.mp ⟨attested, hattested⟩
      mitre := returns_mitreScan_iff.mp ⟨mitre, hmitre⟩
      level := returns_levelScan_iff.mp ⟨above, habove⟩
      enrichments := returns_hasMaliciousSignal_iff.mp ⟨malicious, hmalicious⟩ }
  · intro h
    refine Returns.bind ⟨_, alertsOf_eq h.alerts⟩ fun alerts halerts => ?_
    obtain rfl : mappings investigation = alerts := by
      rw [alertsOf_eq h.alerts] at halerts
      exact Except.ok.inj halerts
    refine (returns_attestation_iff.mpr h.groups).bind fun attested _ => ?_
    refine (returns_mitreScan_iff.mpr h.mitre).bind fun mitre _ => ?_
    refine (returns_levelScan_iff.mpr h.level).bind fun above _ => ?_
    exact (returns_hasMaliciousSignal_iff.mpr h.enrichments).bind fun malicious _ => ⟨_, rfl⟩

/-- The check consents exactly if no indicator is there. -/
theorem vetoes_eq_nil_iff {investigation : Dict} {classGroups : List String}
    {vetoes : List OperationalVeto}
    (h : operationalCloseVetoes (.dict investigation) classGroups = .ok vetoes) :
    vetoes = [] ↔ ¬Vetoed classGroups investigation := by
  have hread := returns_vetoes_iff.mp ⟨vetoes, h⟩
  rw [operationalCloseVetoes_eq, alertsOf_eq hread.alerts] at h
  obtain ⟨alerts, halerts, h⟩ := (bind_eq_ok _ _ _).mp h
  obtain rfl := Except.ok.inj halerts
  obtain ⟨attested, hattested, h⟩ := (bind_eq_ok _ _ _).mp h
  obtain ⟨mitre, hmitre, h⟩ := (bind_eq_ok _ _ _).mp h
  obtain ⟨above, habove, h⟩ := (bind_eq_ok _ _ _).mp h
  obtain ⟨malicious, hmalicious, h⟩ := (bind_eq_ok _ _ _).mp h
  have hvetoes := (pure_eq_ok _ _).mp h
  have h₁ := attestation_eq_ok hattested
  have h₂ := mitreScan_eq_ok hmitre
  have h₃ := levelScan_eq_ok habove
  have h₄ := hasMaliciousSignal_eq hmalicious
  unfold Vetoed
  rw [← h₁, ← h₂, ← h₃, ← h₄, ← hvetoes]
  cases attested <;> cases mitre <;> cases above <;> cases malicious <;> simp

theorem takesOperationalClose_eq {p : TriagePolicy} (hp : knownDisposition p = true)
    (investigation : Dict) : takesOperationalClose p (.dict investigation) = (do
      let vetoes ← operationalCloseVetoes (.dict investigation) p.appliesTo.ruleGroups
      return decide (vetoes = [])) := by
  have hinv : (Value.dict investigation).orElse (.dict []) = .dict investigation := by
    cases investigation <;> rfl
  unfold takesOperationalClose stashVetoes investigationOf
  rw [if_pos hp, hinv, bind_assoc]
  refine bind_congr fun vetoes => ?_
  have hroute : routeFromResolveTriagePolicy
      { investigation := .dict investigation, triagePolicy := some p,
        operationalVetoes := some vetoes } = .operationalClose ↔ vetoes = [] := by
    unfold routeFromResolveTriagePolicy
    simp [hp]
  simp [hroute]

/-! ## When the close rests on every alert -/

theorem levelWithin_iff {a : Dict} :
    LevelWithin a ↔ Returns (toInt (Dict.get a "level")) ∧ ¬LevelAbove a := by
  unfold LevelWithin LevelAbove
  constructor
  · rintro ⟨n, hn, hle⟩
    refine ⟨⟨n, hn⟩, ?_⟩
    rintro ⟨m, hm, hlt⟩
    rw [toInt_orElse hn] at hm
    have hmn := Except.ok.inj hm
    omega
  · rintro ⟨⟨n, hn⟩, hnot⟩
    refine ⟨n, hn, ?_⟩
    by_contra hlt
    exact hnot ⟨n, toInt_orElse hn, by omega⟩

/-- Without an indicator, the alerts vouch for the class exactly if nothing was passed over. -/
theorem operational_iff {classGroups : List String} {investigation : Dict}
    (h : ¬Vetoed classGroups investigation) :
    Operational classGroups investigation ↔
      ∀ v ∈ elements (Dict.get investigation "alerts"), ¬Overlooked classGroups v := by
  unfold Vetoed at h
  obtain ⟨hclass, h⟩ := not_or.mp h
  obtain ⟨hmitre, h⟩ := not_or.mp h
  obtain ⟨hobservables, h⟩ := not_or.mp h
  obtain ⟨hlevel, hsignal⟩ := not_or.mp h
  constructor
  · intro hop v hv hover
    obtain ⟨a, rfl, ha⟩ := hop.alerts v hv
    rcases hover with hnil | hdict | ⟨a', ha', hread⟩
    · obtain ⟨g, -, hg⟩ := ha.carries
      rw [hnil] at hg
      cases hg
    · cases hdict
    · obtain rfl : a = a' := by simpa using ha'
      exact hread (levelWithin_iff.mp ha.level).1
  · intro hseen
    refine ⟨fun v hv => ?_, by simpa using hobservables, hsignal⟩
    obtain ⟨hgroups, hover⟩ := not_or.mp (hseen v hv)
    obtain ⟨hdict, hread⟩ := not_or.mp hover
    cases v with
    | dict a =>
      have hmem := mem_mappings.mpr hv
      refine ⟨a, rfl, ?_, fun hm => hmitre ⟨a, hmem, hm⟩, levelWithin_iff.mpr ⟨?_, ?_⟩⟩
      · by_contra hcarry
        exact hclass ⟨hgroups, Or.inr ⟨a, hmem, hcarry⟩⟩
      · by_contra hno
        exact hread ⟨a, rfl, hno⟩
      · exact fun habove => hlevel ⟨a, hmem, habove⟩
    | _ => exact absurd rfl hdict

/-- An agent's flooding notice, as the worker projects it. -/
def floodingAlert : Value :=
  .dict [("rule_groups", .list [.str "wazuh", .str "agent_flooding"]), ("rule_id", .str "202"),
    ("level", .int 9), ("mitre", .dict [])]

end SocTalk.Graph
