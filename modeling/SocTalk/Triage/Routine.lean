import SocTalk.Triage.Screens

/-! The routine decision in closed form: what the engine makes of a routine, and when the scorer
would close on it. -/
namespace SocTalk.Triage
open Py Authorization

/-! ## The scorer on any mapping -/

/-- What the scorer is told of an alert. The mapping of techniques and the indicators come as they
are stored, with keys of either spelling. -/
structure ShadowContext where
  severity : ℤ
  mitre : Option Dict
  initialIocs : Option (List Dict)
  host : String
  account : String
  action : String
  ts : ℤ

/-- Any technique mapping, under the current or the former keys. -/
def mitreMapped (mitre : Option Dict) : Bool :=
  ["ids", "tactics", "techniques", "id", "tactic", "technique"].any fun k =>
    (Dict.get (mitre.getD []) k).truthy

def ShadowContext.hasIocs (c : ShadowContext) : Bool := !(c.initialIocs.getD []).isEmpty

def ShadowContext.exclusionReasons (settings : ShadowSettings) (c : ShadowContext)
    (historyIoc : Bool) : List Exclusion :=
  (if settings.maxSeverity < c.severity then [Exclusion.severityTooHigh] else []) ++
  (if mitreMapped c.mitre then [Exclusion.mitreMapped] else []) ++
  (if c.hasIocs then [Exclusion.iocPresent] else []) ++
  (if historyIoc then [Exclusion.routineIocTainted] else [])

def ShadowContext.evaluateShadow (settings : ShadowSettings) (c : ShadowContext) (seenDays : ℤ)
    (historyIoc : Bool) : M Routine := do
  let excluded := c.exclusionReasons settings historyIoc
  let fact := routineFact seenDays c.account c.host c.action (c.hasIocs || historyIoc)
  let components ←
    evaluateAuthorization (routineActivity c.host c.account c.action c.ts) [.grant fact] none
  let mature : Bool := settings.minDays ≤ seenDays
  return { wouldClose := excluded.isEmpty && mature && AuthorizationComponents.expected components
           seenDays := seenDays, matureHistory := mature, excluded := excluded }

/-! ## The engine on a routine -/

/-- The routine's own scope and its missing window hold at every instant. -/
theorem acctRoutine_routineFact (seenDays : ℤ) (host account action : String) (ioc : Bool)
    (ts : ℤ) :
    acctRoutine (routineFact seenDays account host action ioc)
      (routineActivity host account action ts) =
      .ok (decide (routineMin ≤ seenDays) && !ioc) := by
  have hmatch : acctMatches (routineFact seenDays account host action ioc)
      (routineActivity host account action ts) = true := by
    simp [acctMatches, routineFact, routineActivity]
  have hforce : inForce (routineFact seenDays account host action ioc)
      (routineActivity host account action ts).time = .ok true := rfl
  unfold acctRoutine
  rw [hmatch, hforce]
  cases ioc <;> by_cases hseen : routineMin ≤ seenDays <;>
    simp [routineFact, hseen, pure, Except.pure]

/-- The routine with nothing beside it. -/
def routineAlone (seenDays : ℤ) (account host action : String) (ioc : Bool) :
    List AuthorizationFact :=
  [.grant (routineFact seenDays account host action ioc)]

theorem routineScan (seenDays : ℤ) (host account action : String) (ioc : Bool) (ts : ℤ) :
    (grants (routineAlone seenDays account host action ioc)).anyM
      (acctRoutine · (routineActivity host account action ts)) =
      .ok (decide (routineMin ≤ seenDays) && !ioc) := by
  have hgrants : grants (routineAlone seenDays account host action ioc) =
      [routineFact seenDays account host action ioc] := rfl
  rw [hgrants, List.anyM_cons, acctRoutine_routineFact]
  cases decide (routineMin ≤ seenDays) && !ioc <;> rfl

/-- One routine and nothing else: it is sanctioned and in scope exactly if it is established and
clean, its actor is genuine, and nothing forbids it. -/
theorem evaluateAuthorization_routine (seenDays : ℤ) (host account action : String) (ioc : Bool)
    (ts : ℤ) :
    evaluateAuthorization (routineActivity host account action ts)
      [.grant (routineFact seenDays account host action ioc)] none =
      .ok { sanctionedOrRoutine := decide (routineMin ≤ seenDays) && !ioc
            inScope := decide (routineMin ≤ seenDays) && !ioc
            actorGenuine := true, policyAllowed := true } := by
  -- A routine is neither a ticket nor a baseline, so both scans come down to the routine's own.
  have hcovered : acctCovered (routineAlone seenDays account host action ioc)
      (routineActivity host account action ts) (environmentOf none) =
      .ok (decide (routineMin ≤ seenDays) && !ioc) := routineScan seenDays host account action ioc ts
  have hsanctioned : acctSanctioned (grants (routineAlone seenDays account host action ioc))
      (routineActivity host account action ts) =
      .ok (decide (routineMin ≤ seenDays) && !ioc) := routineScan seenDays host account action ioc ts
  have hasset : ∀ name, resolvedEntity (routineAlone seenDays account host action ioc) .asset name =
      none := fun _ => rfl
  have haccount : ∀ name, accountFact (routineAlone seenDays account host action ioc) name = none :=
    fun _ => rfl
  show acctComponents (routineAlone seenDays account host action ioc)
    (routineActivity host account action ts) = _
  unfold acctComponents
  simp only [hasset, haccount, hcovered, hsanctioned]
  cases decide (routineMin ≤ seenDays) && !ioc <;> rfl

/-! ## The decision -/

theorem exclusionReasons_eq_nil_iff (settings : ShadowSettings) (c : ShadowContext)
    (historyIoc : Bool) : c.exclusionReasons settings historyIoc = [] ↔
      c.severity ≤ settings.maxSeverity ∧ mitreMapped c.mitre = false ∧ c.hasIocs = false ∧
        historyIoc = false := by
  unfold ShadowContext.exclusionReasons
  simp only [List.append_eq_nil_iff, ite_eq_right_iff, List.cons_ne_nil, imp_false, not_lt,
    Bool.not_eq_true]
  constructor
  · rintro ⟨⟨⟨hseverity, hmitre⟩, hiocs⟩, hhistory⟩
    exact ⟨hseverity, hmitre, hiocs, hhistory⟩
  · rintro ⟨hseverity, hmitre, hiocs, hhistory⟩
    exact ⟨⟨⟨hseverity, hmitre⟩, hiocs⟩, hhistory⟩

/-- The scorer returns for every alert and history, and it would close exactly within the severity
limit, without techniques, indicators or a tainted history, on a shape seen on enough days for both
the settings and the engine. -/
theorem evaluateShadow_wouldClose_iff (settings : ShadowSettings) (c : ShadowContext)
    (seenDays : ℤ) (historyIoc : Bool) :
    ∃ routine, c.evaluateShadow settings seenDays historyIoc = .ok routine ∧
      (routine.wouldClose = true ↔
        c.severity ≤ settings.maxSeverity ∧ mitreMapped c.mitre = false ∧ c.hasIocs = false ∧
          historyIoc = false ∧ max settings.minDays routineMin ≤ seenDays) := by
  unfold ShadowContext.evaluateShadow
  dsimp only
  rw [evaluateAuthorization_routine]
  refine ⟨_, rfl, ?_⟩
  have hexcluded := exclusionReasons_eq_nil_iff settings c historyIoc
  simp only [AuthorizationComponents.expected, Bool.and_eq_true, List.isEmpty_iff, hexcluded,
    decide_eq_true_eq, Bool.not_eq_true', Bool.or_eq_false_iff, and_true, max_le_iff]
  constructor
  · rintro ⟨⟨⟨hseverity, hmitre, hiocs, hhistory⟩, hmature⟩, ⟨hseen, -⟩, -⟩
    exact ⟨hseverity, hmitre, hiocs, hhistory, hmature, hseen⟩
  · rintro ⟨hseverity, hmitre, hiocs, hhistory, hmature, hseen⟩
    have hroutine := And.intro hseen (And.intro hiocs hhistory)
    exact ⟨⟨⟨hseverity, hmitre, hiocs, hhistory⟩, hmature⟩, hroutine, hroutine⟩

/-! ## The alert's own decision -/

/-- The techniques of the wire as the mapping they are stored as. -/
def WireMitre.dump (m : WireMitre) : Dict :=
  [("ids", .list (m.ids.map .str)), ("tactics", .list (m.tactics.map .str)),
    ("techniques", .list (m.techniques.map .str))]

def IngestedIOC.dump (i : IngestedIOC) : Dict :=
  [("type", .str i.type), ("value", .str i.value)]

/-- What the scorer is told of an ingested alert. -/
def Ingest.shadowContext (e : Ingest) (host account action : String) (ts : ℤ) : ShadowContext where
  severity := e.severity
  mitre := some e.evidence.mitre.dump
  initialIocs := some (e.initialIocs.map IngestedIOC.dump)
  host := host
  account := account
  action := action
  ts := ts

theorem mitreMapped_dump (m : WireMitre) : mitreMapped (some m.dump) = hasMitre m := by
  have hids : Dict.get m.dump "ids" = .list (m.ids.map .str) := rfl
  have htactics : Dict.get m.dump "tactics" = .list (m.tactics.map .str) := rfl
  have htechniques : Dict.get m.dump "techniques" = .list (m.techniques.map .str) := rfl
  have hid : Dict.get m.dump "id" = .none := rfl
  have htactic : Dict.get m.dump "tactic" = .none := rfl
  have htechnique : Dict.get m.dump "technique" = .none := rfl
  unfold mitreMapped hasMitre
  simp only [Option.getD_some, List.any_cons, List.any_nil, hids, htactics, htechniques, hid,
    htactic, htechnique]
  simp [Value.truthy, Bool.or_assoc]

/-- The ingest's scorer is the scorer on what the alert carries. -/
theorem evaluateShadow_eq (settings : ShadowSettings) (e : Ingest) (seenDays : ℤ)
    (host account action : String) (ts : ℤ) (historyIoc : Bool) :
    evaluateShadow settings e seenDays host account action ts historyIoc =
      (e.shadowContext host account action ts).evaluateShadow settings seenDays historyIoc := by
  have hiocs : (e.shadowContext host account action ts).hasIocs = decide (e.initialIocs ≠ []) := by
    unfold ShadowContext.hasIocs Ingest.shadowContext
    cases e.initialIocs <;> rfl
  have hmitre : mitreMapped (e.shadowContext host account action ts).mitre =
      hasMitre e.evidence.mitre := mitreMapped_dump e.evidence.mitre
  have hexcluded : (e.shadowContext host account action ts).exclusionReasons settings historyIoc =
      exclusionReasons settings e historyIoc := by
    unfold ShadowContext.exclusionReasons exclusionReasons
    rw [hmitre, hiocs]
    simp only [decide_eq_true_eq]
    rfl
  unfold evaluateShadow ShadowContext.evaluateShadow
  rw [hexcluded, hiocs]
  rfl

end SocTalk.Triage
