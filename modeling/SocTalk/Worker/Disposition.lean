import SocTalk.Authorization.Windows
import SocTalk.TriagePolicy.Floor

/-! From a graph's terminal state to the disposition the worker reports. -/
namespace SocTalk.Worker
open Py Authorization TriagePolicy

inductive RunStatus where
  | completed
  | haltedBudget
  | failed
  deriving DecidableEq

/-- Handles both raw strings and enumeration members. -/
def enumValue : Value → String
  | .enum v => lower v
  | v => if v.truthy then lower v.toText else ""

def dispositionFromFinal (final : Dict) (runStatus : RunStatus) : M Disposition := do
  if runStatus ≠ .completed then return .leaveOpen
  let verdict := (Dict.get final "verdict").orElse (.dict [])
  let decision := enumValue (← verdict.get "decision")
  let sup := (Dict.get final "supervisor_decision").orElse (.dict [])
  let _supConf ← ((← sup.get "tp_confidence").orElse (.float (.fin 0))).toFloat
  let supAction := upper (enumValue (← sup.get "next_action"))
  if (Dict.get final "verdict_interrupted").truthy then return .escalate
  if decision = "escalate" then return .escalate
  if decision = "close" then return .closeFp
  if decision = "needs_more_info" then return .escalate
  -- No verdict: the supervisor short-circuited.
  if supAction = "CLOSE" then return .closeFp
  return .leaveOpen

/-- The disposition posted for a completed run, with the vetoes that fired. -/
def workerDisposition (validate : Value → Option AuthorizationContext) (final : Dict)
    (runStatus : RunStatus) : M (Option Disposition × List Veto) := do
  let disposition ← dispositionFromFinal final runStatus
  applyWorkerFloor validate final (some disposition)

/-! ## The derivation without exceptions -/

/-- `v or {}` has the dictionary methods. -/
def IsRecord (v : Value) : Prop := v.truthy = true → v.isDict = true

theorem get_orElse_eq_ok_iff {v w : Value} {k : String} :
    (v.orElse (.dict [])).get k = .ok w ↔ IsRecord v ∧ w = field v k := by
  unfold IsRecord Value.orElse
  cases ht : v.truthy with
  | false =>
    rw [field_of_falsy ht]
    simp [Dict.get, @eq_comm _ w]
  | true =>
    cases v <;> simp [Value.get, Value.isDict, field, Dict.get, @eq_comm _ w]

section

variable (final : Dict)

/-- The fields the derivation reads have the shapes it reads them at. -/
structure DecisionReadable : Prop where
  verdict : IsRecord (Dict.get final "verdict")
  supervisor : IsRecord (Dict.get final "supervisor_decision")
  confidence : Returns ((field (Dict.get final "supervisor_decision") "tp_confidence").orElse
    (.float (.fin 0))).toFloat

def decisionOf : String := enumValue (field (Dict.get final "verdict") "decision")

def supActionOf : String :=
  upper (enumValue (field (Dict.get final "supervisor_decision") "next_action"))

def Interrupted : Prop := (Dict.get final "verdict_interrupted").truthy = true

instance : Decidable (Interrupted final) := inferInstanceAs (Decidable (_ = _))

/-- The state asks for a close: by verdict, or by the supervisor without one. -/
def DraftsClose : Prop :=
  ¬Interrupted final ∧ (decisionOf final = "close" ∨
    decisionOf final ≠ "escalate" ∧ decisionOf final ≠ "needs_more_info" ∧
      supActionOf final = "CLOSE")

end

/-- The disposition of a readable state. -/
def dispositionOf (final : Dict) : Disposition :=
  if Interrupted final then .escalate
  else if decisionOf final = "escalate" then .escalate
  else if decisionOf final = "close" then .closeFp
  else if decisionOf final = "needs_more_info" then .escalate
  else if supActionOf final = "CLOSE" then .closeFp
  else .leaveOpen

theorem dispositionFromFinal_eq_ok_iff {final : Dict} {d : Disposition} :
    dispositionFromFinal final .completed = .ok d ↔
      DecisionReadable final ∧ d = dispositionOf final := by
  unfold dispositionFromFinal
  simp only [ne_eq, not_true_eq_false, if_false, bind_eq_ok, get_orElse_eq_ok_iff]
  have htail : (if Interrupted final then pure .escalate
      else if decisionOf final = "escalate" then pure .escalate
      else if decisionOf final = "close" then pure .closeFp
      else if decisionOf final = "needs_more_info" then pure .escalate
      else if supActionOf final = "CLOSE" then pure .closeFp
      else pure .leaveOpen : M Disposition) = .ok (dispositionOf final) := by
    unfold dispositionOf
    split_ifs <;> rfl
  constructor
  · rintro ⟨_, ⟨hv, rfl⟩, _, ⟨hs, rfl⟩, x, hx, _, ⟨-, rfl⟩, h⟩
    exact ⟨⟨hv, hs, x, hx⟩, Except.ok.inj (h.symm.trans htail)⟩
  · rintro ⟨⟨hv, hs, x, hx⟩, rfl⟩
    exact ⟨_, ⟨hv, rfl⟩, _, ⟨hs, rfl⟩, x, hx, _, ⟨hs, rfl⟩, htail⟩

theorem dispositionOf_eq_closeFp_iff (final : Dict) :
    dispositionOf final = .closeFp ↔ DraftsClose final := by
  unfold dispositionOf DraftsClose
  split_ifs with hi he hc hn hs <;> simp_all

/-! ## Suppression safety -/

/-- Readable windows and well-shaped lists are enough for the floor to be enforced. -/
theorem scansReturn_of_shapes {validate : Value → Option AuthorizationContext} {final : Dict}
    (hinv : IsRecord (Dict.get final "investigation"))
    (henr : Returns ((field (Dict.get final "investigation") "enrichments").orElse (.list [])).iter)
    (hverdict : (Dict.get final "verdict").truthy = true)
    (hwin : ∀ c, authorizationContext validate (Dict.get final "investigation") = some c →
      WindowsReadable c.facts) : ScansReturn validate final := by
  refine ⟨?_, fun hf => by simp [hverdict] at hf, returns_deriveAuthzClass hwin⟩
  have hget : ∀ k, ((Dict.get final "investigation").orElse (.dict [])).get k =
      .ok (field (Dict.get final "investigation") k) :=
    fun k => get_orElse_eq_ok_iff.mpr ⟨hinv, rfl⟩
  unfold hasMaliciousSignal
  rw [hget]
  refine Returns.bind ⟨_, rfl⟩ fun enrichments he => ?_
  obtain rfl := Except.ok.inj he
  refine henr.bind fun es _ => ?_
  refine returns_ite (fun _ => ⟨_, rfl⟩) fun _ => ?_
  rw [hget]
  exact ⟨_, rfl⟩

section

variable (validate : Value → Option AuthorizationContext) (final : Dict)

/-- Everything an automatic close needs of the final state. -/
structure CloseAllowed : Prop where
  clean : FloorClean validate final
  notInterrupted : ¬Interrupted final

/-- The worker posts a disposition: a close only where one is allowed, an escalation for a
close that is not, and any other disposition as derived. -/
def FloorEnforced : Prop :=
  ∃ derived posted vetoes, dispositionFromFinal final .completed = .ok derived ∧
    workerDisposition validate final .completed = .ok (posted, vetoes) ∧
    (posted = some .closeFp → CloseAllowed validate final) ∧
    (derived = .closeFp → ¬CloseAllowed validate final → posted = some .escalate) ∧
    (derived ≠ .closeFp → posted = some derived)

/-- The state's shapes: those of the decision fields, and, where the state asks for a
close, those the floor's scans read. -/
structure FloorReadable : Prop where
  decision : DecisionReadable final
  scans : DraftsClose final → ScansReturn validate final

end

/-- A file-integrity grant whose window reads "9am", as the facts endpoint accepts it. -/
def clockWordGrant : GrantFact where
  id := "CHG-1"
  track := .fim
  scope := { target := some "/etc/*", recurringWindow := some ⟨"9am", "17:00"⟩ }
  validUntil := some ⟨1767225600000000, 0⟩
  grantClass := .changeTicket
  classLegality := by decide

def clockWordContext : AuthorizationContext where
  activity :=
    { track := .fim, path := some "/etc/app.conf", changeType := some .modify,
      time := ⟨1750000000000000, 0⟩, trackFields := by decide }
  facts := [.grant clockWordGrant]

/-- A supervisor close over a malicious enrichment, with that grant on record. -/
def clockWordFinal : Dict :=
  [("supervisor_decision", .dict [("next_action", .str "CLOSE"), ("tp_confidence", .int 0)]),
    ("investigation", .dict
      [("enrichments", .list [.dict [("verdict", .str "malicious")]]),
        ("authorization_context", .dict [("facts", .list [.dict [("id", .str "CHG-1")]])])])]

end SocTalk.Worker
