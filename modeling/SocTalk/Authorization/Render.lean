import SocTalk.Authorization.Engine

/-! Reading the authorization context and the malicious signal off an investigation. -/
namespace SocTalk.Authorization
open Py

/-- The total form of a field read, for statements about states. -/
def field (v : Value) (k : String) : Value :=
  match v with
  | .dict d => Dict.get d k
  | _ => .none

/-- The elements a `for` over `v or []` visits. -/
def elements (v : Value) : List Value :=
  match (v.orElse (.list [])).iter with
  | .ok xs => xs
  | .error _ => []

/-- `validate` is the schema library's `model_validate`, with `none` for a validation error. -/
def parseAuthorizationContext (validate : Value → Option AuthorizationContext)
    (investigation : Value) : M (Option AuthorizationContext) := do
  match ← investigation.get "authorization_context" with
  | .none => return none
  | raw => return validate raw

/-- The enrichment verdict as a lowercase string, across the shapes it arrives in. -/
def verdictValue (enrichment : Value) : String :=
  match field enrichment "verdict" with
  | .none => ""
  | .enum v => lower v
  | v => lower v.toText

/-- A malicious enrichment verdict or a MISP match. -/
def hasMaliciousSignal (investigation : Value) : M Bool := do
  let enrichments := (← investigation.get "enrichments").orElse (.list [])
  let es ← enrichments.iter
  if es.any fun e => verdictValue e == "malicious" then return true
  let misp := (← investigation.get "misp_context").orElse (.dict [])
  return (field misp "matches").truthy

/-- What the scan looks for, as a proposition about the investigation. -/
def Malicious (investigation : Value) : Prop :=
  (∃ e ∈ elements (field investigation "enrichments"), verdictValue e = "malicious") ∨
    (field (field investigation "misp_context") "matches").truthy = true

theorem field_orElse_dict (v : Value) (k : String) :
    field (v.orElse (.dict [])) k = if v.truthy then field v k else .none := by
  unfold Value.orElse
  split <;> simp [field, Dict.get]

theorem field_of_falsy {v : Value} (h : v.truthy = false) (k : String) : field v k = .none := by
  cases v with
  | dict d =>
    have hd : d = [] := by simpa [Value.truthy] using h
    simp [field, hd, Dict.get]
  | _ => rfl

@[simp] theorem field_orElse (v : Value) (k : String) :
    field (v.orElse (.dict [])) k = field v k := by
  rw [field_orElse_dict]
  split
  · rfl
  · rename_i h
    exact (field_of_falsy (by simpa using h) k).symm

theorem get_eq_ok {v w : Value} {k : String} (h : v.get k = .ok w) : field v k = w := by
  cases v <;> simp_all [Value.get, field, Dict.get]

theorem elements_eq {v : Value} {xs : List Value} (h : (v.orElse (.list [])).iter = .ok xs) :
    elements v = xs := by
  simp [elements, h]

theorem hasMaliciousSignal_eq {investigation : Value} {b : Bool}
    (h : hasMaliciousSignal investigation = .ok b) : b = true ↔ Malicious investigation := by
  unfold hasMaliciousSignal at h
  cases hes : investigation.get "enrichments" with
  | error e => simp [hes, bind, Except.bind] at h
  | ok enrichments =>
    cases hit : (enrichments.orElse (.list [])).iter with
    | error e => simp [hes, hit, bind, Except.bind] at h
    | ok es =>
      have hel : elements (field investigation "enrichments") = es := by
        rw [get_eq_ok hes]
        exact elements_eq hit
      cases hany : es.any fun e => verdictValue e == "malicious" with
      | true =>
        have hb : b = true := by
          simp only [hes, hit, hany, bind, Except.bind, pure, Except.pure, if_true] at h
          simpa using h.symm
        have hm : ∃ e ∈ es, verdictValue e = "malicious" := by simpa using hany
        simp [hb, Malicious, hel, hm]
      | false =>
        cases hmp : investigation.get "misp_context" with
        | error e => simp [hes, hit, hany, hmp, bind, Except.bind] at h
        | ok misp =>
          have hm : ¬ ∃ e ∈ es, verdictValue e = "malicious" := by simpa using hany
          have hb : b = (field misp "matches").truthy := by
            simp only [hes, hit, hany, hmp, bind, Except.bind, pure, Except.pure, field_orElse] at h
            simpa using h.symm
          simp only [Malicious, hel, get_eq_ok hmp, hb]
          exact ⟨Or.inr, fun hor => hor.resolve_left hm⟩

end SocTalk.Authorization
