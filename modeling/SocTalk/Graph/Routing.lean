import SocTalk.Lib.Value

/-! Where the graph goes after a verdict. -/
namespace SocTalk.Graph
open Py

inductive Route where
  | humanReview
  | closeInvestigation
  | supervisor
  deriving DecidableEq

/-- `d.get(k, default)`. -/
def getDefault (d : Dict) (k : String) (default : Value) : Value := (d.lookup k).getD default

/-- `v.get(k, default)`. -/
def valueGetDefault (v : Value) (k : String) (default : Value) : M Value :=
  match v with
  | .dict d => return getDefault d k default
  | _ => throw .attributeError

def routeFromVerdict (state : Dict) : M Route := do
  let verdict := getDefault state "verdict" (.dict [])
  let decision ← valueGetDefault verdict "decision" (.str "needs_more_info")
  if (Dict.get state "verdict_error").truthy then
    -- The log line reads the error's category.
    let _category ← (Dict.get state "verdict_error").get "category"
    return .closeInvestigation
  if (Dict.get state "verdict_interrupted").truthy then return .humanReview
  if decision.eq (.str "escalate") then return .humanReview
  if decision.eq (.str "close") then return .closeInvestigation
  if decision.eq (.str "needs_more_info") then
    let verdictRetries := getDefault state "verdict_retry_count" (.int 0)
    if ← verdictRetries.compare .ge (.int 1) then return .humanReview
    else return .supervisor
  return .humanReview

end SocTalk.Graph
