import SocTalk.Lib.Value

/-! The condition language of triage-policy guardrails: allowlisted operators over the
fields of a state contract, evaluated without ever raising. -/
namespace SocTalk.TriagePolicy
open Py

/-- A dotted field of the context; anything missing on the way reads as `None`. -/
def lookupParts : List String → Value → Value
  | [], node => node
  | part :: parts, .dict d => lookupParts parts (Dict.get d part)
  | _ :: _, _ => .none

def lookup (ctx : Dict) (dotted : Value) : M Value :=
  match dotted.text? with
  | some s => return lookupParts (split '.' s) (.dict ctx)
  | none => throw .attributeError

def compareOp? (op : String) : Option CompareOp :=
  if op = "<" then some .lt
  else if op = "<=" then some .le
  else if op = ">" then some .gt
  else if op = ">=" then some .ge
  else none

/-- `v in container`, false for what is no list or text. -/
def member (v container : Value) : M Bool :=
  match container with
  | .list xs => return xs.any v.eq
  | .str s =>
    match v.text? with
    | some t => return isInfix t.toList s.toList
    | none => throw .typeError
  | .enum s =>
    match v.text? with
    | some t => return isInfix t.toList s.toList
    | none => throw .typeError
  | _ => return false

/-- An operator on the values of its operands. -/
def applyOp (op : String) (vals : List Value) : M Value :=
  match compareOp? op with
  | some c =>
    match vals with
    | [a, b] =>
      if !a.isSome || !b.isSome then return .bool false
      else return .bool (← a.compare c b)
    | _ => throw .valueError
  | none =>
    if op = "and" then return .bool (vals.all Value.truthy)
    else if op = "or" then return .bool (vals.any Value.truthy)
    else match op, vals with
      | "==", a :: b :: _ => return .bool (a.eq b)
      | "!=", a :: b :: _ => return .bool !a.eq b
      | "!", a :: _ => return .bool !a.truthy
      | "!!", a :: _ => return .bool a.truthy
      | "in", a :: b :: _ => return .bool (← member a b)
      | "==", _ => throw .indexError
      | "!=", _ => throw .indexError
      | "!", _ => throw .indexError
      | "!!", _ => throw .indexError
      | "in", _ => throw .indexError
      | _, _ => throw .valueError

mutual

def eval (ctx : Dict) : Value → M Value
  | .dict [(op, .list args)] =>
    if op = "var" then lookup ctx (.list args)
    else do applyOp op (← evalItems ctx args)
  | .dict [(op, arg)] =>
    if op = "var" then lookup ctx arg
    else do applyOp op [← eval ctx arg]
  | .dict _ => throw .valueError
  | node => return node

def evalItems (ctx : Dict) : List Value → M (List Value)
  | [] => return []
  | arg :: args => do return (← eval ctx arg) :: (← evalItems ctx args)

end

/-- Whatever goes wrong at run time, the condition does not fire. -/
def evaluateCondition (condition : Value) (ctx : Dict) : Bool :=
  match eval ctx condition with
  | .ok v => v.truthy
  | .error _ => false

example : evaluateCondition
    (.dict [("and", .list [.dict [("==", .list [.dict [("var", .str "verdict")], .str "close"])],
      .dict [("<", .list [.dict [("var", .str "verdict_confidence")], .float (.fin 1)])]])])
    [("verdict", .str "close"), ("verdict_confidence", .none)] = false := by decide

end SocTalk.TriagePolicy
