import SocTalk.TriagePolicy.Evaluation

/-! Confinement of conditions: an accepted condition reads contract fields only, is a function of
them, and is evaluated within the validated depth. -/
namespace SocTalk.TriagePolicy
open Py

/-! ## The evaluator, observed -/

/-- One call of the evaluator: how deep it stands and what field a `var` reads there. -/
structure Visit where
  depth : ℕ
  field : Option Value

mutual

/-- `eval` with a record of its calls. -/
def evalVisits (ctx : Dict) (depth : ℕ) : Value → List Visit × M Value
  | .dict [(op, .list args)] =>
    if op = "var" then ([⟨depth, some (.list args)⟩], lookup ctx (.list args))
    else
      let (visits, vals) := evalItemsVisits ctx (depth + 1) args
      (⟨depth, none⟩ :: visits, do applyOp op (← vals))
  | .dict [(op, arg)] =>
    if op = "var" then ([⟨depth, some arg⟩], lookup ctx arg)
    else
      let (visits, val) := evalVisits ctx (depth + 1) arg
      (⟨depth, none⟩ :: visits, do applyOp op [← val])
  | .dict _ => ([⟨depth, none⟩], throw .valueError)
  | node => ([⟨depth, none⟩], return node)

def evalItemsVisits (ctx : Dict) (depth : ℕ) : List Value → List Visit × M (List Value)
  | [] => ([], return [])
  | arg :: args =>
    let (visits, val) := evalVisits ctx depth arg
    match val with
    | .error e => (visits, .error e)
    | .ok v =>
      let (rest, vals) := evalItemsVisits ctx depth args
      (visits ++ rest, do return v :: (← vals))

end

/-- Observing changes no result. -/
theorem evalVisits_snd (ctx : Dict) (node : Value) :
    ∀ d, (evalVisits ctx d node).2 = eval ctx node := by
  refine eval.induct (fun node => ∀ d, (evalVisits ctx d node).2 = eval ctx node)
    (fun args => ∀ d, (evalItemsVisits ctx d args).2 = evalItems ctx args)
    ?items ?node ?field ?single ?dict ?literal ?nil ?cons node
  case items =>
    intro args d
    rfl
  case node =>
    intro op args hop ih d
    rw [evalVisits, eval, if_neg hop, if_neg hop, ← ih (d + 1)]
  case field =>
    intro arg harg d
    rw [evalVisits, eval]
    · rfl
    all_goals exact harg
  case single =>
    intro op arg harg hop ih d
    rw [evalVisits, eval, if_neg hop, if_neg hop, ← ih (d + 1)]
    all_goals exact harg
  case dict =>
    intro kvs hlist hpair d
    rw [evalVisits, eval]
    all_goals assumption
  case literal =>
    intro node hlist hpair hdict d
    rw [evalVisits, eval]
    all_goals assumption
  case nil => exact fun _ => rfl
  case cons =>
    intro arg args ih ihs d
    rw [evalItemsVisits, evalItems, ← ih d, ← ihs d]
    generalize evalVisits ctx d arg = observed
    obtain ⟨visits, val⟩ := observed
    cases val with
    | error e => rfl
    | ok v => rfl

/-- What a visit of an accepted condition keeps to. -/
def Visit.Confined (contract : List String) (v : Visit) : Prop :=
  v.depth ≤ maxDepth ∧ ∀ field, v.field = some field → ∃ f ∈ contract, field = .str f

theorem evalItemsVisits_subset {ctx : Dict} {d : ℕ} {args : List Value} {v : Visit}
    (h : v ∈ (evalItemsVisits ctx d args).1) : ∃ x ∈ args, v ∈ (evalVisits ctx d x).1 := by
  induction args with
  | nil => cases h
  | cons arg args ih =>
    rw [evalItemsVisits] at h
    cases hval : (evalVisits ctx d arg).2 with
    | error e =>
      simp only [hval] at h
      exact ⟨arg, List.mem_cons_self, h⟩
    | ok w =>
      simp only [hval] at h
      rcases List.mem_append.mp h with h | h
      · exact ⟨arg, List.mem_cons_self, h⟩
      · obtain ⟨x, hx, hv⟩ := ih h
        exact ⟨x, List.mem_cons_of_mem _ hx, hv⟩

theorem evalVisits_scalar (ctx : Dict) (d : ℕ) {v : Value} (h : isScalar v = true) :
    evalVisits ctx d v = ([⟨d, none⟩], .ok v) := by
  cases v with
  | list xs => cases h
  | dict kvs => cases h
  | _ => rfl

theorem confined_here {contract : List String} {d : ℕ} (h : d ≤ maxDepth) :
    Visit.Confined contract ⟨d, none⟩ := ⟨h, fun _ hf => by cases hf⟩

/-- Every call of the evaluation of an accepted node is confined. -/
theorem Allowed.confined {contract : List String} (ctx : Dict) {d : ℕ} {c : Value}
    (h : Allowed contract d c) : ∀ v ∈ (evalVisits ctx d c).1, v.Confined contract := by
  induction h with
  | scalar hd hs =>
    intro v hv
    rw [evalVisits_scalar ctx _ hs] at hv
    obtain rfl := List.mem_singleton.mp hv
    exact confined_here hd
  | literal hd hs =>
    intro v hv
    obtain rfl := List.mem_singleton.mp hv
    exact confined_here hd
  | @field d f hd hf =>
    intro v hv
    obtain rfl := List.mem_singleton.mp hv
    exact ⟨hd, fun field hfield => ⟨f, hf, (Option.some.inj hfield).symm⟩⟩
  | node hd _ hvar _ _ ih =>
    intro v hv
    rw [evalVisits, if_neg hvar] at hv
    rcases List.mem_cons.mp hv with rfl | hv
    · exact confined_here hd
    · obtain ⟨x, hx, hv⟩ := evalItemsVisits_subset hv
      exact ih x hx v hv
  | single hd _ hvar _ hlist _ ih =>
    intro v hv
    rw [evalVisits, if_neg hvar] at hv
    · rcases List.mem_cons.mp hv with rfl | hv
      · exact confined_here hd
      · exact ih v hv
    · exact fun xs h => hlist xs h

/-! ## Two contexts -/

/-- The contexts read the same in every field of the contract. -/
def Agree (contract : List String) (ctx ctx' : Dict) : Prop :=
  ∀ f ∈ contract, lookup ctx (.str f) = lookup ctx' (.str f)

theorem evalItems_congr {ctx ctx' : Dict} {args : List Value}
    (h : ∀ x ∈ args, eval ctx x = eval ctx' x) : evalItems ctx args = evalItems ctx' args := by
  induction args with
  | nil => rfl
  | cons arg args ih =>
    have hrest := ih fun x hx => h x (List.mem_cons_of_mem _ hx)
    rw [evalItems, evalItems, h arg List.mem_cons_self, hrest]

theorem Allowed.eval_congr {contract : List String} {ctx ctx' : Dict}
    (hagree : Agree contract ctx ctx') {d : ℕ} {c : Value} (h : Allowed contract d c) :
    eval ctx c = eval ctx' c := by
  induction h with
  | scalar _ hs => rw [eval_scalar ctx hs, eval_scalar ctx' hs]
  | literal => rfl
  | field _ hf => exact hagree _ hf
  | node _ _ hvar _ _ ih =>
    rw [eval_node ctx hvar, eval_node ctx' hvar, evalItems_congr ih]
  | single _ _ hvar _ hlist _ ih =>
    rw [eval_single ctx hvar hlist, eval_single ctx' hvar hlist, ih]

/-- An accepted condition is a function of the contract's fields; its evaluation reads nothing else
and goes no deeper than the validated depth. -/
theorem condition_sandboxed {condition : Value} (h : validateCondition condition = true) :
    (∀ ctx ctx', Agree stateContract ctx ctx' →
      evaluateCondition condition ctx = evaluateCondition condition ctx') ∧
    ∀ ctx, (evalVisits ctx 0 condition).2 = eval ctx condition ∧
      ∀ v ∈ (evalVisits ctx 0 condition).1, v.depth ≤ maxDepth ∧
        ∀ field, v.field = some field → ∃ f ∈ stateContract, field = .str f := by
  have hallowed := validateConditionOver_allowed h
  constructor
  · intro ctx ctx' hagree
    unfold evaluateCondition
    rw [hallowed.eval_congr hagree]
  · exact fun ctx => ⟨evalVisits_snd ctx condition 0, hallowed.confined ctx⟩

/-- A close condition cannot tell two contexts apart by a field outside the contract. -/
theorem condition_sandboxed_close :
    evaluateCondition (.dict [("==", .list [.dict [("var", .str "verdict")], .str "close"])])
        [("verdict", .str "close"), ("api_key", .str "secret")] =
      evaluateCondition (.dict [("==", .list [.dict [("var", .str "verdict")], .str "close"])])
        [("verdict", .str "close")] := by
  refine (condition_sandboxed (by decide)).1 _ _ fun f hf => ?_
  simp only [stateContract, List.mem_cons, List.not_mem_nil, or_false] at hf
  rcases hf with rfl | rfl | rfl | rfl | rfl | rfl | rfl | rfl | rfl | rfl | rfl | rfl <;> rfl

end SocTalk.TriagePolicy
