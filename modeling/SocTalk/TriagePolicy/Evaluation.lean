import SocTalk.TriagePolicy.Models

/-! The rules of the condition language: what author-time validation accepts, as a judgement,
and what evaluation does on each accepted shape. -/
namespace SocTalk.TriagePolicy
open Py

/-! ## Allowed conditions -/

/-- A node that the validation's walk passes at a depth. -/
inductive Allowed (contract : List String) : ℕ → Value → Prop
  | scalar {d : ℕ} {v : Value} : d ≤ maxDepth → isScalar v = true → Allowed contract d v
  | literal {d : ℕ} {xs : List Value} : d ≤ maxDepth → xs.all isScalar = true →
      Allowed contract d (.list xs)
  | field {d : ℕ} {f : String} : d ≤ maxDepth → f ∈ contract →
      Allowed contract d (.dict [("var", .str f)])
  | node {d : ℕ} {op : String} {args : List Value} : d ≤ maxDepth → op ∈ allowedOperators →
      op ≠ "var" → arityOk op args.length = true → (∀ x ∈ args, Allowed contract (d + 1) x) →
      Allowed contract d (.dict [(op, .list args)])
  | single {d : ℕ} {op : String} {arg : Value} : d ≤ maxDepth → op ∈ allowedOperators →
      op ≠ "var" → arityOk op 1 = true → (∀ xs, arg ≠ .list xs) → Allowed contract (d + 1) arg →
      Allowed contract d (.dict [(op, arg)])

theorem Allowed.depth_le {contract : List String} {d : ℕ} {v : Value}
    (h : Allowed contract d v) : d ≤ maxDepth := by
  cases h <;> assumption

theorem of_guard_eq_some {p : Prop} [Decidable p] {u : Unit} (h : guard p = some u) : p := by
  by_contra hp
  rw [guard, if_neg hp] at h
  cases h

theorem allowed_of_walk (contract : List String) (d n : ℕ) (v : Value) :
    ∀ m, walkValidate contract d n v = some m → Allowed contract d v := by
  refine walkValidate.induct
    (fun d n v => ∀ m, walkValidate contract d n v = some m → Allowed contract d v)
    (fun d n xs => ∀ m, walkItems contract d n xs = some m → ∀ x ∈ xs, Allowed contract d x)
    ?node ?field ?single ?dict ?literal ?scalar ?nil ?cons d n v
  case node =>
    intro d n op args ih m h
    simp only [walkValidate] at h
    obtain ⟨_, hg, h⟩ := Option.bind_eq_some_iff.mp h
    obtain ⟨_, harity, h⟩ := Option.bind_eq_some_iff.mp h
    obtain ⟨-, hd, hop, hvar⟩ := of_guard_eq_some hg
    exact .node hd hop hvar (of_guard_eq_some harity) (ih m h)
  case field =>
    intro d n field m h
    simp only [walkValidate] at h
    obtain ⟨_, hg, -⟩ := Option.bind_eq_some_iff.mp h
    obtain ⟨-, hd, hfield⟩ := of_guard_eq_some hg
    exact .field hd hfield
  case single =>
    intro d n op arg hlist hfield ih m h
    rw [walkValidate] at h
    · obtain ⟨_, hg, h⟩ := Option.bind_eq_some_iff.mp h
      obtain ⟨_, harity, h⟩ := Option.bind_eq_some_iff.mp h
      obtain ⟨-, hd, hop, hvar⟩ := of_guard_eq_some hg
      exact .single hd hop hvar (of_guard_eq_some harity) hlist (ih m h)
    · exact hlist
    · exact hfield
  case dict =>
    intro d n kvs hlist hfield hpair m h
    rw [walkValidate] at h
    · cases h
    all_goals assumption
  case literal =>
    intro d n xs m h
    simp only [walkValidate] at h
    obtain ⟨_, hg, h⟩ := Option.bind_eq_some_iff.mp h
    obtain ⟨_, hs, -⟩ := Option.bind_eq_some_iff.mp h
    exact .literal (of_guard_eq_some hg).2 (of_guard_eq_some hs).2
  case scalar =>
    intro v d n hlist hfield hpair hdict hliteral m h
    rw [walkValidate] at h
    · obtain ⟨_, hg, -⟩ := Option.bind_eq_some_iff.mp h
      refine .scalar (of_guard_eq_some hg).2 ?_
      cases v with
      | list xs => exact absurd rfl (hliteral xs)
      | dict kvs => exact absurd rfl (hdict kvs)
      | _ => rfl
    all_goals assumption
  case nil =>
    intro d n m _ x hx
    cases hx
  case cons =>
    intro d n x xs ihx ihxs m h y hy
    simp only [walkItems] at h
    obtain ⟨k, hk, h⟩ := Option.bind_eq_some_iff.mp h
    rcases List.mem_cons.mp hy with rfl | hy
    · exact ihx k hk
    · exact ihxs k m h y hy

theorem validateConditionOver_allowed {contract : List String} {condition : Value}
    (h : validateConditionOver contract condition = true) : Allowed contract 0 condition := by
  unfold validateConditionOver at h
  obtain ⟨-, hwalk⟩ := (Bool.and_eq_true _ _).mp h
  obtain ⟨m, hm⟩ := Option.isSome_iff_exists.mp hwalk
  exact allowed_of_walk contract 0 0 condition m hm

/-! ## Evaluation by shapes -/

section

variable (ctx : Dict)

theorem eval_scalar {v : Value} (h : isScalar v = true) : eval ctx v = .ok v := by
  cases v with
  | list xs => cases h
  | dict kvs => cases h
  | _ => rfl

theorem eval_literal (xs : List Value) : eval ctx (.list xs) = .ok (.list xs) := rfl

theorem eval_field (f : String) :
    eval ctx (.dict [("var", .str f)]) = .ok (lookupParts (split '.' f) (.dict ctx)) := rfl

theorem eval_node {op : String} (hop : op ≠ "var") (args : List Value) :
    eval ctx (.dict [(op, .list args)]) = evalItems ctx args >>= applyOp op := by
  rw [eval, if_neg hop]

theorem eval_single {op : String} (hop : op ≠ "var") {arg : Value} (harg : ∀ xs, arg ≠ .list xs) :
    eval ctx (.dict [(op, arg)]) = eval ctx arg >>= fun v => applyOp op [v] := by
  rw [eval, if_neg hop]
  exact fun xs h => harg xs h

theorem evalItems_eq_mapM (args : List Value) : evalItems ctx args = args.mapM (eval ctx) := by
  induction args with
  | nil => rfl
  | cons arg args ih => rw [evalItems, ih, List.mapM_cons]

theorem evalItems_pair {x y : Value} {vals : List Value} (h : evalItems ctx [x, y] = .ok vals) :
    ∃ a b, eval ctx x = .ok a ∧ eval ctx y = .ok b ∧ vals = [a, b] := by
  simp only [evalItems] at h
  obtain ⟨a, ha, h⟩ := (bind_eq_ok _ _ _).mp h
  obtain ⟨vs, hvs, h⟩ := (bind_eq_ok _ _ _).mp h
  obtain ⟨b, hb, hvs⟩ := (bind_eq_ok _ _ _).mp hvs
  obtain ⟨ws, hws, hvs⟩ := (bind_eq_ok _ _ _).mp hvs
  obtain rfl := (pure_eq_ok _ _).mp hws
  obtain rfl := (pure_eq_ok _ _).mp hvs
  exact ⟨a, b, ha, hb, ((pure_eq_ok _ _).mp h).symm⟩

theorem eval_pair {op : String} (hop : op ≠ "var") {x y a b : Value} (hx : eval ctx x = .ok a)
    (hy : eval ctx y = .ok b) : eval ctx (.dict [(op, .list [x, y])]) = applyOp op [a, b] := by
  rw [eval_node ctx hop]
  simp only [evalItems, hx, hy]
  rfl

/-- The truth of a condition is that of its value, an evaluation that raises counting as `None`. -/
def valueOf (node : Value) : Value :=
  match eval ctx node with
  | .ok v => v
  | .error _ => .none

theorem evaluateCondition_eq (node : Value) :
    evaluateCondition node ctx = (valueOf ctx node).truthy := by
  unfold evaluateCondition valueOf
  cases eval ctx node <;> rfl

theorem evaluateCondition_of_raises {node : Value} (h : ¬Returns (eval ctx node)) :
    evaluateCondition node ctx = false := by
  unfold evaluateCondition
  cases hv : eval ctx node with
  | ok v => exact absurd ⟨v, hv⟩ h
  | error e => rfl

theorem evalItems_of_returns {args : List Value} (h : ∀ x ∈ args, Returns (eval ctx x)) :
    evalItems ctx args = .ok (args.map (valueOf ctx)) := by
  induction args with
  | nil => rfl
  | cons arg args ih =>
    obtain ⟨v, hv⟩ := h arg List.mem_cons_self
    have hvalue : valueOf ctx arg = v := by rw [valueOf, hv]
    have hrest := ih fun x hx => h x (List.mem_cons_of_mem _ hx)
    rw [evalItems, hv, hrest, List.map_cons, hvalue]
    rfl

/-- One operand that raises is enough for the node to raise. -/
theorem not_returns_evalItems {args : List Value} {x : Value} (hx : x ∈ args)
    (h : ¬Returns (eval ctx x)) : ¬Returns (evalItems ctx args) := by
  rintro ⟨vals, hvals⟩
  rw [evalItems_eq_mapM] at hvals
  exact h (returns_of_mapM_eq_ok hvals x hx)

theorem not_returns_node {op : String} (hop : op ≠ "var") {args : List Value} {x : Value}
    (hx : x ∈ args) (h : ¬Returns (eval ctx x)) :
    ¬Returns (eval ctx (.dict [(op, .list args)])) := by
  rw [eval_node ctx hop, returns_bind_iff]
  rintro ⟨vals, hvals, -⟩
  exact not_returns_evalItems ctx hx h ⟨vals, hvals⟩

theorem not_returns_single {op : String} (hop : op ≠ "var") {arg : Value}
    (harg : ∀ xs, arg ≠ .list xs) (h : ¬Returns (eval ctx arg)) :
    ¬Returns (eval ctx (.dict [(op, arg)])) := by
  rw [eval_single ctx hop harg, returns_bind_iff]
  rintro ⟨v, hv, -⟩
  exact h ⟨v, hv⟩

end

end SocTalk.TriagePolicy
