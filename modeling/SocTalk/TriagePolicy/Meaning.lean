import SocTalk.TriagePolicy.Evaluation

/-! What the logical operators make of their branches, and what the comparisons make of a
missing operand. -/
namespace SocTalk.TriagePolicy
open Py

/-! ## The logical operators -/

def allOf (cs : List Value) : Value := .dict [("and", .list cs)]
def anyOf (cs : List Value) : Value := .dict [("or", .list cs)]
def notOf (c : Value) : Value := .dict [("!", c)]

/-- Somewhere in the tree two operands that are both present are of types that do not compare. -/
inductive IllTyped (ctx : Dict) : Value → Prop
  | order {op : String} {cmp : CompareOp} {x y a b : Value} : compareOp? op = some cmp →
      eval ctx x = .ok a → eval ctx y = .ok b → a.isSome = true → b.isSome = true →
      ¬Returns (a.compare cmp b) → IllTyped ctx (.dict [(op, .list [x, y])])
  | member {x y a b : Value} : eval ctx x = .ok a → eval ctx y = .ok b → a.isSome = true →
      ¬Returns (member a b) → IllTyped ctx (.dict [("in", .list [x, y])])
  | branch {op : String} {args : List Value} {x : Value} : op ≠ "var" → x ∈ args →
      IllTyped ctx x → IllTyped ctx (.dict [(op, .list args)])
  | single {op : String} {arg : Value} : op ≠ "var" → IllTyped ctx arg →
      IllTyped ctx (.dict [(op, arg)])

theorem IllTyped.not_list {ctx : Dict} {c : Value} (h : IllTyped ctx c) (xs : List Value) :
    c ≠ .list xs := by
  cases h <;> simp

theorem applyOp_order {op : String} {cmp : CompareOp} (hop : compareOp? op = some cmp)
    {a b : Value} (ha : a.isSome = true) (hb : b.isSome = true) :
    applyOp op [a, b] = a.compare cmp b >>= fun r => return .bool r := by
  simp only [applyOp, hop, ha, hb, Bool.not_true, Bool.or_self, Bool.false_eq_true, if_false]

theorem ne_var_of_compareOp {op : String} {cmp : CompareOp} (hop : compareOp? op = some cmp) :
    op ≠ "var" := by
  rintro rfl
  cases hop

/-- Whatever stands around it, an ill-typed comparison raises. -/
theorem IllTyped.not_returns {ctx : Dict} {c : Value} (h : IllTyped ctx c) :
    ¬Returns (eval ctx c) := by
  induction h with
  | order hop hx hy ha hb hraise =>
    rw [eval_pair ctx (ne_var_of_compareOp hop) hx hy, applyOp_order hop ha hb, returns_bind_iff]
    rintro ⟨r, hr, -⟩
    exact hraise ⟨r, hr⟩
  | member hx hy ha hraise =>
    rw [eval_pair ctx (by decide) hx hy]
    show ¬Returns (SocTalk.TriagePolicy.member _ _ >>= fun r => return Value.bool r)
    rw [returns_bind_iff]
    rintro ⟨r, hr, -⟩
    exact hraise ⟨r, hr⟩
  | branch hop hmem _ ih => exact not_returns_node ctx hop hmem ih
  | single hop harg ih => exact not_returns_single ctx hop harg.not_list ih

section

variable (ctx : Dict)

theorem evaluate_allOf_of_returns {cs : List Value} (h : ∀ c ∈ cs, Returns (eval ctx c)) :
    evaluateCondition (allOf cs) ctx = cs.all fun c => evaluateCondition c ctx := by
  unfold allOf evaluateCondition
  rw [eval_node ctx (by decide), evalItems_of_returns ctx h]
  show (cs.map (valueOf ctx)).all Value.truthy = _
  rw [List.all_map]
  exact congrArg cs.all (funext fun c => (evaluateCondition_eq ctx c).symm)

theorem evaluate_anyOf_of_returns {cs : List Value} (h : ∀ c ∈ cs, Returns (eval ctx c)) :
    evaluateCondition (anyOf cs) ctx = cs.any fun c => evaluateCondition c ctx := by
  unfold anyOf evaluateCondition
  rw [eval_node ctx (by decide), evalItems_of_returns ctx h]
  show (cs.map (valueOf ctx)).any Value.truthy = _
  rw [List.any_map]
  exact congrArg cs.any (funext fun c => (evaluateCondition_eq ctx c).symm)

theorem evaluate_notOf_of_returns {c : Value} (hc : ∀ xs, c ≠ .list xs)
    (h : Returns (eval ctx c)) :
    evaluateCondition (notOf c) ctx = !evaluateCondition c ctx := by
  obtain ⟨v, hv⟩ := h
  unfold notOf evaluateCondition
  rw [eval_single ctx (by decide) hc, hv]
  rfl

/-- A branch that raises is false by itself, so a conjunction is the conjunction of its branches
in any case. -/
theorem evaluate_allOf (cs : List Value) :
    evaluateCondition (allOf cs) ctx = true ↔ ∀ c ∈ cs, evaluateCondition c ctx = true := by
  by_cases h : ∀ c ∈ cs, Returns (eval ctx c)
  · rw [evaluate_allOf_of_returns ctx h, List.all_eq_true]
  · push Not at h
    obtain ⟨c, hc, hraise⟩ := h
    have hfalse : evaluateCondition (allOf cs) ctx = false :=
      evaluateCondition_of_raises ctx (not_returns_node ctx (by decide) hc hraise)
    constructor
    · intro htrue
      exact absurd htrue (by rw [hfalse]; decide)
    · intro hall
      exact absurd (hall c hc) (by rw [evaluateCondition_of_raises ctx hraise]; decide)

end

theorem validateCondition_isDict {c : Value} (h : validateCondition c = true) (xs : List Value) :
    c ≠ .list xs := by
  rintro rfl
  cases h

def verdictIsClose : Value := .dict [("==", .list [.dict [("var", .str "verdict")], .str "close"])]

/-- An order comparison of a text with a number. -/
def verdictBelowOne : Value := .dict [("<", .list [.dict [("var", .str "verdict")], .int 1])]

/-- A node that the evaluation of the condition comes to. -/
inductive Within (n : Value) : Value → Prop
  | refl : Within n n
  | branch {op : String} {args : List Value} {x : Value} : op ≠ "var" → x ∈ args → Within n x →
      Within n (.dict [(op, .list args)])
  | single {op : String} {arg : Value} : op ≠ "var" → (∀ xs, arg ≠ .list xs) → Within n arg →
      Within n (.dict [(op, arg)])

/-- Nodes of accepted conditions are accepted, further down. -/
theorem Allowed.within {contract : List String} {n c : Value} (hn : Within n c) :
    ∀ {d : ℕ}, Allowed contract d c → ∃ k, Allowed contract k n := by
  induction hn with
  | refl => exact fun h => ⟨_, h⟩
  | branch hvar hx _ ih =>
    intro d h
    cases h with
    | scalar _ h => cases h
    | node _ _ _ _ hargs => exact ih (hargs _ hx)
    | single _ _ _ _ hlist _ => exact absurd rfl (hlist _)
  | single hvar harg _ ih =>
    intro d h
    cases h with
    | scalar _ h => cases h
    | field => exact absurd rfl hvar
    | node => exact absurd rfl (harg _)
    | single _ _ _ _ _ h => exact ih h

/-- A comparison stands between two operands. -/
theorem Allowed.operands {contract : List String} {d : ℕ} {op : String} {arg : Value}
    (h : Allowed contract d (.dict [(op, arg)])) (hop : op ∈ comparisons ∨ op = "in") :
    ∃ x y, arg = .list [x, y] := by
  have harity : ∀ n, arityOk op n = true → n = 2 := by
    intro n hn
    unfold arityOk at hn
    rw [if_pos hop] at hn
    exact of_decide_eq_true hn
  cases h with
  | scalar _ h => cases h
  | field => exact absurd hop (by decide)
  | node _ _ _ hargs _ =>
    obtain ⟨x, y, rfl⟩ := List.length_eq_two.mp (harity _ hargs)
    exact ⟨x, y, rfl⟩
  | single _ _ _ hone _ _ => exact absurd (harity 1 hone) (by decide)

theorem none_eq_iff (v : Value) : Value.eq .none v = true ↔ v = .none := by
  cases v <;> simp [Value.eq, Value.num?, Value.text?]

theorem eq_none_iff (v : Value) : Value.eq v .none = true ↔ v = .none := by
  cases v <;> simp [Value.eq, Value.num?, Value.text?]

/-- The comparisons that take `None` for a value like any other. -/
def FiresOnMissing (op : String) (a b : Value) : Prop :=
  (op = "==" ∧ a = .none ∧ b = .none) ∨ (op = "!=" ∧ ¬(a = .none ∧ b = .none)) ∨
    (op = "in" ∧ a = .none ∧ ∃ xs, b = .list xs ∧ Value.none ∈ xs)

/-- The truth of a value, none where the computation raises. -/
def truthOf (r : M Value) : Bool :=
  match r with
  | .ok v => v.truthy
  | .error _ => false

theorem evaluateCondition_pair {ctx : Dict} {op : String} (hop : op ≠ "var") {x y a b : Value}
    (hx : eval ctx x = .ok a) (hy : eval ctx y = .ok b) :
    evaluateCondition (.dict [(op, .list [x, y])]) ctx = truthOf (applyOp op [a, b]) := by
  unfold evaluateCondition
  rw [eval_pair ctx hop hx hy]
  rfl

section

variable {a b : Value} (h : a = .none ∨ b = .none)
include h

theorem order_missing {op : String} {cmp : CompareOp} (hop : compareOp? op = some cmp) :
    truthOf (applyOp op [a, b]) = false := by
  have hnone : (!a.isSome || !b.isSome) = true := by
    rcases h with rfl | rfl
    · rfl
    · exact Bool.or_true _
  simp only [applyOp, hop, hnone, if_true]
  rfl

theorem eq_missing : truthOf (applyOp "==" [a, b]) = true ↔ a = .none ∧ b = .none := by
  show a.eq b = true ↔ _
  rcases h with rfl | rfl
  · simp [none_eq_iff]
  · simp [eq_none_iff]

theorem ne_missing : truthOf (applyOp "!=" [a, b]) = true ↔ ¬(a = .none ∧ b = .none) := by
  rw [← eq_missing h]
  show (!a.eq b) = true ↔ ¬a.eq b = true
  simp

theorem in_missing :
    truthOf (applyOp "in" [a, b]) = true ↔ a = .none ∧ ∃ xs, b = .list xs ∧ Value.none ∈ xs := by
  show truthOf (member a b >>= fun r => return Value.bool r) = true ↔ _
  by_cases ha : a = .none
  · subst ha
    cases b with
    | list xs =>
      show xs.any Value.none.eq = true ↔ _
      simp [List.any_eq_true, none_eq_iff]
    | str s => simp [member, truthOf, Value.text?, throw, throwThe, MonadExceptOf.throw, bind,
        Except.bind]
    | enum s => simp [member, truthOf, Value.text?, throw, throwThe, MonadExceptOf.throw, bind,
        Except.bind]
    | _ => simp [member, truthOf, Value.truthy, pure, Except.pure, bind, Except.bind]
  · obtain rfl := h.resolve_left ha
    simp [ha, member, truthOf, Value.truthy, pure, Except.pure, bind, Except.bind]

theorem missing_fires_iff {op : String} (hop : op ∈ comparisons ∨ op = "in") :
    truthOf (applyOp op [a, b]) = true ↔ FiresOnMissing op a b := by
  unfold FiresOnMissing
  have horder : ∀ (op : String) (cmp : CompareOp), compareOp? op = some cmp →
      (truthOf (applyOp op [a, b]) = true ↔ False) := fun op cmp hcmp => by
    rw [order_missing h hcmp]
    simp
  simp only [comparisons, List.mem_cons, List.not_mem_nil, or_false] at hop
  rcases hop with (rfl | rfl | rfl | rfl | rfl | rfl) | rfl
  · simpa using eq_missing h
  · simpa using ne_missing h
  · simpa using horder "<" .lt rfl
  · simpa using horder "<=" .le rfl
  · simpa using horder ">" .gt rfl
  · simpa using horder ">=" .ge rfl
  · simpa using in_missing h

end

/-- Where an operand of a comparison is missing, the comparison is falsy, unless it is an equality
of two missing values, an inequality with a present one, or the membership of a missing value in a
list that holds `None`. -/
theorem missing_falsy_iff {condition : Value} (hv : validateCondition condition = true)
    {op : String} {arg : Value} (hn : Within (.dict [(op, arg)]) condition)
    (hop : op ∈ comparisons ∨ op = "in") (ctx : Dict) :
    ∃ x y, arg = .list [x, y] ∧ (eval ctx x = .ok .none ∨ eval ctx y = .ok .none →
      (evaluateCondition (.dict [(op, arg)]) ctx = false ↔
        ∀ a b, eval ctx x = .ok a → eval ctx y = .ok b → ¬FiresOnMissing op a b)) := by
  obtain ⟨k, hk⟩ := Allowed.within hn (validateConditionOver_allowed hv)
  obtain ⟨x, y, rfl⟩ := hk.operands hop
  have hvar : op ≠ "var" := by
    rintro rfl
    exact absurd hop (by decide)
  refine ⟨x, y, rfl, fun hmissing => ?_⟩
  by_cases hboth : Returns (eval ctx x) ∧ Returns (eval ctx y)
  · obtain ⟨⟨a, ha⟩, b, hb⟩ := hboth
    have hnone : a = .none ∨ b = .none := by
      rw [ha, hb] at hmissing
      exact hmissing.imp Except.ok.inj Except.ok.inj
    rw [evaluateCondition_pair hvar ha hb, ← Bool.not_eq_true, missing_fires_iff hnone hop]
    constructor
    · intro h a' b' ha' hb'
      obtain rfl : a = a' := Except.ok.inj (ha.symm.trans ha')
      obtain rfl : b = b' := Except.ok.inj (hb.symm.trans hb')
      exact h
    · exact fun h => h a b ha hb
  · -- An operand that raises takes the node with it.
    have hraise : ¬Returns (eval ctx (.dict [(op, .list [x, y])])) := by
      rcases not_and_or.mp hboth with hx | hy
      · exact not_returns_node ctx hvar (by simp) hx
      · exact not_returns_node ctx hvar (by simp) hy
    constructor
    · intro _ a b ha hb
      exact absurd ⟨⟨a, ha⟩, b, hb⟩ hboth
    · exact fun _ => evaluateCondition_of_raises ctx hraise

def environmentNotDev : Value :=
  .dict [("!=", .list [.dict [("var", .str "asset.environment")], .str "dev"])]

/-- An inequality over an asset that nobody recorded fires. -/
theorem missing_fires :
    validateCondition environmentNotDev = true ∧
      eval [] (.dict [("var", .str "asset.environment")]) = .ok .none ∧
      evaluateCondition environmentNotDev [] = true :=
  ⟨by decide, rfl, by decide⟩

def confidenceAboveHalf : Value :=
  .dict [(">", .list [.dict [("var", .str "verdict_confidence")], .float (.fin (1 / 2))])]

/-- An order comparison with a missing confidence is falsy. -/
theorem missing_falsy_confidence :
    evaluateCondition confidenceAboveHalf [] = false := by
  have haccepted : validateCondition confidenceAboveHalf = true := by decide
  obtain ⟨x, y, hxy, hiff⟩ := missing_falsy_iff haccepted .refl (Or.inl (by decide)) []
  have hx : x = .dict [("var", .str "verdict_confidence")] := by cases hxy; rfl
  refine (hiff (Or.inl (by rw [hx]; rfl))).mpr fun a b _ _ h => ?_
  rcases h with ⟨hop, -⟩ | ⟨hop, -⟩ | ⟨hop, -⟩
  all_goals exact absurd hop (by decide)

end SocTalk.TriagePolicy
