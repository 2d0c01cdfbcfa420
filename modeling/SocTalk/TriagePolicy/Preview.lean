import SocTalk.TriagePolicy.Builder
import SocTalk.TriagePolicy.Caution

/-! The editor's preview: its evaluation of conditions with JavaScript's operators, its simulation of
the guard, and that it shows what the guard does wherever the rows have the types of their fields. -/
namespace SocTalk.TriagePolicy.Client
open Py Authorization

/-! ## Evaluation -/

def isNumber : Value → Bool
  | .int _ | .float _ => true
  | _ => false

/-- `===`; two lists or two objects are never the same one. -/
def strictEq : Value → Value → Bool
  | .none, .none => true
  | .bool a, .bool b => a == b
  | .str a, .str b => a == b
  | a, b => isNumber a && isNumber b && a.eq b

/-- `Boolean(v)`. -/
def toBoolean : Value → Bool
  | .none => false
  | .bool b => b
  | .int n => n ≠ 0
  | .float x => x ≠ .fin 0 && x ≠ .nan
  | .str s => s ≠ ""
  | _ => true

def sameValueZero (a b : Value) : Bool :=
  strictEq a b || match a, b with
    | .float .nan, .float .nan => true
    | _, _ => false

/-- What JavaScript makes of operands that are not both numbers, and of a value as a text. -/
structure Coercions where
  order : CompareOp → Value → Value → Bool
  string : Value → String
  string_str : ∀ s, string (.str s) = s

section Evaluation

variable (J : Coercions)

def relational (c : CompareOp) (a b : Value) : Bool :=
  match isNumber a, isNumber b, a.num?, b.num? with
  | true, true, some p, some q => c.floats p q
  | _, _, _, _ => J.order c a b

def lookup (ctx : Dict) (dotted : String) : Value := lookupParts (split '.' dotted) (.dict ctx)

/-- An operator on its operands, of which there may be too few. -/
def applyOp (op : String) (vals : List Value) : Bool :=
  match compareOp? op with
  | some c =>
    match vals with
    | a :: b :: _ => a.isSome && b.isSome && relational J c a b
    | _ => false
  | none =>
    match op, vals with
    | "==", a :: b :: _ => strictEq a b
    | "==", [_] => false
    | "==", [] => true
    | "!=", a :: b :: _ => !strictEq a b
    | "!=", [_] => true
    | "!=", [] => false
    | "and", vals => vals.all toBoolean
    | "or", vals => vals.any toBoolean
    | "!", a :: _ => !toBoolean a
    | "!", [] => true
    | "!!", a :: _ => toBoolean a
    | "in", a :: .list xs :: _ => xs.any (sameValueZero a)
    | "in", a :: .str s :: _ => isInfix (J.string a).toList s.toList
    | _, _ => false

mutual

/-- None where it throws: an empty object has no first entry. -/
def evalNode (ctx : Dict) : Value → Option Value
  | .dict ((op, .list args) :: _) =>
    if op = "var" then some (lookup ctx (J.string (.list args)))
    else (evalNodes ctx args).map fun vals => .bool (applyOp J op vals)
  | .dict ((op, arg) :: _) =>
    if op = "var" then some (lookup ctx (J.string arg))
    else (evalNode ctx arg).map fun v => .bool (applyOp J op [v])
  | .dict [] => none
  | v => some v

def evalNodes (ctx : Dict) : List Value → Option (List Value)
  | [] => some []
  | x :: xs => do
    let v ← evalNode ctx x
    let vs ← evalNodes ctx xs
    return v :: vs

end

def evaluateCondition (node : Value) (ctx : Dict) : Bool :=
  match evalNode J ctx node with
  | some v => toBoolean v
  | none => false

/-! ## The guard, simulated -/

inductive Stage where
  | floor
  | guardrail (index : ℕ)
  | signoff
  | commit
  deriving DecidableEq

inductive SimReason where
  | iocFloor
  | authzFloor
  | rule (reason : String)
  | signoff (dataClass : String)
  | commit
  deriving DecidableEq

structure SimOutcome where
  stage : Stage
  effect : Option Effect := none
  finalDecision : String
  heldForReview : Bool := false
  reason : SimReason

/-- The guardrails that the guard names for it, with their effects. -/
def SimOutcome.fired (o : SimOutcome) : List (String × Effect) :=
  match o.stage with
  | .floor =>
    [(if o.reason = .iocFloor then "ioc_over_close" else "authorization_contradicted_close",
      .override)]
  | .guardrail i => [(guardrailName i, o.effect.getD .override)]
  | .signoff => [("sensitive_asset_close_signoff", .interrupt)]
  | .commit => []

/-- `String(v ?? default)`. -/
def textOr (default : String) (v : Value) : String :=
  match v with
  | .none => default
  | v => J.string v

/-- The first rule that fires on the draft. -/
def firstRule (ctx : Dict) (verdict : String) : ℕ → List Guardrail → Option SimOutcome
  | _, [] => none
  | i, g :: rails =>
    if !evaluateCondition J g.condition ctx then firstRule ctx verdict (i + 1) rails
    else
      match g.effect with
      | .override =>
        -- Raise-only.
        if nonRaising g.target.value verdict then firstRule ctx verdict (i + 1) rails
        else some ⟨.guardrail i, some .override, g.target.value, false, .rule g.reason⟩
      | .interrupt => some ⟨.guardrail i, some .interrupt, verdict, true, .rule g.reason⟩

def simulateGuard (rails : List Guardrail) (closeSignoffDataClasses : List String) (ctx : Dict) :
    SimOutcome :=
  let verdict := textOr J "" (lookup ctx "verdict")
  let ioc := toBoolean (lookup ctx "enrichment.ioc")
  let authzClass := textOr J "absent" (lookup ctx "authz.class")
  if verdict = "close" ∧ ioc = true then ⟨.floor, none, "escalate", false, .iocFloor⟩
  else if verdict = "close" ∧ authzClass = "contradicted" then
    ⟨.floor, none, "escalate", false, .authzFloor⟩
  else
    match firstRule J ctx verdict 0 rails with
    | some outcome => outcome
    | none =>
      let signoff := closeSignoffDataClasses.map lower
      let dataClass := lower (textOr J "" (lookup ctx "asset.data_classification"))
      if verdict = "close" ∧ dataClass ≠ "" ∧ dataClass ∈ signoff then
        ⟨.signoff, some .interrupt, verdict, true, .signoff dataClass⟩
      else ⟨.commit, none, verdict, false, .commit⟩

end Evaluation

/-! ## Rows of the types of their fields -/

def isText : Value → Bool
  | .str _ => true
  | _ => false

def isBool : Value → Bool
  | .bool _ => true
  | _ => false

def isTexts : Value → Bool
  | .list xs => xs.all isText
  | _ => false

/-- The operand that the controls of a row make. -/
def typedValue (path op : String) (v : Value) : Bool :=
  if isBoolean path then isBool v
  else if hasType path .number then isNumber v
  else if op = "in" then isTexts v else isText v

structure RuleRow.Typed (r : RuleRow) : Prop where
  field : r.field ∈ contractPaths
  op : r.op ∈ opsFor r.field
  value : typedValue r.field r.op r.value = true

inductive Node.Typed : Node → Prop
  | rule {r : RuleRow} : r.Typed → Typed (.rule r)
  | group {op : GroupOp} {children : List Node} : (∀ n ∈ children, n.Typed) →
      Typed (.group op children)

/-- A value that a field of the contract has in a context. -/
def typedField (path : String) (v : Value) : Bool :=
  if isBoolean path then isBool v
  else if hasType path .number then !v.isSome || isNumber v
  else !v.isSome || isText v

def TypedContext (ctx : Dict) : Prop :=
  ∀ path ∈ contractPaths, typedField path (lookup ctx path) = true

/-! ## Two evaluators, one value -/

section

variable (J : Coercions) {ctx : Dict}

theorem isBool_iff {v : Value} : isBool v = true ↔ ∃ b, v = .bool b := by
  cases v <;> simp [isBool]

theorem isText_iff {v : Value} : isText v = true ↔ ∃ s, v = .str s := by
  cases v <;> simp [isText]

theorem isTexts_iff {v : Value} : isTexts v = true ↔ ∃ xs : List String, v = .list (xs.map .str) := by
  constructor
  · intro h
    cases v with
    | list ys =>
      have hall : ∀ y ∈ ys, ∃ s, y = .str s :=
        fun y hy => isText_iff.mp (List.all_eq_true.mp h y hy)
      obtain ⟨xs, rfl⟩ : ∃ xs : List String, ys = xs.map .str := by
        clear h
        induction ys with
        | nil => exact ⟨[], rfl⟩
        | cons y ys ih =>
          obtain ⟨s, rfl⟩ := hall y List.mem_cons_self
          obtain ⟨xs, rfl⟩ := ih fun z hz => hall z (List.mem_cons_of_mem _ hz)
          exact ⟨s :: xs, rfl⟩
      exact ⟨xs, rfl⟩
    | _ => cases h
  · rintro ⟨xs, rfl⟩
    simp [isTexts, isText]

theorem num?_of_isNumber {v : Value} (h : isNumber v = true) :
    ∃ x, v.num? = some x ∧ v.isSome = true := by
  cases v <;> simp_all [isNumber, Value.num?, Value.isSome]

theorem opsFor_text {path op : String} (hboolean : ¬isBoolean path = true)
    (hnumber : ¬hasType path .number = true) (hop : op ∈ opsFor path) :
    op = "==" ∨ op = "!=" ∨ op = "in" := by
  unfold isBoolean hasType at hboolean
  unfold hasType at hnumber
  unfold opsFor at hop
  cases hf : contractField path with
  | none =>
    rw [hf] at hop
    exact .inl (List.mem_singleton.mp hop)
  | some f =>
    rw [hf] at hboolean hnumber hop
    cases htype : f.type <;> simp_all

/-- The operators answer alike on the operands of a typed row. -/
theorem applyOp_agrees {path op : String} {a v : Value} (hop : op ∈ opsFor path)
    (ha : typedField path a = true) (hv : typedValue path op v = true) :
    TriagePolicy.applyOp op [a, v] = .ok (.bool (applyOp J op [a, v])) := by
  unfold typedField at ha
  unfold typedValue at hv
  by_cases hboolean : isBoolean path = true
  · rw [if_pos hboolean] at ha hv
    rw [opsFor_boolean hboolean, List.mem_singleton] at hop
    obtain ⟨x, rfl⟩ := isBool_iff.mp ha
    obtain ⟨y, rfl⟩ := isBool_iff.mp hv
    rw [hop]
    cases x <;> cases y <;> rfl
  rw [if_neg hboolean] at ha hv
  by_cases hnumber : hasType path .number = true
  · rw [if_pos hnumber] at ha hv
    have hin : op ≠ "in" := fun h => in_not_mem_opsFor hnumber (h ▸ hop)
    obtain ⟨q, hq, hvsome⟩ := num?_of_isNumber hv
    have hvalue : ∀ c, a.isSome = true → a.compare c v = .ok (relational J c a v) := by
      intro c hsome
      have hanum : isNumber a = true := by simpa [hsome] using ha
      obtain ⟨p, hp, -⟩ := num?_of_isNumber hanum
      unfold relational
      simp only [hanum, hv, hp, hq]
      cases a <;> cases v <;> simp_all [isNumber, Value.compare]
    have horder : ∀ c, compareOp? op = some c →
        TriagePolicy.applyOp op [a, v] = .ok (.bool (applyOp J op [a, v])) := by
      intro c hc
      unfold TriagePolicy.applyOp applyOp
      simp only [hc]
      cases hsome : a.isSome with
      | false => rfl
      | true =>
        rw [hvalue c hsome, hvsome]
        rfl
    have hequal : a.eq v = strictEq a v := by
      cases a <;> cases v <;>
        simp_all [isNumber, strictEq, Value.eq, Value.num?, Value.text?, Value.isSome]
    have hrow := opsFor_subset _ _ hop
    simp only [rowOps, List.mem_cons, List.not_mem_nil, or_false] at hrow
    rcases hrow with rfl | rfl | rfl | rfl | rfl | rfl | rfl
    · change Except.ok (Value.bool (a.eq v)) = Except.ok (Value.bool (strictEq a v))
      rw [hequal]
    · change Except.ok (Value.bool !a.eq v) = Except.ok (Value.bool !strictEq a v)
      rw [hequal]
    · exact horder .lt rfl
    · exact horder .le rfl
    · exact horder .gt rfl
    · exact horder .ge rfl
    · exact absurd rfl hin
  · rw [if_neg hnumber] at ha hv
    have htext : a = .none ∨ ∃ s, a = .str s := by
      cases a <;> simp_all [isText, Value.isSome]
    have hequal : ∀ t : String, a.eq (.str t) = strictEq a (.str t) := by
      intro t
      rcases htext with rfl | ⟨s, rfl⟩
      · rfl
      · rfl
    rcases opsFor_text hboolean hnumber hop with rfl | rfl | rfl
    · obtain ⟨t, rfl⟩ := isText_iff.mp hv
      change Except.ok (Value.bool (a.eq (.str t))) = Except.ok (Value.bool (strictEq a (.str t)))
      rw [hequal]
    · obtain ⟨t, rfl⟩ := isText_iff.mp hv
      change Except.ok (Value.bool !a.eq (.str t)) = Except.ok (Value.bool !strictEq a (.str t))
      rw [hequal]
    · obtain ⟨ts, rfl⟩ := isTexts_iff.mp hv
      have hmember : (ts.map Value.str).any a.eq = (ts.map Value.str).any (sameValueZero a) := by
        rw [List.any_map, List.any_map]
        congr 1
        funext t
        change a.eq (.str t) = (strictEq a (.str t) || _)
        rw [hequal t]
        rcases htext with rfl | ⟨s, rfl⟩ <;> simp
      change Except.ok (Value.bool ((ts.map Value.str).any a.eq)) =
        Except.ok (Value.bool ((ts.map Value.str).any (sameValueZero a)))
      rw [hmember]

/-- Both evaluate it to this boolean. -/
def Both (ctx : Dict) (c : Value) (b : Bool) : Prop :=
  evalNode J ctx c = some (.bool b) ∧ eval ctx c = .ok (.bool b)

def BothAll (ctx : Dict) (parts : List Value) (bs : List Bool) : Prop :=
  evalNodes J ctx parts = some (bs.map .bool) ∧ evalItems ctx parts = .ok (bs.map .bool)

theorem evalNode_value (ctx : Dict) {path op : String} {v : Value}
    (h : typedValue path op v = true) :
    evalNode J ctx v = some v ∧ eval ctx v = .ok v := by
  cases v with
  | dict kvs =>
    unfold typedValue at h
    split_ifs at h <;> cases h
  | _ => exact ⟨rfl, rfl⟩

theorem both_row (hctx : TypedContext ctx) {r : RuleRow} (h : r.Typed) :
    ∃ b, Both J ctx r.toCondition b := by
  have hvar : r.op ≠ "var" := rowOps_ne_var (opsFor_subset _ _ h.op)
  obtain ⟨hclient, hserver⟩ := evalNode_value J ctx h.value
  refine ⟨applyOp J r.op [lookup ctx r.field, r.value], ?_, ?_⟩
  · have hfield : evalNode J ctx (.dict [("var", .str r.field)]) = some (lookup ctx r.field) := by
      rw [evalNode, if_pos rfl, J.string_str]
      intro xs hxs
      cases hxs
    unfold RuleRow.toCondition
    rw [evalNode, if_neg hvar, evalNodes, evalNodes, evalNodes, hfield, hclient]
    rfl
  · have hagrees := applyOp_agrees J h.op (hctx _ h.field) h.value
    have hpair := eval_pair ctx hvar (eval_field ctx r.field) hserver
    unfold RuleRow.toCondition
    rw [hpair]
    exact hagrees

theorem applyOp_client_key (g : GroupOp) (bs : List Bool) :
    applyOp J g.key (bs.map .bool) = g.combine bs := by
  have htruth : (toBoolean ∘ Value.bool) = id := rfl
  cases g with
  | and =>
    change (bs.map Value.bool).all toBoolean = _
    rw [List.all_map, htruth]
    rfl
  | or =>
    change (bs.map Value.bool).any toBoolean = _
    rw [List.any_map, htruth]
    rfl

theorem both_joinParts (g : GroupOp) {parts : List Value} (h : ∃ bs, BothAll J ctx parts bs) :
    ∀ c, joinParts g parts = some c → ∃ b, Both J ctx c b := by
  intro c hc
  obtain ⟨bs, hclient, hserver⟩ := h
  cases parts with
  | nil => cases hc
  | cons part rest =>
    cases rest with
    | nil =>
      cases hc
      simp only [evalNodes] at hclient
      obtain ⟨v, hv, hclient⟩ := Option.bind_eq_some_iff.mp hclient
      simp only [evalItems] at hserver
      obtain ⟨w, hw, hserver⟩ := (bind_eq_ok _ _ _).mp hserver
      have hvs : [v] = bs.map .bool := Option.some.inj hclient
      have hws : [w] = bs.map .bool := Except.ok.inj hserver
      cases bs with
      | nil => cases hvs
      | cons b bs =>
        have hvb : v = .bool b := List.head_eq_of_cons_eq hvs
        have hwb : w = .bool b := List.head_eq_of_cons_eq hws
        exact ⟨b, hvb ▸ hv, hwb ▸ hw⟩
    | cons part' rest =>
      cases hc
      refine ⟨g.combine bs, ?_, ?_⟩
      · rw [evalNode, if_neg g.key_ne_var, hclient, Option.map_some, applyOp_client_key]
      · rw [eval_node ctx g.key_ne_var, hserver]
        exact applyOp_key g bs

theorem Node.Typed.row {r : RuleRow} (h : (Node.rule r).Typed) : r.Typed := by
  cases h
  assumption

theorem Node.Typed.children {op : GroupOp} {children : List Node}
    (h : (Node.group op children).Typed) : ∀ n ∈ children, n.Typed := by
  cases h
  assumption

/-- What typed rows are saved as, both evaluators make the same of. -/
theorem both_toCondition (hctx : TypedContext ctx) (n : Node) (htyped : n.Typed) :
    ∀ c, n.toCondition = some c → ∃ b, Both J ctx c b := by
  refine Node.toCondition.induct
    (fun n => n.Typed → ∀ c, n.toCondition = some c → ∃ b, Both J ctx c b)
    (fun ns => (∀ n ∈ ns, n.Typed) → ∃ bs, BothAll J ctx (partsOf ns) bs)
    ?rule ?group ?nil ?cons n htyped
  case rule =>
    intro r h c hc
    cases hc
    exact both_row J hctx h.row
  case group =>
    intro op children ih h c hc
    exact both_joinParts J op (ih h.children) c hc
  case nil => exact fun _ => ⟨[], rfl, rfl⟩
  case cons =>
    intro n ns ihn ihns h
    obtain ⟨bs, hclient, hserver⟩ := ihns fun m hm => h m (List.mem_cons_of_mem _ hm)
    cases hc : n.toCondition with
    | none =>
      rw [partsOf, hc]
      exact ⟨bs, hclient, hserver⟩
    | some c =>
      obtain ⟨b, hb, hb'⟩ := ihn (h n List.mem_cons_self) c hc
      rw [partsOf, hc, Option.toList_some, List.singleton_append]
      refine ⟨b :: bs, ?_, ?_⟩
      · rw [evalNodes, hb, hclient]
        rfl
      · rw [evalItems, hb', hserver]
        rfl

theorem evaluateCondition_agrees (hctx : TypedContext ctx) {g : RuleGroup} (h : g.node.Typed)
    {c : Value} (hc : groupToCondition g = some c) :
    evaluateCondition J c ctx = TriagePolicy.evaluateCondition c ctx := by
  rw [groupToCondition_eq] at hc
  obtain ⟨b, hb, hb'⟩ := both_toCondition J hctx g.node h c hc
  unfold evaluateCondition TriagePolicy.evaluateCondition
  rw [hb, hb']
  rfl

end

/-! ## The guard's own context -/

section

variable {g : GuardInput} {cls : AuthzClass} {comps : Option AuthorizationComponents}

theorem lookup_verdict : lookup (conditionContext g cls comps) "verdict" = .str g.verdictDecision :=
  rfl

theorem lookup_ioc :
    lookup (conditionContext g cls comps) "enrichment.ioc" = .bool g.maliciousSignal := rfl

theorem lookup_authzClass :
    lookup (conditionContext g cls comps) "authz.class" = .str cls.value := rfl

theorem lookup_dataClassification :
    lookup (conditionContext g cls comps) "asset.data_classification" =
      ((assetDataClassification g.context).map Value.str).getD .none := by
  unfold conditionContext
  generalize assetDataClassification g.context = d
  cases d <;> rfl

theorem typedContext_conditionContext : TypedContext (conditionContext g cls comps) := by
  intro path hpath
  simp only [contractPaths, contract, List.map_cons, List.map_nil, List.mem_cons,
    List.not_mem_nil, or_false] at hpath
  rcases hpath with rfl | rfl | rfl | rfl | rfl | rfl | rfl | rfl | rfl | rfl | rfl | rfl
  · rfl
  · rfl
  · rfl
  · rfl
  · rfl
  · rfl
  · obtain ⟨verdict, context, malicious, classes, rules, confidence, active, intel⟩ := g
    cases confidence <;> rfl
  · rw [lookup_dataClassification]
    cases assetDataClassification g.context <;> rfl
  · unfold conditionContext
    generalize g.context.bind _ = asset
    cases asset with
    | none => rfl
    | some asset =>
      obtain ⟨_, _, _, environment, _⟩ := asset
      cases environment <;> rfl
  · unfold conditionContext
    generalize g.context.bind _ = asset
    cases asset with
    | none => rfl
    | some asset =>
      obtain ⟨_, _, _, _, criticality, _⟩ := asset
      cases criticality <;> rfl
  · rfl
  · rfl

end

/-! ## The preview shows what the guard does -/

section

variable (J : Coercions) {ctx : Dict}

theorem toText_target (t : GuardrailTarget) :
    ((Value.str t.value).orElse (.str "")).toText = t.value := by
  cases t <;> rfl

theorem prefixOf_of_length_le {n : ℕ} {s : String} (h : s.length ≤ n) : prefixOf n s = s := by
  have hlength : s.toList.length ≤ n := by
    rw [String.length_toList]
    exact h
  rw [prefixOf, List.take_of_length_le hlength, String.ofList_toList]

theorem toText_reason (g : Guardrail) :
    prefixOf 512 ((Value.str g.reason).orElse (.str "triage policy guardrail")).toText =
      g.reason := by
  have hlength := g.reason_length
  have hne : g.reason ≠ "" := by
    intro h
    rw [h] at hlength
    simp at hlength
  have htruthy : (Value.str g.reason).truthy = true := by simpa [Value.truthy] using hne
  unfold Value.orElse
  rw [if_pos htruthy]
  exact prefixOf_of_length_le hlength.2

/-- What the guard records of a rule that the preview says fires. -/
def ruleOverride (draft : String) (i : ℕ) (g : Guardrail) : GuardOverride :=
  match g.effect with
  | .override =>
    { guardrail := guardrailName i, fromDecision := draft, toDecision := g.target.value,
      reason := g.reason }
  | .interrupt =>
    { guardrail := guardrailName i, effect := .interrupt, fromDecision := draft,
      toDecision := "human_review", reason := g.reason }

/-- The rule fires on the draft. -/
def ruleFires (ctx : Dict) (draft : String) (g : Guardrail) : Bool :=
  TriagePolicy.evaluateCondition g.condition ctx &&
    (g.effect == .interrupt || !nonRaising g.target.value draft)

theorem fireGuardrail_dump (draft : String) (i : ℕ) (g : Guardrail) :
    fireGuardrail ctx draft i g.dump =
      if ruleFires ctx draft g = true then some (ruleOverride draft i g) else none := by
  have hwhen : Dict.get [("when", g.condition), ("effect", .str g.effect.value),
      ("to", .str g.target.value), ("reason", .str g.reason)] "when" = g.condition := rfl
  have heffect : Dict.get [("when", g.condition), ("effect", .str g.effect.value),
      ("to", .str g.target.value), ("reason", .str g.reason)] "effect" = .str g.effect.value := rfl
  have htarget : Dict.get [("when", g.condition), ("effect", .str g.effect.value),
      ("to", .str g.target.value), ("reason", .str g.reason)] "to" = .str g.target.value := rfl
  have hreason : Dict.get [("when", g.condition), ("effect", .str g.effect.value),
      ("to", .str g.target.value), ("reason", .str g.reason)] "reason" = .str g.reason := rfl
  have hoverride : (Value.str Effect.override.value).eq (.str "override") = true := rfl
  have hnot : (Value.str Effect.interrupt.value).eq (.str "override") = false := rfl
  have hinterrupt : (Value.str Effect.interrupt.value).eq (.str "interrupt") = true := rfl
  unfold Guardrail.dump fireGuardrail ruleFires ruleOverride
  dsimp only
  rw [hwhen, heffect, htarget, hreason, toText_target, toText_reason]
  cases TriagePolicy.evaluateCondition g.condition ctx with
  | false => simp
  | true =>
    cases he : g.effect with
    | override =>
      rw [hoverride]
      cases nonRaising g.target.value draft <;> rfl
    | interrupt =>
      rw [hnot, hinterrupt]
      rfl

/-- The outcome of a rule in the preview. -/
def ruleOutcome (draft : String) (i : ℕ) (g : Guardrail) : SimOutcome :=
  match g.effect with
  | .override => ⟨.guardrail i, some .override, g.target.value, false, .rule g.reason⟩
  | .interrupt => ⟨.guardrail i, some .interrupt, draft, true, .rule g.reason⟩

/-- Both find the same first rule. -/
theorem firstRule_agrees (draft : String) {rails : List Guardrail}
    (h : ∀ g ∈ rails, evaluateCondition J g.condition ctx =
      TriagePolicy.evaluateCondition g.condition ctx) :
    ∀ i, (firstRule J ctx draft i rails = none ∧
        firstGuardrail ctx draft i (rails.map Guardrail.dump) = none) ∨
      ∃ j g, firstRule J ctx draft i rails = some (ruleOutcome draft j g) ∧
        firstGuardrail ctx draft i (rails.map Guardrail.dump) = some (ruleOverride draft j g) := by
  induction rails with
  | nil => exact fun _ => .inl ⟨rfl, rfl⟩
  | cons g rails ih =>
    intro i
    have hg := h g List.mem_cons_self
    have hrest := ih (fun g' hg' => h g' (List.mem_cons_of_mem _ hg')) (i + 1)
    have hclient : firstRule J ctx draft i (g :: rails) =
        if ruleFires ctx draft g = true then some (ruleOutcome draft i g)
        else firstRule J ctx draft (i + 1) rails := by
      rw [firstRule, hg]
      unfold ruleFires ruleOutcome
      cases TriagePolicy.evaluateCondition g.condition ctx with
      | false => simp
      | true =>
        cases he : g.effect with
        | override => cases nonRaising g.target.value draft <;> rfl
        | interrupt => rfl
    rw [hclient, List.map_cons, firstGuardrail, fireGuardrail_dump]
    by_cases hfires : ruleFires ctx draft g = true
    · rw [if_pos hfires, if_pos hfires]
      exact .inr ⟨i, g, rfl, rfl⟩
    · rw [if_neg hfires, if_neg hfires]
      exact hrest

theorem ruleOverride_fired (draft : String) (i : ℕ) (g : Guardrail) :
    (ruleOutcome draft i g).fired =
      [((ruleOverride draft i g).guardrail, (ruleOverride draft i g).effect)] := by
  unfold ruleOutcome ruleOverride
  cases g.effect <;> rfl

end

/-! ## Lower case -/

theorem val_toLower (c : Char) :
    c.toLower.val = if c.val ≥ 'A'.val ∧ c.val ≤ 'Z'.val then c.val + 32 else c.val := by
  delta Char.toLower
  by_cases h : c.val ≥ 'A'.val ∧ c.val ≤ 'Z'.val
  · rw [dif_pos h, if_pos h]
    rfl
  · rw [dif_neg h, if_neg h]

theorem toLower_toLower (c : Char) : c.toLower.toLower = c.toLower := by
  apply Char.ext
  rw [val_toLower c.toLower]
  by_cases h : c.val ≥ 'A'.val ∧ c.val ≤ 'Z'.val
  · have hlow : 65 ≤ c.val.toNat := UInt32.le_iff_toNat_le.mp h.1
    have hhigh : c.val.toNat ≤ 90 := UInt32.le_iff_toNat_le.mp h.2
    have hval : c.toLower.val.toNat = c.val.toNat + 32 := by
      have h32 : (32 : UInt32).toNat = 32 := rfl
      rw [val_toLower, if_pos h, UInt32.toNat_add]
      omega
    have hnot : ¬(c.toLower.val ≥ 'A'.val ∧ c.toLower.val ≤ 'Z'.val) := by
      intro hin
      have hle : c.toLower.val.toNat ≤ 90 := UInt32.le_iff_toNat_le.mp hin.2
      omega
    rw [if_neg hnot]
  · have hval : c.toLower.val = c.val := by rw [val_toLower, if_neg h]
    rw [hval, if_neg h]

theorem lower_lower (s : String) : lower (lower s) = lower s := by
  unfold lower
  rw [String.toList_ofList, List.map_map]
  have h : Char.toLower ∘ Char.toLower = Char.toLower := by
    funext c
    exact toLower_toLower c
  rw [h]

/-! ## The whole decision -/

section

variable (J : Coercions)

theorem textOr_str (default s : String) : textOr J default (.str s) = s := J.string_str s

theorem value_eq_contradicted {cls : AuthzClass} :
    cls.value = "contradicted" ↔ cls = .contradicted := by
  cases cls <;> decide

/-- The sign-off rule finds the class of the asset among those of the policy. -/
def SignsOff (g : GuardInput) (classes : List String) : Prop :=
  g.verdictDecision = "close" ∧
    ∃ d, assetDataClassification g.context = some d ∧ d ∈ classes.map lower

theorem signoffEdge_of_signsOff {g : GuardInput} {classes : List String}
    (hclasses : g.closeSignoffDataClasses = dumpTexts classes) (h : SignsOff g classes) :
    ∃ o, signoffEdge g = .ok (some o) ∧ o.guardrail = "sensitive_asset_close_signoff" ∧
      o.effect = .interrupt := by
  obtain ⟨hclose, d, hd, hmem⟩ := h
  obtain ⟨c, hc, hcd⟩ := List.mem_map.mp hmem
  have htruthy : g.closeSignoffDataClasses.truthy = true := by
    rw [hclasses]
    cases classes with
    | nil => cases hc
    | cons c cs => rfl
  have hany : ((classes.map Value.str).any fun c => lower c.toText == d) = true := by
    rw [List.any_eq_true]
    refine ⟨.str c, List.mem_map.mpr ⟨c, hc, rfl⟩, ?_⟩
    change (lower c == d) = true
    rw [hcd]
    exact beq_self_eq_true d
  unfold signoffEdge
  rw [if_pos ⟨hclose, htruthy⟩, hd, hclasses]
  change ∃ o, (if ((classes.map Value.str).any fun c => lower c.toText == d) = true then _ else _) =
    Except.ok (some o) ∧ _
  rw [if_pos hany]
  exact ⟨_, rfl, rfl, rfl⟩

theorem signoffEdge_of_not {g : GuardInput} {classes : List String}
    (hclasses : g.closeSignoffDataClasses = dumpTexts classes) (h : ¬SignsOff g classes) :
    signoffEdge g = .ok none := by
  unfold signoffEdge
  by_cases hopen : g.verdictDecision = "close" ∧ g.closeSignoffDataClasses.truthy = true
  · rw [if_pos hopen]
    cases hd : assetDataClassification g.context with
    | none => rfl
    | some d =>
      have hany : ¬((classes.map Value.str).any fun c => lower c.toText == d) = true := by
        intro hany
        rw [List.any_eq_true] at hany
        obtain ⟨v, hv, hvd⟩ := hany
        obtain ⟨c, hc, rfl⟩ := List.mem_map.mp hv
        have hcd : lower c = d := beq_iff_eq.mp hvd
        exact h ⟨hopen.1, d, hd, List.mem_map.mpr ⟨c, hc, hcd⟩⟩
      rw [hclasses]
      change (if ((classes.map Value.str).any fun c => lower c.toText == d) = true then _ else _) =
        Except.ok none
      rw [if_neg hany]
      rfl
  · rw [if_neg hopen]
    rfl

theorem lower_assetDataClassification {context : Option AuthorizationContext} {d : String}
    (h : assetDataClassification context = some d) : lower d = d := by
  unfold assetDataClassification at h
  obtain ⟨c, -, h⟩ := Option.bind_eq_some_iff.mp h
  by_cases htrack : c.activity.track ≠ .account
  · rw [if_pos htrack] at h
    change none = some d at h
    cases h
  rw [if_neg htrack] at h
  obtain ⟨host, -, h⟩ := Option.bind_eq_some_iff.mp h
  by_cases hempty : host = ""
  · rw [if_pos hempty] at h
    change none = some d at h
    cases h
  rw [if_neg hempty] at h
  obtain ⟨asset, -, h⟩ := Option.bind_eq_some_iff.mp h
  obtain ⟨raw, -, h⟩ := Option.bind_eq_some_iff.mp h
  cases h
  exact lower_lower raw

/-- An outcome that only overrides does not wait for a human, unless intelligence was missing. -/
theorem not_interrupted {g : GuardInput} {r : GuardResult} (h : evaluateGuard g = .ok r)
    (hintel : g.intelUnavailable = false) (hover : ∀ o ∈ r.overrides, o.effect = .override) :
    r.interrupted = false := by
  unfold evaluateGuard at h
  obtain ⟨⟨cls, comps⟩, -, h⟩ := (bind_eq_ok _ _ _).mp h
  cases hedge : codeEdge g cls with
  | some o =>
    simp only [hedge] at h
    obtain rfl := (pure_eq_ok _ _).mp h
    rfl
  | none =>
    simp only [hedge] at h
    obtain ⟨rules, -, h⟩ := (bind_eq_ok _ _ _).mp h
    cases hfire : firstGuardrail (conditionContext g cls comps) g.verdictDecision 0 rules with
    | some o =>
      simp only [hfire] at h
      cases heffect : o.effect with
      | override =>
        rw [heffect, if_pos rfl] at h
        obtain rfl := (pure_eq_ok _ _).mp h
        simp [hintel]
      | interrupt =>
        rw [heffect, if_neg (by simp)] at h
        obtain rfl := (pure_eq_ok _ _).mp h
        have hcontra := hover o (by simp)
        rw [heffect] at hcontra
        cases hcontra
    | none =>
      simp only [hfire] at h
      obtain ⟨signoff, hsign, h⟩ := (bind_eq_ok _ _ _).mp h
      cases signoff with
      | some o =>
        obtain rfl := (pure_eq_ok _ _).mp h
        have hcontra := hover o (by simp)
        rw [signoffEdge_effect hsign] at hcontra
        cases hcontra
      | none =>
        obtain rfl := (pure_eq_ok _ _).mp h
        simp [hintel]

/-! ## Sessions keep the rows typed -/

theorem not_boolean_of_number {path : String} (h : hasType path .number = true) :
    ¬isBoolean path = true := by
  intro hb
  unfold isBoolean hasType at hb
  unfold hasType at h
  cases hf : contractField path with
  | none =>
    rw [hf] at h
    cases h
  | some f =>
    rw [hf] at h hb
    have hnumber : f.type = .number := by simpa using h
    have hboolean : f.type = .boolean := by simpa using hb
    rw [hnumber] at hboolean
    cases hboolean

theorem eq_mem_opsFor (path : String) : "==" ∈ opsFor path := by
  unfold opsFor
  cases contractField path with
  | none => exact List.mem_cons_self
  | some f =>
    dsimp only
    cases f.type <;> exact List.mem_cons_self

theorem typed_onFieldChange {r : RuleRow} (h : r.field ∈ contractPaths) :
    (onFieldChange r).Typed := by
  refine ⟨h, ?_, ?_⟩
  · change (if r.op ∈ opsFor r.field then r.op else "==") ∈ opsFor r.field
    split_ifs with hop
    · exact hop
    · exact eq_mem_opsFor r.field
  · have hvalue : (onFieldChange r).value =
        if isBoolean r.field then .bool true
        else if hasType r.field .number then .float (.fin (1 / 2))
        else if (onFieldChange r).op = "in" then .list [] else firstValue r.field := rfl
    have hfield : (onFieldChange r).field = r.field := rfl
    rw [hvalue, hfield]
    unfold typedValue
    split_ifs <;> rfl

theorem isText_headOr (path : String) {xs : List Value} (h : xs.all isText = true) :
    isText (headOr path xs) = true := by
  unfold headOr
  split
  · rfl
  · exact List.all_eq_true.mp h _ List.mem_cons_self
  · rfl

theorem typedValue_of_text {path op : String} (hboolean : ¬isBoolean path = true)
    (hnumber : ¬hasType path .number = true) (v : Value) :
    typedValue path op v = if op = "in" then isTexts v else isText v := by
  unfold typedValue
  rw [if_neg hboolean, if_neg hnumber]

/-- A text field's operand is a text or a list of texts, whatever the operator. -/
theorem typed_onOpChange {r : RuleRow} (hfield : r.field ∈ contractPaths)
    (hop : r.op ∈ opsFor r.field) (hboolean : ¬isBoolean r.field = true)
    (hvalue : if hasType r.field .number then isNumber r.value = true
      else isText r.value = true ∨ isTexts r.value = true) : (onOpChange r).Typed := by
  by_cases hnumber : hasType r.field .number = true
  · rw [if_pos hnumber] at hvalue
    have hin : r.op ≠ "in" := fun h => in_not_mem_opsFor hnumber (h ▸ hop)
    have hsame : onOpChange r = r := by
      unfold onOpChange
      rw [if_neg hin]
      split
      · rename_i xs hxs
        rw [hxs] at hvalue
        cases hvalue
      · rfl
    rw [hsame]
    refine ⟨hfield, hop, ?_⟩
    unfold typedValue
    rw [if_neg hboolean, if_pos hnumber]
    exact hvalue
  · rw [if_neg hnumber] at hvalue
    have htyped : ∀ s : RuleRow, s.field = r.field → s.op = r.op →
        (if r.op = "in" then isTexts s.value else isText s.value) = true → s.Typed := by
      intro s hs hsop hsvalue
      refine ⟨hs ▸ hfield, hs ▸ hsop ▸ hop, ?_⟩
      rw [hs, hsop, typedValue_of_text hboolean hnumber]
      exact hsvalue
    unfold onOpChange
    by_cases hin : r.op = "in"
    · rw [if_pos hin]
      split
      · rename_i xs hxs
        refine htyped r rfl rfl ?_
        rw [if_pos hin]
        rcases hvalue with htext | htexts
        · rw [hxs] at htext
          cases htext
        · exact htexts
      · exact htyped _ rfl rfl (by rw [if_pos hin]; rfl)
      · exact htyped _ rfl rfl (by rw [if_pos hin]; rfl)
      · rename_i hlist _ _
        refine htyped _ rfl rfl ?_
        rw [if_pos hin]
        rcases hvalue with htext | htexts
        · simp [isTexts, htext]
        · obtain ⟨xs, hxs⟩ := isTexts_iff.mp htexts
          exact absurd hxs (hlist _)
    · rw [if_neg hin]
      split
      · rename_i xs hxs
        refine htyped _ rfl rfl ?_
        rw [if_neg hin]
        rcases hvalue with htext | htexts
        · rw [hxs] at htext
          cases htext
        · rw [hxs] at htexts
          exact isText_headOr r.field htexts
      · rename_i hlist
        refine htyped r rfl rfl ?_
        rw [if_neg hin]
        rcases hvalue with htext | htexts
        · exact htext
        · obtain ⟨xs, hxs⟩ := isTexts_iff.mp htexts
          exact absurd hxs (hlist _)

section Edits

variable (trim : String → String) (number : String → FloatVal)

theorem RuleRow.Typed.edit {r : RuleRow} (h : r.Typed) {e : RowEdit} (ho : r.Offers e) :
    (r.edit trim number e).Typed := by
  have hvalue := h.value
  cases e with
  | field path => exact typed_onFieldChange ho
  | op op =>
    have hboolean : ¬isBoolean r.field = true := by simp [ho.1]
    refine typed_onOpChange h.field ho.2 hboolean ?_
    unfold typedValue at hvalue
    rw [if_neg hboolean] at hvalue
    change if hasType r.field .number = true then isNumber r.value = true else _
    split_ifs with hnumber
    · rwa [if_pos hnumber] at hvalue
    · rw [if_neg hnumber] at hvalue
      split_ifs at hvalue
      · exact .inr hvalue
      · exact .inl hvalue
  | list text =>
    have hboolean : ¬isBoolean r.field = true := by simp [ho.1]
    have hnumber : ¬hasType r.field .number = true :=
      fun hn => in_not_mem_opsFor hn (ho.2 ▸ h.op)
    refine ⟨h.field, h.op, ?_⟩
    change typedValue r.field r.op _ = true
    rw [typedValue_of_text hboolean hnumber, if_pos ho.2]
    exact isTexts_iff.mpr ⟨_, rfl⟩
  | number text =>
    have hfloat : ∀ x, (RuleRow.mk r.field r.op (.float x)).Typed := by
      intro x
      refine ⟨h.field, h.op, ?_⟩
      change typedValue r.field r.op _ = true
      unfold typedValue
      rw [if_neg (not_boolean_of_number ho.2), if_pos ho.2]
      rfl
    simp only [RuleRow.edit]
    split
    · exact hfloat _
    · exact hfloat _
  | scalar text =>
    have hboolean : ¬isBoolean r.field = true := by simp [ho.1]
    have hnumber : ¬hasType r.field .number = true := by simp [ho.2.2]
    refine ⟨h.field, h.op, ?_⟩
    change typedValue r.field r.op _ = true
    rw [typedValue_of_text hboolean hnumber, if_neg ho.2.1]
    rfl
  | bool text =>
    refine ⟨h.field, h.op, ?_⟩
    have hboolean : isBoolean r.field = true := ho
    change typedValue r.field r.op _ = true
    unfold typedValue
    rw [if_pos hboolean]
    rfl

theorem typed_emptyRule : emptyRule.Typed := ⟨by decide, by decide, by decide⟩

theorem RuleGroup.typed_edit {g : RuleGroup} {e : Edit} {depth : ℕ} (h : g.node.Typed)
    (ho : g.Offers depth e) : (g.edit trim number e).node.Typed := by
  induction e generalizing g depth with
  | op op => exact .group h.children
  | addRule =>
    refine .group fun n hn => ?_
    rcases List.mem_append.mp hn with hn | hn
    · exact h.children n hn
    · rw [List.mem_singleton.mp hn]
      exact .rule typed_emptyRule
  | addGroup =>
    refine .group fun n hn => ?_
    rcases List.mem_append.mp hn with hn | hn
    · exact h.children n hn
    · rw [List.mem_singleton.mp hn]
      refine .group fun m hm => ?_
      rw [List.mem_singleton.mp hm]
      exact .rule typed_emptyRule
  | remove i => exact .group fun n hn => h.children n (List.mem_of_mem_eraseIdx hn)
  | rule i e =>
    obtain ⟨r, hr, hoffers⟩ := ho
    refine .group fun n hn => ?_
    rcases mem_modify hn with hn | ⟨m, hm, rfl⟩
    · exact h.children n hn
    · rw [hr] at hm
      cases hm
      have hrow : (Node.rule r).Typed := h.children _ (List.mem_of_getElem? hr)
      exact .rule (hrow.row.edit trim number hoffers)
  | inside i e ih =>
    obtain ⟨op, children, hgroup, hoffers⟩ := ho
    refine .group fun n hn => ?_
    rcases mem_modify hn with hn | ⟨m, hm, rfl⟩
    · exact h.children n hn
    · rw [hgroup] at hm
      cases hm
      have hinner : (RuleGroup.mk op children).node.Typed :=
        h.children _ (List.mem_of_getElem? hgroup)
      exact ih hinner hoffers

theorem typed_of_session {g₀ g : RuleGroup} (h : g₀.node.Typed)
    (hrun : Transition.Run (RuleGroup.edit trim number) (RuleGroup.Offers 0) g₀ g) :
    g.node.Typed := by
  have hstep : ∀ (s : RuleGroup) (e : Edit), s.node.Typed → s.Offers 0 e →
      (s.edit trim number e).node.Typed := fun _ _ hs ho => RuleGroup.typed_edit trim number hs ho
  exact hrun.inv hstep h

end Edits

/-! ## What is shown is what is decided -/

/-- The preview and the guard come to the same. -/
structure Shows (o : SimOutcome) (g : GuardInput) (r : GuardResult) : Prop where
  final : o.finalDecision = r.finalDecision
  fired : o.fired = r.overrides.map fun p => (p.guardrail, p.effect)
  /-- The preview knows nothing of intelligence that was missing. -/
  held : g.intelUnavailable = false → o.heldForReview = r.interrupted

/-- A definition as the editor makes it: each guardrail is saved after a session begun with typed rows,
such as the new one's, and no class is empty. -/
structure Built (trim : String → String) (number : String → FloatVal) (rails : List Guardrail)
    (classes : List String) : Prop where
  rows : ∀ rail ∈ rails, ∃ g₀ g : RuleGroup, g₀.node.Typed ∧
    Transition.Run (RuleGroup.edit trim number) (RuleGroup.Offers 0) g₀ g ∧
    groupToCondition g = some rail.condition
  classes_ne : ∀ c ∈ classes, c ≠ ""

theorem lower_ne {c : String} (h : c ≠ "") : lower c ≠ "" := by
  intro hlower
  have hnil : c.toList.map Char.toLower = [] := by
    rw [← String.toList_ofList (l := c.toList.map Char.toLower)]
    change (lower c).toList = []
    rw [hlower]
    rfl
  have hc : c.toList = [] := List.map_eq_nil_iff.mp hnil
  exact h (String.toList_injective hc)

theorem simulateGuard_rules {g : GuardInput} {cls : AuthzClass}
    {comps : Option AuthorizationComponents} (rails : List Guardrail) {classes : List String}
    (hedge : codeEdge g cls = none) (hclasses : ∀ c ∈ classes, c ≠ "") :
    (∀ o, firstRule J (conditionContext g cls comps) g.verdictDecision 0 rails = some o →
        simulateGuard J rails classes (conditionContext g cls comps) = o) ∧
      (firstRule J (conditionContext g cls comps) g.verdictDecision 0 rails = none →
        (SignsOff g classes → ∃ d, simulateGuard J rails classes (conditionContext g cls comps) =
          ⟨.signoff, some .interrupt, g.verdictDecision, true, .signoff d⟩) ∧
        (¬SignsOff g classes → simulateGuard J rails classes (conditionContext g cls comps) =
          ⟨.commit, none, g.verdictDecision, false, .commit⟩)) := by
  have hioc : ¬(g.verdictDecision = "close" ∧ g.maliciousSignal = true) := by
    intro h
    unfold codeEdge at hedge
    rw [if_pos h] at hedge
    cases hedge
  have hauthz : ¬(g.verdictDecision = "close" ∧ cls.value = "contradicted") := by
    rw [value_eq_contradicted]
    intro h
    unfold codeEdge at hedge
    rw [if_neg hioc, if_pos h] at hedge
    cases hedge
  have hsim : simulateGuard J rails classes (conditionContext g cls comps) =
      (firstRule J (conditionContext g cls comps) g.verdictDecision 0 rails).getD
        (if g.verdictDecision = "close" ∧
            lower (textOr J "" (lookup (conditionContext g cls comps)
              "asset.data_classification")) ≠ "" ∧
            lower (textOr J "" (lookup (conditionContext g cls comps)
              "asset.data_classification")) ∈ classes.map lower then
          ⟨.signoff, some .interrupt, g.verdictDecision, true, .signoff (lower (textOr J ""
            (lookup (conditionContext g cls comps) "asset.data_classification")))⟩
        else ⟨.commit, none, g.verdictDecision, false, .commit⟩) := by
    unfold simulateGuard
    rw [lookup_verdict, lookup_ioc, lookup_authzClass, textOr_str, textOr_str]
    dsimp only
    have hioc' : ¬(g.verdictDecision = "close" ∧ toBoolean (.bool g.maliciousSignal) = true) := hioc
    rw [if_neg hioc', if_neg hauthz]
    cases firstRule J (conditionContext g cls comps) g.verdictDecision 0 rails <;> rfl
  have hsigns : SignsOff g classes ↔ g.verdictDecision = "close" ∧
      lower (textOr J "" (lookup (conditionContext g cls comps)
        "asset.data_classification")) ≠ "" ∧
      lower (textOr J "" (lookup (conditionContext g cls comps)
        "asset.data_classification")) ∈ classes.map lower := by
    have hne : "" ∉ classes.map lower := by
      intro h
      obtain ⟨c, hc, hcd⟩ := List.mem_map.mp h
      exact lower_ne (hclasses c hc) hcd
    rw [lookup_dataClassification]
    unfold SignsOff
    cases hd : assetDataClassification g.context with
    | none =>
      have hempty : lower (textOr J "" (((none : Option String).map Value.str).getD .none)) = "" := rfl
      rw [hempty]
      simp
    | some d =>
      have htext : lower (textOr J "" (((some d).map Value.str).getD .none)) = d := by
        change lower (textOr J "" (.str d)) = d
        rw [textOr_str, lower_assetDataClassification hd]
      rw [htext]
      constructor
      · rintro ⟨hclose, e, he, hmem⟩
        cases he
        have hdne : d ≠ "" := fun hd => hne (hd ▸ hmem)
        exact ⟨hclose, hdne, hmem⟩
      · exact fun h => ⟨h.1, d, rfl, h.2.2⟩
  rw [hsim]
  refine ⟨?_, ?_⟩
  · intro o ho
    rw [ho]
    rfl
  · intro hnone
    rw [hnone]
    constructor
    · intro h
      exact ⟨_, if_pos (hsigns.mp h)⟩
    · intro h
      exact if_neg fun h' => h (hsigns.mpr h')

theorem simulateGuard_floor {g : GuardInput} {cls : AuthzClass}
    (comps : Option AuthorizationComponents) (rails : List Guardrail) (classes : List String)
    {o : GuardOverride} (hedge : codeEdge g cls = some o) :
    ∃ reason, simulateGuard J rails classes (conditionContext g cls comps) =
        ⟨.floor, none, "escalate", false, reason⟩ ∧
      (SimOutcome.mk .floor none "escalate" false reason).fired = [(o.guardrail, o.effect)] := by
  unfold codeEdge at hedge
  unfold simulateGuard
  rw [lookup_verdict, lookup_ioc, lookup_authzClass, textOr_str, textOr_str]
  dsimp only
  have htoBoolean : toBoolean (.bool g.maliciousSignal) = g.maliciousSignal := rfl
  rw [htoBoolean]
  split_ifs at hedge with hioc hauthz
  · cases hedge
    rw [if_pos hioc]
    exact ⟨.iocFloor, rfl, rfl⟩
  · cases hedge
    have hvalue : g.verdictDecision = "close" ∧ cls.value = "contradicted" :=
      ⟨hauthz.1, value_eq_contradicted.mpr hauthz.2⟩
    rw [if_neg hioc, if_pos hvalue]
    exact ⟨.authzFloor, rfl, rfl⟩

theorem ruleOutcome_of_override {draft : String} {j : ℕ} {rail : Guardrail}
    (h : (ruleOverride draft j rail).effect = .override) :
    (ruleOutcome draft j rail).finalDecision = (ruleOverride draft j rail).toDecision ∧
      (ruleOutcome draft j rail).heldForReview = false := by
  unfold ruleOverride at h ⊢
  unfold ruleOutcome
  cases he : rail.effect with
  | override => exact ⟨rfl, rfl⟩
  | interrupt =>
    rw [he] at h
    cases h

theorem ruleOutcome_of_interrupt {draft : String} {j : ℕ} {rail : Guardrail}
    (h : (ruleOverride draft j rail).effect = .interrupt) :
    (ruleOutcome draft j rail).finalDecision = draft ∧
      (ruleOutcome draft j rail).heldForReview = true := by
  unfold ruleOverride at h
  unfold ruleOutcome
  cases he : rail.effect with
  | override =>
    rw [he] at h
    cases h
  | interrupt => exact ⟨rfl, rfl⟩

/-- What the editor's preview shows on the guard's own context is what the guard decides: the same
decision, by the same guardrail with the same effect, and held for a human alike. -/
theorem preview_agrees {g : GuardInput} {rails : List Guardrail} {classes : List String}
    (hrails : g.guardrails = .list (rails.map Guardrail.dump))
    (hclasses : g.closeSignoffDataClasses = dumpTexts classes) {trim : String → String}
    {number : String → FloatVal} (hbuilt : Built trim number rails classes) {r : GuardResult}
    (h : evaluateGuard g = .ok r) :
    Shows (simulateGuard J rails classes r.conditionCtx) g r := by
  obtain ⟨comps, -, hctx, hruling⟩ := evaluateGuard_ruling h
  have hagree : ∀ rail ∈ rails,
      evaluateCondition J rail.condition (conditionContext g r.authzClass comps) =
        TriagePolicy.evaluateCondition rail.condition (conditionContext g r.authzClass comps) := by
    intro rail hrail
    obtain ⟨g₀, grp, htyped, hrun, hcondition⟩ := hbuilt.rows rail hrail
    have hrows := typed_of_session trim number htyped hrun
    exact evaluateCondition_agrees J typedContext_conditionContext hrows hcondition
  have hfirst := firstRule_agrees J g.verdictDecision hagree 0
  have hiter : ∀ rules, g.guardrails.iter = .ok rules → rules = rails.map Guardrail.dump := by
    intro rules hrules
    rw [hrails] at hrules
    exact (Except.ok.inj hrules).symm
  rw [hctx] at hruling ⊢
  cases hruling with
  | edge o hedge hover hfinal =>
    obtain ⟨reason, hsim, hfired⟩ := simulateGuard_floor J comps rails classes hedge
    rw [hsim]
    refine ⟨hfinal.symm, by rw [hover]; exact hfired, fun hintel => ?_⟩
    have hheld := not_interrupted h hintel fun p hp => by
      rw [hover, List.mem_singleton] at hp
      rw [hp]
      exact codeEdge_effect hedge
    exact hheld.symm
  | override rules o hedge hrules hfire heffect hover hfinal =>
    rw [hiter rules hrules] at hfire
    rcases hfirst with ⟨-, hnone⟩ | ⟨j, rail, hrule, hsome⟩
    · rw [hfire] at hnone
      cases hnone
    rw [hfire] at hsome
    obtain rfl := Option.some.inj hsome
    rw [(simulateGuard_rules J rails hedge hbuilt.classes_ne).1 _ hrule]
    obtain ⟨hdecision, hnot⟩ := ruleOutcome_of_override heffect
    refine ⟨by rw [hdecision, hfinal], ?_, fun hintel => ?_⟩
    · rw [hover]
      exact ruleOverride_fired g.verdictDecision j rail
    · have hheld := not_interrupted h hintel fun p hp => by
        rw [hover, List.mem_singleton] at hp
        rw [hp]
        exact heffect
      rw [hnot, hheld]
  | interrupt rules o hedge hrules hfire heffect hover hfinal hheld =>
    rw [hiter rules hrules] at hfire
    rcases hfirst with ⟨-, hnone⟩ | ⟨j, rail, hrule, hsome⟩
    · rw [hfire] at hnone
      cases hnone
    rw [hfire] at hsome
    obtain rfl := Option.some.inj hsome
    rw [(simulateGuard_rules J rails hedge hbuilt.classes_ne).1 _ hrule]
    obtain ⟨hdecision, hwaits⟩ := ruleOutcome_of_interrupt heffect
    refine ⟨by rw [hdecision, hfinal], ?_, fun _ => by rw [hwaits, hheld]⟩
    rw [hover]
    exact ruleOverride_fired g.verdictDecision j rail
  | signoff rules o hedge hrules hfire hsign hover hfinal hheld =>
    rw [hiter rules hrules] at hfire
    rcases hfirst with ⟨hnone, -⟩ | ⟨j, rail, -, hsome⟩
    · have hsigns : SignsOff g classes := by
        by_contra hnot
        rw [signoffEdge_of_not hclasses hnot] at hsign
        cases hsign
      obtain ⟨d, hsim⟩ := ((simulateGuard_rules J rails hedge hbuilt.classes_ne).2 hnone).1 hsigns
      obtain ⟨o', ho', hname, heffect⟩ := signoffEdge_of_signsOff hclasses hsigns
      rw [hsign] at ho'
      obtain rfl := Option.some.inj (Except.ok.inj ho')
      rw [hsim]
      refine ⟨hfinal.symm, ?_, fun _ => hheld.symm⟩
      rw [hover, List.map_singleton, hname, heffect]
      rfl
    · rw [hfire] at hsome
      cases hsome
  | pass rules hedge hrules hfire hsign hover hfinal hheld =>
    rw [hiter rules hrules] at hfire
    rcases hfirst with ⟨hnone, -⟩ | ⟨j, rail, -, hsome⟩
    · have hnot : ¬SignsOff g classes := by
        intro hsigns
        obtain ⟨o, ho, -, -⟩ := signoffEdge_of_signsOff hclasses hsigns
        rw [hsign] at ho
        cases ho
      rw [((simulateGuard_rules J rails hedge hbuilt.classes_ne).2 hnone).2 hnot]
      refine ⟨hfinal.symm, by rw [hover]; rfl, fun hintel => ?_⟩
      rw [hheld, hintel]
      simp
    · rw [hfire] at hsome
      cases hsome

end

/-- Texts as they are; no other operand occurs in rows of texts. -/
def textCoercions : Coercions := ⟨fun _ _ _ => false, Value.toText, fun _ => rfl⟩

/-- The new guardrail as the editor first shows it. -/
def escalateClose : Guardrail where
  condition := emptyRule.toCondition
  effect := .override
  target := .escalate
  reason := "closes go to a human"
  reason_length := by decide
  condition_valid := by decide
  legal := by decide

def draftedClose : GuardInput where
  verdictDecision := "close"
  context := none
  maliciousSignal := false
  closeSignoffDataClasses := dumpTexts ["pci"]
  guardrails := .list [escalateClose.dump]

theorem typed_newGuardrail : newGuardrail.node.Typed := by
  refine .group fun n hn => ?_
  rw [List.mem_singleton.mp hn]
  exact .rule typed_emptyRule

/-- The drafted close is raised, in the preview as in the guard. -/
theorem preview_agrees_close : ∃ r, evaluateGuard draftedClose = .ok r ∧
    Shows (simulateGuard textCoercions [escalateClose] ["pci"] r.conditionCtx) draftedClose r := by
  have hbuilt : Built strip (fun _ => .nan) [escalateClose] ["pci"] := by
    constructor
    · intro rail hrail
      rw [List.mem_singleton.mp hrail]
      exact ⟨newGuardrail, newGuardrail, typed_newGuardrail, Transition.Run.refl, rfl⟩
    · decide
  exact ⟨_, rfl, preview_agrees textCoercions rfl rfl hbuilt rfl⟩

end SocTalk.TriagePolicy.Client
