import SocTalk.Lib.Transition
import SocTalk.TriagePolicy.Preflight

/-! The visual builder of guardrail conditions: groups of rows, the condition that a group is saved
as, the group that a condition is opened as, and the edits in between. -/
namespace SocTalk.TriagePolicy.Client
open Py

/-! ## Groups and rows -/

structure RuleRow where
  field : String
  op : String
  value : Value

inductive GroupOp where
  | and
  | or
  deriving DecidableEq

def GroupOp.key : GroupOp → String
  | .and => "and"
  | .or => "or"

def GroupOp.of? (op : String) : Option GroupOp :=
  if op = "and" then some .and else if op = "or" then some .or else none

/-- A child of a group. -/
inductive Node where
  | rule (r : RuleRow)
  | group (op : GroupOp) (children : List Node)

structure RuleGroup where
  op : GroupOp
  children : List Node

def RuleGroup.node (g : RuleGroup) : Node := .group g.op g.children

def emptyGroup : RuleGroup := ⟨.and, []⟩

def emptyRule : RuleRow := ⟨"verdict", "==", .str "close"⟩

/-! ## Saving -/

def RuleRow.toCondition (r : RuleRow) : Value :=
  .dict [(r.op, .list [.dict [("var", .str r.field)], r.value])]

/-- A group with nothing in it is dropped, a single part stands for its group. -/
def joinParts (op : GroupOp) : List Value → Option Value
  | [] => none
  | [part] => some part
  | parts => some (.dict [(op.key, .list parts)])

mutual

def Node.toCondition : Node → Option Value
  | .rule r => some r.toCondition
  | .group op children => joinParts op (partsOf children)

def partsOf : List Node → List Value
  | [] => []
  | n :: ns => n.toCondition.toList ++ partsOf ns

end

def groupToCondition (g : RuleGroup) : Option Value := joinParts g.op (partsOf g.children)

/-- The condition of a guardrail that is open in the builder. -/
def guardrailWhen (g : RuleGroup) : Value := (groupToCondition g).getD (.dict [])

/-! ## Opening -/

def rowOps : List String := ["==", "!=", "<", "<=", ">", ">=", "in"]

def hasType (path : String) (t : FieldType) : Bool := (contractField path).any (·.type = t)

def isBoolean (path : String) : Bool := hasType path .boolean

def varPath : Value → Option String
  | .dict [("var", .str path)] => some path
  | _ => none

/-- A list of scalars. -/
def isLiteral : Value → Bool
  | .list xs => xs.all isScalar
  | _ => false

def parseRule (op : String) : List Value → Option RuleRow
  | [lhs, rhs] => do
    let field ← varPath lhs
    guard (field ∈ contractPaths)
    -- The control of a boolean hides its operator.
    guard (¬(isBoolean field = true ∧ op ≠ "=="))
    guard ((if op = "in" then isLiteral rhs else isScalar rhs) = true)
    return ⟨field, op, rhs⟩
  | _ => none

mutual

/-- None where the condition is valid but not representable. -/
def parseNode : Value → Option Node
  | .dict [(op, .list args)] =>
    match GroupOp.of? op with
    | some g => if args.isEmpty then none else (parseNodes args).map (.group g)
    | none => if op ∈ rowOps then (parseRule op args).map .rule else none
  | .dict [(op, arg)] =>
    match GroupOp.of? op with
    | some g => (parseNode arg).map fun child => .group g [child]
    | none => none
  | _ => none

def parseNodes : List Value → Option (List Node)
  | [] => some []
  | x :: xs => do
    let n ← parseNode x
    let ns ← parseNodes xs
    return n :: ns

end

def conditionToGroup (node : Value) : Option RuleGroup := do
  match ← parseNode node with
  | .group op children => return ⟨op, children⟩
  | .rule r => return ⟨.and, [.rule r]⟩

/-! ## What a group says -/

def GroupOp.combine : GroupOp → List Bool → Bool
  | .and, bs => bs.all id
  | .or, bs => bs.any id

variable (ctx : Dict)

mutual

/-- All or any of the parts, those with no row in them left out; none where there is no row. A row
whose evaluation raises makes the whole raise. -/
def Node.holds : Node → M (Option Bool)
  | .rule r => do return some (← eval ctx r.toCondition).truthy
  | .group op children => do
    let bs ← holdsAll children
    return if bs.isEmpty then none else some (op.combine bs)

def holdsAll : List Node → M (List Bool)
  | [] => return []
  | n :: ns => do
    let b ← n.holds
    let bs ← holdsAll ns
    return b.toList ++ bs

end

/-! ## Rows as the builder keeps them -/

structure RuleRow.Fits (r : RuleRow) : Prop where
  field : r.field ∈ contractPaths
  op : r.op ∈ rowOps
  boolean : isBoolean r.field = true → r.op = "=="
  value : (if r.op = "in" then isLiteral r.value else isScalar r.value) = true

inductive Node.Fits : Node → Prop
  | rule {r : RuleRow} : r.Fits → Fits (.rule r)
  | group {op : GroupOp} {children : List Node} : (∀ n ∈ children, n.Fits) →
      Fits (.group op children)

theorem Node.Fits.children {op : GroupOp} {children : List Node}
    (h : (Node.group op children).Fits) : ∀ n ∈ children, n.Fits := by
  cases h
  assumption

theorem Node.Fits.row {r : RuleRow} (h : (Node.rule r).Fits) : r.Fits := by
  cases h
  assumption

theorem GroupOp.of?_eq_some_iff {op : String} {g : GroupOp} :
    GroupOp.of? op = some g ↔ op = g.key := by
  unfold GroupOp.of?
  constructor
  · intro h
    split_ifs at h with hand hor
    · cases h
      exact hand
    · cases h
      exact hor
  · intro h
    rw [h]
    cases g <;> rfl

theorem GroupOp.of?_rowOps {op : String} (h : op ∈ rowOps) : GroupOp.of? op = none := by
  unfold GroupOp.of?
  have hand : op ≠ "and" := by
    intro he
    rw [he] at h
    exact absurd h (by decide)
  have hor : op ≠ "or" := by
    intro he
    rw [he] at h
    exact absurd h (by decide)
  rw [if_neg hand, if_neg hor]

theorem GroupOp.key_ne_var (g : GroupOp) : g.key ≠ "var" := by
  cases g <;> decide

theorem rowOps_ne_var {op : String} (h : op ∈ rowOps) : op ≠ "var" := by
  intro he
  rw [he] at h
  exact absurd h (by decide)

theorem varPath_eq_some_iff {v : Value} {path : String} :
    varPath v = some path ↔ v = .dict [("var", .str path)] := by
  constructor
  · intro h
    unfold varPath at h
    split at h
    · cases h
      rfl
    · cases h
  · intro h
    rw [h]
    rfl

theorem parseRule_eq_some_iff {op : String} (hop : op ∈ rowOps) {args : List Value} {r : RuleRow} :
    parseRule op args = some r ↔
      r.Fits ∧ r.op = op ∧ args = [.dict [("var", .str r.field)], r.value] := by
  constructor
  · intro h
    unfold parseRule at h
    split at h
    · rename_i lhs rhs
      obtain ⟨field, hfield, h⟩ := Option.bind_eq_some_iff.mp h
      have hlhs := varPath_eq_some_iff.mp hfield
      rw [guard_bind_eq_some, guard_bind_eq_some, guard_bind_eq_some] at h
      obtain ⟨hpath, hboolean, hvalue, h⟩ := h
      cases h
      have hbool : isBoolean field = true → op = "==" := by
        intro hb
        by_contra hne
        exact hboolean ⟨hb, hne⟩
      exact ⟨⟨hpath, hop, hbool, hvalue⟩, rfl, by rw [hlhs]⟩
    · cases h
  · rintro ⟨hfits, rfl, rfl⟩
    have hboolean : ¬(isBoolean r.field = true ∧ r.op ≠ "==") :=
      fun h => h.2 (hfits.boolean h.1)
    unfold parseRule
    refine Option.bind_eq_some_iff.mpr ⟨r.field, varPath_eq_some_iff.mpr rfl, ?_⟩
    rw [guard_bind_eq_some, guard_bind_eq_some, guard_bind_eq_some]
    exact ⟨hfits.field, hboolean, hfits.value, rfl⟩

theorem parseNode_toCondition {r : RuleRow} (h : r.Fits) :
    parseNode r.toCondition = some (.rule r) := by
  unfold RuleRow.toCondition
  rw [parseNode, GroupOp.of?_rowOps h.op]
  dsimp only
  rw [if_pos h.op, (parseRule_eq_some_iff h.op).mpr ⟨h, rfl, rfl⟩]
  rfl

/-! ## A saved group says what the builder shows -/

section

variable (ctx : Dict)

/-- The operators of rows answer with a boolean. -/
theorem applyOp_row {op : String} (hop : op ∈ rowOps) (a b : Value) :
    ∃ x : M Bool, applyOp op [a, b] = x.map .bool := by
  have horder : ∀ c, compareOp? op = some c → ∃ x : M Bool, applyOp op [a, b] = x.map .bool := by
    intro c hc
    unfold applyOp
    simp only [hc]
    by_cases hmissing : (!a.isSome || !b.isSome) = true
    · exact ⟨.ok false, by rw [if_pos hmissing]; rfl⟩
    · refine ⟨a.compare c b, ?_⟩
      rw [if_neg hmissing]
      cases a.compare c b <;> rfl
  simp only [rowOps, List.mem_cons, List.not_mem_nil, or_false] at hop
  rcases hop with rfl | rfl | rfl | rfl | rfl | rfl | rfl
  · exact ⟨.ok (a.eq b), rfl⟩
  · exact ⟨.ok (!a.eq b), rfl⟩
  · exact horder .lt rfl
  · exact horder .le rfl
  · exact horder .gt rfl
  · exact horder .ge rfl
  · refine ⟨member a b, ?_⟩
    change (member a b >>= fun r => pure (Value.bool r)) = (member a b).map .bool
    cases member a b <;> rfl

theorem eval_row {op : String} (hop : op ∈ rowOps) (x y : Value) :
    ∃ b : M Bool, eval ctx (.dict [(op, .list [x, y])]) = b.map .bool := by
  rw [eval_node ctx (rowOps_ne_var hop)]
  cases hvals : evalItems ctx [x, y] with
  | error e => exact ⟨.error e, rfl⟩
  | ok vals =>
    obtain ⟨a, b, -, -, rfl⟩ := evalItems_pair ctx hvals
    exact applyOp_row hop a b

theorem applyOp_key (g : GroupOp) (bs : List Bool) :
    applyOp g.key (bs.map .bool) = .ok (.bool (g.combine bs)) := by
  have htruthy : (Value.truthy ∘ Value.bool) = id := rfl
  cases g with
  | and =>
    change Except.ok (Value.bool ((bs.map Value.bool).all Value.truthy)) = _
    rw [List.all_map, htruthy]
    rfl
  | or =>
    change Except.ok (Value.bool ((bs.map Value.bool).any Value.truthy)) = _
    rw [List.any_map, htruthy]
    rfl

/-- A condition evaluates to what a node shows. -/
def Says (c : Value) (n : Node) : Prop :=
  ∃ b : M Bool, eval ctx c = b.map .bool ∧ n.holds ctx = b.map some

theorem Says.eval_eq {ctx : Dict} {c c' : Value} {n : Node} (h : Says ctx c n)
    (h' : Says ctx c' n) : eval ctx c = eval ctx c' := by
  obtain ⟨b, hb, hn⟩ := h
  obtain ⟨b', hb', hn'⟩ := h'
  have hsame : b = b' := by
    rw [hn] at hn'
    cases b <;> cases b' <;> simp_all [Except.map]
  rw [hb, hb', hsame]

theorem Says.holds_eq {ctx : Dict} {c : Value} {n n' : Node} (h : Says ctx c n)
    (h' : Says ctx c n') : n.holds ctx = n'.holds ctx := by
  obtain ⟨b, hb, hn⟩ := h
  obtain ⟨b', hb', hn'⟩ := h'
  have hsame : b = b' := by
    rw [hb] at hb'
    cases b <;> cases b' <;> simp_all [Except.map]
  rw [hn, hn', hsame]

theorem says_row {r : RuleRow} (hop : r.op ∈ rowOps) : Says ctx r.toCondition (.rule r) := by
  obtain ⟨b, hb⟩ := eval_row ctx hop (.dict [("var", .str r.field)]) r.value
  refine ⟨b, hb, ?_⟩
  have heval : eval ctx r.toCondition = b.map .bool := hb
  rw [Node.holds, heval]
  cases b <;> rfl

/-- The parts of a list of nodes evaluate to what those with a row in them show. -/
def SaysAll (parts : List Value) (ns : List Node) : Prop :=
  evalItems ctx parts = (holdsAll ctx ns).map (List.map .bool)

theorem SaysAll.length {ctx : Dict} {parts : List Value} {ns : List Node}
    (h : SaysAll ctx parts ns) {bs : List Bool} (hbs : holdsAll ctx ns = .ok bs) :
    bs.length = parts.length := by
  have hvals : evalItems ctx parts = .ok (bs.map .bool) := by
    have heval : evalItems ctx parts = _ := h
    rw [heval, hbs]
    rfl
  have hlength : ∀ (parts : List Value) (vals : List Value), evalItems ctx parts = .ok vals →
      vals.length = parts.length := by
    intro parts
    induction parts with
    | nil =>
      intro vals hv
      cases hv
      rfl
    | cons x xs ih =>
      intro vals hv
      rw [evalItems] at hv
      obtain ⟨v, -, hv⟩ := (bind_eq_ok _ _ _).mp hv
      obtain ⟨rest, hrest, hv⟩ := (bind_eq_ok _ _ _).mp hv
      cases hv
      rw [List.length_cons, List.length_cons, ih rest hrest]
  have := hlength parts _ hvals
  rwa [List.length_map] at this

theorem SaysAll.cons {ctx : Dict} {c : Value} {n : Node} {parts : List Value} {ns : List Node}
    (h : Says ctx c n) (hs : SaysAll ctx parts ns) : SaysAll ctx (c :: parts) (n :: ns) := by
  obtain ⟨b, hb, hn⟩ := h
  have heval : evalItems ctx parts = _ := hs
  unfold SaysAll
  rw [evalItems, holdsAll, hb, hn, heval]
  cases b with
  | error e => rfl
  | ok b => cases holdsAll ctx ns <;> rfl

/-- The node of an operator over the parts says what the group shows. -/
theorem SaysAll.node {ctx : Dict} (g : GroupOp) {parts : List Value} {ns : List Node}
    (h : SaysAll ctx parts ns) (hparts : parts ≠ []) :
    Says ctx (.dict [(g.key, .list parts)]) (.group g ns) := by
  have heval : evalItems ctx parts = _ := h
  refine ⟨(holdsAll ctx ns).map g.combine, ?_, ?_⟩
  · rw [eval_node ctx g.key_ne_var, heval]
    cases holdsAll ctx ns with
    | error e => rfl
    | ok bs => exact applyOp_key g bs
  · rw [Node.holds]
    cases hbs : holdsAll ctx ns with
    | error e => rfl
    | ok bs =>
      have hlength := h.length hbs
      have hne : bs.isEmpty = false := by
        cases bs with
        | nil => exact absurd (List.length_eq_zero_iff.mp hlength.symm) hparts
        | cons b bs => rfl
      change Except.ok (if bs.isEmpty = true then none else some (g.combine bs)) = _
      rw [hne]
      rfl

/-- A group over one part says what the part says. -/
theorem SaysAll.single {ctx : Dict} (g : GroupOp) {part : Value} {ns : List Node}
    (h : SaysAll ctx [part] ns) : Says ctx part (.group g ns) := by
  have heval : evalItems ctx [part] = _ := h
  rw [evalItems, evalItems] at heval
  unfold Says
  rw [Node.holds]
  cases hbs : holdsAll ctx ns with
  | error e =>
    rw [hbs] at heval
    refine ⟨.error e, ?_, rfl⟩
    cases hpart : eval ctx part with
    | error e' =>
      rw [hpart] at heval
      cases heval
      rfl
    | ok v =>
      rw [hpart] at heval
      cases heval
  | ok bs =>
    rw [hbs] at heval
    cases hpart : eval ctx part with
    | error e =>
      rw [hpart] at heval
      cases heval
    | ok v =>
      rw [hpart] at heval
      have hvals : [v] = bs.map .bool := Except.ok.inj heval
      cases bs with
      | nil => cases hvals
      | cons b rest =>
        cases rest with
        | cons b' rest => cases hvals
        | nil =>
          cases hvals
          have hcombine : g.combine [b] = b := by cases g <;> cases b <;> rfl
          refine ⟨.ok b, rfl, ?_⟩
          change Except.ok (some (g.combine [b])) = Except.ok (some b)
          rw [hcombine]

/-- What is saved says what is shown, and nothing is saved where nothing is shown. -/
def Saved (c : Option Value) (n : Node) : Prop :=
  (∀ v, c = some v → Says ctx v n) ∧ (c = none → n.holds ctx = .ok none)

theorem Saved.some {ctx : Dict} {v : Value} {n : Node} (h : Says ctx v n) :
    Saved ctx (some v) n := by
  constructor
  · intro w hw
    rwa [← Option.some.inj hw]
  · intro hnone
    cases hnone

theorem Saved.none {ctx : Dict} {n : Node} (h : n.holds ctx = .ok none) : Saved ctx none n := by
  constructor
  · intro w hw
    cases hw
  · exact fun _ => h

theorem saved_joinParts (g : GroupOp) {parts : List Value} {ns : List Node}
    (h : SaysAll ctx parts ns) : Saved ctx (joinParts g parts) (.group g ns) := by
  have heval : evalItems ctx parts = _ := h
  cases parts with
  | nil =>
    refine Saved.none ?_
    rw [Node.holds]
    cases hbs : holdsAll ctx ns with
    | error e =>
      rw [hbs] at heval
      cases heval
    | ok bs =>
      have hlength := h.length hbs
      rw [List.length_eq_zero_iff.mp hlength]
      rfl
  | cons part rest =>
    cases rest with
    | nil => exact Saved.some (h.single g)
    | cons part' rest => exact Saved.some (h.node g (by simp))

theorem saved_toCondition (n : Node) (hfits : n.Fits) : Saved ctx n.toCondition n := by
  refine Node.toCondition.induct (fun n => n.Fits → Saved ctx n.toCondition n)
    (fun ns => (∀ n ∈ ns, n.Fits) → SaysAll ctx (partsOf ns) ns)
    ?rule ?group ?nil ?cons n hfits
  case rule =>
    intro r h
    exact Saved.some (says_row ctx h.row.op)
  case group =>
    intro op children ih h
    rw [Node.toCondition]
    exact saved_joinParts ctx op (ih h.children)
  case nil => exact fun _ => rfl
  case cons =>
    intro n ns ihn ihns h
    have hn := ihn (h n List.mem_cons_self)
    have hns := ihns fun m hm => h m (List.mem_cons_of_mem _ hm)
    rw [partsOf]
    cases hc : n.toCondition with
    | some c =>
      have hsays : Says ctx c n := hn.1 c hc
      exact SaysAll.cons hsays hns
    | none =>
      have hempty := hn.2 hc
      have heval : evalItems ctx (partsOf ns) = _ := hns
      unfold SaysAll
      rw [Option.toList_none, List.nil_append, heval, holdsAll, hempty]
      cases holdsAll ctx ns <;> rfl

end

/-! ## Opening a condition -/

/-- The second passes the server's walk wherever the first does, higher up or later in it, and counts
no more nodes. -/
def Shrinks (c c' : Value) : Prop :=
  ∀ d d' k k' m, d' ≤ d → k' ≤ k → TriagePolicy.walkValidate stateContract d k c = some m →
    ∃ m' ≤ m, TriagePolicy.walkValidate stateContract d' k' c' = some m'

def ShrinksAll (xs ys : List Value) : Prop :=
  ∀ d d' k k' m, d' ≤ d → k' ≤ k → TriagePolicy.walkItems stateContract d k xs = some m →
    ∃ m' ≤ m, TriagePolicy.walkItems stateContract d' k' ys = some m'

theorem ShrinksAll.cons {x y : Value} {xs ys : List Value} (h : Shrinks x y)
    (hs : ShrinksAll xs ys) : ShrinksAll (x :: xs) (y :: ys) := by
  intro d d' k k' m hd hk hwalk
  simp only [TriagePolicy.walkItems] at hwalk ⊢
  obtain ⟨j, hj, hwalk⟩ := Option.bind_eq_some_iff.mp hwalk
  obtain ⟨j', hle, hj'⟩ := h d d' k k' j hd hk hj
  obtain ⟨m', hm, hm'⟩ := hs d d' j j' m hd hle hwalk
  exact ⟨m', hm, Option.bind_eq_some_iff.mpr ⟨j', hj', hm'⟩⟩

theorem ShrinksAll.nil : ShrinksAll [] [] := by
  intro d d' k k' m _ hk hwalk
  have hm : k = m := by simpa [TriagePolicy.walkItems] using hwalk
  exact ⟨k', by omega, rfl⟩

theorem arityOk_key (g : GroupOp) (n : ℕ) : arityOk g.key n = true := by
  cases g <;> rfl

theorem key_allowed (g : GroupOp) : g.key ∈ allowedOperators := by
  cases g <;> decide

/-- The walk of a node is that of its operands, one deeper and one later. -/
theorem walk_node_iff {op : String} {args : List Value} {d k m : ℕ} :
    TriagePolicy.walkValidate stateContract d k (.dict [(op, .list args)]) = some m ↔
      (k < maxNodes ∧ d ≤ maxDepth ∧ op ∈ allowedOperators ∧ op ≠ "var") ∧
        arityOk op args.length = true ∧
        TriagePolicy.walkItems stateContract (d + 1) (k + 1) args = some m := by
  simp only [TriagePolicy.walkValidate]
  rw [guard_bind_eq_some, guard_bind_eq_some]

theorem ShrinksAll.node {op : String} {xs ys : List Value} (h : ShrinksAll xs ys)
    (harity : arityOk op ys.length = true) :
    Shrinks (.dict [(op, .list xs)]) (.dict [(op, .list ys)]) := by
  intro d d' k k' m hd hk hwalk
  obtain ⟨hguard, -, hitems⟩ := walk_node_iff.mp hwalk
  obtain ⟨m', hm, hm'⟩ := h (d + 1) (d' + 1) (k + 1) (k' + 1) m (by omega) (by omega) hitems
  have hguard' : k' < maxNodes ∧ d' ≤ maxDepth ∧ op ∈ allowedOperators ∧ op ≠ "var" :=
    ⟨by omega, by omega, hguard.2.2⟩
  exact ⟨m', hm, walk_node_iff.mpr ⟨hguard', harity, hm'⟩⟩

/-- An only part stands for its group. -/
theorem ShrinksAll.part {op : String} {x y : Value} (h : ShrinksAll [x] [y]) :
    Shrinks (.dict [(op, .list [x])]) y := by
  intro d d' k k' m hd hk hwalk
  obtain ⟨-, -, hitems⟩ := walk_node_iff.mp hwalk
  obtain ⟨m', hm, hm'⟩ := h (d + 1) d' (k + 1) k' m (by omega) (by omega) hitems
  simp only [TriagePolicy.walkItems] at hm'
  obtain ⟨j, hj, hm'⟩ := Option.bind_eq_some_iff.mp hm'
  have hjm : j = m' := by simpa using hm'
  exact ⟨m', hm, hjm ▸ hj⟩

theorem Shrinks.single {op : String} {x y : Value} (h : Shrinks x y) (hop : op ≠ "var")
    (hlist : ∀ xs, x ≠ .list xs) : Shrinks (.dict [(op, x)]) y := by
  intro d d' k k' m hd hk hwalk
  rw [TriagePolicy.walkValidate] at hwalk
  · rw [guard_bind_eq_some, guard_bind_eq_some] at hwalk
    exact h (d + 1) d' (k + 1) k' m (by omega) (by omega) hwalk.2.2
  · exact fun xs hx => hlist xs hx
  · exact fun f hvar _ => hop hvar

theorem shrinks_field (f : String) :
    Shrinks (.dict [("var", .str f)]) (.dict [("var", .str f)]) := by
  intro d d' k k' m hd hk hwalk
  simp only [TriagePolicy.walkValidate] at hwalk ⊢
  rw [guard_bind_eq_some] at hwalk
  obtain ⟨hguard, hm⟩ := hwalk
  have hm : k + 1 = m := Option.some.inj hm
  refine ⟨k' + 1, by omega, ?_⟩
  rw [guard_bind_eq_some]
  exact ⟨⟨by omega, by omega, hguard.2.2⟩, rfl⟩

theorem shrinks_scalar {v : Value} (h : isScalar v = true) : Shrinks v v := by
  have hwalk : ∀ d k m, TriagePolicy.walkValidate stateContract d k v = some m ↔
      (k < maxNodes ∧ d ≤ maxDepth) ∧ k + 1 = m := by
    intro d k m
    cases v with
    | list xs => cases h
    | dict kvs => cases h
    | _ =>
      simp only [TriagePolicy.walkValidate]
      rw [guard_bind_eq_some]
      simp
  intro d d' k k' m hd hk hm
  obtain ⟨hguard, hm⟩ := (hwalk d k m).mp hm
  exact ⟨k' + 1, by omega, (hwalk d' k' (k' + 1)).mpr ⟨⟨by omega, by omega⟩, rfl⟩⟩

theorem shrinks_literal {v : Value} (h : isLiteral v = true) : Shrinks v v := by
  intro d d' k k' m hd hk hm
  cases v with
  | list xs =>
    simp only [TriagePolicy.walkValidate] at hm ⊢
    rw [guard_bind_eq_some, guard_bind_eq_some] at hm
    obtain ⟨hguard, hlength, hm⟩ := hm
    have hm : k + 1 = m := Option.some.inj hm
    refine ⟨k' + 1, by omega, ?_⟩
    rw [guard_bind_eq_some, guard_bind_eq_some]
    exact ⟨⟨by omega, by omega⟩, hlength, rfl⟩
  | _ => cases h

theorem shrinks_row {r : RuleRow} (h : r.Fits) : Shrinks r.toCondition r.toCondition := by
  have hvalue : Shrinks r.value r.value := by
    have hfits := h.value
    split_ifs at hfits
    · exact shrinks_literal hfits
    · exact shrinks_scalar hfits
  have hitems : ShrinksAll [.dict [("var", .str r.field)], r.value]
      [.dict [("var", .str r.field)], r.value] :=
    ShrinksAll.cons (shrinks_field r.field) (ShrinksAll.cons hvalue ShrinksAll.nil)
  refine hitems.node ?_
  have hop := h.op
  simp only [rowOps, List.mem_cons, List.not_mem_nil, or_false] at hop
  rcases hop with hop | hop | hop | hop | hop | hop | hop <;> rw [hop] <;> rfl

/-- What a condition is opened as. -/
structure Opened (c : Value) (n : Node) : Prop where
  fits : n.Fits
  shown : ∀ ctx, Says ctx c n
  saved : ∃ c', n.toCondition = some c' ∧ Shrinks c c'

structure OpenedAll (xs : List Value) (ns : List Node) : Prop where
  fits : ∀ n ∈ ns, n.Fits
  shown : ∀ ctx, SaysAll ctx xs ns
  length : (partsOf ns).length = xs.length
  shrinks : ShrinksAll xs (partsOf ns)

theorem Opened.row {r : RuleRow} (h : r.Fits) : Opened r.toCondition (.rule r) :=
  ⟨.rule h, fun ctx => says_row ctx h.op, r.toCondition, rfl, shrinks_row h⟩

theorem OpenedAll.nil : OpenedAll [] [] :=
  ⟨by simp, fun _ => rfl, rfl, ShrinksAll.nil⟩

theorem OpenedAll.cons {x : Value} {n : Node} {xs : List Value} {ns : List Node} (h : Opened x n)
    (hs : OpenedAll xs ns) : OpenedAll (x :: xs) (n :: ns) := by
  obtain ⟨c', hc', hshrinks⟩ := h.saved
  have hparts : partsOf (n :: ns) = c' :: partsOf ns := by
    rw [partsOf, hc', Option.toList_some, List.singleton_append]
  refine ⟨?_, fun ctx => SaysAll.cons (h.shown ctx) (hs.shown ctx), ?_, ?_⟩
  · intro m hm
    rcases List.mem_cons.mp hm with rfl | hm
    · exact h.fits
    · exact hs.fits m hm
  · rw [hparts, List.length_cons, List.length_cons, hs.length]
  · rw [hparts]
    exact ShrinksAll.cons hshrinks hs.shrinks

theorem OpenedAll.group {g : GroupOp} {xs : List Value} {ns : List Node} (h : OpenedAll xs ns)
    (hne : xs ≠ []) : Opened (.dict [(g.key, .list xs)]) (.group g ns) := by
  refine ⟨.group h.fits, fun ctx => SaysAll.node g (h.shown ctx) hne, ?_⟩
  rw [Node.toCondition]
  have hlength := h.length
  have hshrinks := h.shrinks
  generalize partsOf ns = parts at hlength hshrinks
  cases parts with
  | nil => exact absurd (List.length_eq_zero_iff.mp hlength.symm) hne
  | cons part rest =>
    cases rest with
    | nil =>
      obtain ⟨x, rfl⟩ := List.length_eq_one_iff.mp hlength.symm
      exact ⟨part, rfl, ShrinksAll.part hshrinks⟩
    | cons part' rest => exact ⟨_, rfl, ShrinksAll.node hshrinks (arityOk_key g _)⟩

theorem Opened.single {g : GroupOp} {x : Value} {n : Node} (h : Opened x n)
    (hlist : ∀ xs, x ≠ .list xs) : Opened (.dict [(g.key, x)]) (.group g [n]) := by
  obtain ⟨c', hc', hshrinks⟩ := h.saved
  have hall : OpenedAll [x] [n] := OpenedAll.cons h OpenedAll.nil
  refine ⟨.group hall.fits, ?_, c', ?_, hshrinks.single g.key_ne_var hlist⟩
  · intro ctx
    -- An operand outside a list is evaluated as a list of it would be.
    have hshown := SaysAll.node g (hall.shown ctx) (by simp)
    have heval : eval ctx (.dict [(g.key, x)]) = eval ctx (.dict [(g.key, .list [x])]) := by
      rw [eval_single ctx g.key_ne_var hlist, eval_node ctx g.key_ne_var, evalItems, evalItems]
      cases eval ctx x <;> rfl
    unfold Says
    rw [heval]
    exact hshown
  · rw [Node.toCondition, partsOf, hc', partsOf]
    rfl

theorem opened_of_parse (c : Value) : ∀ n, parseNode c = some n → Opened c n := by
  refine parseNode.induct (fun c => ∀ n, parseNode c = some n → Opened c n)
    (fun xs => ∀ ns, parseNodes xs = some ns → OpenedAll xs ns)
    ?empty ?group ?row ?other ?single ?lone ?rest ?nil ?cons c
  case empty =>
    intro op args g hg hempty n h
    simp only [parseNode, hg, if_pos hempty] at h
    cases h
  case group =>
    intro op args g hg hempty ih n h
    simp only [parseNode, hg, if_neg hempty] at h
    obtain ⟨ns, hns, rfl⟩ := Option.map_eq_some_iff.mp h
    have hne : args ≠ [] := fun hnil => hempty (by rw [hnil]; rfl)
    rw [GroupOp.of?_eq_some_iff.mp hg]
    exact (ih ns hns).group hne
  case row =>
    intro op args hg hop n h
    simp only [parseNode, hg, if_pos hop] at h
    obtain ⟨r, hr, rfl⟩ := Option.map_eq_some_iff.mp h
    obtain ⟨hfits, rfl, rfl⟩ := (parseRule_eq_some_iff hop).mp hr
    exact Opened.row hfits
  case other =>
    intro op args hg hop n h
    simp only [parseNode, hg, if_neg hop] at h
    cases h
  case single =>
    intro op arg hlist g hg ih n h
    rw [parseNode] at h
    · simp only [hg] at h
      obtain ⟨child, hchild, rfl⟩ := Option.map_eq_some_iff.mp h
      rw [GroupOp.of?_eq_some_iff.mp hg]
      exact (ih child hchild).single hlist
    · exact hlist
  case lone =>
    intro op arg hlist hg n h
    rw [parseNode] at h
    · simp only [hg] at h
      cases h
    · exact hlist
  case rest =>
    intro t hlist hpair n h
    rw [parseNode] at h
    · cases h
    all_goals assumption
  case nil =>
    intro ns h
    cases h
    exact OpenedAll.nil
  case cons =>
    intro x xs ihx ihxs ns h
    simp only [parseNodes] at h
    obtain ⟨n, hn, h⟩ := Option.bind_eq_some_iff.mp h
    obtain ⟨ms, hms, h⟩ := Option.bind_eq_some_iff.mp h
    cases h
    exact OpenedAll.cons (ihx n hn) (ihxs ms hms)

/-! ## Opening what was saved -/

theorem parse_joinParts (g : GroupOp) {parts : List Value} {c : Value}
    (hparts : ∃ ns, parseNodes parts = some ns ∧ partsOf ns = parts)
    (h : joinParts g parts = some c) : ∃ n, parseNode c = some n ∧ n.toCondition = some c := by
  obtain ⟨ns, hns, hsame⟩ := hparts
  cases parts with
  | nil => cases h
  | cons part rest =>
    cases rest with
    | nil =>
      cases h
      simp only [parseNodes] at hns
      obtain ⟨n, hn, hns⟩ := Option.bind_eq_some_iff.mp hns
      cases hns
      rw [partsOf, partsOf, List.append_nil] at hsame
      cases hc : n.toCondition with
      | none =>
        rw [hc] at hsame
        cases hsame
      | some c =>
        rw [hc] at hsame
        cases hsame
        exact ⟨n, hn, hc⟩
    | cons part' rest =>
      cases h
      refine ⟨.group g ns, ?_, ?_⟩
      · rw [parseNode, GroupOp.of?_eq_some_iff.mpr rfl, hns]
        rfl
      · rw [Node.toCondition, hsame]
        rfl

/-- A saved node is opened again, and saved as it was. -/
theorem parse_toCondition (n : Node) (hfits : n.Fits) :
    ∀ c, n.toCondition = some c → ∃ n', parseNode c = some n' ∧ n'.toCondition = some c := by
  refine Node.toCondition.induct
    (fun n => n.Fits → ∀ c, n.toCondition = some c →
      ∃ n', parseNode c = some n' ∧ n'.toCondition = some c)
    (fun ns => (∀ n ∈ ns, n.Fits) →
      ∃ ns', parseNodes (partsOf ns) = some ns' ∧ partsOf ns' = partsOf ns)
    ?rule ?group ?nil ?cons n hfits
  case rule =>
    intro r h c hc
    cases hc
    exact ⟨.rule r, parseNode_toCondition h.row, rfl⟩
  case group =>
    intro op children ih h c hc
    exact parse_joinParts op (ih h.children) hc
  case nil => exact fun _ => ⟨[], rfl, rfl⟩
  case cons =>
    intro n ns ihn ihns h
    obtain ⟨ns', hns', hsame⟩ := ihns fun m hm => h m (List.mem_cons_of_mem _ hm)
    cases hc : n.toCondition with
    | none =>
      rw [partsOf, hc]
      exact ⟨ns', hns', hsame⟩
    | some c =>
      obtain ⟨n', hn', hc'⟩ := ihn (h n List.mem_cons_self) c hc
      rw [partsOf, hc, Option.toList_some, List.singleton_append]
      refine ⟨n' :: ns', ?_, ?_⟩
      · rw [parseNodes, hn', hns']
        rfl
      · rw [partsOf, hc', hsame]
        rfl

theorem Opened.wrap {c : Value} {n : Node} (g : GroupOp) (h : Opened c n) :
    Opened c (.group g [n]) := by
  obtain ⟨c', hc', hshrinks⟩ := h.saved
  have hall : OpenedAll [c] [n] := OpenedAll.cons h OpenedAll.nil
  refine ⟨.group hall.fits, fun ctx => SaysAll.single g (hall.shown ctx), c', ?_, hshrinks⟩
  rw [Node.toCondition, partsOf, hc', partsOf]
  rfl

theorem groupToCondition_eq (g : RuleGroup) : groupToCondition g = g.node.toCondition := by
  rw [RuleGroup.node, Node.toCondition]
  rfl

theorem opened_of_conditionToGroup {c : Value} {g : RuleGroup} (h : conditionToGroup c = some g) :
    Opened c g.node := by
  obtain ⟨n, hn, h⟩ := Option.bind_eq_some_iff.mp h
  have hopened := opened_of_parse c n hn
  cases n with
  | group op children =>
    cases h
    exact hopened
  | rule r =>
    cases h
    exact hopened.wrap .and

/-- A saved group is opened again, and saved as it was. -/
theorem conditionToGroup_groupToCondition {g : RuleGroup} (hfits : g.node.Fits) {c : Value}
    (h : groupToCondition g = some c) :
    ∃ g', conditionToGroup c = some g' ∧ groupToCondition g' = some c := by
  rw [groupToCondition_eq] at h
  obtain ⟨n, hn, hc⟩ := parse_toCondition g.node hfits c h
  cases n with
  | group op children =>
    refine ⟨⟨op, children⟩, Option.bind_eq_some_iff.mpr ⟨_, hn, rfl⟩, ?_⟩
    rw [groupToCondition_eq]
    exact hc
  | rule r =>
    refine ⟨⟨.and, [.rule r]⟩, Option.bind_eq_some_iff.mpr ⟨_, hn, rfl⟩, ?_⟩
    cases hc
    rfl

theorem isDict_of_conditionToGroup {c : Value} {g : RuleGroup} (h : conditionToGroup c = some g) :
    c.isDict = true := by
  obtain ⟨n, hn, -⟩ := Option.bind_eq_some_iff.mp h
  cases c with
  | dict kvs => rfl
  | _ =>
    rw [parseNode] at hn
    · cases hn
    all_goals
      intro op arg harg
      cases harg

/-- A condition that the builder opens is saved, where nothing is edited, as one that evaluates to the
same in every context, raising included; a valid one stays valid; and the builder opens what it saved
and saves it as it is. -/
theorem open_save {c : Value} {g : RuleGroup} (h : conditionToGroup c = some g) :
    ∃ c', groupToCondition g = some c' ∧ (∀ ctx, eval ctx c' = eval ctx c) ∧
      (TriagePolicy.validateCondition c = true → TriagePolicy.validateCondition c' = true) ∧
      ∃ g', conditionToGroup c' = some g' ∧ groupToCondition g' = some c' := by
  have hopened := opened_of_conditionToGroup h
  obtain ⟨c', hc', hshrinks⟩ := hopened.saved
  have hsave : groupToCondition g = some c' := by rw [groupToCondition_eq, hc']
  obtain ⟨g', hg', hagain⟩ := conditionToGroup_groupToCondition hopened.fits hsave
  refine ⟨c', hsave, ?_, ?_, g', hg', hagain⟩
  · intro ctx
    have hsaved : Says ctx c' g.node := (saved_toCondition ctx g.node hopened.fits).1 c' hc'
    exact hsaved.eval_eq (hopened.shown ctx)
  · intro hvalid
    unfold TriagePolicy.validateCondition validateConditionOver at hvalid ⊢
    obtain ⟨-, hwalk⟩ := (Bool.and_eq_true _ _).mp hvalid
    obtain ⟨m, hm⟩ := Option.isSome_iff_exists.mp hwalk
    obtain ⟨m', -, hm'⟩ := hshrinks 0 0 0 0 m (by omega) (by omega) hm
    rw [isDict_of_conditionToGroup hg', hm']
    rfl

/-- Nested groups of one part are saved as the part. -/
theorem open_save_nested :
    ∃ c', groupToCondition ⟨.or, [.group .and [.rule emptyRule]]⟩ = some c' ∧
      (∀ ctx, eval ctx c' = eval ctx (.dict [("or", .list [.dict [("and",
        emptyRule.toCondition)]])])) ∧
      (TriagePolicy.validateCondition (.dict [("or", .list [.dict [("and",
        emptyRule.toCondition)]])]) = true → TriagePolicy.validateCondition c' = true) ∧
      ∃ g', conditionToGroup c' = some g' ∧ groupToCondition g' = some c' :=
  open_save (by rfl)

/-! ## Edits -/

/-- The operators offered for a field. -/
def opsFor (path : String) : List String :=
  match contractField path with
  | none => ["=="]
  | some f =>
    match f.type with
    | .boolean => ["=="]
    | .number => ["==", "!=", "<", "<=", ">", ">="]
    | _ => ["==", "!=", "in"]

def firstValue (path : String) : Value :=
  .str (((contractField path).bind (·.values.head?)).getD "")

def onFieldChange (r : RuleRow) : RuleRow :=
  let op := if r.op ∈ opsFor r.field then r.op else "=="
  let value :=
    if isBoolean r.field then .bool true
    else if hasType r.field .number then .float (.fin (1 / 2))
    else if op = "in" then .list []
    else firstValue r.field
  ⟨r.field, op, value⟩

/-- What a list is made of when its operator changes to one that takes a scalar. -/
def headOr (path : String) : List Value → Value
  | .none :: _ => firstValue path
  | v :: _ => v
  | [] => firstValue path

def onOpChange (r : RuleRow) : RuleRow :=
  if r.op = "in" then
    match r.value with
    | .list _ => r
    | .str "" => { r with value := .list [] }
    | .none => { r with value := .list [] }
    | v => { r with value := .list [v] }
  else
    match r.value with
    | .list xs => { r with value := headOr r.field xs }
    | _ => r

/-- What the controls of a row are set to. -/
inductive RowEdit where
  | field (path : String)
  | op (op : String)
  | list (text : String)
  | number (text : String)
  | scalar (text : String)
  | bool (text : String)

section Edits

-- `String.prototype.trim`, and `Number` of a text.
variable (trim : String → String) (number : String → FloatVal)

def listTexts (text : String) : List String :=
  ((split ',' text).map trim).filter fun s => 0 < s.length

def RuleRow.edit (r : RuleRow) : RowEdit → RuleRow
  | .field path => onFieldChange { r with field := path }
  | .op op => onOpChange { r with op := op }
  | .list text => { r with value := .list ((listTexts trim text).map .str) }
  | .number text =>
    match number text with
    | .fin q => { r with value := .float (.fin q) }
    | _ => { r with value := .float (.fin 0) }
  | .scalar text => { r with value := .str text }
  | .bool text => { r with value := .bool (text = "true") }

/-- The row has this control, and the control this choice. -/
def RuleRow.Offers (r : RuleRow) : RowEdit → Prop
  | .field path => path ∈ contractPaths
  | .op op => isBoolean r.field = false ∧ op ∈ opsFor r.field
  | .list _ => isBoolean r.field = false ∧ r.op = "in"
  | .number _ => r.op ≠ "in" ∧ hasType r.field .number = true
  | .scalar _ => isBoolean r.field = false ∧ r.op ≠ "in" ∧ hasType r.field .number = false
  | .bool _ => isBoolean r.field = true

/-- A click in a group, or in one of the groups in it. -/
inductive Edit where
  | op (op : GroupOp)
  | addRule
  | addGroup
  | remove (i : ℕ)
  | rule (i : ℕ) (e : RowEdit)
  | inside (i : ℕ) (e : Edit)

def Node.editRule (e : RowEdit) : Node → Node
  | .rule r => .rule (r.edit trim number e)
  | n => n

def Node.mapGroup (f : RuleGroup → RuleGroup) : Node → Node
  | .group op children => (f ⟨op, children⟩).node
  | n => n

def GroupOp.other : GroupOp → GroupOp
  | .and => .or
  | .or => .and

def RuleGroup.edit (g : RuleGroup) : Edit → RuleGroup
  | .op op => { g with op := op }
  | .addRule => { g with children := g.children ++ [.rule emptyRule] }
  | .addGroup => { g with children := g.children ++ [.group g.op.other [.rule emptyRule]] }
  | .remove i => { g with children := g.children.eraseIdx i }
  | .rule i e => { g with children := g.children.modify i (Node.editRule trim number e) }
  | .inside i e => { g with children := g.children.modify i (Node.mapGroup fun h => h.edit e) }

/-- What a group that stands at a depth has controls for. -/
def RuleGroup.Offers (depth : ℕ) (g : RuleGroup) : Edit → Prop
  | .rule i e => ∃ r, g.children[i]? = some (.rule r) ∧ r.Offers e
  | .inside i e => ∃ op children, g.children[i]? = some (.group op children) ∧
    RuleGroup.Offers (depth + 1) ⟨op, children⟩ e
  | .addGroup => depth < 3
  | _ => True

/-- The group of a new guardrail. -/
def newGuardrail : RuleGroup := { emptyGroup with children := [.rule emptyRule] }

/-- A guardrail's group as it is first shown. -/
def Opening (g : RuleGroup) : Prop := (∃ c, conditionToGroup c = some g) ∨ g = newGuardrail

/-- The group as shown is true in the context. -/
def RuleGroup.fires (ctx : Dict) (g : RuleGroup) : Bool :=
  match g.node.holds ctx with
  | .ok (some b) => b
  | _ => false

/-! ## Every session keeps the rows representable -/

theorem opsFor_subset (path : String) : ∀ op ∈ opsFor path, op ∈ rowOps := by
  intro op hop
  unfold opsFor at hop
  have hrow : ∀ l : List String, l.all (rowOps.contains ·) = true → op ∈ l → op ∈ rowOps := by
    intro l hl hmem
    simpa using List.all_eq_true.mp hl op hmem
  split at hop
  · exact hrow _ (by decide) hop
  · split at hop
    · exact hrow _ (by decide) hop
    · exact hrow _ (by decide) hop
    · exact hrow _ (by decide) hop

theorem opsFor_boolean {path : String} (h : isBoolean path = true) : opsFor path = ["=="] := by
  unfold isBoolean hasType at h
  unfold opsFor
  cases hf : contractField path with
  | none => rfl
  | some f =>
    rw [hf] at h
    have htype : f.type = .boolean := by simpa using h
    simp [htype]

theorem in_not_mem_opsFor {path : String} (h : hasType path .number = true) :
    "in" ∉ opsFor path := by
  unfold hasType at h
  unfold opsFor
  cases hf : contractField path with
  | none => simp
  | some f =>
    rw [hf] at h
    have htype : f.type = .number := by simpa using h
    simp [htype]

theorem RuleRow.Fits.scalar_or_literal {r : RuleRow} (h : r.Fits) :
    isScalar r.value = true ∨ isLiteral r.value = true := by
  have hvalue := h.value
  split_ifs at hvalue
  · exact .inr hvalue
  · exact .inl hvalue

theorem fits_onFieldChange {r : RuleRow} (h : r.field ∈ contractPaths) :
    (onFieldChange r).Fits := by
  have hop : (onFieldChange r).op ∈ opsFor r.field ∨ (onFieldChange r).op = "==" := by
    change (if r.op ∈ opsFor r.field then r.op else "==") ∈ opsFor r.field ∨
      (if r.op ∈ opsFor r.field then r.op else "==") = "=="
    split_ifs with hmem
    · exact .inl hmem
    · exact .inr rfl
  have hboolean : isBoolean r.field = true → (onFieldChange r).op = "==" := by
    intro hb
    rw [opsFor_boolean hb] at hop
    simpa using hop
  refine ⟨h, ?_, hboolean, ?_⟩
  · rcases hop with hmem | heq
    · exact opsFor_subset _ _ hmem
    · rw [heq]
      decide
  · have hvalue : (onFieldChange r).value =
        if isBoolean r.field then .bool true
        else if hasType r.field .number then .float (.fin (1 / 2))
        else if (onFieldChange r).op = "in" then .list [] else firstValue r.field := rfl
    rw [hvalue]
    by_cases hin : (onFieldChange r).op = "in"
    · have hb : ¬isBoolean r.field = true := by
        intro hb
        rw [hboolean hb] at hin
        exact absurd hin (by decide)
      have hn : ¬hasType r.field .number = true := by
        intro hn
        rw [hin] at hop
        rcases hop with hmem | heq
        · exact in_not_mem_opsFor hn hmem
        · exact absurd heq (by decide)
      rw [if_pos hin, if_neg hb, if_neg hn, if_pos hin]
      rfl
    · rw [if_neg hin, if_neg hin]
      split_ifs <;> rfl

theorem isScalar_headOr (path : String) {xs : List Value} (h : xs.all isScalar = true) :
    isScalar (headOr path xs) = true := by
  unfold headOr
  split
  · rfl
  · exact List.all_eq_true.mp h _ List.mem_cons_self
  · rfl

theorem fits_onOpChange {r : RuleRow} (hfield : r.field ∈ contractPaths) (hop : r.op ∈ rowOps)
    (hboolean : isBoolean r.field = false)
    (hvalue : isScalar r.value = true ∨ isLiteral r.value = true) : (onOpChange r).Fits := by
  have hnot : ∀ s : RuleRow, s.field = r.field → isBoolean s.field = true → s.op = "==" := by
    intro s hs hb
    rw [hs, hboolean] at hb
    cases hb
  unfold onOpChange
  by_cases hin : r.op = "in"
  · rw [if_pos hin]
    split
    · rename_i xs hxs
      refine ⟨hfield, hop, hnot r rfl, ?_⟩
      rw [if_pos hin]
      rw [hxs] at hvalue ⊢
      rcases hvalue with hscalar | hliteral
      · cases hscalar
      · exact hliteral
    · exact ⟨hfield, hop, hnot _ rfl, by rw [if_pos hin]; rfl⟩
    · exact ⟨hfield, hop, hnot _ rfl, by rw [if_pos hin]; rfl⟩
    · rename_i hlist _ _
      have hscalar : isScalar r.value = true := by
        rcases hvalue with hscalar | hliteral
        · exact hscalar
        · cases hv : r.value with
          | list xs => exact absurd hv (hlist xs)
          | _ =>
            rw [hv] at hliteral
            cases hliteral
      refine ⟨hfield, hop, hnot _ rfl, ?_⟩
      rw [if_pos hin]
      simp [isLiteral, hscalar]
  · rw [if_neg hin]
    split
    · rename_i xs hxs
      rw [hxs] at hvalue
      have hliteral : xs.all isScalar = true := by
        rcases hvalue with hscalar | hliteral
        · cases hscalar
        · exact hliteral
      refine ⟨hfield, hop, hnot _ rfl, ?_⟩
      rw [if_neg hin]
      exact isScalar_headOr r.field hliteral
    · rename_i hlist
      refine ⟨hfield, hop, hnot r rfl, ?_⟩
      rw [if_neg hin]
      rcases hvalue with hscalar | hliteral
      · exact hscalar
      · cases hv : r.value with
        | list xs => exact absurd hv (hlist xs)
        | _ =>
          rw [hv] at hliteral
          cases hliteral

/-- An offered edit of a row that fits leaves one that fits. -/
theorem RuleRow.Fits.edit {r : RuleRow} (h : r.Fits) {e : RowEdit} (ho : r.Offers e) :
    (r.edit trim number e).Fits := by
  cases e with
  | field path => exact fits_onFieldChange ho
  | op op =>
    exact fits_onOpChange h.field (opsFor_subset _ _ ho.2) ho.1 h.scalar_or_literal
  | list text =>
    refine ⟨h.field, h.op, h.boolean, ?_⟩
    have hop : (r.edit trim number (.list text)).op = "in" := ho.2
    rw [if_pos hop]
    simp [RuleRow.edit, isLiteral, isScalar]
  | number text =>
    have hscalar : ∀ x, (RuleRow.mk r.field r.op (.float x)).Fits := by
      intro x
      refine ⟨h.field, h.op, h.boolean, ?_⟩
      rw [if_neg ho.1]
      rfl
    simp only [RuleRow.edit]
    split
    · exact hscalar _
    · exact hscalar _
  | scalar text =>
    refine ⟨h.field, h.op, h.boolean, ?_⟩
    have hop : (r.edit trim number (.scalar text)).op ≠ "in" := ho.2.1
    rw [if_neg hop]
    rfl
  | bool text =>
    refine ⟨h.field, h.op, h.boolean, ?_⟩
    have heq : r.op = "==" := h.boolean ho
    have hop : (r.edit trim number (.bool text)).op ≠ "in" := by
      intro hin
      have hrow : r.op = "in" := hin
      rw [heq] at hrow
      exact absurd hrow (by decide)
    rw [if_neg hop]
    rfl

theorem mem_modify {α : Type} {f : α → α} {x : α} {l : List α} {i : ℕ} (h : x ∈ l.modify i f) :
    x ∈ l ∨ ∃ y, l[i]? = some y ∧ x = f y := by
  obtain ⟨j, hj⟩ := List.mem_iff_getElem?.mp h
  rw [List.getElem?_modify] at hj
  obtain ⟨y, hy, hxy⟩ := Option.map_eq_some_iff.mp hj
  by_cases hij : i = j
  · rw [if_pos hij] at hxy
    exact .inr ⟨y, hij ▸ hy, hxy.symm⟩
  · rw [if_neg hij] at hxy
    exact .inl (hxy ▸ List.mem_of_getElem? hy)

theorem fits_emptyRule : emptyRule.Fits := by
  refine ⟨by decide, by decide, ?_, rfl⟩
  intro h
  exact absurd h (by decide)

/-- An offered edit of a group whose rows all fit leaves one whose rows all fit. -/
theorem RuleGroup.fits_edit {g : RuleGroup} {e : Edit} {depth : ℕ} (h : g.node.Fits)
    (ho : g.Offers depth e) : (g.edit trim number e).node.Fits := by
  induction e generalizing g depth with
  | op op => exact .group h.children
  | addRule =>
    refine .group fun n hn => ?_
    rcases List.mem_append.mp hn with hn | hn
    · exact h.children n hn
    · rw [List.mem_singleton.mp hn]
      exact .rule fits_emptyRule
  | addGroup =>
    refine .group fun n hn => ?_
    rcases List.mem_append.mp hn with hn | hn
    · exact h.children n hn
    · rw [List.mem_singleton.mp hn]
      refine .group fun m hm => ?_
      rw [List.mem_singleton.mp hm]
      exact .rule fits_emptyRule
  | remove i => exact .group fun n hn => h.children n (List.mem_of_mem_eraseIdx hn)
  | rule i e =>
    obtain ⟨r, hr, hoffers⟩ := ho
    refine .group fun n hn => ?_
    rcases mem_modify hn with hn | ⟨m, hm, rfl⟩
    · exact h.children n hn
    · rw [hr] at hm
      cases hm
      have hrow : (Node.rule r).Fits := h.children _ (List.mem_of_getElem? hr)
      exact .rule (hrow.row.edit trim number hoffers)
  | inside i e ih =>
    obtain ⟨op, children, hgroup, hoffers⟩ := ho
    refine .group fun n hn => ?_
    rcases mem_modify hn with hn | ⟨m, hm, rfl⟩
    · exact h.children n hn
    · rw [hgroup] at hm
      cases hm
      have hinner : (RuleGroup.mk op children).node.Fits :=
        h.children _ (List.mem_of_getElem? hgroup)
      exact ih hinner hoffers

theorem Opening.fits {g : RuleGroup} (h : Opening g) : g.node.Fits := by
  rcases h with ⟨c, hc⟩ | rfl
  · exact (opened_of_conditionToGroup hc).fits
  · refine .group fun n hn => ?_
    rw [List.mem_singleton.mp hn]
    exact .rule fits_emptyRule

/-- A group whose rows all fit is saved as a condition that fires where the group as shown is true. -/
theorem evaluateCondition_guardrailWhen {g : RuleGroup} (h : g.node.Fits) (ctx : Dict) :
    evaluateCondition (guardrailWhen g) ctx = g.fires ctx := by
  have hsaved := saved_toCondition ctx g.node h
  rw [← groupToCondition_eq] at hsaved
  unfold guardrailWhen RuleGroup.fires evaluateCondition
  cases hc : groupToCondition g with
  | none =>
    rw [hsaved.2 hc]
    rfl
  | some c =>
    obtain ⟨b, hb, hholds⟩ := hsaved.1 c hc
    rw [Option.getD_some, hb, hholds]
    cases b <;> rfl

/-- After any session, begun with a condition that was opened or with a new one, the guardrail that is
saved fires exactly where the group on the screen is true; it is opened again as a group that is saved
as it is and is true in the same contexts; and where no row is left, the server refuses it. -/
theorem session_saved {g₀ g : RuleGroup} (hopen : Opening g₀)
    (hrun : Transition.Run (RuleGroup.edit trim number) (RuleGroup.Offers 0) g₀ g) :
    (∀ ctx, evaluateCondition (guardrailWhen g) ctx = g.fires ctx) ∧
      (∀ c, groupToCondition g = some c → ∃ g', conditionToGroup c = some g' ∧
        groupToCondition g' = some c ∧ ∀ ctx, g'.fires ctx = g.fires ctx) ∧
      (groupToCondition g = none →
        TriagePolicy.validateCondition (guardrailWhen g) = false) := by
  have hstep : ∀ (s : RuleGroup) (e : Edit), s.node.Fits → s.Offers 0 e →
      (s.edit trim number e).node.Fits := fun _ _ hs ho => RuleGroup.fits_edit trim number hs ho
  have hfits : g.node.Fits := hrun.inv hstep hopen.fits
  refine ⟨evaluateCondition_guardrailWhen hfits, ?_, ?_⟩
  · intro c hc
    obtain ⟨g', hg', hagain⟩ := conditionToGroup_groupToCondition hfits hc
    refine ⟨g', hg', hagain, ?_⟩
    intro ctx
    have hwhen : guardrailWhen g' = guardrailWhen g := by
      unfold guardrailWhen
      rw [hagain, hc]
    have hfits' := (opened_of_conditionToGroup hg').fits
    rw [← evaluateCondition_guardrailWhen hfits ctx, ← hwhen,
      evaluateCondition_guardrailWhen hfits' ctx]
  · intro hnone
    unfold guardrailWhen
    rw [hnone]
    rfl

end Edits

/-- The field of a new row is set to one of the booleans. -/
theorem session_saved_field :
    evaluateCondition (guardrailWhen (newGuardrail.edit strip (fun _ => .nan)
        (.rule 0 (.field "enrichment.ioc")))) [] =
      (newGuardrail.edit strip (fun _ => .nan) (.rule 0 (.field "enrichment.ioc"))).fires [] := by
  have hoffers : newGuardrail.Offers 0 (.rule 0 (.field "enrichment.ioc")) :=
    ⟨emptyRule, rfl, (by decide : "enrichment.ioc" ∈ contractPaths)⟩
  have hrun : Transition.Run (RuleGroup.edit strip fun _ => .nan) (RuleGroup.Offers 0) newGuardrail
      (newGuardrail.edit strip (fun _ => .nan) (.rule 0 (.field "enrichment.ioc"))) :=
    Transition.Run.step _ Transition.Run.refl hoffers
  exact (session_saved strip (fun _ => .nan) (.inr rfl) hrun).1 []

end SocTalk.TriagePolicy.Client
