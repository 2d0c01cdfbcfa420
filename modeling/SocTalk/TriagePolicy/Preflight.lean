import SocTalk.TriagePolicy.Evaluation

/-! The policy editor's own check of a condition, made before the server's: the state contract that
the editor holds, its walk of a condition with the messages for the author, and that it accepts
what the server accepts. -/
namespace SocTalk.TriagePolicy.Client
open Py

/-! ## The contract -/

inductive FieldType where
  | enum
  | boolean
  | number
  | string
  deriving DecidableEq

structure ContractField where
  path : String
  type : FieldType
  /-- A closed set for `enum`, suggestions for `string`. -/
  values : List String := []

def contract : List ContractField := [
  { path := "authz.class", type := .enum, values := ["covered", "contradicted", "absent"] },
  { path := "authz.in_scope", type := .boolean },
  { path := "authz.sanctioned_or_routine", type := .boolean },
  { path := "authz.actor_genuine", type := .boolean },
  { path := "authz.policy_allowed", type := .boolean },
  { path := "verdict", type := .enum, values := ["close", "needs_more_info", "escalate"] },
  { path := "verdict_confidence", type := .number },
  { path := "asset.data_classification", type := .string,
    values := ["pci", "phi", "pii", "confidential", "internal", "public"] },
  { path := "asset.environment", type := .string,
    values := ["production", "staging", "development"] },
  { path := "asset.criticality", type := .string,
    values := ["critical", "high", "medium", "low"] },
  { path := "enrichment.ioc", type := .boolean },
  { path := "correlation.active_incident", type := .boolean }]

def contractPaths : List String := contract.map (·.path)

def contractField (path : String) : Option ContractField := contract.find? (·.path = path)

/-- The server's contract, in its order. -/
theorem contractPaths_eq : contractPaths = stateContract := rfl

def comparisonOps : List String := ["==", "!=", "<", "<=", ">", ">="]
def logicOps : List String := ["and", "or", "!", "!!"]
def membershipOps : List String := ["in"]
def conditionMaxDepth : ℕ := 8
def conditionMaxNodes : ℕ := 64
def conditionMaxList : ℕ := 32

def allowed : List String := ["var"] ++ comparisonOps ++ logicOps ++ membershipOps

/-! ## The walk -/

inductive Message where
  | root
  | nodes (max : ℕ)
  | depth (max : ℕ)
  | listCap (max : ℕ)
  | listScalars
  | singleMapping (shape : String)
  | operatorNotAllowed (op : String)
  | varString
  | fieldNotContract (field : String)
  | opTwoArgs (op : String)
  | opOneArg (op : String)
  deriving DecidableEq

/-- The walk's counter and the messages so far. -/
structure Tally where
  n : ℕ
  errors : List Message

def Tally.push (t : Tally) (e : Message) : Tally := { t with errors := t.errors ++ [e] }

def Tally.pushIf (t : Tally) (bad : Bool) (e : Message) : Tally := if bad then t.push e else t

/-- The checks made before a node is looked at. -/
def enter (depth : ℕ) (t : Tally) (look : Tally → Tally) : Tally :=
  -- Enough feedback.
  if 4 < t.errors.length then t
  else
    let t := { t with n := t.n + 1 }
    if conditionMaxNodes < t.n then t.push (.nodes conditionMaxNodes)
    else if conditionMaxDepth < depth then t.push (.depth conditionMaxDepth)
    else look t

def checkList (xs : List Value) (t : Tally) : Tally :=
  (t.pushIf (conditionMaxList < xs.length) (.listCap conditionMaxList)).pushIf
    (!xs.all isScalar) .listScalars

def checkVar (arg : Value) (t : Tally) : Tally :=
  match arg with
  | .str field => t.pushIf (field ∉ contractPaths) (.fieldNotContract field)
  | _ => t.push .varString

def checkArity (op : String) (args : ℕ) (t : Tally) : Tally :=
  ((t.pushIf (op ∈ comparisonOps ∧ args ≠ 2) (.opTwoArgs op)).pushIf
    (op = "in" ∧ args ≠ 2) (.opTwoArgs op)).pushIf
    ((op = "!" ∨ op = "!!") ∧ args ≠ 1) (.opOneArg op)

mutual

def walkValidate (depth : ℕ) (t : Tally) : Value → Tally
  | .dict [(op, .list args)] => enter depth t fun t =>
    if op ∉ allowed then t.push (.operatorNotAllowed op)
    else if op = "var" then t.push .varString
    else walkItems (depth + 1) (checkArity op args.length t) args
  | .dict [(op, arg)] => enter depth t fun t =>
    if op ∉ allowed then t.push (.operatorNotAllowed op)
    else if op = "var" then checkVar arg t
    else walkValidate (depth + 1) (checkArity op 1 t) arg
  | .dict _ => enter depth t fun t => t.push (.singleMapping "\x7boperator: args\x7d")
  | .list xs => enter depth t (checkList xs)
  | _ => enter depth t id

def walkItems (depth : ℕ) (t : Tally) : List Value → Tally
  | [] => t
  | x :: xs => walkItems depth (walkValidate depth t x) xs

end

def validateCondition (node : Value) : List Message :=
  if node.isDict then (walkValidate 0 ⟨0, []⟩ node).errors else [.root]

/-! ## Messages only add up -/

@[simp] theorem Tally.errors_push (t : Tally) (e : Message) :
    (t.push e).errors = t.errors ++ [e] := rfl

theorem Tally.pushIf_true (t : Tally) (e : Message) : t.pushIf true e = t.push e := rfl

theorem Tally.pushIf_false (t : Tally) (e : Message) : t.pushIf false e = t := rfl

/-- From one tally to a later one of the same walk. -/
structure Tally.Grows (t u : Tally) : Prop where
  kept : t.errors <+: u.errors
  /-- A node adds two messages at most, and only where there are four at most. -/
  bounded : t.errors.length ≤ 6 → u.errors.length ≤ 6

theorem Tally.Grows.refl (t : Tally) : t.Grows t := ⟨List.prefix_rfl, id⟩

theorem Tally.Grows.trans {t u v : Tally} (h : t.Grows u) (h' : u.Grows v) : t.Grows v :=
  ⟨h.kept.trans h'.kept, fun ht => h'.bounded (h.bounded ht)⟩

theorem Tally.Grows.errors_ne_nil {t u : Tally} (h : t.Grows u) (ht : t.errors ≠ []) :
    u.errors ≠ [] := by
  intro hu
  have hprefix := h.kept
  rw [hu] at hprefix
  exact ht (List.prefix_nil.mp hprefix)

/-- At most `k` messages are added. -/
def Tally.Adds (k : ℕ) (t u : Tally) : Prop :=
  t.errors <+: u.errors ∧ u.errors.length ≤ t.errors.length + k

theorem Tally.Adds.refl (t : Tally) : t.Adds 0 t := ⟨List.prefix_rfl, by omega⟩

theorem Tally.Adds.mono {j k : ℕ} {t u : Tally} (h : t.Adds j u) (hjk : j ≤ k) : t.Adds k u := by
  have hlength := h.2
  exact ⟨h.1, by omega⟩

theorem Tally.Adds.trans {j k : ℕ} {t u v : Tally} (h : t.Adds j u) (h' : u.Adds k v) :
    t.Adds (j + k) v := by
  have hfirst := h.2
  have hsecond := h'.2
  exact ⟨h.1.trans h'.1, by omega⟩

theorem Tally.adds_push (t : Tally) (e : Message) : t.Adds 1 (t.push e) := by
  have hlength : (t.push e).errors.length = t.errors.length + 1 := by simp
  exact ⟨List.prefix_append _ _, by omega⟩

theorem Tally.adds_pushIf (t : Tally) (bad : Bool) (e : Message) : t.Adds 1 (t.pushIf bad e) := by
  cases bad with
  | false => exact (Tally.Adds.refl t).mono (by omega)
  | true => exact t.adds_push e

theorem adds_checkList (xs : List Value) (t : Tally) : t.Adds 2 (checkList xs t) :=
  (t.adds_pushIf _ _).trans (Tally.adds_pushIf _ _ _)

theorem adds_checkVar (arg : Value) (t : Tally) : t.Adds 1 (checkVar arg t) := by
  unfold checkVar
  split
  · exact t.adds_pushIf _ _
  · exact t.adds_push _

/-- No operator is told its arity twice. -/
theorem adds_checkArity (op : String) (args : ℕ) (t : Tally) : t.Adds 1 (checkArity op args t) := by
  have hcomparison : op ∈ comparisonOps → op ≠ "in" ∧ op ≠ "!" ∧ op ≠ "!!" := by
    intro h
    refine ⟨?_, ?_, ?_⟩
    all_goals
      intro he
      rw [he] at h
      exact absurd h (by decide)
  have hin : op = "in" → op ≠ "!" ∧ op ≠ "!!" := by
    intro h
    rw [h]
    decide
  unfold checkArity
  by_cases hc : op ∈ comparisonOps
  · have h := hcomparison hc
    simpa [h, Tally.pushIf_false] using t.adds_pushIf _ _
  · by_cases hi : op = "in"
    · have h := hin hi
      simpa [hc, h, Tally.pushIf_false] using t.adds_pushIf _ _
    · simpa [hc, hi, Tally.pushIf_false] using t.adds_pushIf _ _

theorem grows_enter {depth : ℕ} {t : Tally} {look : Tally → Tally}
    (h : ∀ u : Tally, u.errors.length ≤ 4 → u.Grows (look u)) :
    t.Grows (enter depth t look) := by
  unfold enter
  by_cases hfull : 4 < t.errors.length
  · rw [if_pos hfull]
    exact Tally.Grows.refl t
  · rw [if_neg hfull]
    have hstart : t.Grows { t with n := t.n + 1 } := ⟨List.prefix_rfl, id⟩
    have hpush : ∀ e, t.Grows (Tally.push { t with n := t.n + 1 } e) := by
      intro e
      have hadds := Tally.adds_push { t with n := t.n + 1 } e
      have hlength := hadds.2
      simp only at hlength
      exact ⟨hadds.1, fun _ => by omega⟩
    dsimp only
    split_ifs
    · exact hpush _
    · exact hpush _
    · exact hstart.trans (h _ (by simpa using hfull))

theorem grows_of_adds {t u : Tally} (h : t.Adds 2 u) (ht : t.errors.length ≤ 4) : t.Grows u := by
  have hlength := h.2
  exact ⟨h.1, fun _ => by omega⟩

theorem grows_walk (depth : ℕ) (t : Tally) (node : Value) : t.Grows (walkValidate depth t node) := by
  refine walkValidate.induct (fun d t v => t.Grows (walkValidate d t v))
    (fun d t xs => t.Grows (walkItems d t xs))
    ?node ?single ?dict ?literal ?scalar ?nil ?cons depth t node
  case node =>
    intro d t op args ih
    rw [walkValidate]
    refine grows_enter fun u hshort => ?_
    have hpush : ∀ e, u.Grows (u.push e) := fun e =>
      grows_of_adds ((u.adds_push e).mono (by omega)) hshort
    by_cases hop : op ∉ allowed
    · rw [if_pos hop]
      exact hpush _
    rw [if_neg hop]
    by_cases hvar : op = "var"
    · rw [if_pos hvar]
      exact hpush _
    · rw [if_neg hvar]
      exact (grows_of_adds ((adds_checkArity op _ u).mono (by omega)) hshort).trans (ih u)
  case single =>
    intro d t op arg hlist ih
    rw [walkValidate]
    · refine grows_enter fun u hshort => ?_
      by_cases hop : op ∉ allowed
      · rw [if_pos hop]
        exact grows_of_adds ((u.adds_push _).mono (by omega)) hshort
      rw [if_neg hop]
      by_cases hvar : op = "var"
      · rw [if_pos hvar]
        exact grows_of_adds ((adds_checkVar arg u).mono (by omega)) hshort
      · rw [if_neg hvar]
        exact (grows_of_adds ((adds_checkArity op 1 u).mono (by omega)) hshort).trans (ih u)
    · exact hlist
  case dict =>
    intro d t kvs hlist hpair
    rw [walkValidate]
    · refine grows_enter fun u hshort => ?_
      exact grows_of_adds ((u.adds_push _).mono (by omega)) hshort
    all_goals assumption
  case literal =>
    intro d t xs
    rw [walkValidate]
    refine grows_enter fun u hshort => ?_
    exact grows_of_adds (adds_checkList xs u) hshort
  case scalar =>
    intro d t v hlist hpair hdict hliteral
    rw [walkValidate]
    · exact grows_enter fun u _ => Tally.Grows.refl u
    all_goals assumption
  case nil =>
    intro d t
    exact Tally.Grows.refl t
  case cons =>
    intro d t x xs ihx ihxs
    rw [walkItems]
    exact ihx.trans ihxs

/-! ## The same conditions -/

theorem push_ne (t : Tally) (e : Message) (m : ℕ) : t.push e ≠ ⟨m, []⟩ := by
  intro h
  have herrors := congrArg Tally.errors h
  simp at herrors

theorem ne_of_errors {t : Tally} (h : t.errors ≠ []) (m : ℕ) : t ≠ ⟨m, []⟩ := by
  intro ht
  rw [ht] at h
  exact h rfl

theorem eq_of_errors {t : Tally} (h : t.errors = []) : t = ⟨t.n, []⟩ := by
  rw [← h]

theorem enter_eq_iff {depth n m : ℕ} {look : Tally → Tally} :
    enter depth ⟨n, []⟩ look = ⟨m, []⟩ ↔
      (n < maxNodes ∧ depth ≤ maxDepth) ∧ look ⟨n + 1, []⟩ = ⟨m, []⟩ := by
  have hnodes : conditionMaxNodes = maxNodes := rfl
  have hdepth : conditionMaxDepth = maxDepth := rfl
  unfold enter
  rw [if_neg (by simp)]
  dsimp only
  rw [hnodes, hdepth]
  split_ifs with hn hd
  · have hfalse := push_ne ⟨n + 1, []⟩ (.nodes maxNodes) m
    simp only [hfalse, false_iff]
    omega
  · have hfalse := push_ne ⟨n + 1, []⟩ (.depth maxDepth) m
    simp only [hfalse, false_iff]
    omega
  · have hin : n < maxNodes ∧ depth ≤ maxDepth := by omega
    simp [hin]

theorem guard_bind_eq_some {α : Type} {p : Prop} [Decidable p] {f : Option α} {a : α} :
    (do guard p; f) = some a ↔ p ∧ f = some a := by
  by_cases hp : p
  · simp [hp]
  · simp [hp]

/-- The arity check is the server's. -/
theorem checkArity_of_ok {op : String} {args : ℕ} (h : arityOk op args = true) (t : Tally) :
    checkArity op args t = t := by
  unfold arityOk at h
  unfold checkArity
  have hcomparisons : op ∈ comparisonOps ↔ op ∈ comparisons := Iff.rfl
  split_ifs at h with hpair hsingle
  · have hargs : args = 2 := by simpa using h
    have hnot : op ≠ "!" ∧ op ≠ "!!" := by
      constructor
      all_goals
        intro he
        rw [he] at hpair
        exact absurd hpair (by decide)
    simp [hargs, hnot, Tally.pushIf_false]
  · have hargs : args = 1 := by simpa using h
    have hnot : op ∉ comparisonOps ∧ op ≠ "in" := by
      rw [hcomparisons]
      exact not_or.mp hpair
    simp [hargs, hnot, Tally.pushIf_false]
  · have hnot : op ∉ comparisonOps ∧ op ≠ "in" := by
      rw [hcomparisons]
      exact not_or.mp hpair
    simp [hsingle, hnot, Tally.pushIf_false]

theorem checkArity_of_not {op : String} {args : ℕ} (h : ¬arityOk op args = true) (t : Tally) :
    (checkArity op args t).errors ≠ [] := by
  unfold arityOk at h
  unfold checkArity
  have hcomparisons : op ∈ comparisonOps ↔ op ∈ comparisons := Iff.rfl
  split_ifs at h with hpair hsingle
  · have hargs : args ≠ 2 := by simpa using h
    rcases hpair with hc | hi
    · have hnot : op ∉ ["in", "!", "!!"] := by
        intro hmem
        simp only [comparisons, List.mem_cons, List.not_mem_nil, or_false] at hc hmem
        rcases hc with rfl | rfl | rfl | rfl | rfl | rfl <;> simp at hmem
      simp only [List.mem_cons, List.not_mem_nil, or_false, not_or] at hnot
      simp [hargs, hcomparisons.mpr hc, hnot, Tally.pushIf]
    · have hnot : op ∉ comparisonOps ∧ op ≠ "!" ∧ op ≠ "!!" := by
        rw [hi]
        decide
      simp [hargs, hi, hi ▸ hnot, Tally.pushIf]
  · have hargs : args ≠ 1 := by simpa using h
    simp [hargs, hsingle, Tally.pushIf]
  · exact absurd rfl h

theorem checkArity_eq_iff {op : String} {args n m : ℕ} (step : Tally → Tally)
    (hgrows : ∀ t : Tally, t.Grows (step t)) :
    step (checkArity op args ⟨n, []⟩) = ⟨m, []⟩ ↔
      arityOk op args = true ∧ step ⟨n, []⟩ = ⟨m, []⟩ := by
  by_cases h : arityOk op args = true
  · rw [checkArity_of_ok h]
    simp [h]
  · have herrors := (hgrows _).errors_ne_nil (checkArity_of_not h ⟨n, []⟩)
    have hne := ne_of_errors herrors m
    simp [h, hne]

theorem grows_items (depth : ℕ) (t : Tally) (xs : List Value) : t.Grows (walkItems depth t xs) := by
  induction xs generalizing t with
  | nil => exact Tally.Grows.refl t
  | cons x xs ih =>
    rw [walkItems]
    exact (grows_walk depth t x).trans (ih _)

theorem allowed_iff {op : String} : op ∈ allowed ↔ op ∈ allowedOperators := Iff.rfl

theorem checkList_eq_iff {xs : List Value} {n m : ℕ} :
    checkList xs ⟨n, []⟩ = ⟨m, []⟩ ↔
      (xs.length ≤ maxListLiteral ∧ xs.all isScalar = true) ∧ n = m := by
  have hmax : conditionMaxList = maxListLiteral := rfl
  unfold checkList
  rw [hmax]
  by_cases hlength : maxListLiteral < xs.length
  · have hlong : ¬xs.length ≤ maxListLiteral := by omega
    cases xs.all isScalar <;> simp [hlength, hlong, Tally.pushIf, Tally.push]
  · have hshort : xs.length ≤ maxListLiteral := by omega
    cases xs.all isScalar <;> simp [hlength, hshort, Tally.pushIf, Tally.push]

/-- The editor's walk stays without a message exactly where the server's passes, and then both have
counted the same nodes. -/
theorem walk_eq_iff (depth n : ℕ) (node : Value) : ∀ m,
    walkValidate depth ⟨n, []⟩ node = ⟨m, []⟩ ↔
      TriagePolicy.walkValidate stateContract depth n node = some m := by
  refine TriagePolicy.walkValidate.induct
    (fun d n v => ∀ m, walkValidate d ⟨n, []⟩ v = ⟨m, []⟩ ↔
      TriagePolicy.walkValidate stateContract d n v = some m)
    (fun d n xs => ∀ m, walkItems d ⟨n, []⟩ xs = ⟨m, []⟩ ↔
      TriagePolicy.walkItems stateContract d n xs = some m)
    ?node ?field ?single ?dict ?literal ?scalar ?nil ?cons depth n node
  case node =>
    intro d n op args ih m
    simp only [TriagePolicy.walkValidate]
    rw [walkValidate, enter_eq_iff, guard_bind_eq_some, guard_bind_eq_some, ← ih m, ← allowed_iff]
    by_cases hop : op ∉ allowed
    · rw [if_pos hop]
      simp [hop, push_ne]
    rw [if_neg hop]
    by_cases hvar : op = "var"
    · rw [if_pos hvar]
      simp [hvar, push_ne]
    · rw [if_neg hvar, checkArity_eq_iff (fun t => walkItems (d + 1) t args)
        fun t => grows_items (d + 1) t args]
      have hop' : op ∈ allowed := not_not.mp hop
      simp [hop', hvar, and_assoc]
  case field =>
    intro d n field m
    simp only [TriagePolicy.walkValidate]
    rw [walkValidate, enter_eq_iff, guard_bind_eq_some]
    · have hvar : ("var" : String) ∈ allowed := by decide
      rw [if_neg (not_not.mpr hvar), if_pos rfl]
      unfold checkVar
      by_cases hfield : field ∈ contractPaths
      · have hfield' : field ∈ stateContract := hfield
        simp [hfield, hfield', Tally.pushIf_false, and_assoc]
      · have hfield' : field ∉ stateContract := hfield
        simp [hfield, hfield', Tally.pushIf_true, push_ne]
    · intro xs h
      cases h
  case single =>
    intro d n op arg hlist hfield ih m
    rw [TriagePolicy.walkValidate]
    · rw [walkValidate]
      · rw [enter_eq_iff, guard_bind_eq_some, guard_bind_eq_some, ← ih m, ← allowed_iff]
        by_cases hop : op ∉ allowed
        · rw [if_pos hop]
          simp [hop, push_ne]
        rw [if_neg hop]
        by_cases hvar : op = "var"
        · have hpush : ∀ t, checkVar arg t = t.push .varString := by
            intro t
            unfold checkVar
            split
            · exact absurd rfl (hfield _ hvar)
            · rfl
          rw [if_pos hvar, hpush]
          simp [hvar, push_ne]
        · rw [if_neg hvar, checkArity_eq_iff (fun t => walkValidate (d + 1) t arg)
            fun t => grows_walk (d + 1) t arg]
          have hop' : op ∈ allowed := not_not.mp hop
          simp [hop', hvar, and_assoc]
      · exact hlist
    · exact hlist
    · exact hfield
  case dict =>
    intro d n kvs hlist hfield hpair m
    rw [TriagePolicy.walkValidate, walkValidate]
    · rw [enter_eq_iff]
      simp [push_ne]
    all_goals assumption
  case literal =>
    intro d n xs m
    simp only [TriagePolicy.walkValidate]
    rw [walkValidate, enter_eq_iff, guard_bind_eq_some, guard_bind_eq_some, checkList_eq_iff]
    simp
  case scalar =>
    intro v d n hlist hfield hpair hdict hliteral m
    rw [TriagePolicy.walkValidate, walkValidate]
    · rw [enter_eq_iff, guard_bind_eq_some]
      simp
    all_goals assumption
  case nil =>
    intro d n m
    simp [walkItems, TriagePolicy.walkItems]
  case cons =>
    intro d n x xs ihx ihxs m
    simp only [walkItems, TriagePolicy.walkItems]
    cases hx : TriagePolicy.walkValidate stateContract d n x with
    | some k =>
      have hclean := (ihx k).mpr hx
      rw [hclean]
      exact ihxs k m
    | none =>
      have herrors : (walkValidate d ⟨n, []⟩ x).errors ≠ [] := by
        intro hnil
        have hsome := (ihx _).mp (eq_of_errors hnil)
        rw [hx] at hsome
        cases hsome
      have hne := ne_of_errors ((grows_items d _ xs).errors_ne_nil herrors) m
      simp [hne]

/-- The editor has no objection exactly to what the server accepts, whatever the data; and it never
shows more than six messages. -/
theorem preflight_agrees (node : Value) :
    (validateCondition node = [] ↔ TriagePolicy.validateCondition node = true) ∧
      (validateCondition node).length ≤ 6 := by
  unfold validateCondition TriagePolicy.validateCondition validateConditionOver
  by_cases hdict : node.isDict
  · rw [if_pos hdict, hdict, Bool.true_and, Option.isSome_iff_exists]
    constructor
    · constructor
      · intro hnil
        exact ⟨_, (walk_eq_iff 0 0 node _).mp (eq_of_errors hnil)⟩
      · rintro ⟨m, hm⟩
        rw [(walk_eq_iff 0 0 node m).mpr hm]
    · exact (grows_walk 0 ⟨0, []⟩ node).bounded (by simp)
  · rw [if_neg hdict]
    simp [hdict]

end SocTalk.TriagePolicy.Client
