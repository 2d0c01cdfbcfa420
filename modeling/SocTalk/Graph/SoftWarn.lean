import SocTalk.Graph.Budget
import SocTalk.Lib.FloatArith
import SocTalk.Lib.Format

/-! The soft warning before the budget is exhausted and the text that explains a halt, with what
they say of dollars where the tenant keeps no dollar accounting. -/
namespace SocTalk.Graph
open Py

/-- The budgets' defaults and `SOCTALK_BUDGET_WARN_RATIO`. -/
structure WarnEnv extends BudgetEnv where
  budgetWarnRatio : Option String := none

def softWarnRatio (env : WarnEnv) : FloatVal :=
  let raw := env.budgetWarnRatio.getD ""
  if strip raw = "" then .fin (3 / 4)
  else match floatOfText raw with
    | .ok r => if (FloatVal.fin 0).lt r && r.lt (.fin 1) then r else .fin (3 / 4)
    | .error _ => .fin (3 / 4)

variable (env : WarnEnv)

/-- The state with the defaults of the keys that it lacks. -/
abbrev ensured (s : BudgetState) : BudgetState := ensure env.toBudgetEnv s

def tokensOver (s : BudgetState) : Bool :=
  (ensured env s).tokensBudget.getD 0 ≤ (ensured env s).tokensUsed.getD 0

/-- `tokens_used >= r * int(tokens_budget)`. -/
def tokensNear (s : BudgetState) : M Bool := do
  let budget ← FloatVal.ofInt FloatVal.ofRat ((ensured env s).tokensBudget.getD 0)
  return (FloatVal.mul FloatVal.ofRat (softWarnRatio env) budget).le
    (.fin ((ensured env s).tokensUsed.getD 0))

def dollarsOver (s : BudgetState) : Bool :=
  ((ensured env s).dollarsBudget.getD (.fin 0)).le (enforceableDollars (ensured env s))

def dollarsNear (s : BudgetState) : Bool :=
  (FloatVal.mul FloatVal.ofRat (softWarnRatio env)
    ((ensured env s).dollarsBudget.getD (.fin 0))).le (enforceableDollars (ensured env s))

def crossedSoftWarn (s : BudgetState) : M Bool := do
  if overBudget env.toBudgetEnv s then return false
  if ← tokensNear env s then return true
  -- Unlike the halt, the warning does not ask whether dollars are tracked.
  return dollarsNear env s

/-- Six decimals for an amount below a cent, two otherwise. -/
def fmtDollars (v : FloatVal) : List Char :=
  let abs := if v.lt (.fin 0) then v.neg else v
  '$' :: v.fixed (if abs ≠ .fin 0 ∧ abs.lt (FloatVal.ofRat (1 / 100)) = true then 6 else 2)

/-- The token part of the explanation. -/
def tokensPart (s : BudgetState) : List (List Char) :=
  if tokensOver env s then
    ["tokens=".toList ++ ((toString ((ensured env s).tokensUsed.getD 0)).toList ++
      '/' :: (toString ((ensured env s).tokensBudget.getD 0)).toList)]
  else []

def dollarsPart (s : BudgetState) : List (List Char) :=
  if dollarsOver env s then
    ["dollars=".toList ++ (fmtDollars (enforceableDollars (ensured env s)) ++
      '/' :: fmtDollars ((ensured env s).dollarsBudget.getD (.fin 0)))]
  else []

def unpricedPart (s : BudgetState) : List (List Char) :=
  let unpriced := s.dollarsUnpriced.getD (.fin 0)
  if unpriced ≠ .fin 0 then
    ["unpriced=".toList ++ (fmtDollars unpriced ++ " (not enforced)".toList)]
  else []

def reasonParts (s : BudgetState) : List (List Char) :=
  tokensPart env s ++ (dollarsPart env s ++ unpricedPart s)

def reason (s : BudgetState) : String :=
  if reasonParts env s = [] then "within budget"
  else String.ofList ([';', ' '].intercalate (reasonParts env s))

/-! ## Two states that differ in dollars only -/

/-- The keys that count dollars. -/
structure Dollars where
  used : Option FloatVal := none
  budget : Option FloatVal := none
  unpriced : Option FloatVal := none

def withDollars (s : BudgetState) (d : Dollars) : BudgetState :=
  { s with dollarsUsed := d.used, dollarsBudget := d.budget, dollarsUnpriced := d.unpriced }

/-- The verdicts and the text are the same in both states. -/
def SameResults (s t : BudgetState) : Prop :=
  overBudget env.toBudgetEnv s = overBudget env.toBudgetEnv t ∧
    crossedSoftWarn env s = crossedSoftWarn env t ∧ reason env s = reason env t

/-- The tokens alone tell whether to warn: the run has used them up, or enough of them. -/
def TokensDecide (s : BudgetState) : Prop := tokensOver env s = true ∨ tokensNear env s ≠ .ok false

/-- The dollar budgets are reached in both or in neither, with the same figures in print. -/
def SameReached (s t : BudgetState) : Prop :=
  dollarsOver env s = dollarsOver env t ∧ (dollarsOver env s = true →
    fmtDollars (enforceableDollars (ensured env s)) =
      fmtDollars (enforceableDollars (ensured env t)) ∧
    fmtDollars ((ensured env s).dollarsBudget.getD (.fin 0)) =
      fmtDollars ((ensured env t).dollarsBudget.getD (.fin 0)))

/-- There is unpriced spend in both or in neither, with the same figure in print. -/
def SameUnpriced (s t : BudgetState) : Prop :=
  (s.dollarsUnpriced.getD (.fin 0) = .fin 0 ↔ t.dollarsUnpriced.getD (.fin 0) = .fin 0) ∧
    (s.dollarsUnpriced.getD (.fin 0) ≠ .fin 0 →
      fmtDollars (s.dollarsUnpriced.getD (.fin 0)) = fmtDollars (t.dollarsUnpriced.getD (.fin 0)))

theorem tokensOver_withDollars (s : BudgetState) (d : Dollars) :
    tokensOver env (withDollars s d) = tokensOver env s := rfl

theorem tokensNear_withDollars (s : BudgetState) (d : Dollars) :
    tokensNear env (withDollars s d) = tokensNear env s := rfl

theorem tokensPart_withDollars (s : BudgetState) (d : Dollars) :
    tokensPart env (withDollars s d) = tokensPart env s := rfl

/-- The hard halt looks at no dollars. -/
theorem overBudget_of_off {s : BudgetState} (hoff : costTrackingOff s.priceSnapshot = true) :
    overBudget env.toBudgetEnv s = tokensOver env s := by
  have hsnapshot : (ensure env.toBudgetEnv s).priceSnapshot = s.priceSnapshot := rfl
  unfold overBudget tokensOver
  simp only [hsnapshot, hoff, if_true]
  by_cases h : (ensured env s).tokensBudget.getD 0 ≤ (ensured env s).tokensUsed.getD 0
  · rw [if_pos h, decide_eq_true h]
  · rw [if_neg h, decide_eq_false h]

/-! ## The warning -/

/-- The warning is the dollars' to give only where the tokens leave it open. -/
theorem crossedSoftWarn_eq_iff {s : BudgetState} (hoff : costTrackingOff s.priceSnapshot = true)
    (d : Dollars) : crossedSoftWarn env s = crossedSoftWarn env (withDollars s d) ↔
      TokensDecide env s ∨ dollarsNear env s = dollarsNear env (withDollars s d) := by
  have hoff' : costTrackingOff (withDollars s d).priceSnapshot = true := hoff
  unfold crossedSoftWarn TokensDecide
  rw [overBudget_of_off env hoff, overBudget_of_off env hoff', tokensOver_withDollars,
    tokensNear_withDollars]
  cases hover : tokensOver env s with
  | true => simp
  | false =>
    cases hnear : tokensNear env s with
    | error e => simp [Bind.bind, Except.bind]
    | ok near =>
      cases near with
      | true => simp [Bind.bind, Except.bind]
      | false => simp [Bind.bind, Except.bind, Pure.pure, Except.pure]

/-! ## The explanation -/

theorem not_mem_fmtDollars {c : Char} (hc : c ∉ ['$', '-', '.', 'i', 'n', 'f', 'a'])
    (hdigit : c.isDigit = false) (v : FloatVal) : c ∉ fmtDollars v := by
  intro h
  rcases List.mem_cons.mp h with h | h
  · exact hc (h ▸ List.mem_cons_self)
  · rcases FloatVal.mem_fixed h with h | h
    · exact hc (List.mem_cons_of_mem _ h)
    · rw [hdigit] at h
      cases h

theorem forall_mem_ite {c : Prop} [Decidable c] {x : List Char} {P : List Char → Prop} (h : P x) :
    ∀ y ∈ (if c then [x] else []), P y := by
  intro y hy
  split at hy
  · rw [List.mem_singleton.mp hy]
    exact h
  · cases hy

/-- Whether a part speaks of tokens, of dollars or of unpriced spend shows in its first letter. -/
theorem tokensPart_spec (s : BudgetState) :
    ∀ x ∈ tokensPart env s, x.head? = some 't' ∧ ';' ∉ x := by
  refine forall_mem_ite ⟨by simp, ?_⟩
  simp only [List.mem_append, List.mem_cons, not_or]
  exact ⟨by decide, notMem_toString_int (by decide) (by decide), by decide,
    notMem_toString_int (by decide) (by decide)⟩

theorem dollarsPart_spec (s : BudgetState) :
    ∀ x ∈ dollarsPart env s, x.head? = some 'd' ∧ ';' ∉ x := by
  refine forall_mem_ite ⟨by simp, ?_⟩
  simp only [List.mem_append, List.mem_cons, not_or]
  exact ⟨by decide, not_mem_fmtDollars (by decide) (by decide) _, by decide,
    not_mem_fmtDollars (by decide) (by decide) _⟩

theorem unpricedPart_spec (s : BudgetState) :
    ∀ x ∈ unpricedPart s, x.head? = some 'u' ∧ ';' ∉ x := by
  refine forall_mem_ite ⟨by simp, ?_⟩
  simp only [List.mem_append, not_or]
  exact ⟨by decide, not_mem_fmtDollars (by decide) (by decide) _, by decide⟩

theorem reasonParts_spec (s : BudgetState) :
    ∀ x ∈ reasonParts env s, (∃ c cs, x = c :: cs ∧ c ≠ 'w') ∧ ';' ∉ x := by
  intro x hx
  have hletter : ∃ c, x.head? = some c ∧ c ≠ 'w' ∧ ';' ∉ x := by
    rcases List.mem_append.mp hx with hx | hx
    · obtain ⟨hhead, hfree⟩ := tokensPart_spec env s x hx
      exact ⟨'t', hhead, by decide, hfree⟩
    · rcases List.mem_append.mp hx with hx | hx
      · obtain ⟨hhead, hfree⟩ := dollarsPart_spec env s x hx
        exact ⟨'d', hhead, by decide, hfree⟩
      · obtain ⟨hhead, hfree⟩ := unpricedPart_spec s x hx
        exact ⟨'u', hhead, by decide, hfree⟩
  obtain ⟨c, hhead, hc, hfree⟩ := hletter
  cases x with
  | nil => cases hhead
  | cons a cs =>
    have ha : a = c := Option.some.inj hhead
    exact ⟨⟨a, cs, rfl, ha ▸ hc⟩, hfree⟩

theorem reason_ne_within {s : BudgetState} (h : reasonParts env s ≠ []) :
    String.ofList ([';', ' '].intercalate (reasonParts env s)) ≠ "within budget" := by
  obtain ⟨x, xs, hparts⟩ := List.exists_cons_of_ne_nil h
  obtain ⟨⟨c, cs, hx, hc⟩, -⟩ := reasonParts_spec env s x (hparts ▸ List.mem_cons_self)
  intro htext
  have hhead : ([';', ' '].intercalate (reasonParts env s)).head? = some 'w' := by
    rw [← String.toList_ofList (l := [';', ' '].intercalate (reasonParts env s)), htext]
    decide
  have hc' : ([';', ' '].intercalate (reasonParts env s)).head? = some c := by
    rw [hparts, hx]
    cases xs with
    | nil => simp
    | cons y ys => simp [List.intercalate_cons_cons]
  rw [hc'] at hhead
  exact hc (Option.some.inj hhead)

/-- The explanation determines the parts that it is made of. -/
theorem reason_eq_iff {s t : BudgetState} :
    reason env s = reason env t ↔ reasonParts env s = reasonParts env t := by
  unfold reason
  constructor
  · intro h
    by_cases hs : reasonParts env s = []
    · by_cases ht : reasonParts env t = []
      · rw [hs, ht]
      · rw [if_pos hs, if_neg ht] at h
        exact absurd h.symm (reason_ne_within env ht)
    · by_cases ht : reasonParts env t = []
      · rw [if_neg hs, if_pos ht] at h
        exact absurd h (reason_ne_within env hs)
      · rw [if_neg hs, if_neg ht] at h
        exact intercalate_inj (fun x hx => (reasonParts_spec env s x hx).2)
          (fun x hx => (reasonParts_spec env t x hx).2) hs ht (String.ofList_injective h)
  · intro h
    rw [h]

theorem dollarsPart_eq_iff {s t : BudgetState} :
    dollarsPart env s = dollarsPart env t ↔ SameReached env s t := by
  unfold dollarsPart SameReached
  cases hs : dollarsOver env s <;> cases ht : dollarsOver env t
  · simp
  · simp
  · simp
  · simp only [if_true, List.cons.injEq, and_true, true_and, forall_const]
    constructor
    · intro h
      exact append_cons_inj (not_mem_fmtDollars (by decide) (by decide) _)
        (not_mem_fmtDollars (by decide) (by decide) _) (List.append_cancel_left h)
    · intro ⟨hspent, hbudget⟩
      rw [hspent, hbudget]

theorem unpricedPart_eq_iff {s t : BudgetState} :
    unpricedPart s = unpricedPart t ↔ SameUnpriced s t := by
  unfold unpricedPart SameUnpriced
  by_cases hs : s.dollarsUnpriced.getD (.fin 0) = .fin 0 <;>
    by_cases ht : t.dollarsUnpriced.getD (.fin 0) = .fin 0
  · simp [hs, ht]
  · simp [hs, ht]
  · simp [hs, ht]
  · simp only [ne_eq, hs, ht, not_false_eq_true, if_true, List.cons.injEq, and_true, true_and,
      forall_const]
    constructor
    · intro h
      exact List.append_cancel_right (List.append_cancel_left h)
    · intro h
      rw [h]

/-- The two parts that speak of dollars can be told apart. -/
theorem dollarParts_eq_iff {s t : BudgetState} :
    dollarsPart env s ++ unpricedPart s = dollarsPart env t ++ unpricedPart t ↔
      dollarsPart env s = dollarsPart env t ∧ unpricedPart s = unpricedPart t := by
  have hkept : ∀ u : BudgetState, (dollarsPart env u ++ unpricedPart u).filter
      (fun x => x.head? = some 'd') = dollarsPart env u := by
    intro u
    have hdollars : (dollarsPart env u).filter (fun x => x.head? = some 'd') =
        dollarsPart env u :=
      List.filter_eq_self.mpr fun x hx => decide_eq_true (dollarsPart_spec env u x hx).1
    have hunpriced : (unpricedPart u).filter (fun x => x.head? = some 'd') = [] := by
      refine List.filter_eq_nil_iff.mpr fun x hx => ?_
      rw [(unpricedPart_spec u x hx).1]
      decide
    rw [List.filter_append, hdollars, hunpriced, List.append_nil]
  constructor
  · intro h
    have hdollars : dollarsPart env s = dollarsPart env t := by
      rw [← hkept s, ← hkept t, h]
    rw [hdollars] at h
    exact ⟨hdollars, List.append_cancel_left h⟩
  · intro ⟨hdollars, hunpriced⟩
    rw [hdollars, hunpriced]

theorem reason_withDollars_iff {s : BudgetState} {d : Dollars} :
    reason env s = reason env (withDollars s d) ↔
      SameReached env s (withDollars s d) ∧ SameUnpriced s (withDollars s d) := by
  rw [reason_eq_iff]
  unfold reasonParts
  rw [tokensPart_withDollars, List.append_right_inj, dollarParts_eq_iff, dollarsPart_eq_iff,
    unpricedPart_eq_iff]

/-- With dollar accounting off, states that differ in dollars only have the same results just where
the tokens decide the warning or the dollars give the same one, and the dollars in the explanation
read alike. -/
theorem dollars_inert_iff {s : BudgetState} (d : Dollars)
    (hoff : costTrackingOff s.priceSnapshot = true) :
    SameResults env s (withDollars s d) ↔
      (TokensDecide env s ∨ dollarsNear env s = dollarsNear env (withDollars s d)) ∧
      SameReached env s (withDollars s d) ∧ SameUnpriced s (withDollars s d) := by
  have hoff' : costTrackingOff (withDollars s d).priceSnapshot = true := hoff
  have hhalt : overBudget env.toBudgetEnv s = overBudget env.toBudgetEnv (withDollars s d) := by
    rw [overBudget_of_off env hoff, overBudget_of_off env hoff', tokensOver_withDollars]
  unfold SameResults
  rw [crossedSoftWarn_eq_iff env hoff, reason_withDollars_iff]
  exact and_iff_right hhalt

/-- A run well within its tokens whose tenant keeps no dollar accounting. -/
def spent (dollarsUsed : ℚ) : BudgetState where
  tokensUsed := some 100
  tokensBudget := some 15000
  dollarsUsed := some (.fin dollarsUsed)
  dollarsBudget := some (.fin 5)
  priceSnapshot := some [("cost_tracking", .bool false)]

/-- One dollar or two of five make no difference. -/
theorem dollars_inert_untracked :
    SameResults {} (spent 1) (withDollars (spent 1) ⟨some (.fin 2), some (.fin 5), none⟩) :=
  (dollars_inert_iff {} _ rfl).mpr
    ⟨.inr (by decide +kernel), ⟨by decide +kernel, by decide +kernel⟩, by decide, by decide⟩

/-- Four of them warn, and six are given as a reason to halt. -/
theorem not_dollars_inert_untracked :
    crossedSoftWarn {} (spent 1) = .ok false ∧ crossedSoftWarn {} (spent 4) = .ok true ∧
      overBudget {} (spent 6) = false ∧ reason {} (spent 6) ≠ reason {} (spent 1) ∧
      ¬SameResults {} (spent 1)
        (withDollars (spent 1) ⟨some (.fin 4), some (.fin 5), none⟩) := by
  have hlow : crossedSoftWarn {} (spent 1) = .ok false := by decide +kernel
  have hhigh : crossedSoftWarn {} (spent 4) = .ok true := by decide +kernel
  have hreason : reason {} (spent 6) ≠ reason {} (spent 1) := by decide +kernel
  refine ⟨hlow, hhigh, by decide +kernel, hreason, ?_⟩
  intro ⟨_, hwarn, _⟩
  have hsame : crossedSoftWarn {} (spent 1) = crossedSoftWarn {} (spent 4) := hwarn
  rw [hlow, hhigh] at hsame
  cases hsame

end SocTalk.Graph
