import SocTalk.Lib.Value

/-! Sums and products of floats over a rounding of the exact result: `FloatVal.ofRat` rounds as a
double does, `FloatVal.fin` not at all. -/
namespace Py

namespace FloatVal

variable (round : ℚ → FloatVal)

/-- `a + b`. -/
def add : FloatVal → FloatVal → FloatVal
  | .fin p, .fin q => round (p + q)
  | .nan, _ => .nan
  | _, .nan => .nan
  | .posInf, .negInf => .nan
  | .negInf, .posInf => .nan
  | .fin _, y => y
  | x, _ => x

/-- `a * b`. -/
def mul : FloatVal → FloatVal → FloatVal
  | .fin p, .fin q => round (p * q)
  | .nan, _ => .nan
  | _, .nan => .nan
  | .fin p, y => if p = 0 then .nan else if 0 < p then y else y.neg
  | x, .fin q => if q = 0 then .nan else if 0 < q then x else x.neg
  | .posInf, y => y
  | .negInf, y => y.neg

/-- A whole number in arithmetic with floats; one past the largest float raises. -/
def ofInt (n : ℤ) : M FloatVal :=
  match round n with
  | .fin q => .ok (.fin q)
  | _ => .error .overflowError

end FloatVal

/-- `try: x except caught: None`. -/
def attempt {α : Type} (caught : List Exc) (x : M α) : M (Option α) :=
  match x with
  | .ok a => .ok (some a)
  | .error e => if caught.contains e then .ok none else .error e

@[simp] theorem attempt_ok {α : Type} (caught : List Exc) (a : α) :
    attempt caught (.ok a) = .ok (some a) := rfl

/-- An attempt goes on exactly if what is raised, if anything, is caught. -/
theorem attempt_eq_ok {α : Type} {caught : List Exc} {x : M α} {read : Option α} :
    attempt caught x = .ok read ↔ (∀ e, x = .error e → e ∈ caught) ∧ x.toOption = read := by
  unfold attempt
  cases x with
  | ok a => simp [Except.toOption]
  | error e =>
    dsimp only
    split
    · rename_i hmem
      simp [Except.toOption, List.contains_iff_mem.mp hmem]
    · rename_i hmem
      refine iff_of_false (by simp) fun h => hmem ?_
      exact List.contains_iff_mem.mpr (h.1 e rfl)

/-- `v` where it is a dictionary. -/
def Value.dict? : Value → Option Dict
  | .dict d => some d
  | _ => Option.none

/-- The values of `v or {}`. -/
def Value.values (v : Value) : M (List Value) :=
  match v.orElse (.dict []) with
  | .dict d => .ok (d.map (·.2))
  | _ => .error .attributeError

end Py
