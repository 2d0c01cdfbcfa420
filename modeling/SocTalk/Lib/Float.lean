import Mathlib.Algebra.Order.Floor.Ring
import Mathlib.Data.Nat.Log
import Mathlib.Data.Rat.Floor

/-! Double-precision numbers as exact values: rounding, comparison, the text `float`
reads and the text `repr` prints. Zeros are not signed. -/
namespace Py

/-- The value of a double. -/
inductive FloatVal where
  | fin (q : ℚ)
  | posInf
  | negInf
  | nan
  deriving DecidableEq

namespace FloatVal

/-- `a == b`; a NaN equals nothing. -/
def eq : FloatVal → FloatVal → Bool
  | .fin p, .fin q => p = q
  | .posInf, .posInf => true
  | .negInf, .negInf => true
  | _, _ => false

/-- `a < b`; a NaN is not ordered. -/
def lt : FloatVal → FloatVal → Bool
  | .fin p, .fin q => p < q
  | .fin _, .posInf => true
  | .negInf, .fin _ => true
  | .negInf, .posInf => true
  | _, _ => false

def le (a b : FloatVal) : Bool := a.lt b || a.eq b

def neg : FloatVal → FloatVal
  | .fin q => .fin (-q)
  | .posInf => .negInf
  | .negInf => .posInf
  | .nan => .nan

/-! ## Rounding -/

def roundHalfEven (q : ℚ) : ℤ :=
  let f := ⌊q⌋
  if q - f < 1 / 2 then f
  else if 1 / 2 < q - f then f + 1
  else if f % 2 = 0 then f else f + 1

/-- The exponent `k` with `b ^ k ≤ |q| < b ^ (k + 1)`, for nonzero `q`. -/
def ilog (b : ℕ) (q : ℚ) : ℤ :=
  let k : ℤ := Nat.log b q.num.natAbs - Nat.log b q.den
  if (b : ℚ) ^ k ≤ |q| then k else k - 1

/-- The nearest double, ties to even. -/
def ofRat (q : ℚ) : FloatVal :=
  if q = 0 then .fin 0
  else
    let ulp : ℚ := 2 ^ (max (ilog 2 q) (-1022) - 52)
    let v := roundHalfEven (q / ulp) * ulp
    if 2 ^ 1024 ≤ v then .posInf else if v ≤ -2 ^ 1024 then .negInf else .fin v

def sub : FloatVal → FloatVal → FloatVal
  | .fin p, .fin q => ofRat (p - q)
  | .fin _, y => y.neg
  | .posInf, .posInf => .nan
  | .negInf, .negInf => .nan
  | _, .nan => .nan
  | x, _ => x

/-- `max(0.0, x)`. -/
def nonneg (x : FloatVal) : FloatVal := if (fin 0).lt x then x else fin 0

/-! ## Text -/

/-- The shortest digits that read back as `q`, with the power of ten they are scaled by. -/
def shortest (q : ℚ) : ℕ → ℕ × ℤ
  | 0 => (0, 0)
  | n + 1 =>
    -- `n + 1` more digits may be tried, so `17 - n` digits are tried now.
    let p := ilog 10 q - (16 - n : ℕ)
    let m := (roundHalfEven (q / 10 ^ p)).toNat
    if n = 0 ∨ ofRat (m * 10 ^ p) = .fin q then (m, p) else shortest q n

private def zeros (n : ℕ) : List Char := List.replicate n '0'

private def trimZeros (ds : List Char) : List Char :=
  match (ds.reverse.dropWhile (· = '0')).reverse with
  | [] => ['0']
  | ds => ds

/-- `repr` of a positive double. -/
def reprPos (q : ℚ) : List Char :=
  let (m, p) := shortest q 17
  let all := Nat.toDigits 10 m
  let ds := trimZeros all
  let point : ℤ := all.length + p
  if -4 < point ∧ point ≤ 16 then
    if point ≤ 0 then '0' :: '.' :: zeros (-point).toNat ++ ds
    else if ds.length ≤ point.toNat then ds ++ zeros (point.toNat - ds.length) ++ ['.', '0']
    else ds.take point.toNat ++ '.' :: ds.drop point.toNat
  else
    let e := point - 1
    let ed := Nat.toDigits 10 e.natAbs
    let mantissa := match ds with
      | [d] => [d]
      | d :: ds => d :: '.' :: ds
      | [] => []
    mantissa ++ ['e', if e < 0 then '-' else '+'] ++ (if ed.length < 2 then '0' :: ed else ed)

def repr : FloatVal → String
  | .fin q => String.ofList (if q < 0 then '-' :: reprPos (-q) else if q = 0 then ['0', '.', '0']
      else reprPos q)
  | .posInf => "inf"
  | .negInf => "-inf"
  | .nan => "nan"

end FloatVal
end Py
