import Mathlib.Data.List.DropRight
import SocTalk.Lib.Float
import SocTalk.Lib.Raise

/-! Dynamically typed values: the JSON-shaped data a Python program passes around,
with the built-in operations on it and the exceptions they raise. -/
namespace Py

/-- The exception classes the operations below raise. -/
inductive Exc where
  | attributeError
  | typeError
  | valueError
  | overflowError
  | indexError
  | keyError
  deriving DecidableEq, Repr

/-- A computation that returns or raises. -/
abbrev M := Except Exc

/-- `enum v` is a member of a string enumeration with value `v`. -/
inductive Value where
  | none
  | bool (b : Bool)
  | int (n : ℤ)
  | float (x : FloatVal)
  | str (s : String)
  | enum (v : String)
  | list (xs : List Value)
  | dict (kvs : List (String × Value))

abbrev Dict := List (String × Value)

instance : Inhabited Value := ⟨.none⟩

/-! ## Text -/

/-- `str.lower` on ASCII letters. -/
def lower (s : String) : String := String.ofList (s.toList.map Char.toLower)

/-- `str.upper` on ASCII letters. -/
def upper (s : String) : String := String.ofList (s.toList.map Char.toUpper)

/-- The slice `s[:n]`. -/
def prefixOf (n : ℕ) (s : String) : String := String.ofList (s.toList.take n)

def isSpace (c : Char) : Bool :=
  c == ' ' || (9 ≤ c.toNat && c.toNat ≤ 13) || (28 ≤ c.toNat && c.toNat ≤ 31)

/-- `str.strip()`. -/
def strip (s : String) : String :=
  String.ofList ((s.toList.dropWhile isSpace).reverse.dropWhile isSpace).reverse

theorem toList_strip (s : String) :
    (strip s).toList = (s.toList.dropWhile isSpace).rdropWhile isSpace := by
  rw [strip, String.toList_ofList]
  rfl

/-- The first of a list that starts as `m` does is dropped only if that of `m` is. -/
theorem dropWhile_of_prefix {α : Type} {p : α → Bool} {l m : List α} (h : l <+: m)
    (hm : m.dropWhile p = m) : l.dropWhile p = l := by
  cases l with
  | nil => rfl
  | cons a l =>
    obtain ⟨rest, rfl⟩ := h
    have ha : ¬p a = true := (List.dropWhile_eq_self_iff.mp hm) (by simp)
    exact List.dropWhile_cons_of_neg ha

@[simp] theorem strip_strip (s : String) : strip (strip s) = strip s := by
  have hhead : ((s.toList.dropWhile isSpace).rdropWhile isSpace).dropWhile isSpace =
      (s.toList.dropWhile isSpace).rdropWhile isSpace :=
    dropWhile_of_prefix (List.rdropWhile_prefix _ _) (List.dropWhile_idempotent _ _)
  apply String.toList_injective
  rw [toList_strip (strip s), toList_strip s, hhead]
  exact List.rdropWhile_idempotent _ _

/-- Stripped text has no space at either end. -/
theorem ends_of_strip_eq {s : String} (h : strip s = s) :
    s.toList.dropWhile isSpace = s.toList ∧ s.toList.rdropWhile isSpace = s.toList := by
  have hlist : (s.toList.dropWhile isSpace).rdropWhile isSpace = s.toList := by
    rw [← toList_strip, h]
  have hle : s.toList.length ≤ (s.toList.dropWhile isSpace).length := by
    have := (List.rdropWhile_prefix isSpace (s.toList.dropWhile isSpace)).length_le
    rwa [hlist] at this
  have hdrop : s.toList.dropWhile isSpace = s.toList :=
    (List.dropWhile_suffix isSpace).eq_of_length_le hle
  rw [hdrop] at hlist
  exact ⟨hdrop, hlist⟩
/-- The pieces of `s.split(sep)` for a one-character separator. -/
def splitChars (sep : Char) : List Char → List (List Char)
  | [] => [[]]
  | c :: cs =>
    if c = sep then [] :: splitChars sep cs
    else match splitChars sep cs with
      | piece :: rest => (c :: piece) :: rest
      | [] => [[c]]

def split (sep : Char) (s : String) : List String := (splitChars sep s.toList).map String.ofList

/-- Digits with single underscores between them; `seen` tells whether a digit came last. -/
def digits? : Bool → ℕ → List Char → Option ℕ
  | seen, acc, [] => if seen then some acc else none
  | seen, acc, c :: cs =>
    if c.isDigit then digits? true (acc * 10 + (c.toNat - 48)) cs
    else if c = '_' ∧ seen then digits? false acc cs
    else none

/-- `int(s)` for ASCII digits. -/
def int (s : String) : M ℤ :=
  let parsed : Option ℤ := match (strip s).toList with
    | '-' :: cs => (digits? false 0 cs).map fun n => -(n : ℤ)
    | '+' :: cs => (digits? false 0 cs).map fun n => (n : ℤ)
    | cs => (digits? false 0 cs).map fun n => (n : ℤ)
  match parsed with
  | some n => .ok n
  | none => .error .valueError

theorem length_prefixOf (n : ℕ) (s : String) : (prefixOf n s).length ≤ n := by
  simp [prefixOf, String.length_ofList]

private def hexDigit (n : ℕ) : Char := (Nat.toDigits 16 n).headD '0'

private def reprChar (quote c : Char) : List Char :=
  if c == quote || c == '\\' then ['\\', c]
  else if c == '\n' then ['\\', 'n']
  else if c == '\r' then ['\\', 'r']
  else if c == '\t' then ['\\', 't']
  else if c.toNat < 32 || c.toNat == 127 then
    ['\\', 'x', hexDigit (c.toNat / 16), hexDigit (c.toNat % 16)]
  else [c]

/-- `repr` of a string; characters outside ASCII count as printable. -/
def reprStr (s : String) : String :=
  let quote := if s.toList.contains '\'' && !s.toList.contains '"' then '"' else '\''
  String.ofList (quote :: s.toList.flatMap (reprChar quote) ++ [quote])

mutual

def Value.repr : Value → String
  | .none => "None"
  | .bool b => if b then "True" else "False"
  | .int n => toString n
  | .float x => x.repr
  | .str s => reprStr s
  | .enum v => reprStr v
  | .list xs => "[" ++ Value.reprItems xs ++ "]"
  | .dict kvs => "\x7b" ++ Value.reprPairs kvs ++ "\x7d"

def Value.reprItems : List Value → String
  | [] => ""
  | [x] => Value.repr x
  | x :: y :: xs => Value.repr x ++ ", " ++ Value.reprItems (y :: xs)

def Value.reprPairs : List (String × Value) → String
  | [] => ""
  | [(k, v)] => reprStr k ++ ": " ++ Value.repr v
  | (k, v) :: p :: kvs => reprStr k ++ ": " ++ Value.repr v ++ ", " ++ Value.reprPairs (p :: kvs)

end

/-- `str(v)`. -/
def Value.toText : Value → String
  | .str s => s
  | v => v.repr

/-! ## Truth, equality, order -/

/-- `bool(v)`. -/
def Value.truthy : Value → Bool
  | .none => false
  | .bool b => b
  | .int n => n ≠ 0
  | .float x => x ≠ .fin 0
  | .str s => s ≠ ""
  | .enum v => v ≠ ""
  | .list xs => !xs.isEmpty
  | .dict kvs => !kvs.isEmpty

/-- `a or b`. -/
def Value.orElse (a b : Value) : Value := if a.truthy then a else b

@[simp] theorem Value.truthy_orElse_dict (v : Value) : (v.orElse (.dict [])).truthy = v.truthy := by
  unfold Value.orElse
  cases hv : v.truthy with
  | true => exact hv
  | false => rfl

/-- `v is not None`. -/
def Value.isSome : Value → Bool
  | .none => false
  | _ => true

/-- The number a value counts as in arithmetic comparisons. -/
def Value.num? : Value → Option FloatVal
  | .bool b => some (.fin (if b then 1 else 0))
  | .int n => some (.fin n)
  | .float x => some x
  | _ => .none

/-- The text of a `str` instance, enumeration members included. -/
def Value.text? : Value → Option String
  | .str s => some s
  | .enum v => some v
  | _ => .none

/-- The digits of a decimal literal after its sign: `12`, `1.5`, `.5`, `1e-3`. -/
def decimal? (cs : List Char) : Option ℚ := do
  let signed : List Char → Option ℤ := fun cs => match cs with
    | '-' :: ds => (digits? false 0 ds).map fun n => -(n : ℤ)
    | '+' :: ds => (digits? false 0 ds).map fun n => (n : ℤ)
    | ds => (digits? false 0 ds).map fun n => (n : ℤ)
  let mantissa : List Char → Option ℚ := fun cs => match splitChars '.' cs with
    | [a] => (digits? false 0 a).map fun n => (n : ℚ)
    | [a, b] => do
      let n ← if a.isEmpty && !b.isEmpty then some 0 else digits? false 0 a
      let m ← if b.isEmpty then some 0 else digits? false 0 b
      return n + m / 10 ^ (b.filter (· ≠ '_')).length
    | _ => none
  match splitChars 'e' (cs.map Char.toLower) with
  | [a] => mantissa a
  | [a, x] => do
    let q ← mantissa a
    let e ← signed x
    return q * 10 ^ e
  | _ => none

def floatOfText (s : String) : M FloatVal :=
  let unsigned : List Char → M FloatVal := fun cs =>
    let word := String.ofList (cs.map Char.toLower)
    if word = "inf" ∨ word = "infinity" then .ok .posInf
    else if word = "nan" then .ok .nan
    else match decimal? cs with
      | some q => .ok (FloatVal.ofRat q)
      | none => .error .valueError
  match (strip s).toList with
  | '-' :: cs => (unsigned cs).map FloatVal.neg
  | '+' :: cs => unsigned cs
  | cs => unsigned cs

/-- `float(v)`. -/
def Value.toFloat : Value → M FloatVal
  | .bool b => .ok (.fin (if b then 1 else 0))
  | .int n =>
    match FloatVal.ofRat n with
    | .fin q => .ok (.fin q)
    | _ => .error .overflowError
  | .float x => .ok x
  | .str s => floatOfText s
  | .enum v => floatOfText v
  | _ => .error .typeError

mutual

/-- `a == b`. -/
def Value.eq : Value → Value → Bool
  | .list xs, .list ys => Value.eqItems xs ys
  | .dict xs, .dict ys => xs.length == ys.length && Value.eqPairs xs ys
  | .none, .none => true
  | a, b =>
    match a.num?, b.num? with
    | some p, some q => p.eq q
    | _, _ =>
      match a.text?, b.text? with
      | some s, some t => s == t
      | _, _ => false

def Value.eqItems : List Value → List Value → Bool
  | [], [] => true
  | x :: xs, y :: ys => Value.eq x y && Value.eqItems xs ys
  | _, _ => false

def Value.eqPairs : List (String × Value) → List (String × Value) → Bool
  | [], _ => true
  | (k, v) :: xs, ys =>
    (match ys.lookup k with
      | .some w => Value.eq v w
      | .none => false) && Value.eqPairs xs ys

end

/-- The order comparisons `<`, `<=`, `>`, `>=`. -/
inductive CompareOp where
  | lt
  | le
  | gt
  | ge
  deriving DecidableEq

def CompareOp.floats : CompareOp → FloatVal → FloatVal → Bool
  | .lt, p, q => p.lt q
  | .le, p, q => p.le q
  | .gt, p, q => q.lt p
  | .ge, p, q => q.le p

def CompareOp.texts : CompareOp → String → String → Bool
  | .lt, s, t => s < t
  | .le, s, t => !decide (t < s)
  | .gt, s, t => t < s
  | .ge, s, t => !decide (s < t)

mutual

/-- An order comparison; values of unrelated types raise. -/
def Value.compare (op : CompareOp) : Value → Value → M Bool
  | .list xs, .list ys => Value.compareItems op xs ys
  | a, b =>
    match a.num?, b.num? with
    | some p, some q => .ok (op.floats p q)
    | _, _ =>
      match a.text?, b.text? with
      | some s, some t => .ok (op.texts s t)
      | _, _ => .error .typeError

/-- Lists compare at the first difference, else by length. -/
def Value.compareItems (op : CompareOp) : List Value → List Value → M Bool
  | [], [] => .ok (op == .le || op == .ge)
  | [], _ :: _ => .ok (op == .lt || op == .le)
  | _ :: _, [] => .ok (op == .gt || op == .ge)
  | x :: xs, y :: ys =>
    if Value.eq x y then Value.compareItems op xs ys else Value.compare op x y

end

/-- `t in s`: whether `t` occurs in `s`. -/
def isInfix (t : List Char) : List Char → Bool
  | [] => t.isEmpty
  | c :: cs => t.isPrefixOf (c :: cs) || isInfix t cs

/-- `hash(v)` raises for containers. -/
def Value.hashable : Value → Bool
  | .list _ => false
  | .dict _ => false
  | _ => true

/-! ## Containers -/

/-- `v.get(k)`: only dictionaries have the method. -/
def Value.get (v : Value) (k : String) : M Value :=
  match v with
  | .dict kvs => .ok ((kvs.lookup k).getD .none)
  | _ => .error .attributeError

def Value.isDict : Value → Bool
  | .dict _ => true
  | _ => false

def Dict.get (d : Dict) (k : String) : Value := (d.lookup k).getD .none

/-- `d.get(k, dflt)`. -/
def Dict.getOr (d : Dict) (k : String) (dflt : Value) : Value := (d.lookup k).getD dflt

/-- `d[k]`. -/
def Dict.item (d : Dict) (k : String) : M Value :=
  match d.lookup k with
  | some v => .ok v
  | none => .error .keyError

/-- `v.get(key)` for a key of any type; the keys of a dictionary are texts. -/
def Value.getKey (v key : Value) : M Value :=
  match v with
  | .dict d =>
    if key.hashable then .ok ((key.text?.bind fun k => d.lookup k).getD .none)
    else .error .typeError
  | _ => .error .attributeError

/-- `v.split(sep)`. -/
def Value.split (sep : Char) (v : Value) : M (List String) :=
  match v.text? with
  | .some s => .ok (Py.split sep s)
  | .none => .error .attributeError

/-- `d[k] = v`. -/
def Dict.set : Dict → String → Value → Dict
  | [], k, v => [(k, v)]
  | (k', v') :: d, k, v => if k' = k then (k, v) :: d else (k', v') :: Dict.set d k v

/-- `d.pop(k, None)`. -/
def Dict.pop (d : Dict) (k : String) : Dict := d.filter fun p => p.1 ≠ k

/-- `iter(v)`: lists, the keys of dictionaries and the characters of strings. -/
def Value.iter : Value → M (List Value)
  | .list xs => .ok xs
  | .dict kvs => .ok (kvs.map fun p => .str p.1)
  | .str s => .ok (s.toList.map fun c => .str (String.ofList [c]))
  | .enum v => .ok (v.toList.map fun c => .str (String.ofList [c]))
  | _ => .error .typeError

theorem Dict.returns_item (d : Dict) (k : String) :
    Returns (Dict.item d k) ↔ (d.lookup k).isSome := by
  unfold Dict.item
  cases d.lookup k <;> simp

theorem Value.returns_getKey (v key : Value) :
    Returns (Value.getKey v key) ↔ v.isDict = true ∧ key.hashable = true := by
  cases v <;> simp [Value.getKey, Value.isDict]
  split <;> simp_all

theorem Value.returns_split (sep : Char) (v : Value) :
    Returns (Value.split sep v) ↔ v.text?.isSome := by
  unfold Value.split
  cases v.text? <;> simp

@[simp] theorem Value.get_dict (d : Dict) (k : String) : Value.get (.dict d) k = .ok (Dict.get d k) := rfl

theorem Dict.lookup_set_self (d : Dict) (k : String) (v : Value) :
    (Dict.set d k v).lookup k = some v := by
  induction d with
  | nil => simp [Dict.set]
  | cons p d ih =>
    obtain ⟨key, value⟩ := p
    by_cases h : key = k
    · simp [Dict.set, h]
    · have hk : (k == key) = false := by simpa using fun e => h e.symm
      simpa [Dict.set, h, List.lookup_cons, hk] using ih

theorem Dict.lookup_set_of_ne (d : Dict) {k k' : String} (v : Value) (h : k' ≠ k) :
    (Dict.set d k v).lookup k' = d.lookup k' := by
  have hk : (k' == k) = false := by simpa using h
  induction d with
  | nil => simp [Dict.set, List.lookup_cons, hk]
  | cons p d ih =>
    obtain ⟨key, value⟩ := p
    by_cases hp : key = k
    · simp [Dict.set, List.lookup_cons, hp, hk]
    · cases hkp : k' == key with
      | true => simp [Dict.set, hp, List.lookup_cons, hkp]
      | false => simpa [Dict.set, hp, List.lookup_cons, hkp] using ih

@[simp] theorem Dict.get_set_self (d : Dict) (k : String) (v : Value) :
    Dict.get (Dict.set d k v) k = v := by
  rw [Dict.get, Dict.lookup_set_self, Option.getD_some]

theorem Dict.get_set_of_ne (d : Dict) {k k' : String} (v : Value) (h : k' ≠ k) :
    Dict.get (Dict.set d k v) k' = Dict.get d k' := by
  rw [Dict.get, Dict.lookup_set_of_ne d v h, Dict.get]

@[simp] theorem Dict.get_pop_self (d : Dict) (k : String) : Dict.get (Dict.pop d k) k = .none := by
  induction d with
  | nil => rfl
  | cons p d ih =>
    obtain ⟨key, value⟩ := p
    by_cases hp : key = k
    · simpa [Dict.get, Dict.pop, hp] using ih
    · have hk : (k == key) = false := by simpa using fun e => hp e.symm
      simpa [Dict.get, Dict.pop, hp, List.lookup_cons, hk] using ih

theorem Dict.get_pop_of_ne (d : Dict) {k k' : String} (h : k' ≠ k) :
    Dict.get (Dict.pop d k) k' = Dict.get d k' := by
  induction d with
  | nil => rfl
  | cons p d ih =>
    obtain ⟨key, value⟩ := p
    by_cases hp : key = k
    · have hk : (k' == k) = false := by simpa using h
      simpa [Dict.get, Dict.pop, hp, List.lookup_cons, hk] using ih
    · cases hk : k' == key with
      | true => simp [Dict.get, Dict.pop, hp, List.lookup_cons, hk]
      | false => simpa [Dict.get, Dict.pop, hp, List.lookup_cons, hk] using ih

end Py
