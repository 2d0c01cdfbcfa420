import Mathlib.Algebra.Group.Nat.Defs
import SocTalk.Lib.Rounding
import SocTalk.Lib.Value

/-! Objects of any type, as far as `str`, `float`, `int`, `bool` and `json.dumps` look at them, with
text over all code points, and what a JSONB column takes of the JSON that they are dumped as. -/
namespace Py

/-- Surrogates included. -/
abbrev CodePoint := Fin 0x110000

abbrev Text := List CodePoint

def CodePoint.isHigh (c : CodePoint) : Bool := 0xD800 ≤ c.val && c.val ≤ 0xDBFF

def CodePoint.isLow (c : CodePoint) : Bool := 0xDC00 ≤ c.val && c.val ≤ 0xDFFF

def text (s : String) : Text := s.toList.map fun c => Fin.ofNat 0x110000 c.toNat

inductive Obj where
  | none
  | bool (b : Bool)
  | int (n : ℤ)
  | float (x : FloatVal)
  | str (s : Text)
  /-- A list or a tuple. -/
  | list (xs : List Obj)
  | dict (kvs : List (Obj × Obj))
  /-- Of any other type: what `str`, `float`, `int` and `bool` of it come to, and its attribute
  `value`. -/
  | other (text : M Text) (number : M FloatVal) (whole : M ℤ) (truth : M Bool) (value : Option Obj)

instance : Inhabited Obj := ⟨.none⟩

/-- What depends on the Unicode tables, or on the text of a nested value. -/
structure Builtins where
  /-- Of floats, lists and dictionaries. -/
  repr : Obj → M Text
  floatOfText : Text → Option FloatVal
  intOfText : Text → Option ℤ

/-- `sys.set_int_max_str_digits`. -/
def intMaxStrDigits : ℕ := 4300

def decimal (n : ℤ) : M Text :=
  if n.natAbs < 10 ^ intMaxStrDigits then .ok (text (toString n)) else .error .valueError

variable (P : Builtins)

/-! ## Coercions -/

/-- `str(v)`. -/
def Obj.toStr : Obj → M Text
  | .none => .ok (text "None")
  | .bool b => .ok (text (if b then "True" else "False"))
  | .int n => decimal n
  | .str s => .ok s
  | .other text _ _ _ _ => text
  | v => P.repr v

/-- `float(v)`. -/
def Obj.toFloat : Obj → M FloatVal
  | .bool b => .ok (.fin (if b then 1 else 0))
  | .int n => (Value.int n).toFloat
  | .float x => .ok x
  | .str s => (P.floatOfText s).elim (.error .valueError) .ok
  | .other _ number _ _ _ => number
  | _ => .error .typeError

/-- `int(x)` of a float. -/
def FloatVal.truncate : FloatVal → M ℤ
  | .fin q => .ok (if 0 ≤ q then ⌊q⌋ else ⌈q⌉)
  | .nan => .error .valueError
  | _ => .error .overflowError

/-- `int(v)`. -/
def Obj.toInt : Obj → M ℤ
  | .bool b => .ok (if b then 1 else 0)
  | .int n => .ok n
  | .float x => x.truncate
  | .str s => (P.intOfText s).elim (.error .valueError) .ok
  | .other _ _ whole _ _ => whole
  | _ => .error .typeError

/-- `bool(v)`. -/
def Obj.truth : Obj → M Bool
  | .none => .ok false
  | .bool b => .ok b
  | .int n => .ok (n ≠ 0)
  | .float x => .ok (x ≠ .fin 0)
  | .str s => .ok (!s.isEmpty)
  | .list xs => .ok (!xs.isEmpty)
  | .dict kvs => .ok (!kvs.isEmpty)
  | .other _ _ _ truth _ => truth

/-- `round(x, digits)`; a double of this size has no decimals. -/
def FloatVal.roundTo (digits : ℕ) : FloatVal → FloatVal
  | .fin q =>
    if 2 ^ 52 ≤ |q| then .fin q else ofRat (roundHalfEven (q * 10 ^ digits) / 10 ^ digits)
  | x => x

/-! ## JSON -/

inductive JsonValue where
  | null
  | bool (b : Bool)
  | int (n : ℤ)
  | float (x : FloatVal)
  | text (s : Text)
  | array (xs : List JsonValue)
  | object (kvs : List (Text × JsonValue))

def Obj.isText : Obj → Bool
  | .str _ => true
  | _ => false

def Obj.isNumber : Obj → Bool
  | .bool _ | .int _ | .float _ => true
  | _ => false

/-- `sorted` compares the keys of the items. -/
def sortable (keys : List Obj) : Bool :=
  keys.length ≤ 1 || keys.all Obj.isText || keys.all Obj.isNumber

/-- The text of an object's key. -/
def Obj.jsonKey : Obj → M Text
  | .str s => .ok s
  | .none => .ok (text "null")
  | .bool b => .ok (text (if b then "true" else "false"))
  | .int n => decimal n
  | .float x => P.repr (.float x)
  | _ => .error .typeError

mutual

/-- `json.dumps(v, sort_keys=True, default=str)`, up to the order of the keys. -/
def Obj.toJson : Obj → M JsonValue
  | .none => .ok .null
  | .bool b => .ok (.bool b)
  | .int n => (decimal n).map fun _ => .int n
  | .float x => .ok (.float x)
  | .str s => .ok (.text s)
  | .list xs => (Obj.toJsonItems xs).map .array
  | .dict kvs =>
    if sortable (kvs.map Prod.fst) then (Obj.toJsonPairs kvs).map .object else .error .typeError
  | .other text _ _ _ _ => text.map .text

def Obj.toJsonItems : List Obj → M (List JsonValue)
  | [] => .ok []
  | x :: xs => do
    let j ← Obj.toJson x
    let js ← Obj.toJsonItems xs
    return j :: js

def Obj.toJsonPairs : List (Obj × Obj) → M (List (Text × JsonValue))
  | [] => .ok []
  | (k, v) :: kvs => do
    let key ← Obj.jsonKey P k
    let j ← Obj.toJson v
    let js ← Obj.toJsonPairs kvs
    return (key, j) :: js

end

/-- No U+0000, and surrogates in pairs only. -/
def Text.stored : Text → Bool
  | [] => true
  | [c] => c ≠ 0 && !c.isHigh && !c.isLow
  | c :: d :: rest =>
    if c.isHigh then d.isLow && Text.stored rest
    else c ≠ 0 && !c.isLow && Text.stored (d :: rest)

mutual

/-- The cast to JSONB takes it. -/
def JsonValue.stored : JsonValue → Bool
  | .null | .bool _ | .int _ => true
  | .float (.fin _) => true
  | .float _ => false
  | .text s => s.stored
  | .array xs => JsonValue.storedItems xs
  | .object kvs => JsonValue.storedPairs kvs

def JsonValue.storedItems : List JsonValue → Bool
  | [] => true
  | x :: xs => JsonValue.stored x && JsonValue.storedItems xs

def JsonValue.storedPairs : List (Text × JsonValue) → Bool
  | [] => true
  | (k, v) :: kvs => k.stored && JsonValue.stored v && JsonValue.storedPairs kvs

end

end Py
