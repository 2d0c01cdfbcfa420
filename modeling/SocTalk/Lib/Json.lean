import SocTalk.Lib.Value
import Mathlib.Tactic.IntervalCases

/-! JSON text: what `json.dumps` writes with compact separators, what `json.loads` reads, and that
reading undoes writing. Escapes that name a lone surrogate are not read, as no text holds one. -/
namespace Py.Json

/-! ## Writing -/

def hexDigit (n : ℕ) : Char := n.digitChar

def hexDigit? (c : Char) : Option ℕ :=
  if '0' ≤ c ∧ c ≤ '9' then some (c.toNat - 48)
  else if 'a' ≤ c ∧ c ≤ 'f' then some (c.toNat - 87)
  else if 'A' ≤ c ∧ c ≤ 'F' then some (c.toNat - 55)
  else none

/-- The escape of one UTF-16 unit. -/
def unitEscape (n : ℕ) : List Char :=
  ['\\', 'u', hexDigit (n / 4096), hexDigit (n / 256 % 16), hexDigit (n / 16 % 16), hexDigit (n % 16)]

/-- How `ensure_ascii` writes a character. -/
def escape (c : Char) : List Char :=
  if c = '"' then ['\\', '"']
  else if c = '\\' then ['\\', '\\']
  else if c = '\n' then ['\\', 'n']
  else if c = '\r' then ['\\', 'r']
  else if c = '\t' then ['\\', 't']
  else if c.toNat = 8 then ['\\', 'b']
  else if c.toNat = 12 then ['\\', 'f']
  else if 32 ≤ c.toNat ∧ c.toNat < 127 then [c]
  else if c.toNat < 65536 then unitEscape c.toNat
  else unitEscape (55296 + (c.toNat - 65536) / 1024) ++ unitEscape (56320 + (c.toNat - 65536) % 1024)

def dumpText (s : String) : List Char := '"' :: s.toList.flatMap escape ++ ['"']

def dumpInt (n : ℤ) : List Char :=
  if n < 0 then '-' :: Nat.toDigits 10 n.natAbs else Nat.toDigits 10 n.natAbs

def dumpFloat : FloatVal → List Char
  | .fin q => (FloatVal.fin q).repr.toList
  | .posInf => "Infinity".toList
  | .negInf => "-Infinity".toList
  | .nan => "NaN".toList

mutual

/-- `json.dumps(v, separators=(",", ":"))`. -/
def dump : Value → List Char
  | .none => "null".toList
  | .bool b => if b then "true".toList else "false".toList
  | .int n => dumpInt n
  | .float x => dumpFloat x
  | .str s => dumpText s
  | .enum v => dumpText v
  | .list [] => ['[', ']']
  | .list (x :: xs) => '[' :: dump x ++ dumpItems xs
  | .dict [] => ['\x7b', '\x7d']
  | .dict ((k, v) :: kvs) => '\x7b' :: dumpText k ++ ':' :: dump v ++ dumpPairs kvs

def dumpItems : List Value → List Char
  | [] => [']']
  | x :: xs => ',' :: dump x ++ dumpItems xs

def dumpPairs : List (String × Value) → List Char
  | [] => ['\x7d']
  | (k, v) :: kvs => ',' :: dumpText k ++ ':' :: dump v ++ dumpPairs kvs

end

def dumps (v : Value) : String := String.ofList (dump v)

/-! ## Reading -/

/-- The code units of a text up to its closing quote; control characters are refused. -/
def readUnits : List Char → Option (List ℕ × List Char)
  | '"' :: rest => some ([], rest)
  | '\\' :: 'u' :: a :: b :: c :: d :: rest => do
    let unit := 4096 * (← hexDigit? a) + 256 * (← hexDigit? b) + 16 * (← hexDigit? c) + (← hexDigit? d)
    let (units, rest) ← readUnits rest
    return (unit :: units, rest)
  | '\\' :: c :: rest => do
    let unit ← match c with
      | '"' => some 34
      | '\\' => some 92
      | '/' => some 47
      | 'b' => some 8
      | 'f' => some 12
      | 'n' => some 10
      | 'r' => some 13
      | 't' => some 9
      | _ => none
    let (units, rest) ← readUnits rest
    return (unit :: units, rest)
  | c :: rest =>
    if c.toNat < 32 then none
    else do
      let (units, rest) ← readUnits rest
      return (c.toNat :: units, rest)
  | [] => none

/-- Surrogate pairs joined. -/
def joinUnits : List ℕ → Option (List Char)
  | [] => some []
  | [u] => if 55296 ≤ u ∧ u < 57344 then none else some [Char.ofNat u]
  | u :: v :: units =>
    if 55296 ≤ u ∧ u < 56320 ∧ 56320 ≤ v ∧ v < 57344 then
      (joinUnits units).map (Char.ofNat (65536 + (u - 55296) * 1024 + (v - 56320)) :: ·)
    else if 55296 ≤ u ∧ u < 57344 then none
    else (joinUnits (v :: units)).map (Char.ofNat u :: ·)

/-- A text after its opening quote. -/
def readText (cs : List Char) : Option (String × List Char) := do
  let (units, rest) ← readUnits cs
  let chars ← joinUnits units
  return (String.ofList chars, rest)

/-- The fraction at the head of the text, if there is one, and what follows it. -/
def readFraction : List Char → List Char × List Char
  | '.' :: r =>
    let ds := r.takeWhile Char.isDigit
    if ds = [] then ([], '.' :: r) else ('.' :: ds, r.drop ds.length)
  | rest => ([], rest)

def readExponent : List Char → List Char × List Char
  | e :: r =>
    if e = 'e' ∨ e = 'E' then
      let (sign, r') := match r with
        | '-' :: r' => (['-'], r')
        | '+' :: r' => (['+'], r')
        | r' => ([], r')
      let ds := r'.takeWhile Char.isDigit
      if ds = [] then ([], e :: r) else (e :: sign ++ ds, r'.drop ds.length)
    else ([], e :: r)
  | [] => ([], [])

/-- The digits of an integer part; a leading zero ends it. -/
def readWhole (body : List Char) : List Char :=
  let digits := body.takeWhile Char.isDigit
  if digits.head? = some '0' then ['0'] else digits

def readUnsigned (sign body : List Char) : Option (Value × List Char) :=
  let whole := readWhole body
  let (fraction, rest) := readFraction (body.drop whole.length)
  let (exponent, rest) := readExponent rest
  if whole = [] then none
  else if fraction = [] ∧ exponent = [] then
    let n : ℤ := Nat.ofDigitChars 10 whole 0
    some (.int (if sign = [] then n else -n), rest)
  else
    match floatOfText (String.ofList (sign ++ whole ++ fraction ++ exponent)) with
    | .ok x => some (.float x, rest)
    | .error _ => none

def readNumber : List Char → Option (Value × List Char)
  | '-' :: body => readUnsigned ['-'] body
  | body => readUnsigned [] body

def isBlank (c : Char) : Bool := c = ' ' || c = '\t' || c = '\n' || c = '\r'

def skip (cs : List Char) : List Char := cs.dropWhile isBlank

mutual

/-- The value at the head of the text; the fuel bounds the values read. -/
def readValue : ℕ → List Char → Option (Value × List Char)
  | 0, _ => none
  | n + 1, cs =>
    match cs with
    | '"' :: rest => (readText rest).map fun (s, rest) => (.str s, rest)
    | '\x7b' :: rest =>
      match skip rest with
      | '\x7d' :: rest => some (.dict [], rest)
      | rest => (readPairs n rest).map fun (kvs, rest) =>
        (.dict (kvs.foldl (fun d p => Dict.set d p.1 p.2) []), rest)
    | '[' :: rest =>
      match skip rest with
      | ']' :: rest => some (.list [], rest)
      | rest => (readItems n rest).map fun (xs, rest) => (.list xs, rest)
    | 'n' :: 'u' :: 'l' :: 'l' :: rest => some (.none, rest)
    | 't' :: 'r' :: 'u' :: 'e' :: rest => some (.bool true, rest)
    | 'f' :: 'a' :: 'l' :: 's' :: 'e' :: rest => some (.bool false, rest)
    | 'N' :: 'a' :: 'N' :: rest => some (.float .nan, rest)
    | 'I' :: 'n' :: 'f' :: 'i' :: 'n' :: 'i' :: 't' :: 'y' :: rest => some (.float .posInf, rest)
    | '-' :: 'I' :: 'n' :: 'f' :: 'i' :: 'n' :: 'i' :: 't' :: 'y' :: rest =>
      some (.float .negInf, rest)
    | cs => readNumber cs

/-- A value, then the items after it up to the closing bracket. -/
def readItems : ℕ → List Char → Option (List Value × List Char)
  | 0, _ => none
  | n + 1, cs => do
    let (x, rest) ← readValue n cs
    match skip rest with
    | ']' :: rest => return ([x], rest)
    | ',' :: rest =>
      let (xs, rest) ← readItems n (skip rest)
      return (x :: xs, rest)
    | _ => none

def readPairs : ℕ → List Char → Option (List (String × Value) × List Char)
  | 0, _ => none
  | n + 1, cs =>
    match cs with
    | '"' :: rest => do
      let (k, rest) ← readText rest
      match skip rest with
      | ':' :: rest =>
        let (v, rest) ← readValue n (skip rest)
        match skip rest with
        | '\x7d' :: rest => return ([(k, v)], rest)
        | ',' :: rest =>
          let (kvs, rest) ← readPairs n (skip rest)
          return ((k, v) :: kvs, rest)
        | _ => none
      | _ => none
    | _ => none

end

/-- `json.loads(s)`; `none` where it raises `JSONDecodeError`. -/
def loads (s : String) : Option Value :=
  let cs := s.toList
  match readValue (cs.length + 1) (skip cs) with
  | some (v, rest) => if skip rest = [] then some v else none
  | none => none

/-! ## Texts read back -/

theorem hexDigit?_hexDigit {n : ℕ} (h : n < 16) : hexDigit? (hexDigit n) = some n := by
  interval_cases n <;> rfl

/-- The code units that the escapes of a character name. -/
def units (c : Char) : List ℕ :=
  if c.toNat < 65536 then [c.toNat]
  else [55296 + (c.toNat - 65536) / 1024, 56320 + (c.toNat - 65536) % 1024]

theorem readUnits_unitEscape {n : ℕ} (h : n < 65536) (rest : List Char) :
    readUnits (unitEscape n ++ rest) = (readUnits rest).map fun r => (n :: r.1, r.2) := by
  have h₁ := hexDigit?_hexDigit (n := n / 4096) (by omega)
  have h₂ := hexDigit?_hexDigit (n := n / 256 % 16) (by omega)
  have h₃ := hexDigit?_hexDigit (n := n / 16 % 16) (by omega)
  have h₄ := hexDigit?_hexDigit (n := n % 16) (by omega)
  have hsum : 4096 * (n / 4096) + 256 * (n / 256 % 16) + 16 * (n / 16 % 16) + n % 16 = n := by
    omega
  simp only [unitEscape, List.cons_append, List.nil_append, readUnits, h₁, h₂, h₃, h₄]
  show (readUnits rest).bind _ = _
  rw [hsum]
  cases readUnits rest <;> rfl

theorem char_toNat_lt (c : Char) : c.toNat < 55296 ∨ 57343 < c.toNat ∧ c.toNat < 1114112 := by
  have hvalid := c.valid
  rcases hvalid with hlow | hhigh
  · left
    exact hlow
  · right
    exact hhigh

theorem readUnits_plain {c : Char} (rest : List Char) (hq : c ≠ '"') (hb : c ≠ '\\')
    (hc : 32 ≤ c.toNat) :
    readUnits (c :: rest) = (readUnits rest).map fun r => (c.toNat :: r.1, r.2) := by
  have hnot : ¬c.toNat < 32 := by omega
  rw [readUnits.eq_def]
  split
  next heq => exact absurd (List.cons.inj heq).1 hq
  next heq => exact absurd (List.cons.inj heq).1 hb
  next heq => exact absurd (List.cons.inj heq).1 hb
  next heq =>
    obtain ⟨rfl, rfl⟩ := List.cons.inj heq
    rw [if_neg hnot]
    cases readUnits rest <;> rfl
  next heq => cases heq

theorem readUnits_escape (c : Char) (rest : List Char) :
    readUnits (escape c ++ rest) = (readUnits rest).map fun r => (units c ++ r.1, r.2) := by
  have hvalid := char_toNat_lt c
  unfold escape
  split_ifs with hquote hslash hn hr ht hb hf hplain hsmall
  · subst hquote
    simp [readUnits, units]
    cases readUnits rest <;> rfl
  · subst hslash
    simp [readUnits, units]
    cases readUnits rest <;> rfl
  · subst hn
    simp [readUnits, units]
    cases readUnits rest <;> rfl
  · subst hr
    simp [readUnits, units]
    cases readUnits rest <;> rfl
  · subst ht
    simp [readUnits, units]
    cases readUnits rest <;> rfl
  · simp [readUnits, units, hb]
    cases readUnits rest <;> rfl
  · simp [readUnits, units, hf]
    cases readUnits rest <;> rfl
  · have hunits : units c = [c.toNat] := if_pos (by omega)
    simp only [hunits, List.cons_append, List.nil_append]
    exact readUnits_plain rest hquote hslash hplain.1
  · have hunits : units c = [c.toNat] := if_pos hsmall
    simp only [hunits, List.cons_append, List.nil_append]
    exact readUnits_unitEscape hsmall rest
  · have hunits : units c = [55296 + (c.toNat - 65536) / 1024, 56320 + (c.toNat - 65536) % 1024] :=
      if_neg hsmall
    rw [List.append_assoc, readUnits_unitEscape (by omega), readUnits_unitEscape (by omega), hunits]
    cases readUnits rest <;> rfl

theorem readUnits_text (cs rest : List Char) :
    readUnits (cs.flatMap escape ++ '"' :: rest) = some (cs.flatMap units, rest) := by
  induction cs with
  | nil => rfl
  | cons c cs ih =>
    rw [List.flatMap_cons, List.append_assoc, readUnits_escape, ih, List.flatMap_cons]
    rfl

theorem joinUnits_units (c : Char) (us : List ℕ) :
    joinUnits (units c ++ us) = (joinUnits us).map (c :: ·) := by
  have hvalid := char_toNat_lt c
  unfold units
  split_ifs with hsmall
  · have hnot : ¬(55296 ≤ c.toNat ∧ c.toNat < 57344) := by omega
    cases us with
    | nil => simp [joinUnits, hnot]
    | cons v us =>
      have hpair : ¬(55296 ≤ c.toNat ∧ c.toNat < 56320 ∧ 56320 ≤ v ∧ v < 57344) := by omega
      simp [joinUnits, hnot, hpair]
  · have hpair : 55296 ≤ 55296 + (c.toNat - 65536) / 1024 ∧
        55296 + (c.toNat - 65536) / 1024 < 56320 ∧
        56320 ≤ 56320 + (c.toNat - 65536) % 1024 ∧
        56320 + (c.toNat - 65536) % 1024 < 57344 := by omega
    have hsum : 65536 + (55296 + (c.toNat - 65536) / 1024 - 55296) * 1024 +
        (56320 + (c.toNat - 65536) % 1024 - 56320) = c.toNat := by omega
    simp only [List.cons_append, List.nil_append, joinUnits, if_pos hpair, hsum, Char.ofNat_toNat]

theorem joinUnits_text (cs : List Char) : joinUnits (cs.flatMap units) = some cs := by
  induction cs with
  | nil => rfl
  | cons c cs ih => rw [List.flatMap_cons, joinUnits_units, ih, Option.map_some]

theorem readText_dump (s : String) (rest : List Char) :
    readText (s.toList.flatMap escape ++ '"' :: rest) = some (s, rest) := by
  unfold readText
  rw [readUnits_text]
  show (joinUnits _).bind _ = _
  rw [joinUnits_text]
  simp

/-! ## Numbers read back -/

/-- The text cannot go on with the number before it. -/
def NumberEnds (rest : List Char) : Prop :=
  ∀ c ∈ rest.head?, c.isDigit = false ∧ c ≠ '.' ∧ c ≠ 'e' ∧ c ≠ 'E'

theorem head_toDigits {n : ℕ} (h : 0 < n) : (Nat.toDigits 10 n).head? ≠ some '0' := by
  induction n using Nat.strongRecOn with
  | ind n ih =>
    by_cases hlt : n < 10
    · rw [Nat.toDigits_of_lt_base hlt]
      simp only [List.head?_cons, ne_eq, Option.some.injEq, Nat.digitChar_eq_zero]
      omega
    · rw [Nat.toDigits_of_base_le (by omega) (by omega)]
      have hrec := ih (n / 10) (by omega) (by omega)
      cases hd : Nat.toDigits 10 (n / 10) with
      | nil => exact absurd hd Nat.toDigits_ne_nil
      | cons d ds =>
        rw [hd] at hrec
        simpa using hrec

theorem isDigit_of_mem {n : ℕ} {c : Char} (h : c ∈ Nat.toDigits 10 n) : c.isDigit = true :=
  Nat.isDigit_of_mem_toDigits (by omega) (by omega) h

theorem readWhole_toDigits (n : ℕ) {rest : List Char} (h : NumberEnds rest) :
    readWhole (Nat.toDigits 10 n ++ rest) = Nat.toDigits 10 n := by
  have htake : (Nat.toDigits 10 n ++ rest).takeWhile Char.isDigit = Nat.toDigits 10 n := by
    rw [List.takeWhile_append_of_pos fun c hc => isDigit_of_mem hc]
    cases rest with
    | nil => simp
    | cons c rest => simp [(h c rfl).1]
  unfold readWhole
  rw [htake]
  rcases Nat.eq_zero_or_pos n with rfl | hpos
  · rfl
  · exact if_neg (head_toDigits hpos)

theorem readFraction_ends {rest : List Char} (h : NumberEnds rest) :
    readFraction rest = ([], rest) := by
  unfold readFraction
  split
  · exact absurd rfl (h '.' rfl).2.1
  · rfl

theorem readExponent_ends {rest : List Char} (h : NumberEnds rest) :
    readExponent rest = ([], rest) := by
  cases rest with
  | nil => rfl
  | cons c rest =>
    have hc := h c rfl
    simp [readExponent, hc.2.2.1, hc.2.2.2]

theorem readUnsigned_toDigits (sign : List Char) (n : ℕ) {rest : List Char} (h : NumberEnds rest) :
    readUnsigned sign (Nat.toDigits 10 n ++ rest) =
      some (.int (if sign = [] then (n : ℤ) else -n), rest) := by
  have hvalue : Nat.ofDigitChars 10 (Nat.toDigits 10 n) 0 = n := Nat.ofDigitChars_ten_toDigits
  unfold readUnsigned
  simp only [readWhole_toDigits n h, List.drop_left, readFraction_ends h, readExponent_ends h,
    hvalue]
  simp

theorem readNumber_dump (n : ℤ) {rest : List Char} (h : NumberEnds rest) :
    readNumber (dumpInt n ++ rest) = some (.int n, rest) := by
  unfold dumpInt
  split
  · have habs : -(n.natAbs : ℤ) = n := by omega
    rw [List.cons_append, readNumber, readUnsigned_toDigits _ _ h, if_neg (by simp), habs]
  · have hsign : readNumber (Nat.toDigits 10 n.natAbs ++ rest) =
        readUnsigned [] (Nat.toDigits 10 n.natAbs ++ rest) := by
      obtain ⟨d, ds, hd⟩ := List.exists_cons_of_ne_nil (Nat.toDigits_ne_nil (n := n.natAbs) (b := 10))
      have hdigit : d.isDigit = true := isDigit_of_mem (n := n.natAbs) (by simp [hd])
      rw [hd, List.cons_append]
      unfold readNumber
      split
      next heq =>
        obtain ⟨rfl, -⟩ := List.cons.inj heq
        cases hdigit
      next => rfl
    have habs : (n.natAbs : ℤ) = n := by omega
    rw [hsign, readUnsigned_toDigits _ _ h, if_pos rfl, habs]

/-! ## Values read back -/

mutual

/-- Values without floats and enumeration members, their keys apart. -/
def Plain : Value → Prop
  | .float _ => False
  | .enum _ => False
  | .list xs => PlainItems xs
  | .dict kvs => (kvs.map Prod.fst).Nodup ∧ PlainPairs kvs
  | _ => True

def PlainItems : List Value → Prop
  | [] => True
  | x :: xs => Plain x ∧ PlainItems xs

def PlainPairs : List (String × Value) → Prop
  | [] => True
  | (_, v) :: kvs => Plain v ∧ PlainPairs kvs

end

mutual

/-- Fuel enough to read the value back. -/
def cost : Value → ℕ
  | .list xs => 1 + costItems xs
  | .dict kvs => 1 + costPairs kvs
  | _ => 1

def costItems : List Value → ℕ
  | [] => 0
  | x :: xs => 1 + cost x + costItems xs

def costPairs : List (String × Value) → ℕ
  | [] => 0
  | (_, v) :: kvs => 1 + cost v + costPairs kvs

end

/-- How the text of a value begins. -/
theorem dump_head {v : Value} (h : Plain v) :
    ∃ c cs, dump v = c :: cs ∧ isBlank c = false ∧ c ≠ ']' ∧ c ≠ '\x7d' := by
  cases v with
  | none => exact ⟨'n', _, rfl, by decide, by decide, by decide⟩
  | bool b => cases b <;> exact ⟨_, _, rfl, by decide, by decide, by decide⟩
  | int n =>
    obtain ⟨d, ds, hd⟩ := List.exists_cons_of_ne_nil (Nat.toDigits_ne_nil (n := n.natAbs) (b := 10))
    have hdigit : d.isDigit = true := isDigit_of_mem (n := n.natAbs) (by simp [hd])
    have hparts : isBlank d = false ∧ d ≠ ']' ∧ d ≠ '\x7d' := by
      refine ⟨?_, ?_, ?_⟩
      · unfold isBlank
        by_contra hblank
        simp only [Bool.not_eq_false, Bool.or_eq_true, decide_eq_true_eq] at hblank
        rcases hblank with ((rfl | rfl) | rfl) | rfl <;> cases hdigit
      · rintro rfl
        cases hdigit
      · rintro rfl
        cases hdigit
    by_cases hn : n < 0
    · exact ⟨'-', _, by rw [dump, dumpInt, if_pos hn], by decide, by decide, by decide⟩
    · exact ⟨d, ds, by rw [dump, dumpInt, if_neg hn, hd], hparts⟩
  | float x => exact h.elim
  | str s => exact ⟨'"', _, rfl, by decide, by decide, by decide⟩
  | enum s => exact h.elim
  | list xs => cases xs <;> exact ⟨_, _, rfl, by decide, by decide, by decide⟩
  | dict kvs => cases kvs <;> exact ⟨_, _, rfl, by decide, by decide, by decide⟩

theorem skip_cons {c : Char} (cs : List Char) (h : isBlank c = false) :
    skip (c :: cs) = c :: cs := by
  simp [skip, h]

theorem skip_dump {v : Value} (h : Plain v) (rest : List Char) :
    skip (dump v ++ rest) = dump v ++ rest := by
  obtain ⟨c, cs, hc, hblank, -⟩ := dump_head h
  rw [hc, List.cons_append, skip_cons _ hblank]

theorem numberEnds_cons {c : Char} (cs : List Char)
    (h : c.isDigit = false ∧ c ≠ '.' ∧ c ≠ 'e' ∧ c ≠ 'E') : NumberEnds (c :: cs) := by
  intro d hd
  obtain rfl : c = d := by simpa using hd
  exact h

theorem numberEnds_items (xs : List Value) (rest : List Char) :
    NumberEnds (dumpItems xs ++ rest) := by
  cases xs with
  | nil => exact numberEnds_cons _ (by decide)
  | cons x xs => exact numberEnds_cons _ (by decide)

theorem numberEnds_pairs (kvs : List (String × Value)) (rest : List Char) :
    NumberEnds (dumpPairs kvs ++ rest) := by
  cases kvs with
  | nil => exact numberEnds_cons _ (by decide)
  | cons p kvs => exact numberEnds_cons _ (by decide)

theorem readValue_digit {d : Char} (h : d.isDigit = true) (m : ℕ) (cs : List Char) :
    readValue (m + 1) (d :: cs) = readNumber (d :: cs) := by
  rw [readValue.eq_def]
  dsimp only
  split
  all_goals
    first
    | rfl
    | rename_i heq
      obtain ⟨rfl, -⟩ := List.cons.inj heq
      cases h

theorem readValue_negative {d : Char} (h : d.isDigit = true) (m : ℕ) (cs : List Char) :
    readValue (m + 1) ('-' :: d :: cs) = readNumber ('-' :: d :: cs) := by
  rw [readValue.eq_def]
  dsimp only
  split
  case h_9 rest heq =>
    obtain ⟨rfl, -⟩ := List.cons.inj (List.cons.inj heq).2
    cases h
  all_goals
    first
    | rfl
    | rename_i heq
      cases (List.cons.inj heq).1

theorem readValue_int (n : ℤ) (m : ℕ) {rest : List Char} (h : NumberEnds rest) :
    readValue (m + 1) (dumpInt n ++ rest) = some (.int n, rest) := by
  obtain ⟨d, ds, hd⟩ := List.exists_cons_of_ne_nil (Nat.toDigits_ne_nil (n := n.natAbs) (b := 10))
  have hdigit : d.isDigit = true := isDigit_of_mem (n := n.natAbs) (by simp [hd])
  rw [← readNumber_dump n h]
  unfold dumpInt
  rw [hd]
  split
  · exact readValue_negative hdigit m (ds ++ rest)
  · exact readValue_digit hdigit m (ds ++ rest)

theorem cost_pos (v : Value) : 1 ≤ cost v := by
  cases v <;> simp [cost]

/-- What `readItems` does once it has read the first item. -/
theorem readItems_step {x : Value} {n : ℕ} {cs rest : List Char}
    (hx : readValue n cs = some (x, rest)) :
    readItems (n + 1) cs =
      match skip rest with
      | ']' :: rest => some ([x], rest)
      | ',' :: rest => (readItems n (skip rest)).map fun r => (x :: r.1, r.2)
      | _ => none := by
  rw [readItems, hx]
  dsimp only [Option.bind_eq_bind, Option.bind_some]
  split
  · rfl
  · cases readItems n (skip _) <;> rfl
  · rfl

theorem readPairs_step {k : String} {v : Value} {n : ℕ} {cs rest : List Char}
    (hblank : skip cs = cs) (hv : readValue n cs = some (v, rest)) :
    readPairs (n + 1) (dumpText k ++ ':' :: cs) =
      match skip rest with
      | '\x7d' :: rest => some ([(k, v)], rest)
      | ',' :: rest => (readPairs n (skip rest)).map fun r => ((k, v) :: r.1, r.2)
      | _ => none := by
  have htext := readText_dump k (':' :: cs)
  simp only [dumpText, List.cons_append, List.append_assoc, List.nil_append, readPairs]
  rw [htext]
  dsimp only [Option.bind_eq_bind, Option.bind_some]
  rw [skip_cons cs (by decide : isBlank ':' = false)]
  change (readValue n (skip cs)).bind _ = _
  rw [hblank, hv]
  dsimp only [Option.bind_eq_bind, Option.bind_some]
  split
  · rfl
  · cases readPairs n (skip _) <;> rfl
  · rfl

theorem set_of_notMem {d : Dict} {k : String} (v : Value) (h : k ∉ d.map Prod.fst) :
    Dict.set d k v = d ++ [(k, v)] := by
  induction d with
  | nil => rfl
  | cons p d ih =>
    have hne : p.1 ≠ k := fun heq => h (by simp [heq])
    have hrest : k ∉ d.map Prod.fst := fun hmem => h (List.mem_cons_of_mem _ hmem)
    simp [Dict.set, hne, ih hrest]

/-- Pairs with different keys, set one after another, are the dictionary of these pairs. -/
theorem foldl_set {kvs : List (String × Value)} (h : (kvs.map Prod.fst).Nodup) :
    kvs.foldl (fun d p => Dict.set d p.1 p.2) [] = kvs := by
  have hgen : ∀ (d : Dict) (kvs : List (String × Value)), ((d ++ kvs).map Prod.fst).Nodup →
      kvs.foldl (fun d p => Dict.set d p.1 p.2) d = d ++ kvs := by
    intro d kvs
    induction kvs generalizing d with
    | nil => simp
    | cons p kvs ih =>
      intro hnodup
      have hnew : p.1 ∉ d.map Prod.fst := by
        rw [List.map_append, List.nodup_append] at hnodup
        intro hmem
        exact hnodup.2.2 p.1 hmem p.1 (by simp) rfl
      have happ : d ++ p :: kvs = (d ++ [p]) ++ kvs := by simp
      rw [List.foldl_cons, set_of_notMem p.2 hnew, happ]
      exact ih (d ++ [p]) (by rwa [← happ])
  simpa using hgen [] kvs (by simpa using h)

mutual

/-- Reading undoes writing. -/
theorem readValue_dump : ∀ {v : Value} {n : ℕ} {rest : List Char}, Plain v → cost v ≤ n →
    NumberEnds rest → readValue n (dump v ++ rest) = some (v, rest)
  | v, 0, _, _, hcost, _ => by
    have hpos := cost_pos v
    omega
  | .none, n + 1, _, _, _, _ => rfl
  | .bool true, n + 1, _, _, _, _ => rfl
  | .bool false, n + 1, _, _, _, _ => rfl
  | .int k, n + 1, _, _, _, hends => readValue_int k n hends
  | .float _, _, _, h, _, _ => h.elim
  | .enum _, _, _, h, _, _ => h.elim
  | .str s, n + 1, rest, _, _, _ => by
    have htext := readText_dump s rest
    simp only [dump, dumpText, List.cons_append, List.append_assoc, List.nil_append, readValue]
    rw [htext]
    rfl
  | .list [], n + 1, rest, _, _, _ => rfl
  | .list (x :: xs), n + 1, rest, h, hcost, _ => by
    have hn : costItems (x :: xs) ≤ n := by
      rw [cost] at hcost
      omega
    have hitems := readItems_dump h hn rest
    have hskip := skip_dump h.1 (dumpItems xs ++ rest)
    obtain ⟨c, cs, hc, -, hend, -⟩ := dump_head h.1
    simp only [dump, List.cons_append, List.append_assoc, readValue]
    rw [hskip]
    split
    next heq =>
      rw [hc] at heq
      exact absurd (List.cons.inj heq).1 hend
    next =>
      rw [hitems]
      rfl
  | .dict [], n + 1, rest, _, _, _ => rfl
  | .dict ((k, v) :: kvs), n + 1, rest, h, hcost, _ => by
    have hn : costPairs ((k, v) :: kvs) ≤ n := by
      rw [cost] at hcost
      omega
    have hpairs := readPairs_dump (k := k) h.2 hn rest
    have hskip : skip (dumpText k ++ ':' :: (dump v ++ (dumpPairs kvs ++ rest))) =
        dumpText k ++ ':' :: (dump v ++ (dumpPairs kvs ++ rest)) := skip_cons _ (by decide)
    simp only [dump, List.cons_append, List.append_assoc, readValue]
    rw [hskip]
    split
    next heq => cases (List.cons.inj heq).1
    next =>
      rw [hpairs, Option.map_some, foldl_set h.1]

theorem readItems_dump : ∀ {x : Value} {xs : List Value} {n : ℕ},
    PlainItems (x :: xs) → costItems (x :: xs) ≤ n → ∀ rest : List Char,
    readItems n (dump x ++ (dumpItems xs ++ rest)) = some (x :: xs, rest)
  | _, _, 0, _, hcost, _ => by
    rw [costItems] at hcost
    omega
  | x, xs, n + 1, h, hcost, rest => by
    rw [costItems] at hcost
    have hx := readValue_dump (n := n) h.1 (by omega) (numberEnds_items xs rest)
    rw [readItems_step hx]
    cases xs with
    | nil => rfl
    | cons y ys =>
      have hys := readItems_dump (n := n) h.2 (by omega) rest
      have hskip := skip_dump h.2.1 (dumpItems ys ++ rest)
      simp only [dumpItems, List.cons_append, List.append_assoc]
      rw [skip_cons _ (by decide : isBlank ',' = false)]
      change (readItems n (skip (dump y ++ (dumpItems ys ++ rest)))).map _ = _
      rw [hskip, hys]
      rfl

theorem readPairs_dump : ∀ {k : String} {v : Value} {kvs : List (String × Value)} {n : ℕ},
    PlainPairs ((k, v) :: kvs) → costPairs ((k, v) :: kvs) ≤ n → ∀ rest : List Char,
    readPairs n (dumpText k ++ ':' :: (dump v ++ (dumpPairs kvs ++ rest))) =
      some ((k, v) :: kvs, rest)
  | _, _, _, 0, _, hcost, _ => by
    rw [costPairs] at hcost
    omega
  | k, v, kvs, n + 1, h, hcost, rest => by
    rw [costPairs] at hcost
    have hv := readValue_dump (n := n) h.1 (by omega) (numberEnds_pairs kvs rest)
    rw [readPairs_step (skip_dump h.1 _) hv]
    cases kvs with
    | nil => rfl
    | cons p ps =>
      obtain ⟨k', w⟩ := p
      have hps := readPairs_dump (k := k') (n := n) h.2 (by omega) rest
      have hskip : skip (dumpText k' ++ ':' :: (dump w ++ (dumpPairs ps ++ rest))) =
          dumpText k' ++ ':' :: (dump w ++ (dumpPairs ps ++ rest)) := skip_cons _ (by decide)
      simp only [dumpPairs, List.cons_append, List.append_assoc]
      rw [skip_cons _ (by decide : isBlank ',' = false)]
      change (readPairs n (skip (dumpText k' ++ ':' :: (dump w ++ (dumpPairs ps ++ rest))))).map _ = _
      rw [hskip, hps]
      rfl

end

mutual

theorem cost_le_length : ∀ {v : Value}, Plain v → cost v ≤ (dump v).length
  | .none, _ => by decide
  | .bool true, _ => by decide
  | .bool false, _ => by decide
  | .int n, _ => by
    obtain ⟨c, cs, hc, -⟩ := dump_head (v := .int n) trivial
    simp [cost, hc]
  | .float _, h => h.elim
  | .enum _, h => h.elim
  | .str s, _ => by simp [cost, dump, dumpText]
  | .list [], _ => by decide
  | .list (x :: xs), h => by
    have hx := cost_le_length h.1
    have hxs := costItems_le_length h.2
    simp only [cost, costItems, dump, List.length_cons, List.length_append]
    omega
  | .dict [], _ => by decide
  | .dict ((k, v) :: kvs), h => by
    have hv := cost_le_length h.2.1
    have hkvs := costPairs_le_length h.2.2
    simp only [cost, costPairs, dump, List.length_cons, List.length_append]
    omega

theorem costItems_le_length : ∀ {xs : List Value}, PlainItems xs →
    costItems xs + 1 ≤ (dumpItems xs).length
  | [], _ => by decide
  | x :: xs, h => by
    have hx := cost_le_length h.1
    have hxs := costItems_le_length h.2
    simp only [costItems, dumpItems, List.length_cons, List.length_append]
    omega

theorem costPairs_le_length : ∀ {kvs : List (String × Value)}, PlainPairs kvs →
    costPairs kvs + 1 ≤ (dumpPairs kvs).length
  | [], _ => by decide
  | (k, v) :: kvs, h => by
    have hv := cost_le_length h.1
    have hkvs := costPairs_le_length h.2
    simp only [costPairs, dumpPairs, List.length_cons, List.length_append]
    omega

end

/-- `json.loads(json.dumps(v)) == v`. -/
theorem loads_dumps {v : Value} (h : Plain v) : loads (dumps v) = some v := by
  have hcost := cost_le_length h
  have hread : readValue ((dump v).length + 1) (dump v ++ []) = some (v, []) :=
    readValue_dump h (by omega) (by simp [NumberEnds])
  rw [List.append_nil] at hread
  have hskip := skip_dump h []
  rw [List.append_nil] at hskip
  unfold loads dumps
  simp only [String.toList_ofList, hskip, hread]
  rfl

end Py.Json
