import SocTalk.Lib.Json

/-! Byte strings, their hexadecimal text, UTF-8, and the comparison of digests. -/
namespace Py

abbrev Bytes := List UInt8

/-- `s.encode("utf-8")`. -/
def encode (s : String) : Bytes := s.toUTF8.data.toList

/-- `b.decode("utf-8")`; `none` where it raises `UnicodeDecodeError`. -/
def decode (b : Bytes) : Option String := String.fromUTF8? ⟨b.toArray⟩

@[simp] theorem decode_encode (s : String) : decode (encode s) = some s := by
  simp [decode, encode, String.fromUTF8?, s.isValidUTF8]
  rfl

/-- `b.hex()`. -/
def hex (b : Bytes) : List Char :=
  b.flatMap fun x => [Json.hexDigit (x.toNat / 16), Json.hexDigit (x.toNat % 16)]

def isAsciiSpace (c : Char) : Bool := c == ' ' || (9 ≤ c.toNat && c.toNat ≤ 13)

/-- `bytes.fromhex(s)`, with blanks between the bytes; `none` where it raises. -/
def fromhex : List Char → Option Bytes
  | [] => some []
  | c :: cs =>
    if isAsciiSpace c then fromhex cs
    else match cs with
      | [] => none
      | d :: cs => do
        let hi ← Json.hexDigit? c
        let lo ← Json.hexDigit? d
        return UInt8.ofNat (16 * hi + lo) :: (← fromhex cs)

theorem isAsciiSpace_hexDigit {n : ℕ} (h : n < 16) : isAsciiSpace (Json.hexDigit n) = false := by
  interval_cases n <;> rfl

theorem ne_dot_hexDigit {n : ℕ} (h : n < 16) : Json.hexDigit n ≠ '.' := by
  interval_cases n <;> decide

@[simp] theorem fromhex_hex (b : Bytes) : fromhex (hex b) = some b := by
  induction b with
  | nil => rfl
  | cons x b ih =>
    have hx : x.toNat < 256 := x.toNat_lt
    have hhi := Json.hexDigit?_hexDigit (n := x.toNat / 16) (by omega)
    have hlo := Json.hexDigit?_hexDigit (n := x.toNat % 16) (by omega)
    have hspace := isAsciiSpace_hexDigit (n := x.toNat / 16) (by omega)
    have hsum : 16 * (x.toNat / 16) + x.toNat % 16 = x.toNat := by omega
    have hbyte : UInt8.ofNat (16 * (x.toNat / 16) + x.toNat % 16) = x := by
      rw [hsum, UInt8.ofNat_toNat]
    have hcons : hex (x :: b) =
        Json.hexDigit (x.toNat / 16) :: Json.hexDigit (x.toNat % 16) :: hex b := rfl
    rw [hcons, fromhex, hspace]
    simp only [hhi, hlo, ih]
    exact congrArg (fun y => some (y :: b)) hbyte

theorem ne_dot_of_mem_hex {b : Bytes} {c : Char} (h : c ∈ hex b) : c ≠ '.' := by
  obtain ⟨x, -, hc⟩ := List.mem_flatMap.mp h
  have hx : x.toNat < 256 := x.toNat_lt
  rcases List.mem_cons.mp hc with rfl | hc
  · exact ne_dot_hexDigit (by omega)
  · obtain rfl := List.mem_singleton.mp hc
    exact ne_dot_hexDigit (by omega)

def isAscii (s : String) : Bool := s.toList.all fun c => c.toNat < 128

/-- `hmac.compare_digest(a, b)` of two texts. -/
def compareDigest (a b : String) : M Bool :=
  if isAscii a && isAscii b then .ok (a == b) else .error .typeError

/-- `head, tail = s.split(sep, 1)`; `none` where the unpacking raises. -/
def splitOnce (sep : Char) (s : String) : Option (String × String) :=
  match s.toList.dropWhile (· ≠ sep) with
  | [] => none
  | _ :: tail => some (String.ofList (s.toList.takeWhile (· ≠ sep)), String.ofList tail)

theorem splitOnce_append {sep : Char} {head : List Char} (tail : List Char)
    (h : ∀ c ∈ head, c ≠ sep) :
    splitOnce sep (String.ofList (head ++ sep :: tail)) =
      some (String.ofList head, String.ofList tail) := by
  have hpos : ∀ c ∈ head, decide (c ≠ sep) = true := fun c hc => by simpa using h c hc
  unfold splitOnce
  rw [String.toList_ofList, List.dropWhile_append_of_pos hpos, List.takeWhile_append_of_pos hpos]
  simp

end Py
