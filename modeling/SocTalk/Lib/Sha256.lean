import Mathlib.Data.Nat.Notation

/-! SHA-256 of a text, in hexadecimal. -/
namespace Sha256

/-- The round constants. -/
def K : List ℕ := [
  0x428a2f98, 0x71374491, 0xb5c0fbcf, 0xe9b5dba5, 0x3956c25b, 0x59f111f1,
  0x923f82a4, 0xab1c5ed5, 0xd807aa98, 0x12835b01, 0x243185be, 0x550c7dc3,
  0x72be5d74, 0x80deb1fe, 0x9bdc06a7, 0xc19bf174, 0xe49b69c1, 0xefbe4786,
  0x0fc19dc6, 0x240ca1cc, 0x2de92c6f, 0x4a7484aa, 0x5cb0a9dc, 0x76f988da,
  0x983e5152, 0xa831c66d, 0xb00327c8, 0xbf597fc7, 0xc6e00bf3, 0xd5a79147,
  0x06ca6351, 0x14292967, 0x27b70a85, 0x2e1b2138, 0x4d2c6dfc, 0x53380d13,
  0x650a7354, 0x766a0abb, 0x81c2c92e, 0x92722c85, 0xa2bfe8a1, 0xa81a664b,
  0xc24b8b70, 0xc76c51a3, 0xd192e819, 0xd6990624, 0xf40e3585, 0x106aa070,
  0x19a4c116, 0x1e376c08, 0x2748774c, 0x34b0bcb5, 0x391c0cb3, 0x4ed8aa4a,
  0x5b9cca4f, 0x682e6ff3, 0x748f82ee, 0x78a5636f, 0x84c87814, 0x8cc70208,
  0x90befffa, 0xa4506ceb, 0xbef9a3f7, 0xc67178f2]

def word (n : ℕ) : ℕ := Nat.mod n 4294967296

def rotr (x n : ℕ) : ℕ := Nat.lor (Nat.shiftRight x n) (word (Nat.shiftLeft x (Nat.sub 32 n)))

def xor3 (x y z : ℕ) : ℕ := Nat.xor (Nat.xor x y) z

/-- The next word of the schedule from the sixteen before it. -/
def nextWord : List ℕ → ℕ
  | w0 :: w1 :: _ :: _ :: _ :: _ :: _ :: _ :: _ :: w9 :: _ :: _ :: _ :: _ :: w14 :: _ =>
    let s0 := xor3 (rotr w1 7) (rotr w1 18) (Nat.shiftRight w1 3)
    let s1 := xor3 (rotr w14 17) (rotr w14 19) (Nat.shiftRight w14 10)
    word (Nat.add (Nat.add (Nat.add w0 s0) w9) s1)
  | _ => 0

structure Digest where
  a : ℕ
  b : ℕ
  c : ℕ
  d : ℕ
  e : ℕ
  f : ℕ
  g : ℕ
  h : ℕ

def round (s : Digest) (k w : ℕ) : Digest :=
  match s with
  | ⟨a, b, c, d, e, f, g, h⟩ =>
    let ch := Nat.xor (Nat.land e f) (Nat.land (Nat.sub 4294967295 e) g)
    let t1 := Nat.add (Nat.add (Nat.add (Nat.add h (xor3 (rotr e 6) (rotr e 11) (rotr e 25))) ch) k) w
    let maj := xor3 (Nat.land a b) (Nat.land a c) (Nat.land b c)
    let t2 := Nat.add (xor3 (rotr a 2) (rotr a 13) (rotr a 22)) maj
    ⟨word (Nat.add t1 t2), a, b, c, word (Nat.add d t1), e, f, g⟩

/-- The rounds of a block; `w` holds the sixteen words that come next. -/
def rounds : List ℕ → List ℕ → Digest → Digest
  | [], _, s => s
  | k :: ks, w, s => rounds ks (w.tail ++ [nextWord w]) (round s k (w.headD 0))

def compress (s : Digest) (block : List ℕ) : Digest :=
  let t := rounds K block s
  ⟨word (s.a + t.a), word (s.b + t.b), word (s.c + t.c), word (s.d + t.d), word (s.e + t.e),
    word (s.f + t.f), word (s.g + t.g), word (s.h + t.h)⟩

def utf8 (c : Char) : List ℕ :=
  let n := c.toNat
  if n < 0x80 then [n]
  else if n < 0x800 then [0xc0 + n / 64, 0x80 + n % 64]
  else if n < 0x10000 then [0xe0 + n / 4096, 0x80 + n / 64 % 64, 0x80 + n % 64]
  else [0xf0 + n / 262144, 0x80 + n / 4096 % 64, 0x80 + n / 64 % 64, 0x80 + n % 64]

/-- The message with its end mark, zeros up to a whole block and its length in bits. -/
def pad (bytes : List ℕ) : List ℕ :=
  let zeros := (119 - bytes.length % 64) % 64
  let bits := bytes.length * 8
  bytes ++ [0x80] ++ List.replicate zeros 0 ++ (List.range 8).map fun i => bits >>> (56 - 8 * i) % 256

def words : List ℕ → List ℕ
  | a :: b :: c :: d :: bytes => (((a * 256 + b) * 256 + c) * 256 + d) :: words bytes
  | _ => []

/-- The first `n` blocks. -/
def blocks : ℕ → List ℕ → Digest → Digest
  | 0, _, s => s
  | n + 1, ws, s => blocks n (ws.drop 16) (compress s (ws.take 16))

def initial : Digest :=
  ⟨0x6a09e667, 0xbb67ae85, 0x3c6ef372, 0xa54ff53a, 0x510e527f, 0x9b05688c, 0x1f83d9ab, 0x5be0cd19⟩

def hexWord (n : ℕ) : List Char :=
  (List.range 8).map fun i => (n >>> (28 - 4 * i) % 16).digitChar

def ofChars (text : List Char) : String :=
  let ws := words (pad (text.flatMap utf8))
  let s := blocks (ws.length / 16) ws initial
  String.ofList ([s.a, s.b, s.c, s.d, s.e, s.f, s.g, s.h].flatMap hexWord)

def hexdigest (text : String) : String := ofChars text.toList

theorem hexdigest_ofList (text : List Char) : hexdigest (String.ofList text) = ofChars text := by
  unfold hexdigest
  rw [String.toList_ofList]

example : hexdigest "abc" =
    "ba7816bf8f01cfea414140de5dae2223b00361a396177a9cb410ff61f20015ad" := by
  decide +kernel

end Sha256
