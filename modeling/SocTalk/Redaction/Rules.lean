import Mathlib.Algebra.GroupWithZero.Nat
import SocTalk.Lib.RegexSub

/-! The secret patterns and what `redact_text` makes of a text. -/
namespace SocTalk.Redaction
open Regex

/-! ## Characters -/

/-- `\s`. -/
def isSpace (c : Char) : Bool :=
  let n := c.toNat
  9 ≤ n && n ≤ 13 || 28 ≤ n && n ≤ 32 || n == 0x85 || n == 0xa0 || n == 0x1680 ||
    0x2000 ≤ n && n ≤ 0x200a || n == 0x2028 || n == 0x2029 || n == 0x202f || n == 0x205f ||
    n == 0x3000

/-- What Unicode says of characters: `str.isalnum` and the value of a decimal digit. -/
structure Tables where
  isAlnum : Char → Bool
  decimal : Char → Option ℕ
  isAlnum_ascii : ∀ c : Char, c.toNat < 128 → isAlnum c = c.isAlphanum
  decimal_ascii : ∀ c : Char, c.toNat < 128 →
    decimal c = if c.isDigit then some (c.toNat - 48) else none
  isAlnum_of_decimal : ∀ c, (decimal c).isSome = true → isAlnum c = true
  isSpace_of_decimal : ∀ c, (decimal c).isSome = true → isSpace c = false

def Tables.isWord (u : Tables) (c : Char) : Bool := u.isAlnum c || c == '_'

/-- The lower case under which `(?i)` compares. Four letters outside ASCII have one within it. -/
def foldCase (c : Char) : Char :=
  if c = '\u0130' ∨ c = '\u0131' then 'i'
  else if c = '\u017f' then 's'
  else if c = '\u212a' then 'k'
  else c.toLower

def isAny (cs : List Char) (c : Char) : Bool := cs.contains c

/-- A literal under `(?i)`, given in lower case. -/
def nocase (text : String) : Re := .each (text.toList.map fun c x => foldCase x == c)

/-! ## Patterns -/

/-- `[A-Za-z0-9_.\-]` under `(?i)`. -/
def isKeyChar (c : Char) : Bool := (foldCase c).isAlphanum || isAny ['_', '.', '-'] c

/-- `(?:pass(?:word|wd)?|pwd|secret|token|api[_-]?key|passphrase|credential)` under `(?i)`. -/
def sensitive : Re :=
  .alt (.seq (nocase "pass") (Re.alt (nocase "word") (nocase "wd")).opt) <|
  .alt (nocase "pwd") <|
  .alt (nocase "secret") <|
  .alt (nocase "token") <|
  .alt (.seq (nocase "api") <| .seq (Re.one (isAny ['_', '-'])).opt (nocase "key")) <|
  .alt (nocase "passphrase") (nocase "credential")

def secretKey : Re := .seq (.many isKeyChar 0) sensitive

def spaces : Re := .many isSpace 0

def pemKind : Re :=
  (Re.alt (.lit "RSA ") <| .alt (.lit "EC ") <| .alt (.lit "OPENSSH ") <|
    .alt (.lit "DSA ") (.lit "PGP ")).opt

def pemBegin : Re := .seq (.lit "-----BEGIN ") <| .seq pemKind (.lit "PRIVATE KEY-----")

def pemEnd : Re := .seq (.lit "-----END ") <| .seq pemKind (.lit "PRIVATE KEY-----")

def pem : Re := .seq pemBegin <| .seq (.few fun _ => true) pemEnd

/-- `[A-Za-z0-9_-]`. -/
def isSegment (c : Char) : Bool := c.isAlphanum || isAny ['_', '-'] c

def jwtText : Re :=
  .seq (.lit "eyJ") <| .seq (.many isSegment 5) <| .seq (.lit ".") <| .seq (.many isSegment 5) <|
    .seq (.lit ".") (.many isSegment 5)

def jwt : Re := .seq .boundary <| .seq jwtText .boundary

def awsKeyText : Re :=
  .seq (.lit "AKIA") (.each (List.replicate 16 fun c => c.isUpper || c.isDigit))

def awsKey : Re := .seq .boundary <| .seq awsKeyText .boundary

/-- `[A-Za-z0-9._~+/=-]` under `(?i)`. -/
def isTokenChar (c : Char) : Bool :=
  (foldCase c).isAlphanum || isAny ['.', '_', '~', '+', '/', '=', '-'] c

def authorizationText : Re :=
  .seq (nocase "authorization") <| .seq spaces <| .seq (.one (isAny [':', '='])) <| .seq spaces <|
    .seq (.alt (nocase "basic") (.alt (nocase "bearer") (nocase "digest"))) <|
    .seq (.many isSpace 1) (.many isTokenChar 6)

def authorization : Re := .seq .boundary authorizationText

def bearerText : Re :=
  .seq (nocase "bearer") <| .seq (.many isSpace 1) (.many isTokenChar 12)

def bearer : Re := .seq .boundary bearerText

/-- `[a-z0-9+.-]`. -/
def isSchemeChar (c : Char) : Bool := c.isLower || c.isDigit || isAny ['+', '.', '-'] c

/-- `[^\s:/@]`. -/
def isUserChar (c : Char) : Bool := !isSpace c && !isAny [':', '/', '@'] c

def urlScheme : Re := .seq (.one Char.isLower) <| .seq (.many isSchemeChar 0) (.lit "://")

def urlUser : Re := .seq urlScheme (.many isUserChar 1)

def urlCredential : Re :=
  .seq .boundary <| .seq (.group 1 urlUser) <| .seq (.lit ":") <| .seq (.many isUserChar 1) (.lit "@")

def isQuote : Char → Bool := isAny ['"', '\'']

def quotedPair : Re :=
  .seq (.group 1 (.one isQuote)) <| .seq secretKey <| .seq (.ref 1) <| .seq spaces <|
    .seq (.lit ":") <| .seq spaces <| .seq (.group 2 (.one isQuote)) <|
    .seq (.many (fun c => !isQuote c) 0) (.ref 2)

/-- `\b`, the key, `\b\s*[=:]\s*`. -/
def assigned (value : Re) : Re :=
  .seq .boundary <| .seq secretKey <| .seq .boundary <| .seq spaces <|
    .seq (.one (isAny ['=', ':'])) <| .seq spaces value

def quotedValue : Re :=
  assigned <| .seq (.lit "\"") <| .seq (.many (fun c => c != '"') 0) (.lit "\"")

/-- `[^\s,;&}\)\]]`. -/
def isValueChar (c : Char) : Bool := !isSpace c && !isAny [',', ';', '&', '}', ')', ']'] c

def bareValue : Re := assigned (.many isValueChar 1)

def cardText (u : Tables) : Re :=
  .times 13 19 <| .seq (.one fun c => (u.decimal c).isSome) (Re.one (isAny [' ', '-'])).opt

def cardNumber (u : Tables) : Re := .seq .boundary <| .seq (cardText u) .boundary

/-! ## Redaction -/

/-- A pattern and its label. -/
structure Rule where
  pattern : Re
  label : String

def rules (u : Tables) : List Rule := [
  ⟨pem, "private_key"⟩,
  ⟨jwt, "jwt"⟩,
  ⟨awsKey, "aws_key"⟩,
  ⟨authorization, "auth_token"⟩,
  ⟨bearer, "auth_token"⟩,
  ⟨urlCredential, "url_credential"⟩,
  ⟨quotedPair, "credential"⟩,
  ⟨quotedValue, "credential"⟩,
  ⟨bareValue, "credential"⟩,
  ⟨cardNumber u, "pan_candidate"⟩]

def marker (label : String) : List Char := ("<REDACTED:" ++ label ++ ">").toList

/-- The digits of a candidate, for `isdigit` and `int` meet nothing else there. -/
def luhnOk (u : Tables) (number : List Char) : Bool :=
  let digits := number.filterMap u.decimal
  let terms := digits.reverse.mapIdx fun i d =>
    if i % 2 = 1 then if d * 2 > 9 then d * 2 - 9 else d * 2 else d
  13 ≤ digits.length && digits.length ≤ 19 && terms.sum % 10 == 0

def replacement (u : Tables) (label : String) (m : List Char) (groups : ℕ → List Char) : List Char :=
  if label = "pan_candidate" then if luhnOk u m then marker "pan" else m
  else if label = "url_credential" then groups 1 ++ ":".toList ++ marker "url_credential" ++ "@".toList
  else marker label

def Rule.apply (u : Tables) (rule : Rule) (text : List Char) : List Char :=
  sub u.isWord rule.pattern (replacement u rule.label) text

def redact (u : Tables) (text : List Char) : List Char :=
  (rules u).foldl (fun out rule => rule.apply u out) text

def redactText (u : Tables) : Option String → Option String
  | none => none
  | some text => if text = "" then some text else some (String.ofList (redact u text.toList))

end SocTalk.Redaction
