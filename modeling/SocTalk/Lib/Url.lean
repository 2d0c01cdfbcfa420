import SocTalk.Lib.Value

/-! Parsed URLs: how `urlparse` finds the scheme, the host and the port, and when it raises. -/
namespace Py.Url

/-- What `urlsplit` leaves to the Unicode tables and to `ipaddress`. -/
structure Tables where
  nfkc : List Char → List Char
  /-- `_check_bracketed_netloc` accepts. -/
  bracketed : List Char → Bool

variable (T : Tables)

/-! ## Splitting at a character -/

def before (sep : Char) (cs : List Char) : List Char := cs.takeWhile (· ≠ sep)

/-- What follows the first separator, empty where there is none. -/
def after (sep : Char) (cs : List Char) : List Char := (cs.dropWhile (· ≠ sep)).tail

/-- What follows the last separator, everything where there is none. -/
def afterLast (sep : Char) (cs : List Char) : List Char :=
  (cs.reverse.takeWhile (· ≠ sep)).reverse

/-! ## The authority -/

structure SplitResult where
  scheme : List Char
  netloc : List Char

def schemeChar (c : Char) : Bool := c.isAlphanum || c = '+' || c = '-' || c = '.'

/-- The scheme in lower case and what follows it, where the text starts with one. -/
def splitScheme (cs : List Char) : List Char × List Char :=
  let scheme := before ':' cs
  if ':' ∈ cs ∧ scheme.head?.any Char.isAlpha = true ∧ scheme.all schemeChar = true then
    (scheme.map Char.toLower, after ':' cs)
  else ([], cs)

theorem splitScheme_append {s rest : List Char} (hcolon : ':' ∉ s)
    (hhead : s.head?.any Char.isAlpha = true) (hall : s.all schemeChar = true) :
    splitScheme (s ++ ':' :: rest) = (s.map Char.toLower, rest) := by
  have hstop : ∀ c ∈ s, decide (c ≠ ':') = true := by
    intro c hc
    exact decide_eq_true (fun h => hcolon (h ▸ hc))
  have hbefore : before ':' (s ++ ':' :: rest) = s := by
    rw [before, List.takeWhile_append_of_pos hstop]
    simp
  have hafter : after ':' (s ++ ':' :: rest) = rest := by
    rw [after, List.dropWhile_append_of_pos hstop]
    simp
  unfold splitScheme
  rw [hbefore, hafter, if_pos ⟨by simp, hhead, hall⟩]

/-- `_checknetloc`: no character of the authority may turn into a delimiter. -/
def checkNetloc (netloc : List Char) : M Unit :=
  if netloc = [] ∨ netloc.all (fun c => c.toNat < 128) = true then .ok ()
  else
    let n := netloc.filter fun c => !(['@', ':', '#', '?'].contains c)
    if n = T.nfkc n then .ok ()
    else if ['/', '?', '#', '@', ':'].any (T.nfkc n).contains then .error .valueError
    else .ok ()

def urlsplit (url : String) : M SplitResult := do
  let cs := (url.toList.dropWhile fun c => c.toNat ≤ 32).filter fun c =>
    !(['\t', '\r', '\n'].contains c)
  let (scheme, rest) := splitScheme cs
  match rest with
  | '/' :: '/' :: rest =>
    let netloc := rest.takeWhile fun c => !(['/', '?', '#'].contains c)
    if netloc.contains '[' != netloc.contains ']' then .error .valueError
    else if netloc.contains '[' && !T.bracketed netloc then .error .valueError
    else do
      checkNetloc T netloc
      .ok ⟨scheme, netloc⟩
  | _ => .ok ⟨scheme, []⟩

/-- The path of `urlsplit(url)`, where that returns. -/
def path (url : String) : List Char :=
  let cs := (url.toList.dropWhile fun c => c.toNat ≤ 32).filter fun c =>
    !(['\t', '\r', '\n'].contains c)
  let (_, rest) := splitScheme cs
  let rest := match rest with
    | '/' :: '/' :: rest => rest.dropWhile fun c => !(['/', '?', '#'].contains c)
    | _ => rest
  rest.takeWhile fun c => !(['?', '#'].contains c)

/-! ## Host and port -/

/-- `_hostinfo`. -/
def SplitResult.hostinfo (u : SplitResult) : List Char × Option (List Char) :=
  let info := afterLast '@' u.netloc
  let host := if '[' ∈ info then before ']' (after '[' info) else before ':' info
  let port := if '[' ∈ info then after ':' (after ']' (after '[' info)) else after ':' info
  (host, if port = [] then none else some port)

/-- `hostname`: lower case up to the zone of an IPv6 address. -/
def SplitResult.hostname (u : SplitResult) : Option String :=
  let host := u.hostinfo.1
  if host = [] then none
  else some (String.ofList ((before '%' host).map Char.toLower ++ host.dropWhile (· ≠ '%')))

def decimal (cs : List Char) : ℕ := cs.foldl (fun n c => n * 10 + (c.toNat - 48)) 0

/-- `port`; it raises on what is not a number up to 65535. -/
def SplitResult.port (u : SplitResult) : M (Option ℕ) :=
  match u.hostinfo.2 with
  | none => .ok none
  | some digits =>
    if digits.all Char.isDigit = true ∧ decimal digits ≤ 65535 then .ok (some (decimal digits))
    else .error .valueError

/-- `urlparse(url).hostname`. -/
def hostname (url : String) : M (Option String) := do
  let u ← urlsplit T url
  .ok u.hostname

/-- The URL can be parsed, and its port too. -/
def Parses (url : String) : Prop := Returns (do let u ← urlsplit T url; u.port)

instance (url : String) : Decidable (Parses T url) :=
  match h : (do let u ← urlsplit T url; u.port : M (Option ℕ)) with
  | .ok p => isTrue ⟨p, h⟩
  | .error _ => isFalse fun ⟨p, hp⟩ => by rw [h] at hp; cases hp

variable {T}

theorem parses_iff {url : String} :
    Parses T url ↔ ∃ u, urlsplit T url = .ok u ∧ Returns u.port :=
  returns_bind_iff _ _

end Py.Url
