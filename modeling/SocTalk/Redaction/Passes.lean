import SocTalk.Lib.Splice
import SocTalk.Redaction.Rules

/-! One pass of a rule: what it leaves of the text, what it replaces, and what stands beside that. -/
namespace SocTalk.Redaction
open Regex Splice

/-! ## Characters -/

theorem forall_ascii {P : Char → Bool} (h : ((List.range 128).all fun n => P (Char.ofNat n)) = true)
    {c : Char} (hc : c.toNat < 128) : P c = true := by
  have hmem := List.all_eq_true.mp h c.toNat (List.mem_range.mpr hc)
  rw [Char.ofNat_toNat] at hmem
  exact hmem

theorem isAlphanum_eq (c : Char) : c.isAlphanum = (c.isUpper || c.isLower || c.isDigit) := rfl

theorem isAlpha_eq (c : Char) : c.isAlpha = (c.isUpper || c.isLower) := rfl

theorem isUpper_eq (c : Char) : c.isUpper = decide (c.val ≥ 'A'.val ∧ c.val ≤ 'Z'.val) := rfl

theorem isLower_eq (c : Char) : c.isLower = (c.val ≥ 'a'.val && c.val ≤ 'z'.val) := rfl

theorem isDigit_eq (c : Char) : c.isDigit = (c.val ≥ '0'.val && c.val ≤ '9'.val) := rfl

theorem isAlpha_of_isLower {c : Char} (h : c.isLower = true) : c.isAlpha = true := by
  rw [isAlpha_eq, h, Bool.or_true]

theorem ascii_of_isAlphanum {c : Char} (h : c.isAlphanum = true) : c.toNat < 128 := by
  simp only [isAlphanum_eq, isUpper_eq, isLower_eq, isDigit_eq, Bool.or_eq_true,
    Bool.and_eq_true, decide_eq_true_eq, ge_iff_le, UInt32.le_iff_toNat_le] at h
  have hval : c.val.toNat = c.toNat := rfl
  have hupper : 'Z'.val.toNat = 90 := rfl
  have hlower : 'z'.val.toNat = 122 := rfl
  have hdigit : '9'.val.toNat = 57 := rfl
  omega

theorem ascii_of_isAlpha {c : Char} (h : c.isAlpha = true) : c.toNat < 128 :=
  ascii_of_isAlphanum (by rw [isAlphanum_eq, ← isAlpha_eq, h, Bool.true_or])

theorem isTokenChar_of_isAlpha {c : Char} (h : c.isAlpha = true) : isTokenChar c = true := by
  have hall := forall_ascii (P := fun c => !c.isAlpha || isTokenChar c) (by decide +kernel)
    (ascii_of_isAlpha h)
  simpa [h] using hall

theorem isValueChar_of_isAlpha {c : Char} (h : c.isAlpha = true) : isValueChar c = true := by
  have hall := forall_ascii (P := fun c => !c.isAlpha || isValueChar c) (by decide +kernel)
    (ascii_of_isAlpha h)
  simpa [h] using hall

section
variable (u : Tables)

theorem Tables.isWord_ascii {c : Char} (hc : c.toNat < 128) :
    u.isWord c = (c.isAlphanum || c == '_') := by
  rw [Tables.isWord, u.isAlnum_ascii c hc]

theorem Tables.isWord_of_isAlpha {c : Char} (h : c.isAlpha = true) : u.isWord c = true := by
  rw [u.isWord_ascii (ascii_of_isAlpha h), isAlphanum_eq, ← isAlpha_eq, h]
  rfl

theorem Tables.isWord_of_decimal {c : Char} (h : (u.decimal c).isSome = true) : u.isWord c = true := by
  rw [Tables.isWord, u.isAlnum_of_decimal c h]
  rfl

end

/-! ## The pieces of a pass -/

/-- What a pass leaves and replaces of a piece. Of a URL it replaces the password. -/
def patch (u : Tables) (label : String) : Piece → List (Patch Char)
  | .keep c => [.keep c]
  | .hit m groups =>
    if label = "pan_candidate" then
      if luhnOk u m then [.swap m (marker "pan")] else keeps m
    else if label = "url_credential" then
      let user := groups 1 ++ ":".toList
      keeps user ++ .swap (m.drop user.length).dropLast (marker "url_credential") :: keeps "@".toList
    else [.swap m (marker label)]

def Rule.patches (u : Tables) (rule : Rule) (text : List Char) : List (Patch Char) :=
  (cut u.isWord rule.pattern 0 [] text).flatMap (patch u rule.label)

theorem shown_patches (u : Tables) (rule : Rule) (text : List Char) :
    shown (rule.patches u text) = rule.apply u text := by
  have hpiece : ∀ p, shown (patch u rule.label p) = p.render (replacement u rule.label) := by
    intro p
    cases p with
    | keep c => rfl
    | hit m groups =>
      unfold patch Piece.render replacement
      dsimp only
      split_ifs <;> simp
  unfold Rule.patches Rule.apply sub
  induction cut u.isWord rule.pattern 0 [] text with
  | nil => rfl
  | cons p ps ih => rw [List.flatMap_cons, List.flatMap_cons, shown_append, hpiece, ih]

/-- What stands about a replaced match of a pass. -/
structure Loose (u : Tables) (b m a : List Char) : Prop where
  ne_nil : m ≠ []
  start : ∀ d ∈ b.head?, ∀ c ∈ m.head?, u.isWord d = true → u.isWord c = false
  stop : ∀ c ∈ m.getLast?, ∀ x ∈ a.head?, u.isWord c = true → x.isAlpha = false

section
variable {u : Tables} {b m a : List Char} {g : ℕ → List Char}

theorem start_of_boundary (hne : m ≠ []) (h : isBoundary u.isWord b (m ++ a) = true) :
    ∀ d ∈ b.head?, ∀ c ∈ m.head?, u.isWord d = true → u.isWord c = false := by
  intro d hd c hc hword
  obtain ⟨c', m, rfl⟩ := List.exists_cons_of_ne_nil hne
  simp only [isBoundary, List.cons_append, List.head?_cons, Option.any_some, Option.mem_def,
    Option.some.injEq] at h hc hd
  rw [hd, hc, Option.any_some, hword] at h
  simpa using h

theorem stop_of_boundary (h : isBoundary u.isWord (m.reverse ++ b) a = true) :
    ∀ c ∈ m.getLast?, ∀ x ∈ a.head?, u.isWord c = true → u.isWord x = false := by
  intro c hc x hx hword
  have hlast : (m.reverse ++ b).head? = some c := by
    rw [List.head?_append, List.head?_reverse, Option.mem_def.mp hc]
    rfl
  simp only [isBoundary, hlast, Option.mem_def.mp hx, Option.any_some, hword] at h
  simpa using h

theorem isWord_dash : u.isWord '-' = false := u.isWord_ascii (by decide)

theorem isWord_quote {c : Char} (h : isQuote c = true) : u.isWord c = false := by
  have hc : c = '"' ∨ c = '\'' := by simpa [isQuote, isAny] using h
  rcases hc with rfl | rfl
  · exact u.isWord_ascii (by decide)
  · exact u.isWord_ascii (by decide)

theorem boundary_of_reads {r : Re} {g' : ℕ → List Char}
    (h : Reads u.isWord (.seq .boundary r) b g m a g') :
    isBoundary u.isWord b (m ++ a) = true ∧ Reads u.isWord r b g m a g' := by
  obtain ⟨m₁, m₂, g₁, rfl, hb, hr⟩ := reads_seq.mp h
  obtain ⟨rfl, hhere, rfl⟩ := reads_boundary.mp hb
  exact ⟨hhere, hr⟩

theorem boundary_of_final {r : Re} {g' : ℕ → List Char} (hfinal : r.final = .boundary)
    (h : Reads u.isWord r b g m a g') : isBoundary u.isWord (m.reverse ++ b) a = true := by
  obtain ⟨m₁, m₂, g₁, rfl, hlast⟩ := h.exists_final
  rw [hfinal] at hlast
  obtain ⟨rfl, hb, -⟩ := reads_boundary.mp hlast
  rw [List.append_nil]
  exact hb

/-- A match between boundaries. -/
theorem loose_of_boundaries {r : Re} {g' : ℕ → List Char} (hne : m ≠ []) (hfinal : r.final = .boundary)
    (h : Reads u.isWord (.seq .boundary r) b g m a g') : Loose u b m a := by
  obtain ⟨hb, hr⟩ := boundary_of_reads h
  have hstop := stop_of_boundary (boundary_of_final hfinal hr)
  refine ⟨hne, start_of_boundary hne hb, ?_⟩
  intro c hc x hx hword
  by_contra hx'
  have hx'' := hstop c hc x hx hword
  rw [u.isWord_of_isAlpha (by simpa using hx')] at hx''
  simp at hx''

/-- A match from a boundary on that ends where its last set does, which has the letters. -/
theorem loose_of_stops {r : Re} {p : Char → Bool} {lo : ℕ} (hne : m ≠ [])
    (hfinal : r.final = .many p lo) (hp : ∀ c : Char, c.isAlpha = true → p c = true)
    (hfirst : (Re.seq .boundary r).first u.isWord b (m ++ a) = some ⟨m.reverse ++ b, a, g⟩) :
    Loose u b m a := by
  obtain ⟨hb, -⟩ := boundary_of_reads (reads_of_first hfirst)
  have hstop := stops_of_first (r := .seq .boundary r) hfinal hfirst
  refine ⟨hne, start_of_boundary hne hb, ?_⟩
  intro c hc x hx _
  by_contra hx'
  have hx'' := hstop x hx
  rw [hp x (by simpa using hx')] at hx''
  simp at hx''

/-- A match whose last character is none of a word. -/
theorem stop_of_last {c : Char} (hlast : m.getLast? = some c) (hc : u.isWord c = false) :
    ∀ c ∈ m.getLast?, ∀ x ∈ a.head?, u.isWord c = true → x.isAlpha = false := by
  intro d hd x hx hword
  rw [hlast, Option.mem_def, Option.some.injEq] at hd
  rw [← hd, hc] at hword
  simp at hword

theorem last_of_lit {r : Re} {g' : ℕ → List Char} (text : String) (hfinal : r.final = .lit text)
    (h : Reads u.isWord r b g m a g') : ∃ m₁, m = m₁ ++ text.toList := by
  obtain ⟨m₁, m₂, g₁, rfl, hlast⟩ := h.exists_final
  rw [hfinal] at hlast
  obtain ⟨rfl, -⟩ := reads_lit.mp hlast
  exact ⟨m₁, rfl⟩

theorem loose_pem {g' : ℕ → List Char} (h : Reads u.isWord pem b g m a g') : Loose u b m a := by
  have hhead : pem.Head fun c => c = '-' := by simp [pem, pemBegin, Re.lit, Re.Head]
  obtain ⟨c, t, rfl, rfl⟩ := h.exists_cons hhead
  obtain ⟨m₁, hm⟩ := last_of_lit _ rfl h
  refine ⟨by simp, ?_, ?_⟩
  · intro d _ c hc _
    obtain rfl : '-' = c := by simpa using hc
    exact isWord_dash
  · have hlast : "PRIVATE KEY-----".toList.getLast? = some '-' := by decide
    refine stop_of_last (c := '-') ?_ isWord_dash
    rw [hm, List.getLast?_append, hlast]
    rfl

theorem plain_secretKey : secretKey.Plain := by
  simp [secretKey, sensitive, nocase, Re.opt, Re.one, Re.Plain]

/-- A quoted key, a colon and a quoted value. -/
def QuotedPair (m : List Char) : Prop :=
  ∃ q key s₁ s₂ q' v, m = q :: (key ++ q :: (s₁ ++ ':' :: (s₂ ++ q' :: (v ++ [q'])))) ∧
    isQuote q = true ∧ secretKey.Matches key ∧ (∀ c ∈ s₁, isSpace c = true) ∧
    (∀ c ∈ s₂, isSpace c = true) ∧ isQuote q' = true ∧ ∀ c ∈ v, isQuote c = false

theorem reads_quotedPair : (∃ g', Reads u.isWord quotedPair b g m a g') ↔ QuotedPair m := by
  unfold quotedPair QuotedPair spaces
  constructor
  · rintro ⟨g', h⟩
    obtain ⟨_, _, _, rfl, hopen, hrest₁⟩ := reads_seq.mp h
    obtain ⟨g₁, hone, rfl⟩ := reads_group.mp hopen
    obtain ⟨⟨q, rfl, hq⟩, rfl⟩ := reads_one.mp hone
    obtain ⟨key, _, _, rfl, hkeyReads, hrest₂⟩ := reads_seq.mp hrest₁
    obtain ⟨hkey, rfl⟩ := (reads_plain plain_secretKey).mp hkeyReads
    obtain ⟨_, _, _, rfl, hclose, hrest₃⟩ := reads_seq.mp hrest₂
    obtain ⟨rfl, rfl⟩ := reads_ref.mp hclose
    obtain ⟨s₁, _, _, rfl, hspaces₁, hrest₄⟩ := reads_seq.mp hrest₃
    obtain ⟨-, hs₁, rfl⟩ := reads_many.mp hspaces₁
    obtain ⟨_, _, _, rfl, hcolon, hrest₅⟩ := reads_seq.mp hrest₄
    obtain ⟨rfl, rfl⟩ := reads_lit.mp hcolon
    obtain ⟨s₂, _, _, rfl, hspaces₂, hrest₆⟩ := reads_seq.mp hrest₅
    obtain ⟨-, hs₂, rfl⟩ := reads_many.mp hspaces₂
    obtain ⟨_, _, _, rfl, hopen', hrest₇⟩ := reads_seq.mp hrest₆
    obtain ⟨g₂, hone', rfl⟩ := reads_group.mp hopen'
    obtain ⟨⟨q', rfl, hq'⟩, rfl⟩ := reads_one.mp hone'
    obtain ⟨v, _, _, rfl, hvalue, hclose'⟩ := reads_seq.mp hrest₇
    obtain ⟨-, hv, rfl⟩ := reads_many.mp hvalue
    obtain ⟨rfl, -⟩ := reads_ref.mp hclose'
    refine ⟨q, key, s₁, s₂, q', v, ?_, hq, hkey, hs₁, hs₂, hq', ?_⟩
    · simp
    · simpa using hv
  · rintro ⟨q, key, s₁, s₂, q', v, rfl, hq, hkey, hs₁, hs₂, hq', hv⟩
    refine ⟨Function.update (Function.update g 1 [q]) 2 [q'], ?_⟩
    refine reads_seq.mpr ⟨[q], _, _, rfl, reads_group.mpr ⟨_, reads_one.mpr ⟨⟨q, rfl, hq⟩, rfl⟩, rfl⟩, ?_⟩
    refine reads_seq.mpr ⟨key, _, _, rfl, (reads_plain plain_secretKey).mpr ⟨hkey, rfl⟩, ?_⟩
    refine reads_seq.mpr ⟨[q], _, _, rfl, reads_ref.mpr ⟨by simp, rfl⟩, ?_⟩
    refine reads_seq.mpr ⟨s₁, _, _, rfl, reads_many.mpr ⟨Nat.zero_le _, hs₁, rfl⟩, ?_⟩
    refine reads_seq.mpr ⟨[':'], _, _, rfl, reads_lit.mpr ⟨rfl, rfl⟩, ?_⟩
    refine reads_seq.mpr ⟨s₂, _, _, rfl, reads_many.mpr ⟨Nat.zero_le _, hs₂, rfl⟩, ?_⟩
    refine reads_seq.mpr ⟨[q'], _, _, rfl,
      reads_group.mpr ⟨_, reads_one.mpr ⟨⟨q', rfl, hq'⟩, rfl⟩, rfl⟩, ?_⟩
    refine reads_seq.mpr ⟨v, _, _, rfl, reads_many.mpr ⟨Nat.zero_le _, by simpa using hv, rfl⟩, ?_⟩
    exact reads_ref.mpr ⟨by simp, rfl⟩

/-- A key, an equals sign or colon and a value, at a boundary. -/
def Assigned (u : Tables) (value : Re) (b m a : List Char) : Prop :=
  ∃ key s₁ sep s₂ v, m = key ++ (s₁ ++ sep :: (s₂ ++ v)) ∧ isBoundary u.isWord b (m ++ a) = true ∧
    secretKey.Matches key ∧
    isBoundary u.isWord (key.reverse ++ b) (s₁ ++ sep :: (s₂ ++ (v ++ a))) = true ∧
    (∀ c ∈ s₁, isSpace c = true) ∧ isAny ['=', ':'] sep = true ∧ (∀ c ∈ s₂, isSpace c = true) ∧
    value.Matches v

theorem reads_assigned {value : Re} (hplain : value.Plain) {g' : ℕ → List Char} :
    Reads u.isWord (assigned value) b g m a g' ↔ Assigned u value b m a ∧ g' = g := by
  unfold assigned Assigned spaces
  constructor
  · intro h
    obtain ⟨hstart, hrest₁⟩ := boundary_of_reads h
    obtain ⟨key, _, _, rfl, hkeyReads, hrest₂⟩ := reads_seq.mp hrest₁
    obtain ⟨hkey, rfl⟩ := (reads_plain plain_secretKey).mp hkeyReads
    obtain ⟨hend, hrest₃⟩ := boundary_of_reads hrest₂
    obtain ⟨s₁, _, _, rfl, hspaces₁, hrest₄⟩ := reads_seq.mp hrest₃
    obtain ⟨-, hs₁, rfl⟩ := reads_many.mp hspaces₁
    obtain ⟨_, _, _, rfl, hsepReads, hrest₅⟩ := reads_seq.mp hrest₄
    obtain ⟨⟨sep, rfl, hsep⟩, rfl⟩ := reads_one.mp hsepReads
    obtain ⟨s₂, v, _, rfl, hspaces₂, hvalueReads⟩ := reads_seq.mp hrest₅
    obtain ⟨-, hs₂, rfl⟩ := reads_many.mp hspaces₂
    obtain ⟨hvalue, rfl⟩ := (reads_plain hplain).mp hvalueReads
    refine ⟨⟨key, s₁, sep, s₂, v, by simp, hstart, hkey, ?_, hs₁, hsep, hs₂, hvalue⟩, rfl⟩
    simpa using hend
  · rintro ⟨⟨key, s₁, sep, s₂, v, rfl, hstart, hkey, hend, hs₁, hsep, hs₂, hvalue⟩, rfl⟩
    refine reads_seq.mpr ⟨[], _, _, rfl, reads_boundary.mpr ⟨rfl, hstart, rfl⟩, ?_⟩
    refine reads_seq.mpr ⟨key, _, _, rfl, (reads_plain plain_secretKey).mpr ⟨hkey, rfl⟩, ?_⟩
    refine reads_seq.mpr ⟨[], _, _, rfl, reads_boundary.mpr ⟨rfl, by simpa using hend, rfl⟩, ?_⟩
    refine reads_seq.mpr ⟨s₁, _, _, rfl, reads_many.mpr ⟨Nat.zero_le _, hs₁, rfl⟩, ?_⟩
    refine reads_seq.mpr ⟨[sep], _, _, rfl, reads_one.mpr ⟨⟨sep, rfl, hsep⟩, rfl⟩, ?_⟩
    refine reads_seq.mpr ⟨s₂, v, _, rfl, reads_many.mpr ⟨Nat.zero_le _, hs₂, rfl⟩, ?_⟩
    exact (reads_plain hplain).mpr ⟨hvalue, rfl⟩

/-- A scheme, the user and the password, at a boundary. -/
def UrlCredential (u : Tables) (b m a user pass : List Char) : Prop :=
  m = user ++ ':' :: (pass ++ ['@']) ∧ isBoundary u.isWord b (m ++ a) = true ∧
    urlUser.Matches user ∧ pass ≠ [] ∧ ∀ c ∈ pass, isUserChar c = true

theorem plain_urlUser : urlUser.Plain := by simp [urlUser, urlScheme, Re.one, Re.lit, Re.Plain]

theorem reads_urlCredential {g' : ℕ → List Char} : Reads u.isWord urlCredential b g m a g' ↔
    ∃ user pass, UrlCredential u b m a user pass ∧ g' = Function.update g 1 user := by
  unfold urlCredential UrlCredential
  constructor
  · intro h
    obtain ⟨hstart, hrest₁⟩ := boundary_of_reads h
    obtain ⟨user, _, _, rfl, huserReads, hrest₂⟩ := reads_seq.mp hrest₁
    obtain ⟨_, hreads, rfl⟩ := reads_group.mp huserReads
    obtain ⟨huser, rfl⟩ := (reads_plain plain_urlUser).mp hreads
    obtain ⟨_, _, _, rfl, hcolon, hrest₃⟩ := reads_seq.mp hrest₂
    obtain ⟨rfl, rfl⟩ := reads_lit.mp hcolon
    obtain ⟨pass, _, _, rfl, hpassReads, hat⟩ := reads_seq.mp hrest₃
    obtain ⟨hlen, hpass, rfl⟩ := reads_many.mp hpassReads
    obtain ⟨rfl, rfl⟩ := reads_lit.mp hat
    refine ⟨user, pass, ⟨by simp, hstart, huser, ?_, hpass⟩, rfl⟩
    exact List.ne_nil_of_length_pos hlen
  · rintro ⟨user, pass, ⟨rfl, hstart, huser, hne, hpass⟩, rfl⟩
    refine reads_seq.mpr ⟨[], _, _, rfl, reads_boundary.mpr ⟨rfl, hstart, rfl⟩, ?_⟩
    refine reads_seq.mpr ⟨user, _, _, rfl,
      reads_group.mpr ⟨_, (reads_plain plain_urlUser).mpr ⟨huser, rfl⟩, rfl⟩, ?_⟩
    refine reads_seq.mpr ⟨[':'], _, _, rfl, reads_lit.mpr ⟨rfl, rfl⟩, ?_⟩
    refine reads_seq.mpr ⟨pass, ['@'], _, rfl, reads_many.mpr ⟨?_, hpass, rfl⟩, ?_⟩
    · exact List.length_pos_iff.mpr hne
    · exact reads_lit.mpr ⟨rfl, rfl⟩

theorem loose_quotedPair {g' : ℕ → List Char} (h : Reads u.isWord quotedPair b g m a g') :
    Loose u b m a := by
  obtain ⟨q, key, s₁, s₂, q', v, rfl, hq, -, -, -, hq', -⟩ := reads_quotedPair.mp ⟨g', h⟩
  refine ⟨by simp, ?_, ?_⟩
  · intro d _ c hc _
    rw [List.head?_cons, Option.mem_def, Option.some.injEq] at hc
    rw [← hc]
    exact isWord_quote hq
  · refine stop_of_last (c := q') ?_ (isWord_quote hq')
    simp [List.getLast?_cons]

theorem loose_quotedValue {g' : ℕ → List Char} (h : Reads u.isWord quotedValue b g m a g') :
    Loose u b m a := by
  obtain ⟨m₁, rfl⟩ := last_of_lit "\"" rfl h
  have hne : m₁ ++ "\"".toList ≠ [] := by simp
  refine ⟨hne, start_of_boundary hne (boundary_of_reads h).1, ?_⟩
  exact stop_of_last (c := '"') (by simp) (isWord_quote (by decide))

end

/-! ## The pieces of a pass, and what stands about them -/

section
variable {u : Tables} {b m a : List Char} {g : ℕ → List Char}

/-- The match a pattern takes at a place is `m`. -/
def Takes (u : Tables) (r : Re) (b m a : List Char) (g : ℕ → List Char) : Prop :=
  m ≠ [] ∧ r.first u.isWord b (m ++ a) = some ⟨m.reverse ++ b, a, g⟩

theorem Takes.reads {r : Re} (h : Takes u r b m a g) : Reads u.isWord r b (fun _ => []) m a g :=
  reads_of_first h.2

theorem patches_of_cut {P : List Char → List Char → List Char → Prop} {r : Re} {label : String}
    (hsource : ∀ {b m a g}, Takes u r b m a g → source (patch u label (.hit m g)) = m)
    (hhit : ∀ {b m a g rest}, Takes u r b m a g → source rest = a →
      AtSwaps P (m.reverse ++ b) rest → AtSwaps P b (patch u label (.hit m g) ++ rest))
    {ps : List Piece} (hcut : Cut u.isWord r b a ps) :
    source (ps.flatMap (patch u label)) = a ∧ AtSwaps P b (ps.flatMap (patch u label)) := by
  induction hcut with
  | nil b => exact ⟨rfl, trivial⟩
  | keep hnone hcut ih =>
    rw [List.flatMap_cons]
    exact ⟨congrArg _ ih.1, ih.2⟩
  | hit hne hfirst hcut ih =>
    rw [List.flatMap_cons, source_append, hsource ⟨hne, hfirst⟩, ih.1]
    exact ⟨rfl, hhit ⟨hne, hfirst⟩ ih.1 ih.2⟩

theorem patch_cases {label : String} (hurl : label ≠ "url_credential") (m : List Char)
    (g : ℕ → List Char) : (∃ mark, patch u label (.hit m g) = [.swap m mark]) ∨
      patch u label (.hit m g) = keeps m := by
  unfold patch
  dsimp only
  split_ifs
  · exact .inl ⟨_, rfl⟩
  · exact .inr rfl
  · exact .inl ⟨_, rfl⟩

theorem patches_of_takes {P : List Char → List Char → List Char → Prop} {rule : Rule}
    (hurl : rule.label ≠ "url_credential") {ps : List Piece} (hcut : Cut u.isWord rule.pattern b a ps)
    (hloose : ∀ {b m a g}, Takes u rule.pattern b m a g → P b m a) :
    source (ps.flatMap (patch u rule.label)) = a ∧ AtSwaps P b (ps.flatMap (patch u rule.label)) := by
  refine patches_of_cut ?_ ?_ hcut
  · intro b m a g _
    rcases patch_cases hurl m g with ⟨mark, h⟩ | h
    · rw [h]
      simp
    · rw [h, source_keeps]
  · intro b m a g rest htakes hrest hafter
    rcases patch_cases hurl m g with ⟨mark, h⟩ | h
    · rw [h]
      exact ⟨hrest ▸ hloose htakes, hafter⟩
    · rw [h]
      exact atSwaps_keeps.mpr hafter

theorem patch_url {user pass : List Char} (h : UrlCredential u b m a user pass)
    (hg : g = Function.update (fun _ => []) 1 user) :
    patch u "url_credential" (.hit m g) =
      keeps (user ++ [':']) ++ .swap pass (marker "url_credential") :: keeps ['@'] := by
  have huser : g 1 ++ ":".toList = user ++ [':'] := by
    rw [hg, Function.update_self]
    rfl
  have hpass : (m.drop (user ++ [':']).length).dropLast = pass := by
    have hm : m = (user ++ [':']) ++ (pass ++ ['@']) := by
      rw [h.1]
      simp
    rw [hm, List.drop_left, List.dropLast_concat]
  unfold patch
  dsimp only
  rw [if_neg (by decide), if_pos rfl, huser, hpass]
  rfl

theorem loose_password (b' a' : List Char) {pass : List Char} (hne : pass ≠ []) :
    Loose u (':' :: b') pass ('@' :: a') := by
  have hcolon : u.isWord ':' = false := u.isWord_ascii (by decide)
  refine ⟨hne, ?_, ?_⟩
  · intro d hd c _ hword
    obtain rfl : ':' = d := by simpa using hd
    rw [hcolon] at hword
    simp at hword
  · intro c _ x hx _
    obtain rfl : '@' = x := by simpa using hx
    decide

/-- A password stands between the colon and the `@`. -/
theorem patches_url {P : List Char → List Char → List Char → Prop}
    (hpass : ∀ b' a' {pass : List Char}, pass ≠ [] → P (':' :: b') pass ('@' :: a')) {ps : List Piece}
    (hcut : Cut u.isWord urlCredential b a ps) :
    source (ps.flatMap (patch u "url_credential")) = a ∧
      AtSwaps P b (ps.flatMap (patch u "url_credential")) := by
  refine patches_of_cut ?_ ?_ hcut
  · intro b m a g htakes
    obtain ⟨user, pass, h, hg⟩ := reads_urlCredential.mp htakes.reads
    rw [patch_url h hg, h.1]
    simp
  · intro b m a g rest htakes hrest hafter
    obtain ⟨user, pass, h, hg⟩ := reads_urlCredential.mp htakes.reads
    rw [patch_url h hg, List.append_assoc, atSwaps_keeps, List.cons_append, keeps_cons, keeps_nil,
      List.cons_append, List.nil_append, AtSwaps, AtSwaps, source_keep]
    have hbehind : (user ++ [':']).reverse ++ b = ':' :: (user.reverse ++ b) := by simp
    have hafter' : m.reverse ++ b = '@' :: (pass.reverse ++ ((user ++ [':']).reverse ++ b)) := by
      rw [h.1]
      simp
    rw [hafter'] at hafter
    refine ⟨?_, hafter⟩
    rw [hbehind]
    exact hpass _ _ h.2.2.2.1

theorem has_rules : ∀ rule ∈ rules u, rule.pattern.Has fun _ => True := by
  simp [rules, pem, pemBegin, jwt, jwtText, awsKey, awsKeyText, authorization, authorizationText, bearer,
    bearerText, urlCredential, quotedPair, quotedValue, bareValue, assigned, cardNumber, cardText,
    nocase, Re.Has, Re.lit, Re.one]

theorem cut_rule {rule : Rule} (hrule : rule ∈ rules u) (text : List Char) :
    Cut u.isWord rule.pattern [] text (cut u.isWord rule.pattern 0 [] text) :=
  cut_spec (reading_of_has (has_rules rule hrule)) [] text

theorem loose_of_takes {rule : Rule} (hrule : rule ∈ rules u) (hurl : rule.label ≠ "url_credential")
    (h : Takes u rule.pattern b m a g) : Loose u b m a := by
  simp only [rules, List.mem_cons, List.not_mem_nil, or_false] at hrule
  rcases hrule with rfl | rfl | rfl | rfl | rfl | rfl | rfl | rfl | rfl | rfl
  · exact loose_pem h.reads
  · exact loose_of_boundaries h.1 rfl h.reads
  · exact loose_of_boundaries h.1 rfl h.reads
  · exact loose_of_stops h.1 rfl (fun _ => isTokenChar_of_isAlpha) h.2
  · exact loose_of_stops h.1 rfl (fun _ => isTokenChar_of_isAlpha) h.2
  · exact absurd rfl hurl
  · exact loose_quotedPair h.reads
  · exact loose_quotedValue h.reads
  · exact loose_of_stops h.1 rfl (fun _ => isValueChar_of_isAlpha) h.2
  · exact loose_of_boundaries h.1 rfl h.reads

/-- A pass only cuts the text up, and every match replaced is loose. -/
theorem patches_spec {rule : Rule} (hrule : rule ∈ rules u) (text : List Char) :
    source (rule.patches u text) = text ∧ AtSwaps (Loose u) [] (rule.patches u text) := by
  have hcut := cut_rule hrule text
  by_cases hurl : rule.label = "url_credential"
  · have hpattern : rule.pattern = urlCredential := by
      simp only [rules, List.mem_cons, List.not_mem_nil, or_false] at hrule
      rcases hrule with rfl | rfl | rfl | rfl | rfl | rfl | rfl | rfl | rfl | rfl
      all_goals first | rfl | simp at hurl
    unfold Rule.patches
    rw [hurl]
    rw [hpattern] at hcut ⊢
    exact patches_url (fun b' a' _ hne => loose_password b' a' hne) hcut
  · exact patches_of_takes hurl hcut fun h => loose_of_takes hrule hurl h

end

end SocTalk.Redaction
