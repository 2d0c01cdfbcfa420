import SocTalk.Lib.Format
import SocTalk.Redaction.Closure

/-! The three ways in which a pass leaves a secret that an earlier rule, or the rule itself, knows. -/
namespace SocTalk.Redaction
open Regex Splice Py

/-! ## A mark in the user part of a URL -/

/-- A replaced match stands after `scheme://` and before an `@`, both of which stay, with neither a
space nor a colon, slash or `@` between. -/
def Spliced (u : Tables) (ps : List (Patch Char)) : Prop :=
  ∃ pa scheme user m mark host py,
    ps = pa ++ (keeps (scheme ++ user) ++ .swap m mark :: (keeps (host ++ ['@']) ++ py)) ∧
    urlScheme.Matches scheme ∧ (∀ c ∈ user, isUserChar c = true) ∧
    (∀ c ∈ host, isUserChar c = true) ∧ (source pa).reverse.head?.any u.isWord = false

theorem bodies_split : ∀ body ∈ bodies, body = "REDACTED".toList ++ ':' :: body.drop 9 := by
  decide +kernel

theorem bodies_user : ∀ body ∈ bodies, ∀ c ∈ body.drop 9, isUserChar c = true := by
  have hall : (bodies.all fun body => (body.drop 9).all isUserChar) = true := by decide +kernel
  exact fun body hbody => List.all_eq_true.mp (List.all_eq_true.mp hall body hbody)

theorem isUserChar_ne {c d : Char} (h : isUserChar c = true) (hd : isUserChar d = false) : c ≠ d := by
  rintro rfl
  rw [hd] at h
  simp at h

theorem colon_not_mem {A : List Char} (hA : ∀ c ∈ A, isUserChar c = true) : ':' ∉ A :=
  fun hmem => isUserChar_ne (hA ':' hmem) (by decide) rfl

theorem shown_mark {body : List Char} (hbody : body ∈ bodies) (m : List Char)
    (ps : List (Patch Char)) : shown (.swap m ('<' :: (body ++ ['>'])) :: ps) =
      ('<' :: "REDACTED".toList) ++ ':' :: (body.drop 9 ++ '>' :: shown ps) := by
  rw [shown_swap]
  conv_lhs => rw [bodies_split body hbody]
  simp

section
variable {u : Tables} {ps : List (Patch Char)} (hmarked : Marked '<' '>' bodies ps)
include hmarked

/-- Up to the first colon of the result: it stays, or is that of the first mark. -/
theorem colon_cases {A rest : List Char} (hA : ∀ c ∈ A, isUserChar c = true)
    (h : shown ps = A ++ ':' :: rest) :
    (∃ py, ps = keeps (A ++ [':']) ++ py ∧ shown py = rest) ∨
    ∃ user m body py, body ∈ bodies ∧ ps = keeps user ++ .swap m ('<' :: (body ++ ['>'])) :: py ∧
      A = user ++ '<' :: "REDACTED".toList ∧ rest = body.drop 9 ++ '>' :: shown py := by
  induction A generalizing ps with
  | nil =>
    cases ps with
    | nil => simp at h
    | cons x ps =>
      cases x with
      | keep d =>
        rw [shown_keep, List.nil_append, List.cons_eq_cons] at h
        obtain ⟨rfl, h⟩ := h
        exact .inl ⟨ps, rfl, h⟩
      | swap m mark =>
        obtain ⟨body, -, rfl⟩ := hmarked m mark List.mem_cons_self
        have hhead := congrArg List.head? h
        simp at hhead
  | cons c A ih =>
    cases ps with
    | nil => simp at h
    | cons x ps =>
      cases x with
      | keep d =>
        rw [shown_keep, List.cons_append, List.cons_eq_cons] at h
        obtain ⟨rfl, h⟩ := h
        have hmarked' : Marked '<' '>' bodies ps :=
          fun m mark hmem => hmarked m mark (List.mem_cons_of_mem _ hmem)
        rcases ih hmarked' (fun c hc => hA c (List.mem_cons_of_mem _ hc)) h with
          ⟨py, rfl, hy⟩ | ⟨user, m, body, py, hbody, rfl, rfl, hrest⟩
        · exact .inl ⟨py, rfl, hy⟩
        · exact .inr ⟨d :: user, m, body, py, hbody, rfl, rfl, hrest⟩
      | swap m mark =>
        obtain ⟨body, hbody, rfl⟩ := hmarked m mark List.mem_cons_self
        rw [shown_mark hbody] at h
        obtain ⟨hA', hrest⟩ := append_cons_inj (by decide) (colon_not_mem hA) h
        exact .inr ⟨[], m, body, ps, hbody, rfl, hA'.symm, hrest.symm⟩

/-- Up to an `@` with no colon before: all of it stays. -/
theorem at_stays {B rest : List Char} (hB : ∀ c ∈ B, isUserChar c = true)
    (h : shown ps = B ++ '@' :: rest) : ∃ py, ps = keeps (B ++ ['@']) ++ py ∧ shown py = rest := by
  induction B generalizing ps with
  | nil =>
    cases ps with
    | nil => simp at h
    | cons x ps =>
      cases x with
      | keep d =>
        rw [shown_keep, List.nil_append, List.cons_eq_cons] at h
        obtain ⟨rfl, h⟩ := h
        exact ⟨ps, rfl, h⟩
      | swap m mark =>
        obtain ⟨body, -, rfl⟩ := hmarked m mark List.mem_cons_self
        have hhead := congrArg List.head? h
        simp at hhead
  | cons c B ih =>
    cases ps with
    | nil => simp at h
    | cons x ps =>
      cases x with
      | keep d =>
        rw [shown_keep, List.cons_append, List.cons_eq_cons] at h
        obtain ⟨rfl, h⟩ := h
        have hmarked' : Marked '<' '>' bodies ps :=
          fun m mark hmem => hmarked m mark (List.mem_cons_of_mem _ hmem)
        obtain ⟨py, rfl, hy⟩ := ih hmarked' (fun c hc => hB c (List.mem_cons_of_mem _ hc)) h
        exact ⟨py, rfl, hy⟩
      | swap m mark =>
        obtain ⟨body, hbody, rfl⟩ := hmarked m mark List.mem_cons_self
        rw [shown_mark hbody] at h
        rcases List.append_eq_append_iff.mp h with ⟨e, hB', h'⟩ | ⟨e, hmark, h'⟩
        · -- The mark would end before its colon does.
          have hcolon := colon_not_mem hB
          rw [hB'] at hcolon
          cases e with
          | nil => simp at h'
          | cons d e =>
            obtain ⟨rfl, -⟩ := List.cons_eq_cons.mp h'
            simp at hcolon
        · cases e with
          | nil => simp at h'
          | cons d e =>
            obtain ⟨rfl, -⟩ := List.cons_eq_cons.mp h'
            have hat : '@' ∈ '<' :: "REDACTED".toList := by
              rw [hmark]
              simp
            exact absurd hat (by decide)

omit hmarked in
theorem password_of_mark {body pass rest ending : List Char} (hbody : body ∈ bodies)
    (h : pass ++ '@' :: rest = body.drop 9 ++ '>' :: ending) :
    ∃ host, pass = body.drop 9 ++ '>' :: host ∧ ending = host ++ '@' :: rest := by
  have hat : '@' ∉ body.drop 9 ++ ['>'] := by
    intro hmem
    rcases List.mem_append.mp hmem with hmem | hmem
    · exact isUserChar_ne (bodies_user body hbody '@' hmem) (by decide) rfl
    · simp at hmem
  have h' : pass ++ '@' :: rest = (body.drop 9 ++ ['>']) ++ ending := by simpa using h
  rcases List.append_eq_append_iff.mp h' with ⟨e, hmark, hrest⟩ | ⟨host, hpass, hending⟩
  · cases e with
    | nil => exact ⟨[], by simpa using hmark.symm, by simpa using hrest.symm⟩
    | cons d e =>
      obtain ⟨rfl, -⟩ := List.cons_eq_cons.mp hrest
      rw [hmark] at hat
      simp at hat
  · exact ⟨host, by simpa using hpass, hending⟩

end

section
variable {u : Tables} {ps : List (Patch Char)} (hmarked : Marked '<' '>' bodies ps)
  (hloose : AtSwaps (Loose u) [] ps)
include hmarked hloose

/-- A URL credential of the result has stayed or was made by a mark. -/
theorem spliced_or_stays {b m a : List Char} {g : ℕ → List Char}
    (htext : shown ps = b.reverse ++ (m ++ a))
    (h : Reads u.isWord urlCredential b (fun _ => []) m a g) : Spliced u ps ∨
      ∃ pa py g', ps = pa ++ (keeps m ++ py) ∧
        Reads u.isWord urlCredential (source pa).reverse (fun _ => []) m (source py) g' := by
  obtain ⟨user, pass, ⟨rfl, hstart, huser, hne, hpass⟩, -⟩ := reads_urlCredential.mp h
  obtain ⟨scheme, A, rfl, hscheme, hAmatches⟩ := (matches_seq plain_urlUser).mp huser
  have hA := (reads_many.mp hAmatches).2.1
  have hslash : Alien '/' := by decide +kernel
  have hhas : urlScheme.Has Alien := by simp [urlScheme, Re.lit, Re.Has, hslash]
  have hhead : urlScheme.Head fun c => c.isAlpha = true := by
    refine .inl ⟨_, rfl, ?_⟩
    exact fun c hc => isAlpha_of_isLower hc
  obtain ⟨hne', hopens, hcloses, hapart⟩ := foreign_of_matches hhas rfl rfl hscheme
  have htext' : shown ps = b.reverse ++ (scheme ++ (A ++ ':' :: (pass ++ '@' :: a))) := by
    simpa using htext
  obtain ⟨pa, pr, rfl, hpa, hpr⟩ := exists_align hmarked hne' hopens hcloses hapart htext'
  obtain ⟨c, t, rfl, hc⟩ := hscheme.exists_cons hhead
  rw [← List.reverse_eq_iff] at hpa
  subst hpa
  have hmarked' : Marked '<' '>' bodies pr := fun w mark hmem => hmarked w mark (by simp [hmem])
  have hbehind : (shown pa).reverse.head?.any u.isWord = false := by
    simpa [isBoundary, u.isWord_of_isAlpha hc] using hstart
  have hbehind' := behind_source hloose rfl hc hbehind
  rcases colon_cases hmarked' hA hpr with ⟨py, rfl, hpy⟩ | ⟨user, w, body, py, hbody, rfl, rfl, hpy⟩
  · have hmarked'' : Marked '<' '>' bodies py := fun w mark hmem => hmarked' w mark (by simp [hmem])
    obtain ⟨pz, rfl, -⟩ := at_stays hmarked'' hpass hpy
    refine .inr ⟨pa, pz, _, by simp, reads_urlCredential.mpr
      ⟨_, pass, ⟨rfl, ?_, huser, hne, hpass⟩, rfl⟩⟩
    simpa [isBoundary, u.isWord_of_isAlpha hc] using hbehind'
  · obtain ⟨host, rfl, hhost⟩ := password_of_mark hbody hpy
    have hmarked'' : Marked '<' '>' bodies py := fun w mark hmem => hmarked' w mark (by simp [hmem])
    have hhostUser : ∀ d ∈ host, isUserChar d = true := fun d hd => hpass d (by simp [hd])
    obtain ⟨pz, rfl, -⟩ := at_stays hmarked'' hhostUser hhost
    refine .inl ⟨pa, c :: t, user, w, '<' :: (body ++ ['>']), host, pz, by simp, hscheme, ?_,
      hhostUser, hbehind'⟩
    exact fun d hd => hA d (by simp [hd])

end

/-- No match of the pattern lies in what has stayed. -/
def Gone (u : Tables) (r : Re) (ps : List (Patch Char)) : Prop :=
  ∀ pa m py g, ps = pa ++ (keeps m ++ py) →
    ¬Reads u.isWord r (source pa).reverse (fun _ => []) m (source py) g

section
variable {u : Tables} {ps : List (Patch Char)}

theorem gone_of_clean {r : Re} (hreading : Reading u.isWord r) (hclean : Clean u r ps) :
    Gone u r ps := by
  intro pa m py g hps hreads
  obtain ⟨c, t, rfl⟩ := List.exists_cons_of_ne_nil (hreading _ _ _ _ _ hreads)
  exact not_reads_of_clean hclean hps rfl hreads

theorem stays_within {t m x mark : List Char} {qs py : List (Patch Char)}
    (h : keeps t ++ .swap x mark :: qs = keeps m ++ py) : m <+: t := by
  induction m generalizing t with
  | nil => exact List.nil_prefix
  | cons c m ih =>
    cases t with
    | nil => simp at h
    | cons d t =>
      rw [keeps_cons, keeps_cons, List.cons_append, List.cons_append, List.cons_eq_cons,
        Patch.keep.injEq] at h
      obtain ⟨rfl, h⟩ := h
      exact List.cons_prefix_cons.mpr ⟨rfl, ih h⟩

/-- What the pass over URLs leaves holds none: within a match the user part has no `@`. -/
theorem gone_url (text : List Char) :
    Gone u urlCredential ((cut u.isWord urlCredential 0 [] text).flatMap (patch u "url_credential")) := by
  have hhas : urlCredential.Has (· = '@') := by simp [urlCredential, Re.lit, Re.Has]
  have hhead : (Re.seq (.group 1 urlUser) <| .seq (.lit ":") <|
      .seq (.many isUserChar 1) (.lit "@")).Head fun c => c.isLower = true :=
    .inl (.inl (.inl ⟨_, rfl, fun _ h => h⟩))
  have hkeeps : ∀ {b a ps}, Cut u.isWord urlCredential b a ps →
      AtKeeps (fun b qs => ∀ m py g, qs = keeps m ++ py →
        ¬Reads u.isWord urlCredential b (fun _ => []) m (source py) g) b
        (ps.flatMap (patch u "url_credential")) := by
    intro b a ps hcut
    induction hcut with
    | nil b => trivial
    | @keep b a c ps hnone hcut ih =>
      refine ⟨?_, ih⟩
      intro m py g hps hreads
      have htext : m ++ source py = c :: a := by
        have hsource := congrArg source hps
        rw [source_append, source_keeps] at hsource
        rw [← hsource]
        exact congrArg (c :: ·) (patches_url (P := fun _ _ _ => True) (fun _ _ _ _ => trivial) hcut).1
      unfold Reads at hreads
      rw [htext, hnone] at hreads
      exact absurd hreads List.not_mem_nil
    | @hit b a m g ps hne hfirst hcut ih =>
      obtain ⟨user, pass, h, hg⟩ := reads_urlCredential.mp (reads_of_first hfirst)
      have huser : '@' ∉ user ++ [':'] := by
        have hnot := h.2.2.1.not_mem (c := '@') rfl
        simpa using hnot
      rw [List.flatMap_cons, patch_url h hg, List.append_assoc]
      refine atKeeps_keeps ?_ ⟨?_, ?_⟩
      · intro w t hwt _ m' py g' hps hreads
        obtain ⟨c, hc, rfl⟩ := hreads.exists_mem hhas
        rw [hwt] at huser
        exact huser (List.mem_append_right _ ((stays_within hps).subset hc))
      · intro m' py g' hps hreads
        obtain ⟨c, t, rfl, hc⟩ := (boundary_of_reads hreads).2.exists_cons hhead
        obtain rfl : '@' = c := by
          have hhere := (List.cons_eq_cons.mp hps).1
          exact Patch.keep.inj hhere
        exact absurd hc (by decide)
      · have hbehind : m.reverse ++ b = '@' :: (pass.reverse ++ ((user ++ [':']).reverse ++ b)) := by
          rw [h.1]
          simp
        rw [hbehind] at ih
        exact ih
  intro pa m py g hps hreads
  obtain ⟨c, t, rfl, hc⟩ := (boundary_of_reads hreads).2.exists_cons hhead
  have hall := hkeeps (cut_spec (reading_of_has hhas) [] text)
  rw [hps, keeps_cons, List.cons_append] at hall
  have hhere := (AtKeeps.after hall).1 (c :: t) py g rfl
  rw [List.append_nil] at hhere
  exact hhere hreads

theorem free_url (hmarked : Marked '<' '>' bodies ps) (hloose : AtSwaps (Loose u) [] ps)
    (hgone : Gone u urlCredential ps) (hspliced : ¬Spliced u ps) :
    Free u urlCredential (shown ps) := by
  intro b m a g htext hreads
  rcases spliced_or_stays hmarked hloose htext hreads with h | ⟨pa, py, g', hps, hreads'⟩
  · exact hspliced h
  · exact hgone pa m py g' hps hreads'

/-- A boundary behind a stretch that has stayed and begins with a word is still there. -/
theorem behind_shown (hmarked : Marked '<' '>' bodies ps) {pa py : List (Patch Char)} (hps : ps = pa ++ py)
    (h : (source pa).reverse.head?.any u.isWord = false) :
    (shown pa).reverse.head?.any u.isWord = false := by
  rcases List.eq_nil_or_concat pa with rfl | ⟨qa, x, rfl⟩
  · rfl
  · rw [List.concat_eq_append] at hps h ⊢
    cases x with
    | keep d => simpa using h
    | swap m mark =>
      obtain ⟨body, -, rfl⟩ := hmarked m mark (by simp [hps])
      simp [Tables.isWord_closes]

/-- The mark brings a colon, and the URL has a password. -/
theorem not_free_of_spliced (hmarked : Marked '<' '>' bodies ps) (h : Spliced u ps) :
    ¬Free u urlCredential (shown ps) := by
  obtain ⟨pa, scheme, user, m, mark, host, py, hps, hscheme, huser, hhost, hbehind⟩ := h
  obtain ⟨body, hbody, rfl⟩ := hmarked m mark (by simp [hps])
  have hbehind' := behind_shown hmarked hps hbehind
  have hmarkUser : ∀ c ∈ '<' :: "REDACTED".toList, isUserChar c = true :=
    List.all_eq_true.mp (by decide)
  have huser' : urlUser.Matches (scheme ++ (user ++ '<' :: "REDACTED".toList)) := by
    refine (matches_seq plain_urlUser).mpr ⟨scheme, _, rfl, hscheme, reads_many.mpr ⟨?_, ?_, rfl⟩⟩
    · simp
    · intro c hc
      rcases List.mem_append.mp hc with hc | hc
      · exact huser c hc
      · exact hmarkUser c hc
  have hpass : ∀ c ∈ body.drop 9 ++ '>' :: host, isUserChar c = true := by
    intro c hc
    rcases List.mem_append.mp hc with hc | hc
    · exact bodies_user body hbody c hc
    · rcases List.mem_cons.mp hc with rfl | hc
      · decide
      · exact hhost c hc
  have hhead : urlScheme.Head fun c => c.isAlpha = true :=
    .inl ⟨_, rfl, fun c hc => isAlpha_of_isLower hc⟩
  obtain ⟨c, t, rfl, hc⟩ := hscheme.exists_cons hhead
  intro hfree
  refine hfree (shown pa).reverse _ (shown py) _ ?_ (reads_urlCredential.mpr
    ⟨_, body.drop 9 ++ '>' :: host, ⟨rfl, ?_, huser', by simp, hpass⟩, rfl⟩)
  · rw [hps, shown_append, shown_append, shown_mark hbody]
    simp
  · simpa [isBoundary, u.isWord_of_isAlpha hc] using hbehind'

end

/-! ## A quote within a value, replaced -/

/-- A quoted secret key, a colon and the quote that opens the value. -/
def PairOpens (m : List Char) (q' : Char) : Prop :=
  ∃ q key s₁ s₂, m = q :: (key ++ q :: (s₁ ++ ':' :: (s₂ ++ [q']))) ∧ isQuote q = true ∧
    secretKey.Matches key ∧ (∀ c ∈ s₁, isSpace c = true) ∧ (∀ c ∈ s₂, isSpace c = true) ∧
    isQuote q' = true

/-- A quoted pair stays up to its value, and with the matches replaced in the value its last quote goes
but the one that closes it. -/
def Exposed (ps : List (Patch Char)) : Prop :=
  ∃ pa front q' value py, ps = pa ++ (keeps front ++ (value ++ .keep q' :: py)) ∧
    PairOpens front q' ∧ (∀ c ∈ shown value, isQuote c = false) ∧ ∃ c ∈ source value, isQuote c = true

theorem quotedPair_iff {m : List Char} : QuotedPair m ↔
    ∃ front q' v, m = front ++ (v ++ [q']) ∧ PairOpens front q' ∧ ∀ c ∈ v, isQuote c = false := by
  unfold QuotedPair PairOpens
  constructor
  · rintro ⟨q, key, s₁, s₂, q', v, rfl, hq, hkey, hs₁, hs₂, hq', hv⟩
    exact ⟨_, q', v, by simp, ⟨q, key, s₁, s₂, rfl, hq, hkey, hs₁, hs₂, hq'⟩, hv⟩
  · rintro ⟨_, q', v, rfl, ⟨q, key, s₁, s₂, rfl, hq, hkey, hs₁, hs₂, hq'⟩, hv⟩
    exact ⟨q, key, s₁, s₂, q', v, by simp, hq, hkey, hs₁, hs₂, hq', hv⟩

theorem alien_of_isQuote {c : Char} (h : isQuote c = true) : Alien c := by
  have hc : c = '"' ∨ c = '\'' := by simpa [isQuote, isAny] using h
  rcases hc with rfl | rfl
  · decide +kernel
  · decide +kernel

theorem PairOpens.foreign {m : List Char} {q' : Char} (h : PairOpens m q') : Foreign m := by
  obtain ⟨q, key, s₁, s₂, rfl, hq, hkey, hs₁, hs₂, hq'⟩ := h
  have hnot : ∀ x, isQuote x = false → isSpace x = false → x ≠ ':' → secretKey.avoids x = true →
      x ∉ q :: (key ++ q :: (s₁ ++ ':' :: (s₂ ++ [q']))) := by
    intro x hquote hspace hcolon havoids hmem
    have hkey' : x ∉ key := hkey.not_mem havoids
    have hset : ∀ {y : Char} {p : Char → Bool}, p y = true → p x = false → x ≠ y := by
      rintro y p hy hx rfl
      rw [hx] at hy
      simp at hy
    simp only [List.mem_cons, List.mem_append, List.not_mem_nil, or_false] at hmem
    rcases hmem with h | h | h | h | h | h | h
    · exact hset hq hquote h
    · exact hkey' h
    · exact hset hq hquote h
    · exact hset (hs₁ x h) hspace rfl
    · exact hcolon h
    · exact hset (hs₂ x h) hspace rfl
    · exact hset hq' hquote h
  refine ⟨by simp, hnot '<' rfl rfl (by decide) rfl, hnot '>' rfl rfl (by decide) rfl, ?_⟩
  intro body hbody hinside
  exact alien_of_isQuote hq body hbody (hinside.subset List.mem_cons_self)

section
variable {u : Tables} {ps : List (Patch Char)}

/-- A quoted pair of the result stood there before, or the pass took a quote out of its value. -/
theorem free_quotedPair (hmarked : Marked '<' '>' bodies ps) (hclean : Clean u quotedPair ps)
    (hexposed : ¬Exposed ps) : Free u quotedPair (shown ps) := by
  intro b m a g htext hreads
  obtain ⟨front, q', v, rfl, hfront, hv⟩ := quotedPair_iff.mp (reads_quotedPair.mp ⟨g, hreads⟩)
  obtain ⟨hne, hopens, hcloses, hapart⟩ := hfront.foreign
  have hq' : isQuote q' = true := by
    obtain ⟨_, _, _, _, _, _, _, _, _, hq'⟩ := hfront
    exact hq'
  have hquote : Foreign [q'] := by
    refine ⟨by simp, ?_, ?_, ?_⟩
    · rintro h
      obtain rfl := List.mem_singleton.mp h
      simp [isQuote, isAny] at hq'
    · rintro h
      obtain rfl := List.mem_singleton.mp h
      simp [isQuote, isAny] at hq'
    · intro body hbody hinside
      exact alien_of_isQuote hq' body hbody (hinside.subset List.mem_cons_self)
  rw [List.append_assoc, List.append_assoc] at htext
  obtain ⟨pa, pr, rfl, hpa, hpr⟩ := exists_align hmarked hne hopens hcloses hapart htext
  have hmarked' : Marked '<' '>' bodies pr := fun w mark hmem => hmarked w mark (by simp [hmem])
  obtain ⟨value, py, rfl, hvalue, hpy⟩ :=
    exists_align hmarked' hquote.ne_nil hquote.opens hquote.closes hquote.apart hpr
  by_cases hinner : ∃ c ∈ source value, isQuote c = true
  · exact hexposed ⟨pa, front, q', value, py, rfl, hfront, hvalue ▸ hv, hinner⟩
  · obtain ⟨c, t, rfl⟩ := List.exists_cons_of_ne_nil hne
    have hpair : QuotedPair ((c :: t) ++ (source value ++ [q'])) := by
      refine quotedPair_iff.mpr ⟨c :: t, q', _, rfl, hfront, ?_⟩
      intro d hd
      by_contra hquoted
      exact hinner ⟨d, hd, by simpa using hquoted⟩
    obtain ⟨g', hreads'⟩ := reads_quotedPair (u := u) (b := (source pa).reverse) (a := source py)
      (g := fun _ => []) |>.mpr hpair
    refine not_reads_of_clean (t := t ++ (source value ++ [q'])) (a := source py) hclean (w := t) rfl ?_
      hreads'
    simp

theorem not_free_of_exposed (h : Exposed ps) : ¬Free u quotedPair (shown ps) := by
  obtain ⟨pa, front, q', value, py, rfl, hfront, hvalue, -⟩ := h
  have hpair : QuotedPair (front ++ (shown value ++ [q'])) :=
    quotedPair_iff.mpr ⟨front, q', _, rfl, hfront, hvalue⟩
  obtain ⟨g', hreads⟩ := reads_quotedPair (u := u) (b := (shown pa).reverse) (a := shown py)
    (g := fun _ => []) |>.mpr hpair
  intro hfree
  refine hfree _ _ (shown py) g' ?_ hreads
  simp

end

end SocTalk.Redaction
