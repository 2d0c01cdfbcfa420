import SocTalk.Redaction.Closure

/-! Assignments to secret keys and card numbers: what the passes over them leave. -/
namespace SocTalk.Redaction
open Regex Splice

/-! ## Secret keys -/

def sensitiveWords : List (List Char) :=
  ["pass", "password", "passwd", "pwd", "secret", "token", "apikey", "api_key", "api-key",
    "passphrase", "credential"].map String.toList

theorem fold_of_nocase {text : String} {m : List Char} (h : (nocase text).Matches m) :
    m.map foldCase = text.toList := by
  have hall := (reads_each.mp h).1
  rw [List.forall₂_map_left_iff] at hall
  have heq : (fun c x : Char => x = c) = Eq := by
    funext c x
    exact propext eq_comm
  have hmap : List.Forall₂ (fun c x : Char => x = c) text.toList (m.map foldCase) := by
    rw [List.forall₂_map_right_iff]
    exact hall.imp fun c x h => eq_of_beq h
  rw [heq, List.forall₂_eq_eq_eq] at hmap
  exact hmap.symm

theorem plain_sensitive : sensitive.Plain := by simp [sensitive, nocase, Re.opt, Re.one, Re.Plain]

theorem fold_of_sensitive {m : List Char} (h : sensitive.Matches m) :
    m.map foldCase ∈ sensitiveWords := by
  have hplain := plain_sensitive
  rcases reads_alt.mp h with hpass | h
  · obtain ⟨m₁, m₂, rfl, h₁, h₂⟩ := (matches_seq hplain.1).mp hpass
    rw [List.map_append, fold_of_nocase h₁]
    rcases reads_opt.mp h₂ with h₂ | ⟨rfl, -⟩
    · rcases reads_alt.mp h₂ with h₂ | h₂
      · rw [fold_of_nocase h₂]
        decide
      · rw [fold_of_nocase h₂]
        decide
    · decide
  rcases reads_alt.mp h with hword | h
  · rw [fold_of_nocase hword]
    decide
  rcases reads_alt.mp h with hword | h
  · rw [fold_of_nocase hword]
    decide
  rcases reads_alt.mp h with hword | h
  · rw [fold_of_nocase hword]
    decide
  rcases reads_alt.mp h with hapi | h
  · obtain ⟨m₁, rest, rfl, h₁, hrest⟩ := (matches_seq hplain.2.2.2.2.1).mp hapi
    obtain ⟨m₂, m₃, rfl, h₂, h₃⟩ := (matches_seq hplain.2.2.2.2.1.2).mp hrest
    rw [List.map_append, List.map_append, fold_of_nocase h₁, fold_of_nocase h₃]
    rcases reads_opt.mp h₂ with h₂ | ⟨rfl, -⟩
    · obtain ⟨⟨c, rfl, hc⟩, -⟩ := reads_one.mp h₂
      have hc' : c = '_' ∨ c = '-' := by simpa [isAny] using hc
      rcases hc' with rfl | rfl
      · decide
      · decide
    · decide
  rcases reads_alt.mp h with hword | hword
  · rw [fold_of_nocase hword]
    decide
  · rw [fold_of_nocase hword]
    decide

theorem fold_cases (c : Char) : foldCase c = c.toLower ∨ c ∈ ['\u0130', '\u0131', '\u017f', '\u212a'] := by
  unfold foldCase
  split_ifs with hi hs hk
  · rcases hi with rfl | rfl <;> simp
  · simp [hs]
  · simp [hk]
  · exact .inl rfl

theorem ascii_of_toLower {c : Char} (h : c.toLower.toNat < 128) : c.toNat < 128 := by
  unfold Char.toLower at h
  split_ifs at h with hupper
  · have hZ : c.val.toNat ≤ 'Z'.val.toNat := hupper.2
    have hval : 'Z'.val.toNat = 90 := rfl
    have hc : c.val.toNat = c.toNat := rfl
    omega
  · exact h

theorem isValueChar_of_isKeyChar {c : Char} (h : isKeyChar c = true) : isValueChar c = true := by
  rcases fold_cases c with hfold | hspecial
  · have hascii : c.toNat < 128 := by
      unfold isKeyChar at h
      rw [hfold, Bool.or_eq_true] at h
      rcases h with halnum | hmark
      · exact ascii_of_toLower (ascii_of_isAlphanum halnum)
      · have hc : c = '_' ∨ c = '.' ∨ c = '-' := by simpa [isAny] using hmark
        rcases hc with rfl | rfl | rfl <;> decide
    have hall := forall_ascii (P := fun c => !isKeyChar c || isValueChar c) (by decide +kernel) hascii
    simpa [h] using hall
  · have hall : ∀ d ∈ ['\u0130', '\u0131', '\u017f', '\u212a'], isValueChar d = true :=
      List.all_eq_true.mp (by decide)
    exact hall c hspecial

theorem head_secretKey : secretKey.Head fun c => isValueChar c = true := by
  have hletter : ∀ d : Char, d.isAlphanum = true → ∀ c, (foldCase c == d) = true →
      isValueChar c = true := by
    intro d hd c hc
    refine isValueChar_of_isKeyChar ?_
    rw [isKeyChar, eq_of_beq hc, hd]
    rfl
  have hword : ∀ text, (∃ d ∈ text.toList.head?, d.isAlphanum = true) →
      (nocase text).Head fun c => isValueChar c = true := by
    rintro text ⟨d, hd, halnum⟩
    refine ⟨fun x => foldCase x == d, ?_, hletter d halnum⟩
    rw [List.head?_map, Option.mem_def.mp hd]
    rfl
  refine .inr ⟨fun c => isValueChar_of_isKeyChar, .inl (hword _ ?_), hword _ ?_, hword _ ?_, hword _ ?_,
    .inl (hword _ ?_), hword _ ?_, hword _ ?_⟩
  all_goals simp

/-- What stands before the value: a secret key and an equals sign or colon, with spaces between. -/
def AssignOpens (m : List Char) : Prop :=
  ∃ key s₁ sep s₂, m = key ++ (s₁ ++ sep :: s₂) ∧ secretKey.Matches key ∧
    (∀ c ∈ s₁, isSpace c = true) ∧ isAny ['=', ':'] sep = true ∧ ∀ c ∈ s₂, isSpace c = true

/-- In no mark a secret key stands before its colon. -/
theorem key_not_in_mark {key body : List Char} (hkey : secretKey.Matches key) (hbody : body ∈ bodies) :
    ¬key ++ [':'] <:+: body := by
  have hmarks : ∀ body ∈ bodies, ∀ front ∈ body.inits, ∀ w ∈ sensitiveWords,
      ¬(w ++ [':']) <:+ front.map foldCase := by
    decide +kernel
  rintro ⟨x, y, hxy⟩
  obtain ⟨m₁, m₂, rfl, -, hword⟩ := (matches_seq plain_secretKey).mp hkey
  have hfront : x ++ ((m₁ ++ m₂) ++ [':']) ∈ body.inits := by
    rw [List.mem_inits]
    exact ⟨y, by rw [← hxy]⟩
  refine hmarks body hbody _ hfront _ (fold_of_sensitive hword) ⟨(x ++ m₁).map foldCase, ?_⟩
  simp [foldCase]

theorem AssignOpens.foreign {m : List Char} (h : AssignOpens m) : Foreign m := by
  obtain ⟨key, s₁, sep, s₂, rfl, hkey, hs₁, hsep, hs₂⟩ := h
  have hnot : ∀ x, isSpace x = false → isAny ['=', ':'] x = false → secretKey.avoids x = true →
      x ∉ key ++ (s₁ ++ sep :: s₂) := by
    intro x hspace hother havoids hmem
    have hkey' : x ∉ key := hkey.not_mem havoids
    simp only [List.mem_cons, List.mem_append] at hmem
    rcases hmem with h | h | rfl | h
    · exact hkey' h
    · simp [hs₁ x h] at hspace
    · simp [hsep] at hother
    · simp [hs₂ x h] at hspace
  refine ⟨by simp, hnot '<' rfl rfl rfl, hnot '>' rfl rfl rfl, ?_⟩
  intro body hbody hinside
  have hspace : ∀ c ∈ key ++ (s₁ ++ sep :: s₂), isSpace c = false := by
    intro c hc
    by_contra hc'
    exact alien_of_isSpace (by simpa using hc') body hbody (hinside.subset hc)
  have hnil : ∀ s : List Char, (∀ c ∈ s, isSpace c = true) → s ⊆ key ++ (s₁ ++ sep :: s₂) → s = [] := by
    intro s hs hsub
    refine List.eq_nil_iff_forall_not_mem.mpr ?_
    intro c hc
    have hc' := hspace c (hsub hc)
    rw [hs c hc] at hc'
    simp at hc'
  obtain rfl := hnil s₁ hs₁ (by simp)
  obtain rfl := hnil s₂ hs₂ (by simp)
  have hsep' : sep = '=' ∨ sep = ':' := by simpa [isAny] using hsep
  rcases hsep' with rfl | rfl
  · have hequals : Alien '=' := by decide +kernel
    exact hequals body hbody (hinside.subset (by simp))
  · exact key_not_in_mark hkey hbody hinside

/-! ## Assignments -/

/-- A replaced match begins with a character of a value, and the text goes on behind it with none or at a
boundary. -/
def Edged (u : Tables) (b m a : List Char) : Prop :=
  (∃ c t, m = c :: t ∧ isValueChar c = true) ∧
    ∀ c ∈ a.head?, isValueChar c = true → isBoundary u.isWord (m.reverse ++ b) a = true

theorem isBoundary_congr {w : Char → Bool} {b b' a a' : List Char} (hb : b.head? = b'.head?)
    (ha : a.head? = a'.head?) : isBoundary w b a = isBoundary w b' a' := by
  unfold isBoundary
  rw [hb, ha]

section
variable {u : Tables} {ps : List (Patch Char)}

theorem edge_source (hedged : AtSwaps (Edged u) [] ps) {pa py : List (Patch Char)} {c : Char}
    {t a z : List Char} (hps : ps = pa ++ (keeps (c :: t) ++ py)) (hc : isValueChar c = true)
    (h : isBoundary u.isWord (shown pa).reverse (c :: t ++ a) = true) :
    isBoundary u.isWord (source pa).reverse (c :: t ++ z) = true := by
  rcases List.eq_nil_or_concat pa with rfl | ⟨qa, x, rfl⟩
  · exact h
  · rw [List.concat_eq_append] at hps h ⊢
    cases x with
    | keep d =>
      rw [← h]
      exact isBoundary_congr (by simp) rfl
    | swap m mark =>
      rw [hps, List.append_assoc] at hedged
      obtain ⟨⟨⟨d, w, rfl, -⟩, hend⟩, -⟩ := AtSwaps.after hedged
      have hend' := hend c rfl hc
      rw [← hend']
      exact isBoundary_congr (by simp) rfl

/-- An assignment of the result stood there before. -/
theorem free_bareValue (hmarked : Marked '<' '>' bodies ps) (hedged : AtSwaps (Edged u) [] ps)
    (hclean : Clean u bareValue ps) : Free u bareValue (shown ps) := by
  have hplain : (Re.many isValueChar 1).Plain := trivial
  intro b m a g htext hreads
  obtain ⟨⟨key, s₁, sep, s₂, v, rfl, hstart, hkey, hend, hs₁, hsep, hs₂, hv⟩, -⟩ :=
    (reads_assigned hplain).mp hreads
  obtain ⟨hlen, hvalue, -⟩ := reads_many.mp hv
  obtain ⟨k, w, rfl, hk⟩ := hkey.exists_cons head_secretKey
  have hopens : AssignOpens (k :: w ++ (s₁ ++ sep :: s₂)) :=
    ⟨k :: w, s₁, sep, s₂, rfl, hkey, hs₁, hsep, hs₂⟩
  obtain ⟨hne, hlt, hgt, hapart⟩ := hopens.foreign
  have htext' : shown ps = b.reverse ++ ((k :: w ++ (s₁ ++ sep :: s₂)) ++ (v ++ a)) := by
    simpa using htext
  obtain ⟨pa, pr, hps, hpa, hpr⟩ := exists_align hmarked hne hlt hgt hapart htext'
  rw [← List.reverse_eq_iff] at hpa
  subst hpa
  obtain ⟨e, v, rfl⟩ := List.exists_cons_of_ne_nil (List.ne_nil_of_length_pos hlen)
  obtain ⟨c, y, hy, hc⟩ : ∃ c y, source pr = c :: y ∧ isValueChar c = true := by
    cases pr with
    | nil => simp at hpr
    | cons x pr =>
      cases x with
      | keep d =>
        obtain rfl : d = e := (List.cons_eq_cons.mp hpr).1
        exact ⟨d, source pr, rfl, hvalue d List.mem_cons_self⟩
      | swap x mark =>
        rw [hps, ← List.append_assoc] at hedged
        obtain ⟨⟨⟨c, t, rfl, hc⟩, -⟩, -⟩ := AtSwaps.after hedged
        exact ⟨c, t ++ source pr, rfl, hc⟩
  have hstart' : isBoundary u.isWord (source pa).reverse
      (k :: (w ++ (s₁ ++ sep :: s₂)) ++ ([c] ++ y)) = true :=
    edge_source hedged hps hk (a := e :: v ++ a) (by simpa using hstart)
  refine not_reads_of_clean (t := w ++ (s₁ ++ sep :: s₂) ++ [c]) (a := y) (g := fun _ => []) hclean hps
    (by simp [hy]) ?_
  refine (reads_assigned hplain).mpr ⟨⟨k :: w, s₁, sep, s₂, [c], by simp, ?_, hkey, ?_, hs₁, hsep, hs₂,
    ?_⟩, rfl⟩
  · simpa using hstart'
  · rw [← hend]
    refine isBoundary_congr ?_ ?_
    · rw [head_reverse_append (by simp), head_reverse_append (by simp)]
    · cases s₁ with
      | nil => rfl
      | cons d s₁ => rfl
  · exact reads_many.mpr ⟨by simp, by simpa using hc, rfl⟩

/-- A quoted value begins a bare one. -/
theorem free_quotedValue {text : List Char} (h : Free u bareValue text) : Free u quotedValue text := by
  have hquoted : (Re.seq (.lit "\"") <| .seq (.many (fun c => c != '"') 0) (.lit "\"")).Plain := by
    simp [Re.lit, Re.Plain]
  have hbare : (Re.many isValueChar 1).Plain := trivial
  intro b m a g htext hreads
  obtain ⟨⟨key, s₁, sep, s₂, v, rfl, hstart, hkey, hend, hs₁, hsep, hs₂, hv⟩, -⟩ :=
    (reads_assigned hquoted).mp hreads
  obtain ⟨_, rest, rfl, hquote, -⟩ := (matches_seq hquoted).mp hv
  obtain ⟨rfl, -⟩ := reads_lit.mp hquote
  have hone : (Re.many isValueChar 1).Matches ['"'] := by
    refine reads_many.mpr ⟨by simp, ?_, rfl⟩
    rw [List.forall_mem_singleton]
    decide
  refine h b (key ++ (s₁ ++ sep :: (s₂ ++ ['"']))) (rest ++ a) _ ?_
    ((reads_assigned hbare).mpr
      ⟨⟨key, s₁, sep, s₂, ['"'], rfl, ?_, hkey, ?_, hs₁, hsep, hs₂, hone⟩, rfl⟩)
  · rw [htext]
    simp
  · simpa using hstart
  · simpa using hend

theorem edged_bareValue {b m a : List Char} {g : ℕ → List Char} (h : Takes u bareValue b m a g) :
    Edged u b m a := by
  have hstop := stops_of_first (r := bareValue) rfl h.2
  have hbare : (Re.many isValueChar 1).Plain := trivial
  obtain ⟨⟨key, s₁, sep, s₂, v, rfl, -, hkey, -⟩, -⟩ := (reads_assigned hbare).mp h.reads
  obtain ⟨c, t, rfl, hc⟩ := hkey.exists_cons head_secretKey
  refine ⟨⟨c, _, rfl, hc⟩, ?_⟩
  intro d hd hvalue
  rw [hstop d hd] at hvalue
  simp at hvalue

end

/-! ## Card numbers -/

section
variable {u : Tables} {ps : List (Patch Char)} {b m a : List Char}

theorem isValueChar_of_decimal {c : Char} (h : (u.decimal c).isSome = true) : isValueChar c = true := by
  have hmark : ∀ d ∈ [',', ';', '&', '}', ')', ']'], (u.decimal d).isSome = false := by
    intro d hd
    have hall : ([',', ';', '&', '}', ')', ']'].all fun d => decide (d.toNat < 128) && !d.isDigit) = true := by
      decide
    have hascii := List.all_eq_true.mp hall d hd
    simp only [Bool.and_eq_true, decide_eq_true_eq, Bool.not_eq_true'] at hascii
    rw [u.decimal_ascii d hascii.1, hascii.2]
    rfl
  have hnot : isAny [',', ';', '&', '}', ')', ']'] c = false := by
    by_contra hany
    have hmem : c ∈ [',', ';', '&', '}', ')', ']'] :=
      List.contains_iff_mem.mp (Bool.not_eq_false _ ▸ hany)
    rw [hmark c hmem] at h
    simp at h
  rw [isValueChar, u.isSpace_of_decimal c h, hnot]
  rfl

theorem alien_of_decimal {c : Char} (h : (u.decimal c).isSome = true) : Alien c := by
  intro body hbody hc
  have hascii := forall_bodies (P := fun d => decide (d.toNat < 128) && !d.isDigit) (by decide +kernel)
    hbody hc
  simp only [Bool.and_eq_true, decide_eq_true_eq, Bool.not_eq_true'] at hascii
  rw [u.decimal_ascii c hascii.1, hascii.2] at h
  simp at h

/-- A candidate for a card number, between boundaries. -/
def Card (u : Tables) (b m a : List Char) : Prop :=
  isBoundary u.isWord b (m ++ a) = true ∧ (cardText u).Matches m ∧
    isBoundary u.isWord (m.reverse ++ b) a = true

theorem plain_cardText : (cardText u).Plain := by simp [cardText, Re.one, Re.opt, Re.Plain]

theorem head_cardText : (cardText u).Head fun c => (u.decimal c).isSome = true :=
  ⟨by decide, .inl ⟨_, rfl, fun _ h => h⟩⟩

theorem reads_cardNumber {g g' : ℕ → List Char} :
    Reads u.isWord (cardNumber u) b g m a g' ↔ Card u b m a ∧ g' = g := by
  unfold cardNumber Card
  constructor
  · intro h
    obtain ⟨hstart, hrest⟩ := boundary_of_reads h
    obtain ⟨m, _, g₁, rfl, hbody, hlast⟩ := reads_seq.mp hrest
    obtain ⟨rfl, hend, rfl⟩ := reads_boundary.mp hlast
    obtain ⟨hmatches, rfl⟩ := (reads_plain plain_cardText).mp hbody
    rw [List.append_nil] at hstart ⊢
    exact ⟨⟨hstart, hmatches, hend⟩, rfl⟩
  · rintro ⟨⟨hstart, hmatches, hend⟩, rfl⟩
    refine reads_seq.mpr ⟨[], _, _, rfl, reads_boundary.mpr ⟨rfl, hstart, rfl⟩, ?_⟩
    refine reads_seq.mpr ⟨m, [], _, (List.append_nil m).symm,
      (reads_plain plain_cardText).mpr ⟨hmatches, rfl⟩, ?_⟩
    exact reads_boundary.mpr ⟨rfl, hend, rfl⟩

theorem edged_cardNumber {g : ℕ → List Char} (h : Takes u (cardNumber u) b m a g) : Edged u b m a := by
  obtain ⟨⟨-, hmatches, hend⟩, -⟩ := reads_cardNumber.mp h.reads
  obtain ⟨c, t, rfl, hc⟩ := hmatches.exists_cons head_cardText
  exact ⟨⟨c, t, rfl, isValueChar_of_decimal hc⟩, fun _ _ _ => hend⟩

/-- A card number that passes the check lies in what has stayed. -/
def Missed (u : Tables) (ps : List (Patch Char)) : Prop :=
  ∃ pa m py, ps = pa ++ (keeps m ++ py) ∧ Card u (source pa).reverse m (source py) ∧ luhnOk u m = true

/-- A card number of the result stood there before. -/
theorem missed_of_card (hmarked : Marked '<' '>' bodies ps) (hloose : AtSwaps (Loose u) [] ps)
    (hedged : AtSwaps (Edged u) [] ps) (htext : shown ps = b.reverse ++ (m ++ a)) (hcard : Card u b m a)
    (hluhn : luhnOk u m = true) : Missed u ps := by
  obtain ⟨hstart, hmatches, hend⟩ := hcard
  have havoids : ∀ c : Char, c.toNat < 128 → c.isDigit = false → isAny [' ', '-'] c = false →
      (cardText u).avoids c = true := by
    intro c hascii hdigit hother
    simp [cardText, Re.one, Re.opt, Re.avoids, u.decimal_ascii c hascii, hdigit, hother]
  obtain ⟨c, t, rfl, hc⟩ := hmatches.exists_cons head_cardText
  have hlt : '<' ∉ c :: t := hmatches.not_mem (havoids '<' (by decide) (by decide) (by decide))
  have hgt : '>' ∉ c :: t := hmatches.not_mem (havoids '>' (by decide) (by decide) (by decide))
  have hapart : ∀ body ∈ bodies, ¬c :: t <:+: body := fun body hbody hinside =>
    alien_of_decimal hc body hbody (hinside.subset List.mem_cons_self)
  obtain ⟨pa, py, hps, hpa, hpy⟩ := exists_align hmarked (by simp) hlt hgt hapart htext
  rw [← List.reverse_eq_iff] at hpa
  subst hpa hpy
  refine ⟨pa, c :: t, py, hps, ⟨?_, hmatches, ?_⟩, hluhn⟩
  · exact edge_source hedged hps (isValueChar_of_decimal hc) hstart
  · exact boundary_source hmarked hloose (by simp) hps hend

end

end SocTalk.Redaction
