import SocTalk.Redaction.Relapse
import SocTalk.Redaction.Values

/-! When `redact` leaves no secret, so that a second run changes nothing. -/
namespace SocTalk.Redaction
open Regex Splice

/-! ## Secrets -/

/-- A candidate for a card number is a secret only if it passes the check. -/
def Rule.isSecret (u : Tables) (rule : Rule) (m : List Char) : Bool :=
  rule.label != "pan_candidate" || luhnOk u m

/-- The rule knows no secret in the text. -/
def Rule.Blind (u : Tables) (rule : Rule) (text : List Char) : Prop :=
  ∀ b m a g, text = b.reverse ++ (m ++ a) → Reads u.isWord rule.pattern b (fun _ => []) m a g →
    rule.isSecret u m = false

/-- No rule knows a secret in the text. -/
def Closed (u : Tables) (text : List Char) : Prop := ∀ rule ∈ rules u, rule.Blind u text

section
variable {u : Tables} {text : List Char}

theorem blind_of_free {rule : Rule} (h : Free u rule.pattern text) : rule.Blind u text :=
  fun b m a g htext hreads => absurd hreads (h b m a g htext)

theorem apply_of_blind {rule : Rule} (hrule : rule ∈ rules u) (h : rule.Blind u text) :
    rule.apply u text = text := by
  have hpieces : ∀ {b a ps}, Cut u.isWord rule.pattern b a ps → text = b.reverse ++ a →
      ps.flatMap (Piece.render (replacement u rule.label)) = a := by
    intro b a ps hcut
    induction hcut with
    | nil b => exact fun _ => rfl
    | keep hnone hcut ih =>
      intro htext
      rw [List.flatMap_cons, ih (by simpa using htext)]
      rfl
    | @hit b a m g ps hne hfirst hcut ih =>
      intro htext
      have hsecret := h b m a g htext (reads_of_first hfirst)
      rw [Rule.isSecret, Bool.or_eq_false_iff, bne_eq_false_iff_eq] at hsecret
      have hsame : replacement u rule.label m g = m := by
        rw [replacement, if_pos hsecret.1, hsecret.2]
        rfl
      rw [List.flatMap_cons, Piece.render, hsame, ih (by simpa using htext)]
  exact hpieces (cut_rule hrule text) rfl

/-! ## Passes one after another -/

def passes (u : Tables) (later : List Rule) (text : List Char) : List Char :=
  later.foldl (fun out rule => rule.apply u out) text

/-- Holds at each pass, of its rule and the text it meets. -/
def Along (u : Tables) (C : Rule → List Char → Prop) : List Rule → List Char → Prop
  | [], _ => True
  | rule :: later, text => C rule text ∧ Along u C later (rule.apply u text)

theorem passes_of_closed {later : List Rule} (hsub : later ⊆ rules u) (h : Closed u text) :
    passes u later text = text := by
  induction later with
  | nil => rfl
  | cons rule later ih =>
    have hrule : rule ∈ rules u := hsub List.mem_cons_self
    rw [passes, List.foldl_cons, apply_of_blind hrule (h rule hrule)]
    exact ih (List.subset_of_cons_subset hsub)

theorem along_true {later : List Rule} : Along u (fun _ _ => True) later text := by
  induction later generalizing text with
  | nil => trivial
  | cons rule later ih => exact ⟨trivial, ih⟩

/-- What no pass brings back is gone for good. -/
theorem free_passes {C : Rule → List Char → Prop} {r : Re}
    (hstep : ∀ rule ∈ rules u, ∀ text, C rule text → Free u r text → Free u r (rule.apply u text))
    {later : List Rule} (hsub : later ⊆ rules u) (h : Along u C later text) (hfree : Free u r text) :
    Free u r (passes u later text) := by
  induction later generalizing text with
  | nil => exact hfree
  | cons rule later ih =>
    have hrule : rule ∈ rules u := hsub List.mem_cons_self
    exact ih (List.subset_of_cons_subset hsub) h.2 (hstep rule hrule text h.1 hfree)

end

/-! ## The pass of a rule over its own secrets -/

section
variable {u : Tables} {rule : Rule} (hrule : rule ∈ rules u) (text : List Char)
include hrule

theorem source_patches : source (rule.patches u text) = text := (patches_spec hrule text).1

theorem loose_patches : AtSwaps (Loose u) [] (rule.patches u text) := (patches_spec hrule text).2

/-- Every place the rule matches from is replaced. -/
theorem clean_own (hurl : rule.label ≠ "url_credential") (hpan : rule.label ≠ "pan_candidate") :
    Clean u rule.pattern (rule.patches u text) := by
  have hpieces : ∀ {b a ps}, Cut u.isWord rule.pattern b a ps →
      AtKeeps (fun b qs => rule.pattern.run u.isWord ⟨b, source qs, fun _ => []⟩ = []) b
        (ps.flatMap (patch u rule.label)) := by
    intro b a ps hcut
    induction hcut with
    | nil b => trivial
    | @keep b a c ps hnone hcut ih =>
      have hrest := (patches_of_takes (P := fun _ _ _ => True) hurl hcut fun _ => trivial).1
      have hhere : rule.pattern.run u.isWord
          ⟨b, c :: source (ps.flatMap (patch u rule.label)), fun _ => []⟩ = [] := by
        rw [hrest]
        exact hnone
      exact ⟨hhere, ih⟩
    | hit hne hfirst hcut ih =>
      rw [List.flatMap_cons, patch]
      dsimp only
      rw [if_neg hpan, if_neg hurl]
      exact ih
  exact hpieces (cut_rule hrule text)

/-- What a rule matched nowhere before a pass it matches from nothing that the pass leaves. -/
theorem clean_patches {r : Re} (hfree : Free u r text) : Clean u r (rule.patches u text) :=
  clean_of_free (by rwa [source_patches hrule])

end

section
variable {u : Tables} {rule : Rule} {text : List Char}

/-- The patterns between two boundaries, after a boundary and between the ends of a key block. -/
theorem free_apply {r : Re} (hr : r ∈ [pem, jwt, awsKey, authorization, bearer]) (hrule : rule ∈ rules u)
    (hclean : Clean u r (rule.patches u text)) : Free u r (rule.apply u text) := by
  have hmarked := marked_patches hrule text
  have hloose := loose_patches hrule text
  rw [← shown_patches]
  simp only [List.mem_cons, List.not_mem_nil, or_false] at hr
  rcases hr with rfl | rfl | rfl | rfl | rfl
  · exact free_pem hmarked hclean
  · exact free_jwt hmarked hloose hclean
  · exact free_awsKey hmarked hloose hclean
  · exact free_authorization hmarked hloose hclean
  · exact free_bearer hmarked hloose hclean

/-- The colon of a URL goes before the password replaced, not a character of the user. -/
theorem not_spliced_url (text : List Char) :
    ¬Spliced u (Rule.patches u ⟨urlCredential, "url_credential"⟩ text) := by
  have hrule : ⟨urlCredential, "url_credential"⟩ ∈ rules u := by simp [rules]
  have hcut := cut_rule hrule text
  have hcolon := (patches_url (P := fun b _ _ => b.head? = some ':') (fun _ _ _ _ => rfl) hcut).2
  rintro ⟨pa, scheme, user, m, mark, host, py, hps, hscheme, huser, -⟩
  unfold Rule.patches at hps
  rw [hps, ← List.append_assoc] at hcolon
  have hlast := (AtSwaps.after hcolon).1
  rw [List.append_nil, source_append, source_keeps] at hlast
  rcases List.eq_nil_or_concat user with rfl | ⟨front, d, rfl⟩
  · have hreads : Reads u.isWord urlScheme [] (fun _ => []) scheme [] fun _ => [] :=
      (reads_plain plain_urlUser.1).mpr ⟨hscheme, rfl⟩
    obtain ⟨front, rfl⟩ := last_of_lit "://" rfl hreads
    simp at hlast
  · rw [List.concat_eq_append] at hlast huser
    have hd : d = ':' := by simpa using hlast
    exact colon_not_mem huser (by simp [hd])

theorem edged_patches {r : Re} {label : String} (hrule : ⟨r, label⟩ ∈ rules u)
    (hr : r = bareValue ∨ r = cardNumber u) (hurl : label ≠ "url_credential") (text : List Char) :
    AtSwaps (Edged u) [] (Rule.patches u ⟨r, label⟩ text) := by
  refine (patches_of_takes hurl (cut_rule hrule text) ?_).2
  rcases hr with rfl | rfl
  · exact edged_bareValue
  · exact edged_cardNumber

end

/-! ## Secrets brought back -/

/-- The pass brings no secret back: it makes no password of a mark, takes from no quoted value its inner
quotes, and leaves no card number. -/
structure Clear (u : Tables) (rule : Rule) (text : List Char) : Prop where
  unspliced : ¬Spliced u (rule.patches u text)
  unexposed : ¬Exposed (rule.patches u text)
  unmissed : rule.label = "pan_candidate" → ¬Missed u (rule.patches u text)

/-- The passes after that over URLs are clear. -/
def Settles (u : Tables) (text : List Char) : Prop :=
  Along u (Clear u) ((rules u).drop 6) (passes u ((rules u).take 6) text)

section
variable {u : Tables} {rule : Rule} {text : List Char}

theorem free_url_apply (hrule : rule ∈ rules u) (hspliced : ¬Spliced u (rule.patches u text))
    (hfree : Free u urlCredential text) : Free u urlCredential (rule.apply u text) := by
  have hhas : urlCredential.Has (· = '@') := by simp [urlCredential, Re.lit, Re.Has]
  have hgone := gone_of_clean (reading_of_has hhas) (clean_patches hrule text hfree)
  have h := free_url (marked_patches hrule text) (loose_patches hrule text) hgone hspliced
  rwa [shown_patches] at h

theorem free_url_own (text : List Char) :
    Free u urlCredential (Rule.apply u ⟨urlCredential, "url_credential"⟩ text) := by
  have hrule : ⟨urlCredential, "url_credential"⟩ ∈ rules u := by simp [rules]
  have h := free_url (marked_patches hrule text) (loose_patches hrule text) (gone_url text)
    (not_spliced_url text)
  rwa [shown_patches] at h

theorem free_quotedPair_apply (hrule : rule ∈ rules u) (hclean : Clean u quotedPair (rule.patches u text))
    (hexposed : ¬Exposed (rule.patches u text)) : Free u quotedPair (rule.apply u text) := by
  have h := free_quotedPair (marked_patches hrule text) hclean hexposed
  rwa [shown_patches] at h

theorem blind_cardNumber {rule : Rule} (hpattern : rule = ⟨cardNumber u, "pan_candidate"⟩)
    (hmissed : ¬Missed u (rule.patches u text)) : rule.Blind u (rule.apply u text) := by
  have hrule : rule ∈ rules u := by simp [rules, hpattern]
  have hedged : AtSwaps (Edged u) [] (rule.patches u text) := by
    subst hpattern
    exact edged_patches hrule (.inr rfl) (by decide) text
  intro b m a g htext hreads
  by_contra hsecret
  rw [hpattern, Rule.isSecret] at hsecret
  rw [← shown_patches] at htext
  rw [hpattern] at hreads
  have hluhn : luhnOk u m = true := by simpa using hsecret
  exact hmissed (missed_of_card (marked_patches hrule text) (loose_patches hrule text) hedged htext
    (reads_cardNumber.mp hreads).1 hluhn)

end

/-! ## A pass that is not clear -/

section
variable {u : Tables} {rule : Rule} {text m : List Char}

def cardDigit (u : Tables) : Re :=
  .seq (.one fun c => (u.decimal c).isSome) (Re.one (isAny [' ', '-'])).opt

theorem plain_pow (n : ℕ) : ((cardDigit u).pow n).Plain := by
  have hdigit : (cardDigit u).Plain := by simp [cardDigit, Re.one, Re.opt, Re.Plain]
  induction n with
  | zero => trivial
  | succ n ih => exact ⟨hdigit, ih⟩

/-- What goes on behind the last digit is no digit and no word. -/
theorem pow_trim {n : ℕ} (h : ((cardDigit u).pow (n + 1)).Matches m) :
    ∃ front d e, m = (front ++ [d]) ++ e ∧ ((cardDigit u).pow (n + 1)).Matches (front ++ [d]) ∧
      (u.decimal d).isSome = true ∧ ∀ c ∈ e, isAny [' ', '-'] c = true := by
  induction n generalizing m with
  | zero =>
    have hplain := plain_pow (u := u) 1
    obtain ⟨m₁, m₂, rfl, hm₁, hm₂⟩ := (matches_seq hplain).mp h
    obtain ⟨_, e, rfl, hdigit, hopt⟩ := (matches_seq hplain.1).mp hm₁
    obtain ⟨⟨d, rfl, hd⟩, -⟩ := reads_one.mp hdigit
    obtain rfl : m₂ = [] := by
      have hnil := (reads_each.mp hm₂).1
      simpa using hnil
    have hnone : (Re.one (isAny [' ', '-'])).opt.Matches [] := reads_opt.mpr (.inr ⟨rfl, rfl⟩)
    refine ⟨[], d, e, by simp, ?_, hd, ?_⟩
    · exact (matches_seq hplain).mpr ⟨[d], [], rfl,
        (matches_seq hplain.1).mpr ⟨[d], [], rfl, hdigit, hnone⟩, hm₂⟩
    · rcases reads_opt.mp hopt with hsep | ⟨rfl, -⟩
      · obtain ⟨⟨c, rfl, hc⟩, -⟩ := reads_one.mp hsep
        simpa using hc
      · simp
  | succ n ih =>
    have hplain := plain_pow (u := u) (n + 2)
    obtain ⟨m₁, m₂, rfl, hm₁, hm₂⟩ := (matches_seq hplain).mp h
    obtain ⟨front, d, e, rfl, hfront, hd, he⟩ := ih hm₂
    refine ⟨m₁ ++ front, d, e, by simp, ?_, hd, he⟩
    exact (matches_seq hplain).mpr ⟨m₁, front ++ [d], by simp, hm₁, hfront⟩

theorem separator {c : Char} (h : isAny [' ', '-'] c = true) :
    u.decimal c = none ∧ u.isWord c = false := by
  have hc : c = ' ' ∨ c = '-' := by simpa [isAny] using h
  rcases hc with rfl | rfl
  · exact ⟨u.decimal_ascii ' ' (by decide), u.isWord_ascii (by decide)⟩
  · exact ⟨u.decimal_ascii '-' (by decide), u.isWord_ascii (by decide)⟩

theorem luhnOk_append {e : List Char} (he : ∀ c ∈ e, isAny [' ', '-'] c = true) :
    luhnOk u (m ++ e) = luhnOk u m := by
  have hnone : e.filterMap u.decimal = [] :=
    List.filterMap_eq_nil_iff.mpr fun c hc => (separator (he c hc)).1
  unfold luhnOk
  rw [List.filterMap_append, hnone, List.append_nil]

/-- The card number stands in the result up to its last digit. -/
theorem not_blind_of_missed (hpattern : rule = ⟨cardNumber u, "pan_candidate"⟩)
    (h : Missed u (rule.patches u text)) : ¬rule.Blind u (rule.apply u text) := by
  have hrule : rule ∈ rules u := by simp [rules, hpattern]
  have hmarked := marked_patches hrule text
  obtain ⟨pa, m, py, hps, ⟨hstart, hmatches, hend⟩, hluhn⟩ := h
  obtain ⟨n, hlo, hhi, hpow⟩ := reads_times.mp hmatches
  obtain ⟨k, rfl⟩ : ∃ k, n = k + 1 := ⟨n - 1, by omega⟩
  obtain ⟨front, d, e, rfl, hfront, hd, he⟩ := pow_trim hpow
  have hcard : (cardText u).Matches (front ++ [d]) := reads_times.mpr ⟨k + 1, hlo, hhi, hfront⟩
  obtain ⟨c, t, hct, hc⟩ := hcard.exists_cons head_cardText
  have hbehind : (shown pa).reverse.head?.any u.isWord = false := by
    refine behind_shown hmarked hps ?_
    rw [hct] at hstart
    simpa [isBoundary, u.isWord_of_decimal hc] using hstart
  have hstart' : isBoundary u.isWord (shown pa).reverse ((front ++ [d]) ++ (e ++ shown py)) = true := by
    rw [hct]
    simpa [isBoundary, u.isWord_of_decimal hc] using hbehind
  have hend' : isBoundary u.isWord ((front ++ [d]).reverse ++ (shown pa).reverse) (e ++ shown py) =
      true := by
    have hnext : (e ++ shown py).head?.any u.isWord = false := by
      cases e with
      | cons c e => simpa using (separator (u := u) (he c List.mem_cons_self)).2
      | nil =>
        have hsource : (source py).head?.any u.isWord = false := by
          simpa [isBoundary, u.isWord_of_decimal hd] using hend
        cases py with
        | nil => rfl
        | cons x py =>
          cases x with
          | keep c => exact hsource
          | swap w mark =>
            obtain ⟨body, -, rfl⟩ := hmarked w mark (by simp [hps])
            simp [Tables.isWord_opens]
    have hlast : (front ++ [d]).reverse ++ (shown pa).reverse = d :: (front.reverse ++ (shown pa).reverse) := by
      simp
    rw [hlast, isBoundary, hnext, List.head?_cons, Option.any_some, u.isWord_of_decimal hd]
    rfl
  intro hblind
  have hsecret := hblind (shown pa).reverse (front ++ [d]) (e ++ shown py) (fun _ => []) ?_ ?_
  · rw [luhnOk_append he] at hluhn
    simp [Rule.isSecret, hluhn] at hsecret
  · rw [← shown_patches, hps]
    simp
  · rw [hpattern]
    exact reads_cardNumber.mpr ⟨⟨hstart', hcard, hend'⟩, rfl⟩

/-- A pass is clear exactly if no URL, no quoted pair and, after the last, no card number stands in its
result, when none of the first two stood before it but for its own matches. -/
theorem clear_iff (hrule : rule ∈ rules u) (hurl : Free u urlCredential text)
    (hpair : Clean u quotedPair (rule.patches u text)) :
    Clear u rule text ↔ Free u urlCredential (rule.apply u text) ∧ Free u quotedPair (rule.apply u text) ∧
      (rule.label = "pan_candidate" → rule.Blind u (rule.apply u text)) := by
  have hcard : rule.label = "pan_candidate" → rule = ⟨cardNumber u, "pan_candidate"⟩ := by
    simp only [rules, List.mem_cons, List.not_mem_nil, or_false] at hrule
    rcases hrule with rfl | rfl | rfl | rfl | rfl | rfl | rfl | rfl | rfl | rfl <;> simp
  constructor
  · intro h
    refine ⟨free_url_apply hrule h.unspliced hurl, free_quotedPair_apply hrule hpair h.unexposed, ?_⟩
    exact fun hlabel => blind_cardNumber (hcard hlabel) (h.unmissed hlabel)
  · rintro ⟨hfree, hfree', hblind⟩
    rw [← shown_patches] at hfree hfree'
    refine ⟨?_, fun h => not_free_of_exposed h hfree', ?_⟩
    · exact fun h => not_free_of_spliced (marked_patches hrule text) h hfree
    · exact fun hlabel h => not_blind_of_missed (hcard hlabel) h (hblind hlabel)

end

/-! ## The result -/

section
variable {u : Tables} {text : List Char}

theorem free_early {rule : Rule} (hrule : rule ∈ (rules u).take 5) : Free u rule.pattern (redact u text) := by
  have hmem : rule ∈ rules u := List.mem_of_mem_take hrule
  obtain ⟨hpattern, hurl, hpan⟩ : rule.pattern ∈ [pem, jwt, awsKey, authorization, bearer] ∧
      rule.label ≠ "url_credential" ∧ rule.label ≠ "pan_candidate" := by
    simp only [rules, List.take, List.mem_cons, List.not_mem_nil, or_false] at hrule
    rcases hrule with rfl | rfl | rfl | rfl | rfl <;> simp
  obtain ⟨front, later, hsplit⟩ := List.append_of_mem hmem
  have hrun : redact u text = passes u later (rule.apply u (passes u front text)) := by
    unfold redact passes
    rw [hsplit, List.foldl_append]
    rfl
  rw [hrun]
  have hown := free_apply hpattern hmem (clean_own hmem (passes u front text) hurl hpan)
  have hlater : later ⊆ rules u := by
    rw [hsplit]
    exact fun x hx => List.mem_append_right _ (List.mem_cons_of_mem _ hx)
  refine free_passes (C := fun _ _ => True) ?_ hlater along_true hown
  exact fun later hmem text _ hfree => free_apply hpattern hmem (clean_patches hmem text hfree)

theorem drop_subset (n : ℕ) : (rules u).drop n ⊆ rules u := fun _ h => List.mem_of_mem_drop h

theorem mem_of_drop {rule : Rule} {n : ℕ} {later : List Rule} (hdrop : (rules u).drop n = rule :: later) :
    rule ∈ rules u :=
  drop_subset n (by rw [hdrop]; exact List.mem_cons_self)

/-- The run up to a rule, its pass and the rest of the run. -/
theorem redact_eq {rule : Rule} {n : ℕ} (hdrop : (rules u).drop n = rule :: (rules u).drop (n + 1)) :
    redact u text = passes u ((rules u).drop (n + 1)) (rule.apply u (passes u ((rules u).take n) text)) := by
  have hsplit := List.take_append_drop n (rules u)
  rw [hdrop] at hsplit
  unfold redact passes
  conv_lhs => rw [← hsplit]
  rw [List.foldl_append, List.foldl_cons]

theorem passes_take {rule : Rule} {n : ℕ} (hdrop : (rules u).drop n = rule :: (rules u).drop (n + 1)) :
    passes u ((rules u).take (n + 1)) text = rule.apply u (passes u ((rules u).take n) text) := by
  have hn : (rules u)[n]? = some rule := by rw [← List.head?_drop, hdrop, List.head?_cons]
  rw [List.take_add_one, hn]
  unfold passes
  rw [List.foldl_append]
  rfl

theorem free_urlCredential (h : Settles u text) : Free u urlCredential (redact u text) := by
  have hdrop : (rules u).drop 5 = ⟨urlCredential, "url_credential"⟩ :: (rules u).drop 6 := rfl
  unfold Settles at h
  rw [passes_take hdrop] at h
  rw [redact_eq hdrop]
  refine free_passes ?_ (drop_subset 6) h (free_url_own _)
  exact fun rule hrule text hclear => free_url_apply hrule hclear.unspliced

theorem free_quotedPair_redact (h : Settles u text) : Free u quotedPair (redact u text) := by
  have hdrop : (rules u).drop 6 = ⟨quotedPair, "credential"⟩ :: (rules u).drop 7 := rfl
  have hrule : ⟨quotedPair, "credential"⟩ ∈ rules u := mem_of_drop hdrop
  unfold Settles at h
  rw [hdrop, Along] at h
  rw [redact_eq hdrop]
  generalize passes u ((rules u).take 6) text = mid at h ⊢
  have hclean := clean_own hrule mid (by simp) (by simp)
  have hown := free_quotedPair_apply hrule hclean h.1.unexposed
  refine free_passes ?_ (drop_subset 7) h.2 hown
  intro rule hrule text hclear hfree
  exact free_quotedPair_apply hrule (clean_patches hrule text hfree) hclear.unexposed

theorem free_bareValue_redact : Free u bareValue (redact u text) := by
  have hdrop : (rules u).drop 8 = ⟨bareValue, "credential"⟩ :: (rules u).drop 9 := rfl
  have hlast : (rules u).drop 9 = [⟨cardNumber u, "pan_candidate"⟩] := rfl
  have hbare : ⟨bareValue, "credential"⟩ ∈ rules u := mem_of_drop hdrop
  have hcard : ⟨cardNumber u, "pan_candidate"⟩ ∈ rules u := mem_of_drop hlast
  rw [redact_eq hdrop, hlast, passes, List.foldl_cons, List.foldl_nil]
  generalize passes u ((rules u).take 8) text = mid
  have hown := free_bareValue (marked_patches hbare mid)
    (edged_patches hbare (.inl rfl) (by simp) _) (clean_own hbare _ (by simp) (by simp))
  rw [shown_patches] at hown
  have hkept := free_bareValue (marked_patches hcard _) (edged_patches hcard (.inr rfl) (by simp) _)
    (clean_patches hcard _ hown)
  rw [shown_patches] at hkept
  exact hkept

theorem blind_cardNumber_redact (h : Settles u text) :
    Rule.Blind u ⟨cardNumber u, "pan_candidate"⟩ (redact u text) := by
  have hdrop : (rules u).drop 6 = [⟨quotedPair, "credential"⟩, ⟨quotedValue, "credential"⟩,
    ⟨bareValue, "credential"⟩, ⟨cardNumber u, "pan_candidate"⟩] := rfl
  unfold Settles at h
  have hrun : redact u text = passes u ((rules u).drop 6) (passes u ((rules u).take 6) text) := by
    unfold redact passes
    rw [← List.foldl_append, List.take_append_drop]
  rw [hdrop] at h hrun
  simp only [Along] at h
  rw [hrun]
  simp only [passes, List.foldl_cons, List.foldl_nil]
  exact blind_cardNumber rfl (h.2.2.2.1.unmissed rfl)

theorem closed_of_settles (h : Settles u text) : Closed u (redact u text) := by
  intro rule hrule
  have hsplit : rule ∈ (rules u).take 5 ∨ rule ∈ (rules u).drop 5 := by
    rw [← List.mem_append, List.take_append_drop]
    exact hrule
  rcases hsplit with hearly | hlate
  · exact blind_of_free (free_early hearly)
  · simp only [rules, List.drop, List.mem_cons, List.not_mem_nil, or_false] at hlate
    rcases hlate with rfl | rfl | rfl | rfl | rfl
    · exact blind_of_free (free_urlCredential h)
    · exact blind_of_free (free_quotedPair_redact h)
    · exact blind_of_free (free_quotedValue free_bareValue_redact)
    · exact blind_of_free free_bareValue_redact
    · exact blind_cardNumber_redact h

theorem redact_of_closed (h : Closed u text) : redact u text = text :=
  passes_of_closed (List.Subset.refl _) h

theorem passes_nil (later : List Rule) : passes u later [] = [] := by
  induction later with
  | nil => rfl
  | cons rule later ih =>
    have hempty : rule.apply u [] = [] := rfl
    rw [passes, List.foldl_cons, hempty]
    exact ih

theorem redactText_eq (text : String) :
    redactText u (some text) = some (String.ofList (redact u text.toList)) := by
  unfold redactText
  dsimp only
  split_ifs with hempty
  · have hnil := passes_nil (u := u) (rules u)
    rw [passes, ← redact] at hnil
    rw [hempty, String.toList_empty, hnil]
  · rfl

/-- If the passes after that over URLs bring nothing back, no secret is left and a second run changes
nothing. -/
theorem redactText_stable (u : Tables) (text : Option String) (h : ∀ t ∈ text, Settles u t.toList) :
    redactText u (redactText u text) = redactText u text ∧
      ∀ out ∈ redactText u text, Closed u out.toList := by
  cases text with
  | none => simp [redactText]
  | some text =>
    have hclosed := closed_of_settles (h text rfl)
    rw [redactText_eq, redactText_eq, String.toList_ofList, redact_of_closed hclosed]
    refine ⟨rfl, ?_⟩
    intro out hout
    obtain rfl := Option.some.inj hout
    rw [String.toList_ofList]
    exact hclosed

end

/-! ## Texts in ASCII -/

def asciiDecimal (c : Char) : Option ℕ := if c.isDigit then some (c.toNat - 48) else none

theorem isDigit_of_asciiDecimal {c : Char} (h : (asciiDecimal c).isSome = true) : c.isDigit = true := by
  by_contra hnot
  simp [asciiDecimal, hnot] at h

theorem isAlphanum_of_asciiDecimal (c : Char) (h : (asciiDecimal c).isSome = true) :
    c.isAlphanum = true := by
  rw [isAlphanum_eq, isDigit_of_asciiDecimal h, Bool.or_true]

theorem isSpace_of_asciiDecimal (c : Char) (h : (asciiDecimal c).isSome = true) : isSpace c = false := by
  have hall := forall_ascii (P := fun c => !c.isDigit || !isSpace c) (by decide +kernel)
    (ascii_of_isAlphanum (isAlphanum_of_asciiDecimal c h))
  simpa [isDigit_of_asciiDecimal h] using hall

/-- The tables for texts in ASCII. -/
def ascii : Tables where
  isAlnum := Char.isAlphanum
  decimal := asciiDecimal
  isAlnum_ascii _ _ := rfl
  decimal_ascii _ _ := rfl
  isAlnum_of_decimal := isAlphanum_of_asciiDecimal
  isSpace_of_decimal := isSpace_of_asciiDecimal

/-- The mark of the assignment brings a colon between the scheme and the `@`. -/
theorem redactText_unstable :
    redactText ascii (some "http://token=\"a b\"@host") = some "http://<REDACTED:credential>@host" ∧
      redactText ascii (redactText ascii (some "http://token=\"a b\"@host")) ≠
        redactText ascii (some "http://token=\"a b\"@host") := by
  rw [redactText_eq, redactText_eq, String.toList_ofList]
  decide +kernel

section
variable {u : Tables} {rule : Rule} {text : List Char}

/-- Neither an `@` nor a quote nor a digit. -/
def isPlain (u : Tables) (c : Char) : Bool := c != '@' && !isQuote c && (u.decimal c).isNone

theorem clear_of_plain (hrule : rule ∈ rules u) (hplain : text.all (isPlain u) = true) :
    Clear u rule text := by
  have h : ∀ c ∈ text, c ≠ '@' ∧ isQuote c = false ∧ u.decimal c = none := by
    intro c hc
    simpa [isPlain, and_assoc] using List.all_eq_true.mp hplain c hc
  rw [← source_patches hrule text] at h
  refine ⟨?_, ?_, ?_⟩
  · rintro ⟨pa, scheme, user, m, mark, host, py, hps, -⟩
    exact (h '@' (by simp [hps])).1 rfl
  · rintro ⟨pa, front, q', value, py, hps, -, -, c, hc, hquote⟩
    have hnot := (h c (by simp [hps, hc])).2.1
    rw [hnot] at hquote
    simp at hquote
  · rintro - ⟨pa, m, py, hps, ⟨-, hmatches, -⟩, -⟩
    obtain ⟨c, t, rfl, hc⟩ := hmatches.exists_cons head_cardText
    have hnot := (h c (by simp [hps])).2.2
    rw [hnot] at hc
    simp at hc

end

theorem settles_password : Settles ascii "pwd=x".toList := by
  have hdrop : (rules ascii).drop 6 = [⟨quotedPair, "credential"⟩, ⟨quotedValue, "credential"⟩,
    ⟨bareValue, "credential"⟩, ⟨cardNumber ascii, "pan_candidate"⟩] := rfl
  have hearly : passes ascii ((rules ascii).take 6) "pwd=x".toList = "pwd=x".toList := by decide +kernel
  have hpair : Rule.apply ascii ⟨quotedPair, "credential"⟩ "pwd=x".toList = "pwd=x".toList := by
    decide +kernel
  have hquoted : Rule.apply ascii ⟨quotedValue, "credential"⟩ "pwd=x".toList = "pwd=x".toList := by
    decide +kernel
  have hbare : Rule.apply ascii ⟨bareValue, "credential"⟩ "pwd=x".toList =
      "<REDACTED:credential>".toList := by
    decide +kernel
  have hplain : "pwd=x".toList.all (isPlain ascii) = true := by decide
  have hplain' : "<REDACTED:credential>".toList.all (isPlain ascii) = true := by decide
  have hmem : ∀ rule ∈ (rules ascii).drop 6, rule ∈ rules ascii := fun _ h => List.mem_of_mem_drop h
  rw [hdrop] at hmem
  unfold Settles
  rw [hdrop, hearly, Along, Along, Along, Along, hpair, hquoted, hbare]
  exact ⟨clear_of_plain (hmem _ (by simp)) hplain, clear_of_plain (hmem _ (by simp)) hplain,
    clear_of_plain (hmem _ (by simp)) hplain, clear_of_plain (hmem _ (by simp)) hplain', trivial⟩

theorem redactText_stable_password :
    redactText ascii (redactText ascii (some "pwd=x")) = redactText ascii (some "pwd=x") ∧
      ∀ out ∈ redactText ascii (some "pwd=x"), Closed ascii out.toList :=
  redactText_stable ascii (some "pwd=x") fun _ ht => Option.some.inj ht ▸ settles_password

end SocTalk.Redaction
