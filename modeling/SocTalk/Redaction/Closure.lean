import SocTalk.Redaction.Passes

/-! Which secrets a pass can bring back, and what `redact` leaves of a text. -/
namespace SocTalk.Redaction
open Regex Splice

/-! ## Marks -/

/-- What stands between the angle brackets of a mark. -/
def bodies : List (List Char) :=
  ["private_key", "jwt", "aws_key", "auth_token", "url_credential", "credential", "pan"].map
    fun label => ("REDACTED:" ++ label).toList

theorem marker_eq (label : String) : marker label = '<' :: (("REDACTED:" ++ label).toList ++ ['>']) := by
  simp [marker, String.toList_append]

section
variable {u : Tables}

theorem mem_bodies {rule : Rule} (hrule : rule ∈ rules u) (hpan : rule.label ≠ "pan_candidate") :
    ("REDACTED:" ++ rule.label).toList ∈ bodies := by
  refine List.mem_map.mpr ⟨rule.label, ?_, rfl⟩
  simp only [rules, List.mem_cons, List.not_mem_nil, or_false] at hrule
  rcases hrule with rfl | rfl | rfl | rfl | rfl | rfl | rfl | rfl | rfl | rfl
  all_goals first | exact absurd rfl hpan | simp

theorem marked_patch {rule : Rule} (hrule : rule ∈ rules u) (p : Piece) :
    Marked '<' '>' bodies (patch u rule.label p) := by
  intro m mark hmem
  cases p with
  | keep c => simp [patch] at hmem
  | hit m' g =>
    unfold patch at hmem
    dsimp only at hmem
    split_ifs at hmem with hpan hluhn hurl
    · obtain ⟨rfl, rfl⟩ : m = m' ∧ mark = marker "pan" := by simpa using hmem
      exact ⟨_, by simp [bodies], marker_eq _⟩
    · simp [keeps] at hmem
    · have hmark : mark = marker "url_credential" := by
        simp [keeps] at hmem
        exact hmem.2
      rw [hmark]
      exact ⟨_, by simp [bodies], marker_eq _⟩
    · obtain ⟨rfl, rfl⟩ : m = m' ∧ mark = marker rule.label := by simpa using hmem
      exact ⟨_, mem_bodies hrule hpan, marker_eq _⟩

theorem marked_patches {rule : Rule} (hrule : rule ∈ rules u) (text : List Char) :
    Marked '<' '>' bodies (rule.patches u text) := by
  intro m mark hmem
  obtain ⟨p, -, hp⟩ := List.mem_flatMap.mp hmem
  exact marked_patch hrule p m mark hp

end

/-! ## Stretches that have stayed -/

/-- A text that is in no mark and holds no end of one. -/
structure Foreign (m : List Char) : Prop where
  ne_nil : m ≠ []
  opens : '<' ∉ m
  closes : '>' ∉ m
  apart : ∀ body ∈ bodies, ¬m <:+: body

/-- A character that is in no mark. -/
def Alien (c : Char) : Prop := ∀ body ∈ bodies, c ∉ body

instance (c : Char) : Decidable (Alien c) := by unfold Alien; infer_instance

theorem foreign_of_matches {r : Re} (hhas : r.Has Alien) (hopens : r.avoids '<' = true)
    (hcloses : r.avoids '>' = true) {m : List Char} (h : r.Matches m) : Foreign m := by
  obtain ⟨c, hc, halien⟩ := h.exists_mem hhas
  refine ⟨List.ne_nil_of_mem hc, h.not_mem hopens, h.not_mem hcloses, ?_⟩
  intro body hbody hinside
  exact halien body hbody (hinside.subset hc)

/-- The pattern matches nowhere in the text. -/
def Free (u : Tables) (r : Re) (text : List Char) : Prop :=
  ∀ b m a g, text = b.reverse ++ (m ++ a) → ¬Reads u.isWord r b (fun _ => []) m a g

/-- The pattern matches from no character that stayed. -/
def Clean (u : Tables) (r : Re) (ps : List (Patch Char)) : Prop :=
  AtKeeps (fun b qs => r.run u.isWord ⟨b, source qs, fun _ => []⟩ = []) [] ps

section
variable {u : Tables} {r : Re} {ps : List (Patch Char)}

theorem clean_of_free (h : Free u r (source ps)) : Clean u r ps := by
  refine atKeeps_of_forall ?_
  intro b qs htext
  refine List.eq_nil_iff_forall_not_mem.mpr ?_
  intro e he
  obtain ⟨m, ha, -, hreads⟩ := exists_reads_of_run he
  refine h b m e.ahead e.groups ?_ hreads
  rw [← ha, ← htext]
  rfl

theorem not_reads_of_clean (hclean : Clean u r ps) {pa py : List (Patch Char)} {c : Char}
    {w t a : List Char} {g : ℕ → List Char} (hps : ps = pa ++ (keeps (c :: w) ++ py))
    (ha : w ++ source py = t ++ a) : ¬Reads u.isWord r (source pa).reverse (fun _ => []) (c :: t) a g := by
  intro hreads
  rw [hps, keeps_cons, List.cons_append] at hclean
  have hhere := (AtKeeps.after hclean).1
  rw [List.append_nil, source_keep, source_append, source_keeps, ha] at hhere
  unfold Reads at hreads
  rw [List.cons_append, hhere] at hreads
  exact absurd hreads List.not_mem_nil

theorem Tables.isWord_opens : u.isWord '<' = false := u.isWord_ascii (by decide)

theorem Tables.isWord_closes : u.isWord '>' = false := u.isWord_ascii (by decide)

/-- What stands behind a stretch that begins with a letter, as far as boundaries tell. -/
theorem behind_source (hloose : AtSwaps (Loose u) [] ps)
    {pa py : List (Patch Char)} {c : Char} {t : List Char} (hps : ps = pa ++ (keeps (c :: t) ++ py))
    (hc : c.isAlpha = true) (h : (shown pa).reverse.head?.any u.isWord = false) :
    (source pa).reverse.head?.any u.isWord = false := by
  rcases List.eq_nil_or_concat pa with rfl | ⟨qa, x, rfl⟩
  · rfl
  · rw [List.concat_eq_append] at hps h ⊢
    cases x with
    | keep d => simpa using h
    | swap m mark =>
      rw [hps, List.append_assoc] at hloose
      obtain ⟨hhere, -⟩ := AtSwaps.after hloose
      have hhead : (source (qa ++ [.swap m mark])).reverse.head? = m.getLast? := by
        rw [source_append, source_swap, source_nil, List.append_nil, List.reverse_append,
          List.head?_append, List.head?_reverse]
        rw [List.getLast?_eq_some_getLast hhere.ne_nil]
        rfl
      rw [hhead]
      by_contra hword
      have hlast := List.getLast?_eq_some_getLast hhere.ne_nil
      rw [hlast, Option.any_some, Bool.not_eq_false] at hword
      have hnot := hhere.stop _ (Option.mem_def.mpr hlast) c (by simp) hword
      rw [hc] at hnot
      simp at hnot

theorem head_reverse_append {m : List Char} (hm : m ≠ []) (b : List Char) :
    (m.reverse ++ b).head? = some (m.getLast hm) := by
  rw [List.head?_append, List.head?_reverse, List.getLast?_eq_some_getLast hm]
  rfl

/-- A boundary behind a stretch that has stayed was there before. -/
theorem boundary_source (hmarked : Marked '<' '>' bodies ps) (hloose : AtSwaps (Loose u) [] ps)
    {pa py : List (Patch Char)} {m b : List Char} (hm : m ≠ []) (hps : ps = pa ++ (keeps m ++ py))
    (h : isBoundary u.isWord (m.reverse ++ b) (shown py) = true) :
    isBoundary u.isWord (m.reverse ++ (source pa).reverse) (source py) = true := by
  unfold isBoundary at h ⊢
  rw [head_reverse_append hm] at h ⊢
  cases py with
  | nil => exact h
  | cons x py =>
    cases x with
    | keep d => exact h
    | swap w mark =>
      have hmem : Patch.swap w mark ∈ ps := by
        rw [hps]
        simp
      obtain ⟨body, -, rfl⟩ := hmarked w mark hmem
      rw [shown_swap, List.cons_append, List.head?_cons, Option.any_some, Option.any_some,
        Tables.isWord_opens, Bool.bne_false] at h
      rw [hps, ← List.append_assoc] at hloose
      obtain ⟨hhere, -⟩ := AtSwaps.after hloose
      obtain ⟨c, t, rfl⟩ := List.exists_cons_of_ne_nil hhere.ne_nil
      have hbehind : (source (pa ++ keeps m)).reverse ++ [] =
          m.reverse ++ (source pa).reverse := by
        simp
      rw [hbehind] at hhere
      have hnot := hhere.start _ (Option.mem_def.mpr (head_reverse_append hm _)) c rfl h
      rw [source_swap, List.cons_append, List.head?_cons, Option.any_some, Option.any_some, h, hnot]
      rfl

/-- A boundary before a stretch that has stayed and begins with a letter was there before. -/
theorem start_source (hloose : AtSwaps (Loose u) [] ps) {pa py : List (Patch Char)} {c : Char}
    {t a z : List Char} (hps : ps = pa ++ (keeps (c :: t) ++ py)) (hc : c.isAlpha = true)
    (h : isBoundary u.isWord (shown pa).reverse (c :: t ++ a) = true) :
    isBoundary u.isWord (source pa).reverse (c :: t ++ z) = true := by
  unfold isBoundary at h ⊢
  rw [List.cons_append, List.head?_cons, Option.any_some, u.isWord_of_isAlpha hc, Bool.bne_true,
    Bool.not_eq_true'] at h ⊢
  exact behind_source hloose hps hc h

/-- A pattern of texts that begin with a letter and are none of a mark's, from a boundary on. -/
theorem free_of_start {r : Re} (hplain : r.Plain) (hhead : r.Head fun c => c.isAlpha = true)
    (hforeign : ∀ m, r.Matches m → Foreign m) (hmarked : Marked '<' '>' bodies ps)
    (hloose : AtSwaps (Loose u) [] ps) (hclean : Clean u (.seq .boundary r) ps) :
    Free u (.seq .boundary r) (shown ps) := by
  intro b m a g htext hreads
  obtain ⟨hstart, hbody⟩ := boundary_of_reads hreads
  obtain ⟨c, t, rfl, hc⟩ := hbody.exists_cons hhead
  obtain ⟨hmatches, rfl⟩ := (reads_plain hplain).mp hbody
  obtain ⟨hne, hopens, hcloses, hapart⟩ := hforeign _ hmatches
  obtain ⟨pa, py, hps, hpa, hpy⟩ := exists_align hmarked hne hopens hcloses hapart htext
  rw [← List.reverse_eq_iff] at hpa
  subst hpa
  have hstart' := start_source (z := source py) hloose hps hc hstart
  refine not_reads_of_clean (g := fun _ => []) hclean hps rfl ?_
  refine reads_seq.mpr ⟨[], _, _, rfl, reads_boundary.mpr ⟨rfl, hstart', rfl⟩, ?_⟩
  exact (reads_plain hplain).mpr ⟨hmatches, rfl⟩

/-- The same up to a boundary. -/
theorem free_of_between {r : Re} (hplain : r.Plain) (hhead : r.Head fun c => c.isAlpha = true)
    (hforeign : ∀ m, r.Matches m → Foreign m) (hmarked : Marked '<' '>' bodies ps)
    (hloose : AtSwaps (Loose u) [] ps) (hclean : Clean u (.seq .boundary (.seq r .boundary)) ps) :
    Free u (.seq .boundary (.seq r .boundary)) (shown ps) := by
  intro b m a g htext hreads
  obtain ⟨hstart, hrest⟩ := boundary_of_reads hreads
  obtain ⟨m, _, g₁, rfl, hbody, hlast⟩ := reads_seq.mp hrest
  obtain ⟨rfl, hend, -⟩ := reads_boundary.mp hlast
  rw [List.append_nil] at hstart htext
  obtain ⟨c, t, rfl, hc⟩ := hbody.exists_cons hhead
  obtain ⟨hmatches, rfl⟩ := (reads_plain hplain).mp hbody
  obtain ⟨hne, hopens, hcloses, hapart⟩ := hforeign _ hmatches
  obtain ⟨pa, py, hps, hpa, hpy⟩ := exists_align hmarked hne hopens hcloses hapart htext
  rw [← List.reverse_eq_iff] at hpa
  subst hpa hpy
  have hstart' := start_source (z := source py) hloose hps hc hstart
  have hend' := boundary_source hmarked hloose hne hps hend
  refine not_reads_of_clean (g := fun _ => []) hclean hps rfl ?_
  refine reads_seq.mpr ⟨[], _, _, rfl, reads_boundary.mpr ⟨rfl, hstart', rfl⟩, ?_⟩
  refine reads_seq.mpr ⟨c :: t, [], _, (List.append_nil _).symm,
    (reads_plain hplain).mpr ⟨hmatches, rfl⟩, ?_⟩
  exact reads_boundary.mpr ⟨rfl, hend', rfl⟩

end

/-! ## Patterns that no pass brings back -/

theorem isAlpha_of_toLower {c : Char} (h : c.toLower.isLower = true) : c.isAlpha = true := by
  by_cases hupper : c.isUpper = true
  · rw [isAlpha_eq, hupper, Bool.true_or]
  · have hsame : c.toLower = c := by
      unfold Char.toLower
      rw [dif_neg]
      simpa [isUpper_eq] using hupper
    rw [hsame] at h
    exact isAlpha_of_isLower h

theorem isAlpha_of_foldCase {c d : Char} (hd : d.isLower = true) (hspecial : d ∉ ['i', 's', 'k'])
    (h : foldCase c = d) : c.isAlpha = true := by
  unfold foldCase at h
  split_ifs at h
  · exact absurd (by simp [← h]) hspecial
  · exact absurd (by simp [← h]) hspecial
  · exact absurd (by simp [← h]) hspecial
  · exact isAlpha_of_toLower (h ▸ hd)

theorem forall_bodies {P : Char → Bool} (h : (bodies.all fun body => body.all P) = true) {body : List Char}
    (hbody : body ∈ bodies) {c : Char} (hc : c ∈ body) : P c = true :=
  List.all_eq_true.mp (List.all_eq_true.mp h body hbody) c hc

theorem alien_of_isSpace {c : Char} (h : isSpace c = true) : Alien c := by
  intro body hbody hc
  have hnot := forall_bodies (P := fun d => !isSpace d) (by decide +kernel) hbody hc
  simp [h] at hnot

section
variable {u : Tables} {ps : List (Patch Char)} (hmarked : Marked '<' '>' bodies ps)
  (hloose : AtSwaps (Loose u) [] ps)
include hmarked hloose

theorem free_jwt (hclean : Clean u jwt ps) : Free u jwt (shown ps) := by
  have hplain : jwtText.Plain := by simp [jwtText, Re.lit, Re.Plain]
  have hhead : jwtText.Head fun c => c.isAlpha = true := by simp [jwtText, Re.lit, Re.Head]
  have hdot : Alien '.' := by decide +kernel
  have hhas : jwtText.Has Alien := by simp [jwtText, Re.lit, Re.Has, hdot]
  exact free_of_between hplain hhead (fun _ => foreign_of_matches hhas rfl rfl) hmarked hloose hclean

theorem free_awsKey (hclean : Clean u awsKey ps) : Free u awsKey (shown ps) := by
  have hplain : awsKeyText.Plain := by simp [awsKeyText, Re.lit, Re.Plain]
  have hhead : awsKeyText.Head fun c => c.isAlpha = true := by simp [awsKeyText, Re.lit, Re.Head]
  have hkay : Alien 'K' := by decide +kernel
  have hhas : awsKeyText.Has Alien := by simp [awsKeyText, Re.lit, Re.Has, hkay]
  exact free_of_between hplain hhead (fun _ => foreign_of_matches hhas rfl rfl) hmarked hloose hclean

theorem free_authorization (hclean : Clean u authorization ps) :
    Free u authorization (shown ps) := by
  have hplain : authorizationText.Plain := by
    simp [authorizationText, nocase, spaces, Re.one, Re.Plain]
  have hhead : authorizationText.Head fun c => c.isAlpha = true :=
    .inl ⟨_, rfl, fun c h => isAlpha_of_foldCase (by decide) (by decide) (eq_of_beq h)⟩
  have hhas : authorizationText.Has Alien :=
    .inr <| .inr <| .inr <| .inr <| .inr <| .inl ⟨by decide, fun _ => alien_of_isSpace⟩
  exact free_of_start hplain hhead (fun _ => foreign_of_matches hhas rfl rfl) hmarked hloose hclean

theorem free_bearer (hclean : Clean u bearer ps) : Free u bearer (shown ps) := by
  have hplain : bearerText.Plain := by simp [bearerText, nocase, Re.Plain]
  have hhead : bearerText.Head fun c => c.isAlpha = true :=
    .inl ⟨_, rfl, fun c h => isAlpha_of_foldCase (by decide) (by decide) (eq_of_beq h)⟩
  have hhas : bearerText.Has Alien := .inr <| .inl ⟨by decide, fun _ => alien_of_isSpace⟩
  exact free_of_start hplain hhead (fun _ => foreign_of_matches hhas rfl rfl) hmarked hloose hclean

omit hloose in
/-- A key block has its two ends in what stayed, whatever stands between them. -/
theorem free_pem (hclean : Clean u pem ps) : Free u pem (shown ps) := by
  have hdash : Alien '-' := by decide +kernel
  have hplain : pem.Plain := by simp [pem, pemBegin, pemEnd, pemKind, Re.opt, Re.lit, Re.Plain]
  have hbegin : pemBegin.Has Alien := by simp [pemBegin, Re.lit, Re.Has, hdash]
  have hend : pemEnd.Has Alien := by simp [pemEnd, Re.lit, Re.Has, hdash]
  intro b m a g htext hreads
  obtain ⟨hmatches, -⟩ := (reads_plain hplain).mp hreads
  obtain ⟨m₁, rest, rfl, hm₁, hrest⟩ := (matches_seq hplain).mp hmatches
  obtain ⟨y, m₂, rfl, -, hm₂⟩ := (matches_seq hplain.2).mp hrest
  obtain ⟨hne, hopens, hcloses, hapart⟩ := foreign_of_matches hbegin rfl rfl hm₁
  obtain ⟨hne', hopens', hcloses', hapart'⟩ := foreign_of_matches hend rfl rfl hm₂
  rw [List.append_assoc, List.append_assoc] at htext
  obtain ⟨pa, pr, rfl, hpa, hpr⟩ := exists_align hmarked hne hopens hcloses hapart htext
  have hmarked' : Marked '<' '>' bodies pr := fun w mark hmem => hmarked w mark (by simp [hmem])
  obtain ⟨pb, py, rfl, hpb, hpy⟩ := exists_align hmarked' hne' hopens' hcloses' hapart' hpr
  obtain ⟨c, t, rfl⟩ := List.exists_cons_of_ne_nil hne
  refine not_reads_of_clean (t := t ++ (source pb ++ m₂)) (a := source py) (g := fun _ => []) hclean
    (w := t) rfl (by simp) ?_
  refine (reads_plain hplain).mpr ⟨(matches_seq hplain).mpr ⟨c :: t, _, rfl, hm₁, ?_⟩, rfl⟩
  refine (matches_seq hplain.2).mpr ⟨source pb, m₂, rfl, ?_, hm₂⟩
  exact reads_few.mpr ⟨fun _ _ => rfl, rfl⟩

end

end SocTalk.Redaction
