import SocTalk.Lib.Regex

/-! The match that a pattern takes at a place, and the replacing of all matches of a text. -/
namespace Regex

/-! ## The match a pattern takes -/

def Re.first (word : Char → Bool) (r : Re) (b a : List Char) : Option Pos :=
  (r.run word ⟨b, a, fun _ => []⟩).head?

section
variable {word : Char → Bool}

theorem exists_head_of_seq {r t : Re} {s e : Pos} (h : ((Re.seq r t).run word s).head? = some e) :
    ∃ mid ∈ r.run word s, (t.run word mid).head? = some e := by
  rw [Re.run, List.head?_flatMap] at h
  exact List.exists_of_findSome?_eq_some h

/-- A repetition takes all it can. -/
theorem stops_of_head_manyOf {p : Char → Bool} {g : ℕ → List Char} {lo : ℕ} {b a : List Char} {e : Pos}
    (h : (manyOf p g lo b a).head? = some e) : ∀ c ∈ e.ahead.head?, p c = false := by
  induction a generalizing lo b with
  | nil =>
    cases lo with
    | zero =>
      obtain rfl : ⟨b, [], g⟩ = e := by simpa [manyOf] using h
      simp
    | succ lo => simp [manyOf] at h
  | cons c a ih =>
    cases lo with
    | zero =>
      rw [manyOf] at h
      split_ifs at h with hc
      · cases hmore : manyOf p g 0 (c :: b) a with
        | nil =>
          have hself : ⟨c :: b, a, g⟩ ∈ manyOf p g 0 (c :: b) a :=
            mem_manyOf.mpr ⟨[], a, rfl, Nat.le_refl 0, by simp, rfl⟩
          rw [hmore] at hself
          exact absurd hself List.not_mem_nil
        | cons x xs =>
          have hhead : (manyOf p g 0 (c :: b) a).head? = some e := by
            rw [hmore] at h ⊢
            exact h
          exact ih hhead
      · obtain rfl : ⟨b, c :: a, g⟩ = e := by simpa using h
        simpa using hc
    | succ lo =>
      rw [manyOf] at h
      split_ifs at h with hc
      · exact ih h
      · simp at h

theorem exists_head_final {r : Re} {s e : Pos} (h : (r.run word s).head? = some e) :
    ∃ mid, (r.final.run word mid).head? = some e := by
  induction r generalizing s with
  | seq r t _ iht =>
    obtain ⟨mid, -, hmid⟩ := exists_head_of_seq h
    exact iht hmid
  | _ => exact ⟨s, h⟩

/-- A match that ends in a repetition ends where it cannot go on. -/
theorem stops_of_first {r : Re} {p : Char → Bool} {lo : ℕ} (hfinal : r.final = .many p lo)
    {b a : List Char} {e : Pos} (h : r.first word b a = some e) : ∀ c ∈ e.ahead.head?, p c = false := by
  obtain ⟨mid, hmid⟩ := exists_head_final h
  rw [hfinal] at hmid
  exact stops_of_head_manyOf hmid

theorem reads_of_first {r : Re} {b m a : List Char} {g : ℕ → List Char}
    (h : r.first word b (m ++ a) = some ⟨m.reverse ++ b, a, g⟩) :
    Reads word r b (fun _ => []) m a g :=
  List.mem_of_mem_head? h

end

/-! ## Replacing -/

/-- A character that stays or the text of a match. -/
inductive Piece where
  | keep (c : Char)
  | hit (m : List Char) (groups : ℕ → List Char)

/-- The matches of the text from the left, none within another, for a pattern that reads something;
the first so many characters belong to a match before. -/
def cut (word : Char → Bool) (r : Re) : ℕ → List Char → List Char → List Piece
  | _, _, [] => []
  | k + 1, b, c :: a => cut word r k (c :: b) a
  | 0, b, c :: a =>
    match r.first word b (c :: a) with
    | none => .keep c :: cut word r 0 (c :: b) a
    | some e =>
      let m := Pos.upTo ⟨b, c :: a, e.groups⟩ e
      .hit m e.groups :: cut word r (m.length - 1) (c :: b) a

def Piece.render (f : List Char → (ℕ → List Char) → List Char) : Piece → List Char
  | keep c => [c]
  | hit m g => f m g

/-- `re.sub`. -/
def sub (word : Char → Bool) (r : Re) (f : List Char → (ℕ → List Char) → List Char)
    (text : List Char) : List Char :=
  (cut word r 0 [] text).flatMap (Piece.render f)

/-- The pieces of what stands ahead. -/
inductive Cut (word : Char → Bool) (r : Re) : List Char → List Char → List Piece → Prop
  | nil (b : List Char) : Cut word r b [] []
  | keep {b a : List Char} {c : Char} {ps : List Piece} :
      r.run word ⟨b, c :: a, fun _ => []⟩ = [] → Cut word r (c :: b) a ps →
      Cut word r b (c :: a) (.keep c :: ps)
  | hit {b a m : List Char} {g : ℕ → List Char} {ps : List Piece} :
      m ≠ [] → r.first word b (m ++ a) = some ⟨m.reverse ++ b, a, g⟩ →
      Cut word r (m.reverse ++ b) a ps → Cut word r b (m ++ a) (.hit m g :: ps)

section
variable {word : Char → Bool} {r : Re}

theorem cut_skip (m b a : List Char) :
    cut word r m.length b (m ++ a) = cut word r 0 (m.reverse ++ b) a := by
  induction m generalizing b with
  | nil => rfl
  | cons c m ih =>
    rw [List.length_cons, List.cons_append, cut, ih]
    simp

/-- A pattern that never reads nothing. -/
def Reading (word : Char → Bool) (r : Re) : Prop :=
  ∀ b a g m g', Reads word r b g m a g' → m ≠ []

theorem reading_of_has {p : Char → Prop} (h : r.Has p) : Reading word r := by
  intro b a g m g' hreads
  obtain ⟨c, hc, -⟩ := hreads.exists_mem h
  exact List.ne_nil_of_mem hc

theorem cut_spec (hreading : Reading word r) (b a : List Char) : Cut word r b a (cut word r 0 b a) := by
  induction hn : a.length using Nat.strongRecOn generalizing b a with
  | ind n ih =>
    subst hn
    cases a with
    | nil => exact .nil b
    | cons c a =>
      rw [cut]
      cases hfirst : r.first word b (c :: a) with
      | none =>
        exact .keep (List.head?_eq_none_iff.mp hfirst) (ih _ (by simp) (c :: b) a rfl)
      | some e =>
        obtain ⟨be, ae, ge⟩ := e
        obtain ⟨m, hahead, hbehind, hreads⟩ := exists_reads_of_run (List.mem_of_mem_head? hfirst)
        dsimp only at hahead hbehind hreads
        have hne : m ≠ [] := hreading _ _ _ _ _ hreads
        obtain ⟨d, t, rfl⟩ := List.exists_cons_of_ne_nil hne
        rw [List.cons_append, List.cons_eq_cons] at hahead
        obtain ⟨rfl, rfl⟩ := hahead
        subst hbehind
        have hupTo : Pos.upTo ⟨b, c :: (t ++ ae), ge⟩ ⟨(c :: t).reverse ++ b, ae, ge⟩ = c :: t :=
          upTo_append (c :: t) ae b _ ge ge
        have hrest : cut word r t.length (c :: b) (t ++ ae) =
            cut word r 0 ((c :: t).reverse ++ b) ae := by
          rw [cut_skip]
          simp
        dsimp only
        rw [hupTo, List.length_cons, Nat.add_sub_cancel, hrest]
        have hshorter : ae.length < (c :: (t ++ ae)).length := by
          simp only [List.length_cons, List.length_append]
          omega
        exact .hit hne hfirst (ih _ hshorter _ _ rfl)

end

end Regex
