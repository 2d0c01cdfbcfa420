import Mathlib.Data.List.Basic
import Mathlib.Data.List.Forall2
import Mathlib.Data.Nat.Notation
import Mathlib.Tactic.Common

/-! Regular expressions as a backtracking matcher tries them: the ends a pattern can reach from a
position, in the order of their priority. -/
namespace Regex

/-- A place in a text: what stands behind it, last character first, what stands ahead, and what the
groups hold. -/
structure Pos where
  behind : List Char
  ahead : List Char
  groups : ℕ → List Char

inductive Re where
  /-- One character for each set. -/
  | each (ps : List (Char → Bool))
  | seq (r t : Re)
  | alt (r t : Re)
  /-- At least `lo` characters of a set, as many as there are. -/
  | many (p : Char → Bool) (lo : ℕ)
  /-- Characters of a set, as few as will do. -/
  | few (p : Char → Bool)
  | times (lo hi : ℕ) (r : Re)
  | group (i : ℕ) (r : Re)
  | ref (i : ℕ)
  | boundary

namespace Re

def one (p : Char → Bool) : Re := each [p]

/-- The text itself. -/
def lit (text : String) : Re := each (text.toList.map fun c x => x == c)

def opt (r : Re) : Re := alt r (each [])

end Re

def isBoundary (word : Char → Bool) (behind ahead : List Char) : Bool :=
  behind.head?.any word != ahead.head?.any word

def eachOf : List (Char → Bool) → Pos → List Pos
  | [], s => [s]
  | p :: ps, ⟨b, c :: a, g⟩ => if p c then eachOf ps ⟨c :: b, a, g⟩ else []
  | _ :: _, ⟨_, [], _⟩ => []

def manyOf (p : Char → Bool) (g : ℕ → List Char) : ℕ → List Char → List Char → List Pos
  | 0, b, [] => [⟨b, [], g⟩]
  | 0, b, c :: a => if p c then manyOf p g 0 (c :: b) a ++ [⟨b, c :: a, g⟩] else [⟨b, c :: a, g⟩]
  | _ + 1, _, [] => []
  | lo + 1, b, c :: a => if p c then manyOf p g lo (c :: b) a else []

def fewOf (p : Char → Bool) (g : ℕ → List Char) : List Char → List Char → List Pos
  | b, [] => [⟨b, [], g⟩]
  | b, c :: a => ⟨b, c :: a, g⟩ :: if p c then fewOf p g (c :: b) a else []

def timesOf (f : Pos → List Pos) : ℕ → ℕ → Pos → List Pos
  | 0, 0, s => [s]
  | _ + 1, 0, _ => []
  | 0, hi + 1, s => (f s).flatMap (timesOf f 0 hi) ++ [s]
  | lo + 1, hi + 1, s => (f s).flatMap (timesOf f lo hi)

/-- What stands ahead of the first place and not of the second. -/
def Pos.upTo (s t : Pos) : List Char := s.ahead.take (s.ahead.length - t.ahead.length)

def refOf (m : List Char) (s : Pos) : List Pos :=
  if m.isPrefixOf s.ahead then [⟨m.reverse ++ s.behind, s.ahead.drop m.length, s.groups⟩] else []

def Re.run (word : Char → Bool) : Re → Pos → List Pos
  | each ps, s => eachOf ps s
  | seq r t, s => (run word r s).flatMap fun mid => run word t mid
  | alt r t, s => run word r s ++ run word t s
  | many p lo, s => manyOf p s.groups lo s.behind s.ahead
  | few p, s => fewOf p s.groups s.behind s.ahead
  | times lo hi r, s => timesOf (fun mid => run word r mid) lo hi s
  | group i r, s => (run word r s).map fun t => { t with groups := Function.update t.groups i (s.upTo t) }
  | ref i, s => refOf (s.groups i) s
  | boundary, s => if isBoundary word s.behind s.ahead then [s] else []

/-! ## Reading -/

/-- From a place with `b` behind it the pattern can read `m`, with `a` left ahead. -/
def Reads (word : Char → Bool) (r : Re) (b : List Char) (g : ℕ → List Char) (m a : List Char)
    (g' : ℕ → List Char) : Prop :=
  ⟨m.reverse ++ b, a, g'⟩ ∈ r.run word ⟨b, m ++ a, g⟩

/-- One place is further on in the text than the other. -/
def Onward (s t : Pos) : Prop :=
  ∃ m, s.ahead = m ++ t.ahead ∧ t.behind = m.reverse ++ s.behind

theorem Onward.refl (s : Pos) : Onward s s := ⟨[], rfl, rfl⟩

theorem Onward.trans {s t w : Pos} (h : Onward s t) (h' : Onward t w) : Onward s w := by
  obtain ⟨m, hahead, hbehind⟩ := h
  obtain ⟨m', hahead', hbehind'⟩ := h'
  refine ⟨m ++ m', ?_, ?_⟩
  · rw [hahead, hahead', List.append_assoc]
  · rw [hbehind', hbehind, List.reverse_append, List.append_assoc]

theorem mem_eachOf {ps : List (Char → Bool)} {b a : List Char} {g : ℕ → List Char} {t : Pos} :
    t ∈ eachOf ps ⟨b, a, g⟩ ↔ ∃ m rest, a = m ++ rest ∧ List.Forall₂ (fun p c => p c = true) ps m ∧
      t = ⟨m.reverse ++ b, rest, g⟩ := by
  induction ps generalizing b a with
  | nil =>
    rw [eachOf, List.mem_singleton]
    constructor
    · rintro rfl
      exact ⟨[], a, rfl, .nil, rfl⟩
    · rintro ⟨m, rest, rfl, hall, rfl⟩
      rw [List.forall₂_nil_left_iff.mp hall]
      rfl
  | cons p ps ih =>
    cases a with
    | nil =>
      constructor
      · exact fun h => absurd h List.not_mem_nil
      · rintro ⟨m, rest, hnil, hall, -⟩
        rw [(List.append_eq_nil_iff.mp hnil.symm).1] at hall
        exact absurd hall (by simp)
    | cons c a =>
      have hmem : t ∈ eachOf (p :: ps) ⟨b, c :: a, g⟩ ↔ p c = true ∧ t ∈ eachOf ps ⟨c :: b, a, g⟩ := by
        rw [eachOf]
        split_ifs with hc <;> simp [hc]
      rw [hmem, ih]
      constructor
      · rintro ⟨hc, m, rest, rfl, hall, rfl⟩
        exact ⟨c :: m, rest, rfl, .cons hc hall, by simp⟩
      · rintro ⟨m, rest, ha, hall, rfl⟩
        obtain ⟨hc, hall⟩ | ⟨hc, hall⟩ := hall
        obtain ⟨rfl, rfl⟩ := List.cons_eq_cons.mp ha
        exact ⟨hc, _, rest, rfl, hall, by simp⟩

theorem mem_manyOf {p : Char → Bool} {g : ℕ → List Char} {lo : ℕ} {b a : List Char} {t : Pos} :
    t ∈ manyOf p g lo b a ↔ ∃ m rest, a = m ++ rest ∧ lo ≤ m.length ∧ (∀ c ∈ m, p c = true) ∧
      t = ⟨m.reverse ++ b, rest, g⟩ := by
  induction a generalizing lo b with
  | nil =>
    cases lo with
    | zero =>
      rw [manyOf, List.mem_singleton]
      constructor
      · rintro rfl
        exact ⟨[], [], rfl, Nat.le_refl 0, by simp, rfl⟩
      · rintro ⟨m, rest, hnil, -, -, rfl⟩
        obtain ⟨rfl, rfl⟩ := List.append_eq_nil_iff.mp hnil.symm
        rfl
    | succ lo =>
      rw [manyOf]
      constructor
      · exact fun h => absurd h List.not_mem_nil
      · rintro ⟨m, rest, hnil, hlo, -⟩
        obtain ⟨rfl, rfl⟩ := List.append_eq_nil_iff.mp hnil.symm
        simp at hlo
  | cons c a ih =>
    have hstep : ∀ k, (∃ m rest, a = m ++ rest ∧ k ≤ m.length ∧ (∀ d ∈ m, p d = true) ∧
        t = ⟨m.reverse ++ c :: b, rest, g⟩) ∧ p c = true ↔
        ∃ m rest, c :: a = (c :: m) ++ rest ∧ k + 1 ≤ (c :: m).length ∧
          (∀ d ∈ c :: m, p d = true) ∧ t = ⟨(c :: m).reverse ++ b, rest, g⟩ := by
      intro k
      simp only [List.cons_append, List.cons.injEq, true_and, List.length_cons,
        Nat.add_le_add_iff_right, List.forall_mem_cons, List.reverse_cons, List.append_assoc,
        List.nil_append]
      constructor
      · rintro ⟨⟨m, rest, ha, hk, hall, ht⟩, hc⟩
        exact ⟨m, rest, ha, hk, ⟨hc, hall⟩, ht⟩
      · rintro ⟨m, rest, ha, hk, ⟨hc, hall⟩, ht⟩
        exact ⟨⟨m, rest, ha, hk, hall, ht⟩, hc⟩
    cases lo with
    | zero =>
      have hmem : t ∈ manyOf p g 0 b (c :: a) ↔
          (t ∈ manyOf p g 0 (c :: b) a ∧ p c = true) ∨ t = ⟨b, c :: a, g⟩ := by
        rw [manyOf]
        split_ifs with hc <;> simp [hc]
      rw [hmem, ih, hstep]
      constructor
      · rintro (⟨m, rest, ha, -, hall, ht⟩ | rfl)
        · exact ⟨c :: m, rest, ha, Nat.zero_le _, hall, ht⟩
        · exact ⟨[], c :: a, rfl, Nat.le_refl 0, by simp, rfl⟩
      · rintro ⟨m, rest, ha, -, hall, ht⟩
        cases m with
        | nil =>
          rw [List.nil_append] at ha
          rw [← ha] at ht
          exact .inr ht
        | cons d m =>
          obtain ⟨rfl, htail⟩ := List.cons_eq_cons.mp ha
          exact .inl ⟨m, rest, ha, by simp, hall, ht⟩
    | succ lo =>
      have hmem : t ∈ manyOf p g (lo + 1) b (c :: a) ↔
          t ∈ manyOf p g lo (c :: b) a ∧ p c = true := by
        rw [manyOf]
        split_ifs with hc <;> simp [hc]
      rw [hmem, ih, hstep]
      constructor
      · rintro ⟨m, rest, h⟩
        exact ⟨c :: m, rest, h⟩
      · rintro ⟨m, rest, ha, hlo, hall, ht⟩
        cases m with
        | nil => simp at hlo
        | cons d m =>
          obtain ⟨rfl, htail⟩ := List.cons_eq_cons.mp ha
          exact ⟨m, rest, ha, hlo, hall, ht⟩

theorem mem_fewOf {p : Char → Bool} {g : ℕ → List Char} {b a : List Char} {t : Pos} :
    t ∈ fewOf p g b a ↔ ∃ m rest, a = m ++ rest ∧ (∀ c ∈ m, p c = true) ∧
      t = ⟨m.reverse ++ b, rest, g⟩ := by
  induction a generalizing b with
  | nil =>
    rw [fewOf, List.mem_singleton]
    constructor
    · rintro rfl
      exact ⟨[], [], rfl, by simp, rfl⟩
    · rintro ⟨m, rest, hnil, -, rfl⟩
      obtain ⟨rfl, rfl⟩ := List.append_eq_nil_iff.mp hnil.symm
      rfl
  | cons c a ih =>
    have hmem : t ∈ fewOf p g b (c :: a) ↔
        t = ⟨b, c :: a, g⟩ ∨ t ∈ fewOf p g (c :: b) a ∧ p c = true := by
      rw [fewOf]
      split_ifs with hc <;> simp [hc]
    rw [hmem, ih]
    constructor
    · rintro (rfl | ⟨⟨m, rest, rfl, hall, rfl⟩, hc⟩)
      · exact ⟨[], c :: a, rfl, by simp, rfl⟩
      · exact ⟨c :: m, rest, rfl, by simpa [hc] using hall, by simp⟩
    · rintro ⟨m, rest, ha, hall, ht⟩
      cases m with
      | nil =>
        rw [List.nil_append] at ha
        rw [← ha] at ht
        exact .inl ht
      | cons d m =>
        obtain ⟨rfl, rfl⟩ := List.cons_eq_cons.mp ha
        rw [List.forall_mem_cons] at hall
        exact .inr ⟨⟨m, rest, rfl, hall.2, by simpa using ht⟩, hall.1⟩

theorem onward_timesOf {f : Pos → List Pos} (hf : ∀ s, ∀ t ∈ f s, Onward s t) {hi lo : ℕ}
    {s t : Pos} (h : t ∈ timesOf f lo hi s) : Onward s t := by
  induction hi generalizing lo s with
  | zero =>
    cases lo with
    | zero =>
      rw [timesOf, List.mem_singleton] at h
      rw [h]
      exact .refl s
    | succ lo => exact absurd h List.not_mem_nil
  | succ hi ih =>
    have hmore : ∀ k, t ∈ (f s).flatMap (timesOf f k hi) → Onward s t := by
      intro k hk
      obtain ⟨mid, hmid, ht⟩ := List.mem_flatMap.mp hk
      exact (hf s mid hmid).trans (ih ht)
    cases lo with
    | zero =>
      rcases List.mem_append.mp h with hk | hlast
      · exact hmore 0 hk
      · rw [List.mem_singleton] at hlast
        rw [hlast]
        exact .refl s
    | succ lo => exact hmore lo h

theorem onward_of_run {word : Char → Bool} {r : Re} {s t : Pos} (h : t ∈ r.run word s) :
    Onward s t := by
  induction r generalizing s t with
  | each ps =>
    obtain ⟨m, rest, ha, -, rfl⟩ := mem_eachOf.mp h
    exact ⟨m, ha, rfl⟩
  | seq r t ihr iht =>
    obtain ⟨mid, hmid, ht⟩ := List.mem_flatMap.mp h
    exact (ihr hmid).trans (iht ht)
  | alt r t ihr iht =>
    rcases List.mem_append.mp h with h | h
    · exact ihr h
    · exact iht h
  | many p lo =>
    obtain ⟨m, rest, ha, -, -, rfl⟩ := mem_manyOf.mp h
    exact ⟨m, ha, rfl⟩
  | few p =>
    obtain ⟨m, rest, ha, -, rfl⟩ := mem_fewOf.mp h
    exact ⟨m, ha, rfl⟩
  | times lo hi r ih => exact onward_timesOf (fun s t ht => ih ht) h
  | group i r ih =>
    obtain ⟨mid, hmid, rfl⟩ := List.mem_map.mp h
    obtain ⟨m, hahead, hbehind⟩ := ih hmid
    exact ⟨m, hahead, hbehind⟩
  | ref i =>
    rw [Re.run, refOf] at h
    split_ifs at h with hpre
    · rw [List.mem_singleton] at h
      obtain ⟨rest, hrest⟩ := List.isPrefixOf_iff_prefix.mp hpre
      refine ⟨s.groups i, ?_, ?_⟩
      · rw [h, ← hrest]
        simp
      · rw [h]
    · simp at h
  | boundary =>
    rw [Re.run] at h
    split_ifs at h
    · rw [List.mem_singleton] at h
      rw [h]
      exact .refl s
    · simp at h

section
variable {word : Char → Bool} {b m a : List Char} {g g' : ℕ → List Char}

theorem exists_reads_of_run {r : Re} {s : Pos} (h : s ∈ r.run word ⟨b, a, g⟩) :
    ∃ m, a = m ++ s.ahead ∧ s.behind = m.reverse ++ b ∧ Reads word r b g m s.ahead s.groups := by
  obtain ⟨m, hahead, hbehind⟩ := onward_of_run h
  dsimp only at hahead hbehind
  refine ⟨m, hahead, hbehind, ?_⟩
  unfold Reads
  rw [← hahead, ← hbehind]
  exact h

theorem pos_eq_iff {m' a' : List Char} : (⟨m.reverse ++ b, a, g⟩ : Pos) = ⟨m'.reverse ++ b, a', g'⟩ ↔
    m = m' ∧ a = a' ∧ g = g' := by
  rw [Pos.mk.injEq, List.append_left_inj, List.reverse_inj]

theorem reads_each {ps : List (Char → Bool)} : Reads word (.each ps) b g m a g' ↔
    List.Forall₂ (fun p c => p c = true) ps m ∧ g' = g := by
  unfold Reads
  rw [Re.run, mem_eachOf]
  simp only [pos_eq_iff]
  constructor
  · rintro ⟨m, rest, -, hall, rfl, -, hg⟩
    exact ⟨hall, hg⟩
  · rintro ⟨hall, hg⟩
    exact ⟨m, a, rfl, hall, rfl, rfl, hg⟩

theorem reads_one {p : Char → Bool} : Reads word (.one p) b g m a g' ↔
    (∃ c, m = [c] ∧ p c = true) ∧ g' = g := by
  unfold Re.one
  rw [reads_each, List.forall₂_cons_left_iff]
  simp only [List.forall₂_nil_left_iff]
  constructor
  · rintro ⟨⟨c, t, hc, rfl, rfl⟩, hg⟩
    exact ⟨⟨c, rfl, hc⟩, hg⟩
  · rintro ⟨⟨c, rfl, hc⟩, hg⟩
    exact ⟨⟨c, [], hc, rfl, rfl⟩, hg⟩

theorem reads_lit {text : String} : Reads word (.lit text) b g m a g' ↔
    m = text.toList ∧ g' = g := by
  unfold Re.lit
  have heq : (fun c x : Char => x = c) = Eq := by
    funext c x
    exact propext eq_comm
  rw [reads_each, List.forall₂_map_left_iff]
  simp only [beq_iff_eq]
  rw [heq, List.forall₂_eq_eq_eq, eq_comm (a := m)]

theorem reads_many {p : Char → Bool} {lo : ℕ} : Reads word (.many p lo) b g m a g' ↔
    lo ≤ m.length ∧ (∀ c ∈ m, p c = true) ∧ g' = g := by
  unfold Reads
  rw [Re.run, mem_manyOf]
  simp only [pos_eq_iff]
  constructor
  · rintro ⟨m, rest, -, hlo, hall, rfl, -, hg⟩
    exact ⟨hlo, hall, hg⟩
  · rintro ⟨hlo, hall, hg⟩
    exact ⟨m, a, rfl, hlo, hall, rfl, rfl, hg⟩

theorem reads_few {p : Char → Bool} : Reads word (.few p) b g m a g' ↔
    (∀ c ∈ m, p c = true) ∧ g' = g := by
  unfold Reads
  rw [Re.run, mem_fewOf]
  simp only [pos_eq_iff]
  constructor
  · rintro ⟨m, rest, -, hall, rfl, -, hg⟩
    exact ⟨hall, hg⟩
  · rintro ⟨hall, hg⟩
    exact ⟨m, a, rfl, hall, rfl, rfl, hg⟩

theorem reads_seq {r t : Re} : Reads word (.seq r t) b g m a g' ↔
    ∃ m₁ m₂ g₁, m = m₁ ++ m₂ ∧ Reads word r b g m₁ (m₂ ++ a) g₁ ∧
      Reads word t (m₁.reverse ++ b) g₁ m₂ a g' := by
  constructor
  · intro h
    obtain ⟨⟨bm, am, gm⟩, hmid, hend⟩ := List.mem_flatMap.mp h
    obtain ⟨m₁, hahead, hbehind, hreads⟩ := exists_reads_of_run hmid
    obtain ⟨m₂, hahead', hbehind'⟩ := onward_of_run hend
    dsimp only at hahead hbehind hreads hahead' hbehind'
    subst hbehind hahead'
    have hm : m = m₁ ++ m₂ := by
      rw [← List.append_assoc, List.append_cancel_right_eq] at hahead
      exact hahead
    subst hm
    refine ⟨m₁, m₂, gm, rfl, hreads, ?_⟩
    unfold Reads
    rw [← hbehind']
    exact hend
  · rintro ⟨m₁, m₂, g₁, rfl, h₁, h₂⟩
    unfold Reads at h₁ h₂ ⊢
    rw [List.append_assoc, List.reverse_append, List.append_assoc]
    exact List.mem_flatMap.mpr ⟨_, h₁, h₂⟩

theorem reads_alt {r t : Re} : Reads word (.alt r t) b g m a g' ↔
    Reads word r b g m a g' ∨ Reads word t b g m a g' := by
  unfold Reads
  rw [Re.run, List.mem_append]

theorem reads_opt {r : Re} : Reads word r.opt b g m a g' ↔
    Reads word r b g m a g' ∨ m = [] ∧ g' = g := by
  unfold Re.opt
  rw [reads_alt, reads_each, List.forall₂_nil_left_iff]

theorem reads_boundary : Reads word .boundary b g m a g' ↔
    m = [] ∧ isBoundary word b a = true ∧ g' = g := by
  unfold Reads
  rw [Re.run]
  split_ifs with hb
  · rw [List.mem_singleton, Pos.mk.injEq]
    constructor
    · rintro ⟨hm, -, hg⟩
      have hnil : m = [] := by simpa using hm
      subst hnil
      exact ⟨rfl, hb, hg⟩
    · rintro ⟨rfl, -, rfl⟩
      exact ⟨rfl, rfl, rfl⟩
  · constructor
    · exact fun h => absurd h List.not_mem_nil
    · rintro ⟨rfl, hb', -⟩
      exact absurd hb' hb

theorem upTo_append (m a b b' : List Char) (g g' : ℕ → List Char) :
    Pos.upTo ⟨b, m ++ a, g⟩ ⟨b', a, g'⟩ = m := by
  simp [Pos.upTo]

theorem reads_group {i : ℕ} {r : Re} : Reads word (.group i r) b g m a g' ↔
    ∃ g₁, Reads word r b g m a g₁ ∧ g' = Function.update g₁ i m := by
  constructor
  · intro h
    obtain ⟨⟨bm, am, gm⟩, hmid, hend⟩ := List.mem_map.mp h
    obtain ⟨rfl, rfl, hg⟩ := Pos.mk.inj hend
    rw [upTo_append] at hg
    exact ⟨gm, hmid, hg.symm⟩
  · rintro ⟨g₁, hreads, rfl⟩
    refine List.mem_map.mpr ⟨_, hreads, ?_⟩
    rw [upTo_append]

theorem reads_ref {i : ℕ} : Reads word (.ref i) b g m a g' ↔ m = g i ∧ g' = g := by
  unfold Reads
  rw [Re.run, refOf]
  split_ifs with hpre
  · obtain ⟨rest, hrest⟩ := List.isPrefixOf_iff_prefix.mp hpre
    dsimp only at hrest ⊢
    rw [← hrest, List.drop_left, List.mem_singleton, pos_eq_iff]
    constructor
    · rintro ⟨hm, -, hg⟩
      exact ⟨hm, hg⟩
    · rintro ⟨rfl, hg⟩
      exact ⟨rfl, (List.append_cancel_left hrest).symm, hg⟩
  · constructor
    · exact fun h => absurd h List.not_mem_nil
    · rintro ⟨rfl, -⟩
      exact absurd (List.isPrefixOf_iff_prefix.mpr (List.prefix_append _ _)) hpre

/-- The pattern as often as said. -/
def Re.pow (r : Re) : ℕ → Re
  | 0 => .each []
  | n + 1 => .seq r (r.pow n)

theorem reads_times {lo hi : ℕ} {r : Re} : Reads word (.times lo hi r) b g m a g' ↔
    ∃ n, lo ≤ n ∧ n ≤ hi ∧ Reads word (r.pow n) b g m a g' := by
  have hseq : ∀ lo hi, (∀ {b g m a g'}, Reads word (.times lo hi r) b g m a g' ↔
      ∃ n, lo ≤ n ∧ n ≤ hi ∧ Reads word (r.pow n) b g m a g') →
      ∀ {b g m a g'}, Reads word (.seq r (.times lo hi r)) b g m a g' ↔
        ∃ n, lo + 1 ≤ n ∧ n ≤ hi + 1 ∧ Reads word (r.pow n) b g m a g' := by
    intro lo hi ih b g m a g'
    rw [reads_seq]
    constructor
    · rintro ⟨m₁, m₂, g₁, hm, hr, ht⟩
      obtain ⟨n, hlo, hhi, hn⟩ := ih.mp ht
      exact ⟨n + 1, by omega, by omega, reads_seq.mpr ⟨m₁, m₂, g₁, hm, hr, hn⟩⟩
    · rintro ⟨n, hlo, hhi, hn⟩
      obtain ⟨k, rfl⟩ : ∃ k, n = k + 1 := ⟨n - 1, by omega⟩
      obtain ⟨m₁, m₂, g₁, hm, hr, ht⟩ := reads_seq.mp hn
      exact ⟨m₁, m₂, g₁, hm, hr, ih.mpr ⟨k, by omega, by omega, ht⟩⟩
  induction hi generalizing lo b g m a g' with
  | zero =>
    cases lo with
    | zero =>
      have hempty : Reads word (.times 0 0 r) b g m a g' ↔ Reads word (r.pow 0) b g m a g' := Iff.rfl
      rw [hempty]
      constructor
      · exact fun h => ⟨0, Nat.le_refl 0, Nat.le_refl 0, h⟩
      · rintro ⟨n, -, hn, h⟩
        rw [Nat.le_zero.mp hn] at h
        exact h
    | succ lo =>
      constructor
      · exact fun h => absurd h List.not_mem_nil
      · rintro ⟨n, hlo, hhi, -⟩
        omega
  | succ hi ih =>
    cases lo with
    | zero =>
      have hopt : Reads word (.times 0 (hi + 1) r) b g m a g' ↔
          Reads word (Re.seq r (.times 0 hi r)).opt b g m a g' := Iff.rfl
      have hpow : Reads word (r.pow 0) b g m a g' ↔ m = [] ∧ g' = g := by
        rw [Re.pow, reads_each, List.forall₂_nil_left_iff]
      rw [hopt, reads_opt, hseq 0 hi ih, ← hpow]
      constructor
      · rintro (⟨n, -, hhi, hn⟩ | h)
        · exact ⟨n, Nat.zero_le n, hhi, hn⟩
        · exact ⟨0, Nat.le_refl 0, Nat.zero_le _, h⟩
      · rintro ⟨n, -, hhi, hn⟩
        cases n with
        | zero => exact .inr hn
        | succ n => exact .inl ⟨n + 1, by omega, hhi, hn⟩
    | succ lo => exact hseq lo hi ih

end

/-! ## Patterns that do not look around -/

/-- No boundary and no group: what it reads depends on the text read alone. -/
def Re.Plain : Re → Prop
  | each _ | many _ _ | few _ => True
  | seq r t | alt r t => r.Plain ∧ t.Plain
  | times _ _ r => r.Plain
  | group _ _ | ref _ | boundary => False

/-- A pattern reads characters of the kind only. -/
def Re.Over (p : Char → Prop) : Re → Prop
  | each qs => ∀ q ∈ qs, ∀ c, q c = true → p c
  | many q _ | few q => ∀ c, q c = true → p c
  | seq r t | alt r t => r.Over p ∧ t.Over p
  | times _ _ r | group _ r => r.Over p
  | ref _ => False
  | boundary => True

/-- A pattern reads a character of the kind, somewhere. -/
def Re.Has (p : Char → Prop) : Re → Prop
  | each qs => ∃ q ∈ qs, ∀ c, q c = true → p c
  | many q lo => lo ≠ 0 ∧ ∀ c, q c = true → p c
  | seq r t => r.Has p ∨ t.Has p
  | alt r t => r.Has p ∧ t.Has p
  | times lo _ r => lo ≠ 0 ∧ r.Has p
  | group _ r => r.Has p
  | few _ | ref _ | boundary => False

/-- A pattern reads something, of which the first character is of the kind. -/
def Re.Head (p : Char → Prop) : Re → Prop
  | each qs => ∃ q ∈ qs.head?, ∀ c, q c = true → p c
  | many q lo => lo ≠ 0 ∧ ∀ c, q c = true → p c
  | seq r t => r.Head p ∨ r.Over p ∧ t.Head p
  | alt r t => r.Head p ∧ t.Head p
  | times lo _ r => lo ≠ 0 ∧ r.Head p
  | group _ r => r.Head p
  | few _ | ref _ | boundary => False

/-- The character is in no set of the pattern. -/
def Re.avoids (c : Char) : Re → Bool
  | each qs => qs.all fun q => !q c
  | many q _ | few q => !q c
  | seq r t | alt r t => r.avoids c && t.avoids c
  | times _ _ r | group _ r => r.avoids c
  | ref _ => false
  | boundary => true

theorem over_of_avoids {c : Char} {r : Re} (h : r.avoids c = true) : r.Over (· ≠ c) := by
  have hset : ∀ q : Char → Bool, q c = false → ∀ d, q d = true → d ≠ c := by
    intro q hq d hd heq
    rw [heq, hq] at hd
    simp at hd
  induction r with
  | each qs =>
    intro q hq
    have hqc := List.all_eq_true.mp h q hq
    exact hset q (by simpa using hqc)
  | many q lo => exact hset q (by simpa [Re.avoids] using h)
  | few q => exact hset q (by simpa [Re.avoids] using h)
  | seq r t ihr iht =>
    rw [Re.avoids, Bool.and_eq_true] at h
    exact ⟨ihr h.1, iht h.2⟩
  | alt r t ihr iht =>
    rw [Re.avoids, Bool.and_eq_true] at h
    exact ⟨ihr h.1, iht h.2⟩
  | times lo hi r ih => exact ih h
  | group i r ih => exact ih h
  | ref i => simp [Re.avoids] at h
  | boundary => trivial

section
variable {word : Char → Bool} {b m a : List Char} {g g' : ℕ → List Char}

/-- It reads the same wherever the text stands. -/
theorem Reads.elsewhere {r : Re} (hplain : r.Plain) (h : Reads word r b g m a g')
    (word₁ : Char → Bool) (b₁ a₁ : List Char) (g₁ : ℕ → List Char) :
    Reads word₁ r b₁ g₁ m a₁ g₁ := by
  induction r generalizing b g m a g' b₁ a₁ g₁ with
  | each ps =>
    rw [reads_each] at h ⊢
    exact ⟨h.1, rfl⟩
  | seq r t ihr iht =>
    rw [reads_seq] at h ⊢
    obtain ⟨m₁, m₂, gm, hm, hr, ht⟩ := h
    exact ⟨m₁, m₂, g₁, hm, ihr hplain.1 hr _ _ _, iht hplain.2 ht _ _ _⟩
  | alt r t ihr iht =>
    rw [reads_alt] at h ⊢
    rcases h with hr | ht
    · exact .inl (ihr hplain.1 hr _ _ _)
    · exact .inr (iht hplain.2 ht _ _ _)
  | many p lo =>
    rw [reads_many] at h ⊢
    exact ⟨h.1, h.2.1, rfl⟩
  | few p =>
    rw [reads_few] at h ⊢
    exact ⟨h.1, rfl⟩
  | times lo hi r ih =>
    rw [reads_times] at h ⊢
    obtain ⟨n, hlo, hhi, hn⟩ := h
    refine ⟨n, hlo, hhi, ?_⟩
    clear hlo hhi
    induction n generalizing b g m a g' b₁ a₁ g₁ with
    | zero =>
      rw [Re.pow, reads_each] at hn ⊢
      exact ⟨hn.1, rfl⟩
    | succ n ihn =>
      rw [Re.pow, reads_seq] at hn ⊢
      obtain ⟨m₁, m₂, gm, hm, hr, ht⟩ := hn
      exact ⟨m₁, m₂, g₁, hm, ih hplain hr _ _ _, ihn _ _ _ ht⟩
  | group i r => exact hplain.elim
  | ref i => exact hplain.elim
  | boundary => exact hplain.elim

theorem Reads.groups_eq {r : Re} (hplain : r.Plain) (h : Reads word r b g m a g') : g' = g := by
  induction r generalizing b g m a g' with
  | each ps => exact (reads_each.mp h).2
  | seq r t ihr iht =>
    obtain ⟨m₁, m₂, gm, -, hr, ht⟩ := reads_seq.mp h
    exact (iht hplain.2 ht).trans (ihr hplain.1 hr)
  | alt r t ihr iht =>
    rcases reads_alt.mp h with hr | ht
    · exact ihr hplain.1 hr
    · exact iht hplain.2 ht
  | many p lo => exact (reads_many.mp h).2.2
  | few p => exact (reads_few.mp h).2
  | times lo hi r ih =>
    obtain ⟨n, -, -, hn⟩ := reads_times.mp h
    clear h
    induction n generalizing b g m a g' with
    | zero => exact (reads_each.mp hn).2
    | succ n ihn =>
      obtain ⟨m₁, m₂, gm, -, hr, ht⟩ := reads_seq.mp hn
      exact (ihn ht).trans (ih hplain hr)
  | group i r => exact hplain.elim
  | ref i => exact hplain.elim
  | boundary => exact hplain.elim

theorem Reads.forall_mem {p : Char → Prop} {r : Re} (hover : r.Over p) (h : Reads word r b g m a g') :
    ∀ c ∈ m, p c := by
  induction r generalizing b g m a g' with
  | each ps =>
    have hall := (reads_each.mp h).1
    clear h
    induction hall with
    | nil => simp
    | cons hqc htail ih =>
      obtain ⟨hq, hover⟩ := List.forall_mem_cons.mp hover
      exact List.forall_mem_cons.mpr ⟨hq _ hqc, ih hover⟩
  | seq r t ihr iht =>
    obtain ⟨m₁, m₂, gm, rfl, hr, ht⟩ := reads_seq.mp h
    intro c hc
    rcases List.mem_append.mp hc with hc | hc
    · exact ihr hover.1 hr c hc
    · exact iht hover.2 ht c hc
  | alt r t ihr iht =>
    rcases reads_alt.mp h with hr | ht
    · exact ihr hover.1 hr
    · exact iht hover.2 ht
  | many p lo => exact fun c hc => hover c ((reads_many.mp h).2.1 c hc)
  | few p => exact fun c hc => hover c ((reads_few.mp h).1 c hc)
  | times lo hi r ih =>
    obtain ⟨n, -, -, hn⟩ := reads_times.mp h
    clear h
    induction n generalizing b g m a g' with
    | zero =>
      rw [List.forall₂_nil_left_iff.mp (reads_each.mp hn).1]
      simp
    | succ n ihn =>
      obtain ⟨m₁, m₂, gm, rfl, hr, ht⟩ := reads_seq.mp hn
      intro c hc
      rcases List.mem_append.mp hc with hc | hc
      · exact ih hover hr c hc
      · exact ihn ht c hc
  | group i r ih =>
    obtain ⟨g₁, hr, -⟩ := reads_group.mp h
    exact ih hover hr
  | ref i => exact hover.elim
  | boundary =>
    rw [(reads_boundary.mp h).1]
    simp

theorem Reads.not_mem {c : Char} {r : Re} (havoids : r.avoids c = true)
    (h : Reads word r b g m a g') : c ∉ m :=
  fun hmem => h.forall_mem (over_of_avoids havoids) c hmem rfl

theorem Reads.exists_mem {p : Char → Prop} {r : Re} (hhas : r.Has p) (h : Reads word r b g m a g') :
    ∃ c ∈ m, p c := by
  induction r generalizing b g m a g' with
  | each ps =>
    obtain ⟨q, hq, hqp⟩ := hhas
    have hall := (reads_each.mp h).1
    clear h
    induction hall with
    | nil => exact absurd hq List.not_mem_nil
    | cons hqc htail ih =>
      rcases List.mem_cons.mp hq with rfl | hq
      · exact ⟨_, List.mem_cons_self, hqp _ hqc⟩
      · obtain ⟨c, hc, hpc⟩ := ih hq
        exact ⟨c, List.mem_cons_of_mem _ hc, hpc⟩
  | seq r t ihr iht =>
    obtain ⟨m₁, m₂, gm, rfl, hr, ht⟩ := reads_seq.mp h
    rcases hhas with hhas | hhas
    · obtain ⟨c, hc, hpc⟩ := ihr hhas hr
      exact ⟨c, List.mem_append_left _ hc, hpc⟩
    · obtain ⟨c, hc, hpc⟩ := iht hhas ht
      exact ⟨c, List.mem_append_right _ hc, hpc⟩
  | alt r t ihr iht =>
    rcases reads_alt.mp h with hr | ht
    · exact ihr hhas.1 hr
    · exact iht hhas.2 ht
  | many q lo =>
    obtain ⟨hlo, hall, -⟩ := reads_many.mp h
    have hne : m ≠ [] := by
      rintro rfl
      exact hhas.1 (Nat.le_zero.mp hlo)
    obtain ⟨c, t, rfl⟩ := List.exists_cons_of_ne_nil hne
    exact ⟨c, List.mem_cons_self, hhas.2 c (hall c List.mem_cons_self)⟩
  | times lo hi r ih =>
    obtain ⟨n, hlo, -, hn⟩ := reads_times.mp h
    have hpos := hhas.1
    obtain ⟨k, rfl⟩ : ∃ k, n = k + 1 := ⟨n - 1, by omega⟩
    obtain ⟨m₁, m₂, gm, rfl, hr, -⟩ := reads_seq.mp hn
    obtain ⟨c, hc, hpc⟩ := ih hhas.2 hr
    exact ⟨c, List.mem_append_left _ hc, hpc⟩
  | group i r ih =>
    obtain ⟨g₁, hr, -⟩ := reads_group.mp h
    exact ih hhas hr
  | few q => exact hhas.elim
  | ref i => exact hhas.elim
  | boundary => exact hhas.elim

theorem Reads.exists_cons {p : Char → Prop} {r : Re} (hhead : r.Head p)
    (h : Reads word r b g m a g') : ∃ c t, m = c :: t ∧ p c := by
  induction r generalizing b g m a g' with
  | each ps =>
    obtain ⟨q, hq, hqp⟩ := hhead
    cases ps with
    | nil => simp at hq
    | cons q' ps =>
      obtain rfl : q' = q := by simpa using hq
      obtain ⟨c, t, hc, -, rfl⟩ := List.forall₂_cons_left_iff.mp (reads_each.mp h).1
      exact ⟨c, t, rfl, hqp c hc⟩
  | seq r t ihr iht =>
    obtain ⟨m₁, m₂, gm, rfl, hr, ht⟩ := reads_seq.mp h
    rcases hhead with hhead | ⟨hover, hhead⟩
    · obtain ⟨c, t, rfl, hc⟩ := ihr hhead hr
      exact ⟨c, t ++ m₂, rfl, hc⟩
    · obtain ⟨c, t, rfl, hc⟩ := iht hhead ht
      cases m₁ with
      | nil => exact ⟨c, t, rfl, hc⟩
      | cons d m₁ => exact ⟨d, m₁ ++ c :: t, rfl, hr.forall_mem hover d List.mem_cons_self⟩
  | alt r t ihr iht =>
    rcases reads_alt.mp h with hr | ht
    · exact ihr hhead.1 hr
    · exact iht hhead.2 ht
  | many q lo =>
    obtain ⟨hlo, hall, -⟩ := reads_many.mp h
    have hne : m ≠ [] := by
      rintro rfl
      exact hhead.1 (Nat.le_zero.mp hlo)
    obtain ⟨c, t, rfl⟩ := List.exists_cons_of_ne_nil hne
    exact ⟨c, t, rfl, hhead.2 c (hall c List.mem_cons_self)⟩
  | times lo hi r ih =>
    obtain ⟨n, hlo, -, hn⟩ := reads_times.mp h
    have hpos := hhead.1
    obtain ⟨k, rfl⟩ : ∃ k, n = k + 1 := ⟨n - 1, by omega⟩
    obtain ⟨m₁, m₂, gm, rfl, hr, -⟩ := reads_seq.mp hn
    obtain ⟨c, t, rfl, hc⟩ := ih hhead.2 hr
    exact ⟨c, t ++ m₂, rfl, hc⟩
  | group i r ih =>
    obtain ⟨g₁, hr, -⟩ := reads_group.mp h
    exact ih hhead hr
  | few q => exact hhead.elim
  | ref i => exact hhead.elim
  | boundary => exact hhead.elim

/-- The texts that the pattern reads, wherever they stand if it is plain. -/
def Re.Matches (r : Re) (m : List Char) : Prop :=
  Reads (fun _ => false) r [] (fun _ => []) m [] (fun _ => [])

theorem reads_plain {r : Re} (hplain : r.Plain) : Reads word r b g m a g' ↔ r.Matches m ∧ g' = g := by
  constructor
  · intro h
    exact ⟨h.elsewhere hplain _ _ _ _, h.groups_eq hplain⟩
  · rintro ⟨h, rfl⟩
    exact Reads.elsewhere hplain h _ _ _ _

theorem matches_seq {r t : Re} (hplain : (r.seq t).Plain) : (r.seq t).Matches m ↔
    ∃ m₁ m₂, m = m₁ ++ m₂ ∧ r.Matches m₁ ∧ t.Matches m₂ := by
  unfold Re.Matches
  rw [reads_seq]
  constructor
  · rintro ⟨m₁, m₂, g₁, hm, hr, ht⟩
    exact ⟨m₁, m₂, hm, hr.elsewhere hplain.1 _ _ _ _, ht.elsewhere hplain.2 _ _ _ _⟩
  · rintro ⟨m₁, m₂, hm, hr, ht⟩
    exact ⟨m₁, m₂, _, hm, hr.elsewhere hplain.1 _ _ _ _, ht.elsewhere hplain.2 _ _ _ _⟩

/-- The last part of a sequence. -/
def Re.final : Re → Re
  | seq _ t => t.final
  | r => r

theorem Reads.exists_final {r : Re} (h : Reads word r b g m a g') :
    ∃ m₁ m₂ g₁, m = m₁ ++ m₂ ∧ Reads word r.final (m₁.reverse ++ b) g₁ m₂ a g' := by
  induction r generalizing b g m with
  | seq r t _ iht =>
    obtain ⟨m₁, m₂, g₁, rfl, -, ht⟩ := reads_seq.mp h
    obtain ⟨m₃, m₄, g₂, rfl, hfinal⟩ := iht ht
    refine ⟨m₁ ++ m₃, m₄, g₂, by simp, ?_⟩
    rw [List.reverse_append, List.append_assoc]
    exact hfinal
  | _ => exact ⟨[], m, g, rfl, h⟩

end

end Regex
