import Mathlib.Order.Lattice
import Mathlib.Algebra.Order.Group.Int

/-! Time zones given by their transitions: the local clock at an instant, and the instants that
`zoneinfo` and PostgreSQL take a reading of the local clock for. Times are in microseconds. -/
namespace TimeZone

def day : ℤ := 86400000000

/-- From an instant on, the zone has an offset. -/
structure Transition where
  instant : ℤ
  offset : ℤ
  deriving DecidableEq

/-- Offsets are shorter than a day, and a reading of the local clock is near one transition at
most. -/
structure Zone where
  initial : ℤ
  transitions : List Transition
  initial_lt : -day < initial ∧ initial < day
  offset_lt : ∀ S ∈ transitions, -day < S.offset ∧ S.offset < day
  spaced : transitions.Pairwise fun S T => S.instant + 3 * day ≤ T.instant

/-- The offset after the last transition whose key is not after `w`. -/
def scan (key : ℤ → Transition → ℤ) : ℤ → List Transition → ℤ → ℤ
  | before, [], _ => before
  | before, S :: Ts, w => if key before S ≤ w then scan key S.offset Ts w else before

/-- The last transition up to an instant, with the offset before it. -/
def lastTransition : ℤ → List Transition → ℤ → Option (ℤ × Transition)
  | _, [], _ => none
  | before, S :: Ts, t =>
    if S.instant ≤ t then some ((lastTransition S.offset Ts t).getD (before, S)) else none

/-- The first transition after an instant, with the offset before it. -/
def nextTransition : ℤ → List Transition → ℤ → Option (ℤ × Transition)
  | _, [], _ => none
  | before, S :: Ts, t =>
    if t < S.instant then some (before, S) else nextTransition S.offset Ts t

/-- The transitions with the offsets before them. -/
def jumps : ℤ → List Transition → List (ℤ × Transition)
  | _, [] => []
  | before, S :: Ts => (before, S) :: jumps S.offset Ts

/-- `DetermineTimeZoneOffset`: in a gap the offset before it, in a repeated hour the one after. -/
def determineOffset (initial : ℤ) (Ts : List Transition) (w : ℤ) : ℤ :=
  match nextTransition initial Ts (w - day) with
  | none => scan (fun _ S => S.instant) initial Ts (w - day)
  | some (before, S) =>
    let beforetime := w - before
    let aftertime := w - S.offset
    if beforetime < S.instant ∧ aftertime < S.instant then before
    else if S.instant < beforetime ∧ S.instant ≤ aftertime then S.offset
    else if aftertime < beforetime then before
    else S.offset

/-- Where `zoneinfo` puts a transition on the local clock. -/
def wall (fold : Bool) (before : ℤ) (S : Transition) : ℤ :=
  S.instant + if fold then min before S.offset else max before S.offset

namespace Zone

def offset (z : Zone) (t : ℤ) : ℤ := scan (fun _ S => S.instant) z.initial z.transitions t

/-- The local clock. -/
def clock (z : Zone) (t : ℤ) : ℤ := t + z.offset t

/-- The clock is in its second pass. -/
def fold (z : Zone) (t : ℤ) : Bool :=
  match lastTransition z.initial z.transitions t with
  | some (before, S) => t - S.instant < before - S.offset
  | none => false

/-- The instant of a reading of the clock, by `zoneinfo`. -/
def toUtc (z : Zone) (w : ℤ) (fold : Bool) : ℤ := w - scan (wall fold) z.initial z.transitions w

/-- The instant of a reading of the clock, by PostgreSQL. -/
def atTimeZone (z : Zone) (w : ℤ) : ℤ := w - determineOffset z.initial z.transitions w

def jumps (z : Zone) : List (ℤ × Transition) := TimeZone.jumps z.initial z.transitions

end Zone

/-! ## A reading is near one transition at most -/

theorem mem_of_mem_jumps {initial : ℤ} {Ts : List Transition} {p : ℤ × Transition}
    (h : p ∈ jumps initial Ts) : p.2 ∈ Ts := by
  induction Ts generalizing initial with
  | nil => cases h
  | cons S Ts ih =>
    rcases List.mem_cons.mp h with rfl | h
    · exact List.mem_cons_self
    · exact List.mem_cons_of_mem _ (ih h)

theorem jumps_spaced {initial : ℤ} {Ts : List Transition}
    (hspaced : Ts.Pairwise fun S T => S.instant + 3 * day ≤ T.instant) {p q : ℤ × Transition}
    (hp : p ∈ jumps initial Ts) (hq : q ∈ jumps initial Ts) :
    p = q ∨ p.2.instant + 3 * day ≤ q.2.instant ∨ q.2.instant + 3 * day ≤ p.2.instant := by
  induction Ts generalizing initial with
  | nil => cases hp
  | cons S Ts ih =>
    obtain ⟨hnext, htail⟩ := List.pairwise_cons.mp hspaced
    rcases List.mem_cons.mp hp with rfl | hp
    · rcases List.mem_cons.mp hq with rfl | hq
      · exact .inl rfl
      · exact .inr (.inl (hnext q.2 (mem_of_mem_jumps hq)))
    · rcases List.mem_cons.mp hq with rfl | hq
      · exact .inr (.inr (hnext p.2 (mem_of_mem_jumps hp)))
      · exact ih htail hp hq

theorem lastTransition_spec {initial : ℤ} {Ts : List Transition} {t : ℤ} {p : ℤ × Transition}
    (h : lastTransition initial Ts t = some p) : p ∈ jumps initial Ts ∧ p.2.instant ≤ t := by
  induction Ts generalizing initial with
  | nil => cases h
  | cons S Ts ih =>
    unfold lastTransition at h
    split at h
    · rename_i hle
      cases hlast : lastTransition S.offset Ts t with
      | none =>
        rw [hlast] at h
        obtain rfl := Option.some.inj h
        exact ⟨List.mem_cons_self, hle⟩
      | some q =>
        rw [hlast] at h
        obtain rfl := Option.some.inj h
        obtain ⟨hmem, hlate⟩ := ih hlast
        exact ⟨List.mem_cons_of_mem _ hmem, hlate⟩
    · cases h

/-- A place of a transition on a clock that is less than a day off. -/
def Near (key : ℤ → Transition → ℤ) : Prop :=
  ∀ b T, -day < b → b < day → -day < T.offset → T.offset < day →
    T.instant - day < key b T ∧ key b T < T.instant + day

/-- All that is in sight of a reading `w` is one transition. -/
structure Sight (initial : ℤ) (Ts : List Transition) (w before : ℤ) (S : Transition) : Prop where
  jump : (before, S) ∈ jumps initial Ts ∨ before = S.offset
  only : ∀ p ∈ jumps initial Ts, w - day < p.2.instant → p.2.instant < w + day → p = (before, S)
  before_lt : -day < before ∧ before < day
  after_lt : -day < S.offset ∧ S.offset < day
  scan_eq : ∀ key, Near key →
    scan key initial Ts w = if key before S ≤ w then S.offset else before
  offset_eq : ∀ t, w - day < t → t < w + day →
    scan (fun _ T => T.instant) initial Ts t = if S.instant ≤ t then S.offset else before
  determine_eq : determineOffset initial Ts w =
    if S.instant + S.offset ≤ w then S.offset else before

theorem determineOffset_cons_of_le {initial : ℤ} {S : Transition} {Ts : List Transition} {w : ℤ}
    (h : S.instant ≤ w - day) :
    determineOffset initial (S :: Ts) w = determineOffset S.offset Ts w := by
  have hnext : nextTransition initial (S :: Ts) (w - day) = nextTransition S.offset Ts (w - day) := by
    rw [nextTransition, if_neg (by omega)]
  have hscan : scan (fun _ T => T.instant) initial (S :: Ts) (w - day) =
      scan (fun _ T => T.instant) S.offset Ts (w - day) := by
    rw [scan, if_pos h]
  unfold determineOffset
  rw [hnext, hscan]

theorem determineOffset_cons_of_lt {initial : ℤ} {S : Transition} {Ts : List Transition} {w : ℤ}
    (h : w - day < S.instant) (hinitial : -day < initial) (hS : -day < S.offset) :
    determineOffset initial (S :: Ts) w =
      if S.instant + S.offset ≤ w then S.offset else initial := by
  have hnext : nextTransition initial (S :: Ts) (w - day) = some (initial, S) := by
    rw [nextTransition, if_pos h]
  unfold determineOffset
  rw [hnext]
  dsimp only
  split_ifs <;> omega

theorem exists_sight {initial : ℤ} {Ts : List Transition} (hinitial : -day < initial ∧ initial < day)
    (hoffset : ∀ S ∈ Ts, -day < S.offset ∧ S.offset < day)
    (hspaced : Ts.Pairwise fun S T => S.instant + 3 * day ≤ T.instant) (w : ℤ) :
    ∃ before S, Sight initial Ts w before S := by
  have hday : 0 < day := by decide
  induction Ts generalizing initial with
  | nil =>
    refine ⟨initial, ⟨0, initial⟩, .inr rfl, nofun, hinitial, hinitial, ?_, ?_, ?_⟩
    · intro key _
      simp [scan]
    · intro t _ _
      simp [scan]
    · simp [determineOffset, nextTransition, scan]
  | cons S Ts ih =>
    have hS := hoffset S List.mem_cons_self
    obtain ⟨hnext, htail⟩ := List.pairwise_cons.mp hspaced
    by_cases hpast : S.instant ≤ w - day
    · -- The transition is over: the others decide.
      obtain ⟨before, T, hsight⟩ :=
        ih hS (fun T hT => hoffset T (List.mem_cons_of_mem _ hT)) htail
      refine ⟨before, T, ?_, ?_, hsight.before_lt, hsight.after_lt, ?_, ?_, ?_⟩
      · rcases hsight.jump with hjump | heq
        · exact .inl (List.mem_cons_of_mem _ hjump)
        · exact .inr heq
      · intro p hp hlo hhi
        rcases List.mem_cons.mp hp with rfl | hp
        · dsimp only at hlo
          omega
        · exact hsight.only p hp hlo hhi
      · intro key hkey
        have hle := (hkey initial S hinitial.1 hinitial.2 hS.1 hS.2).2
        rw [scan, if_pos (by omega)]
        exact hsight.scan_eq key hkey
      · intro t hlo hhi
        rw [scan, if_pos (by omega)]
        exact hsight.offset_eq t hlo hhi
      · rw [determineOffset_cons_of_le hpast]
        exact hsight.determine_eq
    · have hstop : ∀ key, Near key → scan key S.offset Ts w = S.offset := by
        intro key hkey
        cases Ts with
        | nil => rfl
        | cons T Ts =>
          have hT := hoffset T (by simp)
          have hfar := hnext T List.mem_cons_self
          have hlow := (hkey S.offset T hS.1 hS.2 hT.1 hT.2).1
          rw [scan, if_neg (by omega)]
      have hstay : ∀ t, t < w + day → scan (fun _ T => T.instant) S.offset Ts t = S.offset := by
        intro t hhi
        cases Ts with
        | nil => rfl
        | cons T Ts =>
          have hfar := hnext T List.mem_cons_self
          rw [scan, if_neg (by omega)]
      refine ⟨initial, S, .inl List.mem_cons_self, ?_, hinitial, hS, ?_, ?_, ?_⟩
      · intro p hp hlo hhi
        rcases List.mem_cons.mp hp with rfl | hp
        · rfl
        · have hfar := hnext p.2 (mem_of_mem_jumps hp)
          omega
      · intro key hkey
        rw [scan, hstop key hkey]
      · intro t _ hhi
        rw [scan, hstay t hhi]
      · exact determineOffset_cons_of_lt (by omega) hinitial.1 hS.1

theorem near_wall (fold : Bool) : Near (wall fold) := by
  intro b T hlo hhi hlo' hhi'
  cases fold <;> simp only [wall, Bool.false_eq_true, if_true, if_false] <;> omega

theorem near_instant : Near fun _ T => T.instant := by
  have hday : 0 < day := by decide
  intro b T _ _ _ _
  dsimp only
  omega

/-! ## Readings that the clock passes once -/

namespace Zone
variable {z : Zone}

/-- No jump back repeats the reading, and a jump forward leaves it out only where it is made as the
clock would show it. -/
def PassesOnce (z : Zone) (w : ℤ) : Prop :=
  ∀ p ∈ z.jumps, ¬(p.2.instant + p.2.offset ≤ w ∧ w < p.2.instant + p.1) ∧
    ¬(p.2.instant + p.1 < w ∧ w < p.2.instant + p.2.offset)

theorem sight (z : Zone) (w : ℤ) : ∃ before S, Sight z.initial z.transitions w before S :=
  exists_sight z.initial_lt z.offset_lt z.spaced w

/-- A jump in sight of a reading is all that is in sight of it. -/
theorem sight_of_mem {before : ℤ} {S : Transition} {w : ℤ} (h : (before, S) ∈ z.jumps)
    (hlo : w - day < S.instant) (hhi : S.instant < w + day) :
    Sight z.initial z.transitions w before S := by
  obtain ⟨b, T, hsight⟩ := z.sight w
  obtain ⟨rfl, rfl⟩ := Prod.mk.inj (hsight.only _ h hlo hhi)
  exact hsight

theorem bounds_of_mem {before : ℤ} {S : Transition} (h : (before, S) ∈ z.jumps) :
    -day < before ∧ before < day ∧ -day < S.offset ∧ S.offset < day := by
  have hday : 0 < day := by decide
  have hsight := sight_of_mem (w := S.instant) h (by omega) (by omega)
  exact ⟨hsight.before_lt.1, hsight.before_lt.2, hsight.after_lt.1, hsight.after_lt.2⟩

theorem offset_bound (z : Zone) (t : ℤ) : -day < z.offset t ∧ z.offset t < day := by
  have hday : 0 < day := by decide
  obtain ⟨before, S, hsight⟩ := z.sight t
  unfold offset
  rw [hsight.offset_eq t (by omega) (by omega)]
  split
  · exact hsight.after_lt
  · exact hsight.before_lt

theorem jump_of_passesOnce {w before : ℤ} {S : Transition} (h : z.PassesOnce w)
    (hsight : Sight z.initial z.transitions w before S) :
    ¬(S.instant + S.offset ≤ w ∧ w < S.instant + before) ∧
      ¬(S.instant + before < w ∧ w < S.instant + S.offset) := by
  rcases hsight.jump with hjump | heq
  · exact h _ hjump
  · rw [heq]
    constructor <;> omega

theorem toUtc_eq {w before : ℤ} {S : Transition}
    (hsight : Sight z.initial z.transitions w before S) (fold : Bool) :
    z.toUtc w fold = w - if wall fold before S ≤ w then S.offset else before := by
  rw [toUtc, hsight.scan_eq _ (near_wall fold)]

theorem toUtc_bound (z : Zone) (w : ℤ) (fold : Bool) :
    w - day < z.toUtc w fold ∧ z.toUtc w fold < w + day := by
  obtain ⟨before, S, hsight⟩ := z.sight w
  have hbefore := hsight.before_lt
  have hafter := hsight.after_lt
  rw [toUtc_eq hsight]
  split_ifs <;> omega

/-- The clock shows a reading that it passes once, or a later one, from the reading's instant on. -/
theorem toUtc_le_iff {w : ℤ} (h : z.PassesOnce w) (t : ℤ) :
    z.toUtc w false ≤ t ↔ w ≤ z.clock t := by
  obtain ⟨before, S, hsight⟩ := z.sight w
  have hjump := jump_of_passesOnce h hsight
  have hbefore := hsight.before_lt
  have hafter := hsight.after_lt
  have hbound := z.offset_bound t
  have hlocal : w - day < t → t < w + day →
      z.offset t = if S.instant ≤ t then S.offset else before := hsight.offset_eq t
  rw [toUtc_eq hsight, clock]
  simp only [wall, Bool.false_eq_true, if_false]
  by_cases hlo : w - day < t
  · by_cases hhi : t < w + day
    · rw [hlocal hlo hhi]
      split_ifs <;> omega
    · split_ifs <;> omega
  · split_ifs <;> omega

theorem atTimeZone_eq_toUtc {w : ℤ} (h : z.PassesOnce w) :
    z.atTimeZone w = z.toUtc w false := by
  obtain ⟨before, S, hsight⟩ := z.sight w
  have hjump := jump_of_passesOnce h hsight
  rw [toUtc_eq hsight, atTimeZone, hsight.determine_eq]
  simp only [wall, Bool.false_eq_true, if_false]
  split_ifs <;> omega

theorem fold_spec {t : ℤ} (h : z.fold t = true) : ∃ before S, (before, S) ∈ z.jumps ∧
    S.instant ≤ t ∧ t - S.instant < before - S.offset := by
  unfold fold at h
  split at h
  · rename_i before S hlast
    obtain ⟨hmem, hle⟩ := lastTransition_spec hlast
    exact ⟨before, S, hmem, hle, of_decide_eq_true h⟩
  · cases h

/-- The second pass over an hour is no second pass over the midnight before it. -/
theorem toUtc_of_fold {w t : ℤ} (h : z.PassesOnce w) (hfold : z.fold t = true)
    (hle : w ≤ z.clock t) (hlt : z.clock t < w + day) : z.toUtc w true = z.toUtc w false := by
  obtain ⟨before, S, hsight⟩ := z.sight w
  have hjump := jump_of_passesOnce h hsight
  have hinstant := (toUtc_le_iff h t).mpr hle
  have hbound := z.offset_bound t
  have hbefore := hsight.before_lt
  rw [toUtc_eq hsight] at hinstant
  rw [toUtc_eq hsight, toUtc_eq hsight]
  simp only [wall, Bool.false_eq_true, if_true, if_false] at hinstant ⊢
  by_contra hne
  -- The two differ only at a jump forward from the reading.
  have hgap : w = S.instant + before ∧ before < S.offset := by
    split_ifs at hne <;> omega
  have hmem : (before, S) ∈ z.jumps := by
    rcases hsight.jump with hmem | heq
    · exact hmem
    · omega
  obtain ⟨before', S', hmem', hpast, hpass⟩ := fold_spec hfold
  have hbounds' := bounds_of_mem hmem'
  have hfrom : S.instant ≤ t := by
    rw [if_neg (by omega)] at hinstant
    omega
  rw [clock] at hlt
  rcases jumps_spaced z.spaced hmem hmem' with heq | hfar | hfar
  · obtain ⟨rfl, rfl⟩ := Prod.mk.inj heq
    omega
  · dsimp only at hfar
    omega
  · dsimp only at hfar
    omega

/-! ## Readings that a jump repeats or leaves out -/

section Jump

variable {before : ℤ} {S : Transition}

theorem clock_of_mem {w t : ℤ} (h : (before, S) ∈ z.jumps) (hlo : w - day < S.instant)
    (hhi : S.instant < w + day) (ht : w - day < t) (ht' : t < w + day) :
    z.clock t = t + if S.instant ≤ t then S.offset else before := by
  rw [clock, offset, (sight_of_mem h hlo hhi).offset_eq t ht ht']

theorem atTimeZone_of_mem {w : ℤ} (h : (before, S) ∈ z.jumps) (hlo : w - day < S.instant)
    (hhi : S.instant < w + day) :
    z.atTimeZone w = w - if S.instant + S.offset ≤ w then S.offset else before := by
  rw [atTimeZone, (sight_of_mem h hlo hhi).determine_eq]

end Jump

end Zone

end TimeZone
