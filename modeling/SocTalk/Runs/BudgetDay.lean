import SocTalk.Lib.TimeZone

/-! The budget day of an instant in a zone, as the API computes it and as the spend query begins
it. Times are in microseconds. -/
namespace SocTalk.Runs.BudgetDay
open TimeZone

theorem zero_lt_day : -day < 0 ∧ 0 < day := by decide

theorem offsets_nil : ∀ S ∈ ([] : List Transition), -day < S.offset ∧ S.offset < day := nofun

def utc : Zone := ⟨0, [], zero_lt_day, offsets_nil, List.Pairwise.nil⟩

/-- `replace(hour=0, minute=0, second=0, microsecond=0)`, which leaves the fold alone. -/
def midnight (w : ℤ) : ℤ := w / day * day

/-- The day of an instant in a zone; adding a day resets the fold. -/
def windowIn (z : Zone) (instant : ℤ) : ℤ × ℤ :=
  let start := midnight (z.clock instant)
  (z.toUtc start (z.fold instant), z.toUtc (midnight (start + day)) false)

/-- `day_window`, for the zones that are known. -/
def dayWindow (zones : String → Option Zone) (tzName : String) (instant : ℤ) : ℤ × ℤ :=
  windowIn ((zones tzName).getD utc) instant

/-- `date_trunc('day', now() AT TIME ZONE :tz) AT TIME ZONE :tz`. -/
def spendStart (z : Zone) (now : ℤ) : ℤ := z.atTimeZone (midnight (z.clock now))

/-- What the days around an instant are to be. -/
structure Partitions (z : Zone) (t : ℤ) : Prop where
  start_le : (windowIn z t).1 ≤ t
  lt_end : t < (windowIn z t).2
  constant : ∀ u, (windowIn z t).1 ≤ u → u < (windowIn z t).2 → windowIn z u = windowIn z t
  consecutive : (windowIn z (windowIn z t).2).1 = (windowIn z t).2
  spend : spendStart z t = (windowIn z t).1

theorem midnight_le (w : ℤ) : midnight w ≤ w := by
  simp only [midnight, day]
  omega

theorem lt_midnight_add (w : ℤ) : w < midnight w + day := by
  simp only [midnight, day]
  omega

theorem midnight_midnight_add (w : ℤ) : midnight (midnight w + day) = midnight w + day := by
  simp only [midnight, day]
  omega

/-- A midnight at or before a reading, less than a day before it, is its own. -/
theorem midnight_eq {d w : ℤ} (hle : d * day ≤ w) (hlt : w < d * day + day) :
    midnight w = d * day := by
  simp only [midnight, day] at *
  omega

variable {z : Zone} {t : ℤ}

theorem windowIn_snd (z : Zone) (t : ℤ) :
    (windowIn z t).2 = z.toUtc (midnight (z.clock t) + day) false := by
  simp only [windowIn, midnight_midnight_add]

/-- The day begins at its midnight, in either pass of the clock. -/
theorem windowIn_fst (h : z.PassesOnce (midnight (z.clock t))) :
    (windowIn z t).1 = z.toUtc (midnight (z.clock t)) false := by
  cases hfold : z.fold t with
  | false => simp only [windowIn, hfold]
  | true =>
    simp only [windowIn, hfold]
    exact Zone.toUtc_of_fold h hfold (midnight_le _) (lt_midnight_add _)

theorem midnight_mono {v w : ℤ} (h : v ≤ w) : midnight v ≤ midnight w := by
  simp only [midnight, day]
  omega

/-- The midnights within four days of an instant are passed once. -/
def RegularAround (z : Zone) (t : ℤ) : Prop :=
  ∀ d : ℤ, t - 4 * day < d * day → d * day < t + 4 * day → z.PassesOnce (d * day)

theorem RegularAround.passesOnce (h : RegularAround z t) {w : ℤ} (hlo : t - 4 * day < midnight w)
    (hhi : midnight w < t + 4 * day) : z.PassesOnce (midnight w) :=
  h (w / day) hlo hhi

theorem RegularAround.start (h : RegularAround z t) : z.PassesOnce (midnight (z.clock t)) := by
  have hday : 0 < day := by decide
  have hbound := z.offset_bound t
  have hle := midnight_le (z.clock t)
  have hlt := lt_midnight_add (z.clock t)
  rw [Zone.clock] at hle hlt
  refine h.passesOnce ?_ ?_ <;> rw [Zone.clock] <;> omega

theorem RegularAround.next (h : RegularAround z t) :
    z.PassesOnce (midnight (z.clock t) + day) := by
  have hday : 0 < day := by decide
  have hbound := z.offset_bound t
  have hle := midnight_le (z.clock t)
  have hlt := lt_midnight_add (z.clock t)
  rw [← midnight_midnight_add]
  refine h.passesOnce ?_ ?_ <;> rw [midnight_midnight_add] <;> rw [Zone.clock] at * <;> omega

/-- The end of a day is the start of the day that the clock shows there. -/
theorem RegularAround.consecutive (h : RegularAround z t) :
    (windowIn z (windowIn z t).2).1 = (windowIn z t).2 := by
  have hday : 0 < day := by decide
  rw [windowIn_snd]
  have hnext := h.next
  have hbefore := midnight_le (z.clock t)
  have hafter := lt_midnight_add (z.clock t)
  have hnear := z.toUtc_bound (midnight (z.clock t) + day) false
  have hoffset := z.offset_bound t
  generalize hstop : z.toUtc (midnight (z.clock t) + day) false = stop at *
  have hshown : midnight (z.clock t) + day ≤ z.clock stop :=
    (Zone.toUtc_le_iff hnext stop).mp hstop.le
  have hlater : midnight (z.clock t) + day ≤ midnight (z.clock stop) := by
    rw [← midnight_midnight_add]
    exact midnight_mono hshown
  have hpass : z.PassesOnce (midnight (z.clock stop)) := by
    have hle := midnight_le (z.clock stop)
    have hbound := z.offset_bound stop
    refine h.passesOnce ?_ ?_ <;> simp only [Zone.clock] at * <;> omega
  rw [windowIn_fst hpass]
  have hfirst := (Zone.toUtc_le_iff hnext (z.toUtc (midnight (z.clock stop)) false)).mpr
    (hlater.trans ((Zone.toUtc_le_iff hpass _).mp le_rfl))
  rw [hstop] at hfirst
  exact le_antisymm ((Zone.toUtc_le_iff hpass stop).mpr (midnight_le _)) hfirst

theorem partitions_of_regularAround (h : RegularAround z t) : Partitions z t where
  start_le := by
    rw [windowIn_fst h.start, Zone.toUtc_le_iff h.start]
    exact midnight_le _
  lt_end := by
    rw [windowIn_snd, ← not_le, Zone.toUtc_le_iff h.next, not_le]
    exact lt_midnight_add _
  constant := by
    intro u hlo hhi
    rw [windowIn_fst h.start, Zone.toUtc_le_iff h.start] at hlo
    rw [windowIn_snd, ← not_le, Zone.toUtc_le_iff h.next, not_le] at hhi
    have hsame : midnight (z.clock u) = midnight (z.clock t) := midnight_eq hlo hhi
    have hstart : z.PassesOnce (midnight (z.clock u)) := by
      rw [hsame]
      exact h.start
    apply Prod.ext
    · rw [windowIn_fst hstart, windowIn_fst h.start, hsame]
    · rw [windowIn_snd, windowIn_snd, hsame]
  consecutive := h.consecutive
  spend := by rw [spendStart, Zone.atTimeZone_eq_toUtc h.start, windowIn_fst h.start]

/-! ## Midnights that a jump repeats or leaves out -/

variable {before : ℤ} {S : Transition} {d : ℤ}

theorem midnight_mul (d : ℤ) : midnight (d * day) = d * day := by
  simp only [midnight, day]
  omega

/-- The query begins the day with the second midnight, before it has come. -/
theorem not_partitions_of_repeated (h : (before, S) ∈ z.jumps)
    (hlo : S.instant + S.offset ≤ d * day) (hhi : d * day < S.instant + before) :
    ¬Partitions z (d * day - before) := by
  intro hall
  obtain ⟨hb, hb', hS, hS'⟩ := Zone.bounds_of_mem h
  have hclock : z.clock (d * day - before) = d * day := by
    rw [Zone.clock_of_mem h (w := d * day) (by omega) (by omega) (by omega) (by omega),
      if_neg (by omega)]
    omega
  have hspend : spendStart z (d * day - before) = d * day - S.offset := by
    rw [spendStart, hclock, midnight_mul,
      Zone.atTimeZone_of_mem h (w := d * day) (by omega) (by omega), if_pos hlo]
  have hstart := hall.start_le
  rw [← hall.spend, hspend] at hstart
  omega

theorem spendStart_jump (h : (before, S) ∈ z.jumps) (hlo : S.instant + before < d * day)
    (hhi : d * day < S.instant + S.offset) : spendStart z S.instant =
      midnight (S.instant + S.offset) -
        if S.instant + S.offset ≤ midnight (S.instant + S.offset) then S.offset else before := by
  obtain ⟨hb, hb', hS, hS'⟩ := Zone.bounds_of_mem h
  have hday : 0 < day := by decide
  have hclock : z.clock S.instant = S.instant + S.offset := by
    rw [Zone.clock_of_mem h (w := S.instant) (by omega) (by omega) (by omega) (by omega),
      if_pos le_rfl]
  have hle := midnight_le (S.instant + S.offset)
  have hge : d * day ≤ midnight (S.instant + S.offset) := by
    rw [← midnight_mul d]
    exact midnight_mono hhi.le
  rw [spendStart, hclock, Zone.atTimeZone_of_mem h (by omega) (by omega)]

/-- The end of the day before the jump, where the jump leaves out a later midnight. -/
theorem windowIn_before_jump (h : (before, S) ∈ z.jumps) (hlo : S.instant + before < d * day)
    (hhi : d * day < S.instant + S.offset) :
    (windowIn z (S.instant - 1)).2 = midnight (S.instant - 1 + before) + day - before := by
  obtain ⟨hb, hb', hS, hS'⟩ := Zone.bounds_of_mem h
  have hday : 1 < day := by decide
  have hclock : z.clock (S.instant - 1) = S.instant - 1 + before := by
    rw [Zone.clock_of_mem h (w := S.instant) (by omega) (by omega) (by omega) (by omega),
      if_neg (by omega)]
  have hlt := lt_midnight_add (S.instant - 1 + before)
  have hle : midnight (S.instant - 1 + before) + day ≤ d * day := by
    simp only [midnight, day] at *
    omega
  rw [windowIn_snd, hclock, Zone.toUtc_eq (Zone.sight_of_mem h (by omega) (by omega))]
  simp only [wall, Bool.false_eq_true, if_false]
  rw [if_neg (by omega)]

/-- Either the day begins after the jump into it, or the one before goes on behind the jump. -/
theorem exists_not_partitions_of_skipped (h : (before, S) ∈ z.jumps)
    (hlo : S.instant + before < d * day) (hhi : d * day < S.instant + S.offset) :
    ∃ t, ¬Partitions z t := by
  obtain ⟨hb, hb', hS, hS'⟩ := Zone.bounds_of_mem h
  by_contra hall
  push Not at hall
  have hspend := spendStart_jump h hlo hhi
  have hstart := (hall S.instant).start_le
  rw [← (hall S.instant).spend, hspend] at hstart
  have hge : d * day ≤ midnight (S.instant + S.offset) := by
    rw [← midnight_mul d]
    exact midnight_mono hhi.le
  by_cases hexact : S.instant + S.offset ≤ midnight (S.instant + S.offset)
  · -- The clock jumps to a midnight.
    have hle := midnight_le (S.instant + S.offset)
    rw [if_pos hexact] at hspend
    have hend := windowIn_before_jump h hlo hhi
    have hlong : S.instant < (windowIn z (S.instant - 1)).2 := by
      rw [hend]
      simp only [midnight, day] at *
      omega
    have hprev := (hall (S.instant - 1)).start_le
    have hsame := (hall (S.instant - 1)).constant S.instant (by omega) hlong
    have hfirst := (hall S.instant).spend
    rw [hsame, hspend] at hfirst
    omega
  · rw [if_neg hexact] at hstart
    omega

/-- Which zones' days partition time. -/
theorem budget_days_partition_iff (z : Zone) :
    (∀ t, RegularAround z t → Partitions z t) ∧
      ((∀ t, Partitions z t) ↔ ∀ d : ℤ, z.PassesOnce (d * day)) := by
  refine ⟨fun t h => partitions_of_regularAround h, ?_, ?_⟩
  · rintro hall d ⟨before, S⟩ hjump
    constructor
    · rintro ⟨hlo, hhi⟩
      exact not_partitions_of_repeated hjump hlo hhi (hall _)
    · rintro ⟨hlo, hhi⟩
      obtain ⟨t, ht⟩ := exists_not_partitions_of_skipped hjump hlo hhi
      exact ht (hall t)
  · intro hpass t
    exact partitions_of_regularAround fun d _ _ => hpass d

/-! ## A zone that repeats a midnight -/

def hour : ℤ := 3600000000

def havanaJumps : List Transition := [⟨1772946000000000, -4 * hour⟩, ⟨1793509200000000, -5 * hour⟩]

theorem havana_initial : -day < -5 * hour ∧ -5 * hour < day := by decide

theorem havana_offsets : ∀ S ∈ havanaJumps, -day < S.offset ∧ S.offset < day := by
  simp [havanaJumps, hour, day]

theorem havana_spaced :
    havanaJumps.Pairwise fun S T => S.instant + 3 * day ≤ T.instant := by
  simp [havanaJumps, day]

/-- `America/Havana` in 2026. -/
def havana : Zone := ⟨-5 * hour, havanaJumps, havana_initial, havana_offsets, havana_spaced⟩

/-- On the first of November the clock shows the hour from midnight twice: half an hour into its
second pass, and at seven in the morning. -/
theorem havana_not_partitioned :
    windowIn havana 1793511000000000 = (1793509200000000, 1793595600000000) ∧
      windowIn havana 1793534400000000 = (1793505600000000, 1793595600000000) ∧
      spendStart havana 1793534400000000 = 1793509200000000 ∧
      ¬Partitions havana 1793534400000000 := by
  have hlate : windowIn havana 1793534400000000 = (1793505600000000, 1793595600000000) := by
    decide +kernel
  have hspend : spendStart havana 1793534400000000 = 1793509200000000 := by decide +kernel
  refine ⟨by decide +kernel, hlate, hspend, ?_⟩
  intro h
  have hsame := h.spend
  rw [hspend, hlate] at hsame
  exact absurd hsame (by decide)

end SocTalk.Runs.BudgetDay
