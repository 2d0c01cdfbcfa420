import Mathlib.Algebra.Order.Ring.Rat
import Mathlib.Data.List.Induction
import Mathlib.Data.Prod.Lex
import Mathlib.Data.String.Basic
import Mathlib.Order.WithBot

/-! The durable cursor of the ingest: the upsert that merges a written checkpoint into the stored
one, against the order that the adapter resumes by. -/
namespace SocTalk.Adapter

/-- What an adapter writes; every column may be absent. -/
structure CheckpointBody where
  cursorTs : Option String := none
  cursorEventId : Option String := none
  batchSeq : Option ℕ := none
  droppedTotal : Option ℕ := none
  deriving DecidableEq

/-- The stored row of one tenant and source. -/
structure Checkpoint where
  cursorTs : Option String
  cursorEventId : Option String
  batchSeq : ℕ
  droppedTotal : ℕ
  deriving DecidableEq

/-- `GREATEST` of two texts; it ignores a NULL. -/
def greatest : Option String → Option String → Option String
  | some s, some t => some (max s t)
  | some s, none => some s
  | none, t => t

/-- `s >= t` of two texts, unknown where one is NULL. -/
def atLeast : Option String → Option String → Option Bool
  | some s, some t => some (t ≤ s)
  | _, _ => none

/-- `INSERT … ON CONFLICT (tenant_id, source) DO UPDATE`. -/
def putCheckpoint (row : Option Checkpoint) (w : CheckpointBody) : Checkpoint :=
  match row with
  | none => ⟨w.cursorTs, w.cursorEventId, w.batchSeq.getD 0, w.droppedTotal.getD 0⟩
  | some r =>
    { cursorTs := greatest r.cursorTs w.cursorTs
      cursorEventId :=
        if atLeast w.cursorTs r.cursorTs = some true then w.cursorEventId else r.cursorEventId
      batchSeq := max r.batchSeq (w.batchSeq.getD 0)
      droppedTotal := max r.droppedTotal (w.droppedTotal.getD 0) }

/-- The row after a sequence of writes. -/
def stored (writes : List CheckpointBody) : Option Checkpoint :=
  writes.foldl (fun row w => some (putCheckpoint row w)) none

theorem stored_concat (writes : List CheckpointBody) (w : CheckpointBody) :
    stored (writes ++ [w]) = some (putCheckpoint (stored writes) w) := by
  unfold stored
  rw [List.foldl_append]
  rfl

/-! ## The order of the cursors -/

def CheckpointBody.cursor (w : CheckpointBody) : Option String × Option String :=
  (w.cursorTs, w.cursorEventId)

def Checkpoint.cursor (r : Checkpoint) : Option String × Option String :=
  (r.cursorTs, r.cursorEventId)

-- How the indexer reads a timestamp.
variable (instant : String → Option ℚ)

/-- The key that the adapter resumes by: the time, then the event id, each below all others where it
is absent. -/
def key (c : Option String × Option String) : WithBot ℚ ×ₗ WithBot String :=
  toLex (c.1.bind instant, c.2)

/-- The row is the greatest of the written cursors, with the greatest of the counters. -/
structure Joined (writes : List CheckpointBody) (r : Checkpoint) : Prop where
  cursor_mem : r.cursor ∈ writes.map (·.cursor)
  cursor_le : ∀ w ∈ writes, key instant w.cursor ≤ key instant r.cursor
  batchSeq_mem : r.batchSeq ∈ writes.map (·.batchSeq.getD 0)
  batchSeq_le : ∀ w ∈ writes, w.batchSeq.getD 0 ≤ r.batchSeq
  droppedTotal_mem : r.droppedTotal ∈ writes.map (·.droppedTotal.getD 0)
  droppedTotal_le : ∀ w ∈ writes, w.droppedTotal.getD 0 ≤ r.droppedTotal

/-- The text order of the two timestamps picks the cursor that the key order picks. A row without a
timestamp keeps its id when one is written, so the id must be the same. -/
def InOrder (r : Checkpoint) (w : CheckpointBody) : Prop :=
  match r.cursorTs, w.cursorTs with
  | some s, some t =>
    if s ≤ t then key instant r.cursor ≤ key instant w.cursor
    else key instant w.cursor ≤ key instant r.cursor
  | none, some _ => w.cursorEventId = r.cursorEventId
  | _, none => key instant w.cursor ≤ key instant r.cursor

instance (r : Checkpoint) (w : CheckpointBody) : Decidable (InOrder instant r w) := by
  unfold InOrder
  split <;> infer_instance

/-- Every write meets the row it finds in order. -/
def AllInOrder (writes : List CheckpointBody) : Prop :=
  ∀ earlier w later, writes = earlier ++ w :: later → ∀ r ∈ stored earlier, InOrder instant r w

variable {instant}

/-- With the same id, a cursor without a timestamp is below. -/
theorem key_none_le (t id : Option String) : key instant (none, id) ≤ key instant (t, id) := by
  rw [key, key, Prod.Lex.toLex_le_toLex]
  cases ht : t.bind instant with
  | none => exact Or.inr ⟨rfl, le_rfl⟩
  | some q => exact Or.inl (WithBot.bot_lt_coe q)

/-- What the upsert leaves of the two cursors. -/
theorem putCheckpoint_cursor (r : Checkpoint) (w : CheckpointBody) :
    (putCheckpoint (some r) w).cursor =
      match r.cursorTs, w.cursorTs with
      | some s, some t => if s ≤ t then w.cursor else r.cursor
      | none, some t => (some t, r.cursorEventId)
      | _, none => r.cursor := by
  unfold putCheckpoint Checkpoint.cursor CheckpointBody.cursor
  cases hr : r.cursorTs with
  | none =>
    cases hw : w.cursorTs <;> simp [hr, greatest, atLeast]
  | some s =>
    cases hw : w.cursorTs with
    | none => simp [hr, greatest, atLeast]
    | some t =>
      by_cases hle : s ≤ t
      · simp [hr, greatest, atLeast, hle]
      · simp [hr, greatest, atLeast, hle, max_eq_left (not_le.mp hle).le]

/-- One write leaves the greater of the two cursors exactly if it meets the row in order. -/
theorem inOrder_iff (r : Checkpoint) (w : CheckpointBody) :
    InOrder instant r w ↔
      ((putCheckpoint (some r) w).cursor = r.cursor ∨
        (putCheckpoint (some r) w).cursor = w.cursor) ∧
      key instant r.cursor ≤ key instant (putCheckpoint (some r) w).cursor ∧
      key instant w.cursor ≤ key instant (putCheckpoint (some r) w).cursor := by
  rw [putCheckpoint_cursor]
  unfold InOrder
  cases hr : r.cursorTs with
  | none =>
    cases hw : w.cursorTs with
    | none => simp
    | some t =>
      have hrow : r.cursor = (none, r.cursorEventId) := by rw [Checkpoint.cursor, hr]
      have hwritten : w.cursor = (some t, w.cursorEventId) := by rw [CheckpointBody.cursor, hw]
      rw [hrow, hwritten]
      constructor
      · intro hid
        rw [hid]
        exact ⟨Or.inr rfl, key_none_le _ _, le_rfl⟩
      · rintro ⟨heq, -, -⟩
        rcases heq with hrow | hwritten
        · cases congrArg Prod.fst hrow
        · exact (congrArg Prod.snd hwritten).symm
  | some s =>
    cases hw : w.cursorTs with
    | none => simp
    | some t =>
      dsimp only
      split <;> simp

/-! ## Runs -/

theorem AllInOrder.init {writes : List CheckpointBody} {w : CheckpointBody}
    (h : AllInOrder instant (writes ++ [w])) : AllInOrder instant writes := by
  intro earlier v later hsplit
  exact h earlier v (later ++ [w]) (by rw [hsplit]; simp)

theorem AllInOrder.last {writes : List CheckpointBody} {w : CheckpointBody}
    (h : AllInOrder instant (writes ++ [w])) : ∀ r ∈ stored writes, InOrder instant r w :=
  h writes w [] rfl

theorem joined_first (w : CheckpointBody) : Joined instant [w] (putCheckpoint none w) where
  cursor_mem := List.mem_singleton.mpr rfl
  cursor_le v hv := by
    rw [List.mem_singleton.mp hv]
    exact le_rfl
  batchSeq_mem := List.mem_singleton.mpr rfl
  batchSeq_le v hv := by
    rw [List.mem_singleton.mp hv]
    exact le_rfl
  droppedTotal_mem := List.mem_singleton.mpr rfl
  droppedTotal_le v hv := by
    rw [List.mem_singleton.mp hv]
    exact le_rfl

/-- A greater counter is one of the two it was chosen from. -/
theorem max_mem_concat {ns : List ℕ} {m : ℕ} (n : ℕ) (h : m ∈ ns) : max m n ∈ ns ++ [n] := by
  rcases max_choice m n with hm | hn
  · rw [hm]
    exact List.mem_append_left _ h
  · rw [hn]
    exact List.mem_append_right _ (List.mem_singleton.mpr rfl)

theorem le_max_of_concat {writes : List CheckpointBody} {w : CheckpointBody}
    (f : CheckpointBody → ℕ) {m : ℕ} (h : ∀ v ∈ writes, f v ≤ m) :
    ∀ v ∈ writes ++ [w], f v ≤ max m (f w) := by
  intro v hv
  rcases List.mem_append.mp hv with hold | hnew
  · exact (h v hold).trans (le_max_left _ _)
  · rw [List.mem_singleton.mp hnew]
    exact le_max_right _ _

/-- A write in order joins the cursors and the counters. -/
theorem Joined.put {writes : List CheckpointBody} {r : Checkpoint} {w : CheckpointBody}
    (h : Joined instant writes r) (hw : InOrder instant r w) :
    Joined instant (writes ++ [w]) (putCheckpoint (some r) w) := by
  obtain ⟨hchoice, hrow, hwritten⟩ := (inOrder_iff r w).mp hw
  have hbatch := max_mem_concat (w.batchSeq.getD 0) h.batchSeq_mem
  have hdropped := max_mem_concat (w.droppedTotal.getD 0) h.droppedTotal_mem
  refine ⟨?_, ?_, ?_, le_max_of_concat _ h.batchSeq_le, ?_, le_max_of_concat _ h.droppedTotal_le⟩
  · rw [List.map_append]
    rcases hchoice with hold | hnew
    · rw [hold]
      exact List.mem_append_left _ h.cursor_mem
    · rw [hnew]
      exact List.mem_append_right _ (List.mem_singleton.mpr rfl)
  · intro v hv
    rcases List.mem_append.mp hv with hold | hnew
    · exact (h.cursor_le v hold).trans hrow
    · rw [List.mem_singleton.mp hnew]
      exact hwritten
  · rw [List.map_append]
    exact hbatch
  · rw [List.map_append]
    exact hdropped

/-- In a run whose writes all meet the row in order, the row is the greatest of what was written. -/
theorem stored_joined (instant : String → Option ℚ) (writes : List CheckpointBody)
    (h : AllInOrder instant writes) : ∀ r ∈ stored writes, Joined instant writes r := by
  induction writes using List.reverseRecOn with
  | nil =>
    intro r hr
    cases hr
  | append_singleton writes w ih =>
    intro r hr
    rw [stored_concat] at hr
    obtain rfl := Option.some.inj hr
    cases hstored : stored writes with
    | none =>
      have hnil : writes = [] := by
        cases writes using List.reverseRecOn with
        | nil => rfl
        | append_singleton earlier v => simp [stored_concat] at hstored
      rw [hnil]
      exact joined_first w
    | some row => exact (ih h.init row hstored).put (h.last row hstored)

/-! ## Timestamps -/

/-- The number that `n` digits spell at the front of a text, and the rest of it. -/
def digits (n : ℕ) (cs : List Char) : Option (ℕ × List Char) :=
  if cs.length < n ∨ (cs.take n).any (fun c => !c.isDigit) then none
  else some ((cs.take n).foldl (fun acc c => acc * 10 + (c.toNat - 48)) 0, cs.drop n)

def literal (c : Char) : List Char → Option (List Char)
  | d :: cs => if d = c then some cs else none
  | [] => none

/-- The days from 1970-01-01 to a date of the proleptic Gregorian calendar. -/
def daysFromCivil (year month day : ℕ) : ℤ :=
  let y : ℤ := if month ≤ 2 then year - 1 else year
  let m : ℤ := if month ≤ 2 then month + 9 else month - 3
  365 * y + y / 4 - y / 100 + y / 400 + (153 * m + 2) / 5 + day - 1 - 719468

/-- The seconds of a fraction after the point, and what follows it. -/
def fraction (cs : List Char) : ℚ × List Char :=
  let ds := cs.takeWhile Char.isDigit
  ((ds.foldl (fun acc c => acc * 10 + (c.toNat - 48)) 0 : ℕ) / (10 ^ ds.length : ℕ),
    cs.dropWhile Char.isDigit)

/-- The seconds that a zone designator is ahead of UTC. -/
def zoneSeconds : List Char → Option ℤ
  | [] => some 0
  | ['Z'] => some 0
  | sign :: cs => do
    let (hours, cs) ← digits 2 cs
    let (minutes, cs) ← digits 2 ((literal ':' cs).getD cs)
    if cs ≠ [] then none
    else if sign = '+' then some (3600 * hours + 60 * minutes)
    else if sign = '-' then some (-(3600 * hours + 60 * minutes))
    else none

/-- The instant of an ISO-8601 date and time, in seconds since 1970. -/
def isoInstant (text : String) : Option ℚ := do
  let (year, cs) ← digits 4 text.toList
  let (month, cs) ← digits 2 (← literal '-' cs)
  let (day, cs) ← digits 2 (← literal '-' cs)
  let (hour, cs) ← digits 2 (← literal 'T' cs)
  let (minute, cs) ← digits 2 (← literal ':' cs)
  let (second, cs) ← digits 2 (← literal ':' cs)
  let (part, cs) := match literal '.' cs with
    | some cs => fraction cs
    | none => (0, cs)
  let zone ← zoneSeconds cs
  return 86400 * daysFromCivil year month day + 3600 * hour + 60 * minute + second + part - zone

/-- One adapter's write, then the delayed one of another. -/
def delayedWrite : List CheckpointBody :=
  [{ cursorTs := some "2026-07-09T10:00:00.000Z", cursorEventId := some "wz-200",
     batchSeq := some 5, droppedTotal := some 3 },
    { cursorTs := some "2026-07-09T09:00:00.000Z", cursorEventId := some "wz-050",
      batchSeq := some 1, droppedTotal := some 0 }]

theorem stored_joined_delayedWrite : AllInOrder isoInstant delayedWrite ∧
    ∃ r ∈ stored delayedWrite, r.cursorEventId = some "wz-200" ∧
      Joined isoInstant delayedWrite r := by
  have horder : AllInOrder isoInstant delayedWrite := by
    intro earlier w later hsplit r hr
    rcases earlier with _ | ⟨v, _ | ⟨v', earlier⟩⟩
    · cases hr
    · obtain ⟨rfl, rfl, -⟩ : v = _ ∧ w = _ ∧ later = _ := by
        simpa [delayedWrite, eq_comm] using hsplit
      obtain rfl := Option.some.inj hr
      decide +kernel
    · have hlength := congrArg List.length hsplit
      simp [delayedWrite] at hlength
  exact ⟨horder, _, rfl, rfl, stored_joined isoInstant delayedWrite horder _ rfl⟩

/-- A write of an earlier event at the same time takes the cursor back; one in another notation of
the time does not move it on; one that meets a row without a timestamp is mixed with it. -/
theorem not_stored_joined :
    (∃ r ∈ stored [⟨some "2026-07-09T10:00:00.000Z", some "wz-200", none, none⟩,
        ⟨some "2026-07-09T10:00:00.000Z", some "wz-100", none, none⟩],
      r.cursorEventId = some "wz-100" ∧ ¬Joined isoInstant
        [⟨some "2026-07-09T10:00:00.000Z", some "wz-200", none, none⟩,
          ⟨some "2026-07-09T10:00:00.000Z", some "wz-100", none, none⟩] r) ∧
    (∃ r ∈ stored [⟨some "2026-07-09T12:00:00+02:00", some "wz-100", none, none⟩,
        ⟨some "2026-07-09T11:00:00Z", some "wz-200", none, none⟩],
      r.cursorEventId = some "wz-100" ∧ ¬Joined isoInstant
        [⟨some "2026-07-09T12:00:00+02:00", some "wz-100", none, none⟩,
          ⟨some "2026-07-09T11:00:00Z", some "wz-200", none, none⟩] r) ∧
    ∃ r ∈ stored [⟨none, none, none, none⟩,
        ⟨some "2026-07-09T10:00:00.000Z", some "wz-100", none, none⟩],
      r.cursorEventId = none ∧ ¬Joined isoInstant [⟨none, none, none, none⟩,
        ⟨some "2026-07-09T10:00:00.000Z", some "wz-100", none, none⟩] r := by
  refine ⟨⟨_, rfl, rfl, fun h => ?_⟩, ⟨_, rfl, rfl, fun h => ?_⟩, ⟨_, rfl, rfl, fun h => ?_⟩⟩
  · have hle := h.cursor_le ⟨some "2026-07-09T10:00:00.000Z", some "wz-200", none, none⟩ (by simp)
    revert hle
    decide +kernel
  · have hle := h.cursor_le ⟨some "2026-07-09T11:00:00Z", some "wz-200", none, none⟩ (by simp)
    revert hle
    decide +kernel
  · have hmem := h.cursor_mem
    revert hmem
    decide +kernel

end SocTalk.Adapter
