import Mathlib.Algebra.BigOperators.Group.List.Basic
import Mathlib.Algebra.Order.Floor.Ring
import Mathlib.Data.Rat.Floor
import Mathlib.Tactic.FieldSimp
import Mathlib.Tactic.Linarith
import Mathlib.Tactic.Positivity
import Mathlib.Tactic.Ring

/-! The adapter's rate limiter: what the token bucket admits over any sequence of calls, and how it
paces the polls of a backlog. Times and token counts are exact. -/
namespace SocTalk.Adapter

structure TokenBucket where
  rate : ℚ
  burst : ℕ
  tokens : ℚ
  last : ℚ

namespace TokenBucket

/-- A full bucket. -/
def new (ratePerSec : ℚ) (burst : ℤ) (now : ℚ) : TokenBucket where
  rate := max ratePerSec 0
  burst := (max burst 1).toNat
  tokens := (max burst 1).toNat
  last := now

def refill (b : TokenBucket) (now : ℚ) : TokenBucket :=
  { b with tokens := min b.burst (b.tokens + (now - b.last) * b.rate), last := now }

/-- How many of `n` tokens are taken and how many are not, and the bucket after it. A bucket without
a rate limits nothing. -/
def take (b : TokenBucket) (now : ℚ) (n : ℕ) : (ℕ × ℕ) × TokenBucket :=
  if b.rate ≤ 0 then ((n, 0), b)
  else
    let b := b.refill now
    let allowed := min n ⌊b.tokens⌋.toNat
    ((allowed, n - allowed), { b with tokens := b.tokens - allowed })

/-- Seconds until `n` tokens are there. -/
def secondsUntil (b : TokenBucket) (now : ℚ) (n : ℕ) : ℚ × TokenBucket :=
  if b.rate ≤ 0 then (0, b)
  else
    let b := b.refill now
    let n := min n b.burst
    (if (n : ℚ) ≤ b.tokens then 0 else (n - b.tokens) / b.rate, b)

end TokenBucket

/-- The pause after a poll that left `deferred` events behind. -/
def nextSleep (b : TokenBucket) (now : ℚ) (deferred : ℕ) (interval : ℚ) : ℚ × TokenBucket :=
  if deferred = 0 then (interval, b)
  else
    let (seconds, b) := b.secondsUntil now (min deferred b.burst)
    (max 0 (min interval seconds), b)

/-! ## One call -/

/-- Between empty and full, with a positive rate. -/
structure TokenBucket.Level (b : TokenBucket) : Prop where
  rate : 0 < b.rate
  burst : 1 ≤ b.burst
  nonneg : 0 ≤ b.tokens
  le_burst : b.tokens ≤ b.burst

namespace TokenBucket

variable {b : TokenBucket} {now : ℚ}

theorem new_level {ratePerSec : ℚ} (hrate : 0 < ratePerSec) (burst : ℤ) (now : ℚ) :
    (new ratePerSec burst now).Level where
  rate := lt_max_of_lt_left hrate
  burst := by
    show 1 ≤ (max burst 1).toNat
    omega
  nonneg := by
    show (0 : ℚ) ≤ ((max burst 1).toNat : ℚ)
    positivity
  le_burst := le_rfl

@[simp] theorem refill_rate : (b.refill now).rate = b.rate := rfl
@[simp] theorem refill_burst : (b.refill now).burst = b.burst := rfl
@[simp] theorem refill_last : (b.refill now).last = now := rfl

theorem refill_tokens_le (b : TokenBucket) (now : ℚ) :
    (b.refill now).tokens ≤ b.tokens + (now - b.last) * b.rate := min_le_right _ _

theorem refill_level (h : b.Level) (hnow : b.last ≤ now) : (b.refill now).Level where
  rate := h.rate
  burst := h.burst
  nonneg := by
    have hgrow : 0 ≤ (now - b.last) * b.rate := mul_nonneg (sub_nonneg.mpr hnow) h.rate.le
    have hburst : (0 : ℚ) ≤ b.burst := by positivity
    exact le_min hburst (add_nonneg h.nonneg hgrow)
  le_burst := min_le_left _ _

/-- Time only adds tokens. -/
theorem tokens_le_refill (h : b.Level) (hnow : b.last ≤ now) :
    b.tokens ≤ (b.refill now).tokens := by
  have hgrow : 0 ≤ (now - b.last) * b.rate := mul_nonneg (sub_nonneg.mpr hnow) h.rate.le
  exact le_min h.le_burst (by linarith)

theorem take_of_rate (h : b.Level) (n : ℕ) : b.take now n =
    ((min n ⌊(b.refill now).tokens⌋.toNat, n - min n ⌊(b.refill now).tokens⌋.toNat),
      { b.refill now with
        tokens := (b.refill now).tokens - (min n ⌊(b.refill now).tokens⌋.toNat : ℕ) }) := by
  unfold take
  rw [if_neg (not_le.mpr h.rate)]

theorem secondsUntil_of_rate (h : b.Level) (n : ℕ) : b.secondsUntil now n =
    (if ((min n b.burst : ℕ) : ℚ) ≤ (b.refill now).tokens then 0
      else ((min n b.burst : ℕ) - (b.refill now).tokens) / b.rate, b.refill now) := by
  unfold secondsUntil
  rw [if_neg (not_le.mpr h.rate)]
  rfl

/-- What is admitted and what is not make up the argument. -/
theorem take_split (b : TokenBucket) (now : ℚ) (n : ℕ) :
    (b.take now n).1.1 + (b.take now n).1.2 = n := by
  unfold take
  split
  · rfl
  · dsimp only
    omega

/-- Whole tokens only. -/
theorem toNat_floor_le {x : ℚ} (hx : 0 ≤ x) : ((⌊x⌋.toNat : ℕ) : ℚ) ≤ x := by
  have hfloor : (0 : ℤ) ≤ ⌊x⌋ := Int.floor_nonneg.mpr hx
  have hcast : ((⌊x⌋.toNat : ℕ) : ℚ) = (⌊x⌋ : ℚ) := by
    exact_mod_cast congrArg (Int.cast : ℤ → ℚ) (Int.toNat_of_nonneg hfloor)
  rw [hcast]
  exact Int.floor_le x

theorem le_toNat_floor {x : ℚ} {n : ℕ} (h : (n : ℚ) ≤ x) : n ≤ ⌊x⌋.toNat := by
  have hfloor : (n : ℤ) ≤ ⌊x⌋ := Int.le_floor.mpr (by exact_mod_cast h)
  omega

theorem admitted_le_tokens (h : b.Level) (hnow : b.last ≤ now) (n : ℕ) :
    ((b.take now n).1.1 : ℚ) ≤ (b.refill now).tokens := by
  rw [take_of_rate h]
  have hle : ((min n ⌊(b.refill now).tokens⌋.toNat : ℕ) : ℚ) ≤
      ((⌊(b.refill now).tokens⌋.toNat : ℕ) : ℚ) := by exact_mod_cast Nat.min_le_right _ _
  exact hle.trans (toNat_floor_le (refill_level h hnow).nonneg)

theorem take_tokens (h : b.Level) (now : ℚ) (n : ℕ) :
    (b.take now n).2.tokens = (b.refill now).tokens - (b.take now n).1.1 := by
  rw [take_of_rate h]

theorem take_level (h : b.Level) (hnow : b.last ≤ now) (n : ℕ) : (b.take now n).2.Level := by
  have hrefilled := refill_level h hnow
  have hadmitted := admitted_le_tokens h hnow n
  have htokens := take_tokens h now n
  refine ⟨?_, ?_, ?_, ?_⟩
  · rw [take_of_rate h]
    exact h.rate
  · rw [take_of_rate h]
    exact h.burst
  · rw [htokens]
    linarith
  · have hfull := hrefilled.le_burst
    have hpos : (0 : ℚ) ≤ ((b.take now n).1.1 : ℚ) := by positivity
    have hburst : (b.take now n).2.burst = b.burst := by rw [take_of_rate h]; rfl
    rw [htokens, hburst]
    rw [refill_burst] at hfull
    linarith

/-- Enough tokens admit all. -/
theorem take_all (h : b.Level) {n : ℕ} (hn : (n : ℚ) ≤ (b.refill now).tokens) :
    (b.take now n).1 = (n, 0) := by
  rw [take_of_rate h]
  have hfloor := le_toNat_floor hn
  have hmin : min n ⌊(b.refill now).tokens⌋.toNat = n := Nat.min_eq_left hfloor
  rw [hmin, Nat.sub_self]

theorem secondsUntil_nonneg (h : b.Level) (now : ℚ) (n : ℕ) : 0 ≤ (b.secondsUntil now n).1 := by
  rw [secondsUntil_of_rate h]
  dsimp only
  split
  · exact le_rfl
  · rename_i hless
    have hgap := not_le.mp hless
    exact div_nonneg (by linarith) h.rate.le

/-- After the wait the tokens are there. -/
theorem le_refill_secondsUntil (h : b.Level) (hnow : b.last ≤ now) {n : ℕ} (hn : n ≤ b.burst)
    {later : ℚ} (hlater : now + (b.secondsUntil now n).1 ≤ later) :
    (n : ℚ) ≤ ((b.secondsUntil now n).2.refill later).tokens := by
  have hsecs := secondsUntil_nonneg h now n
  rw [secondsUntil_of_rate h] at hlater hsecs ⊢
  rw [Nat.min_eq_left hn] at hlater hsecs ⊢
  dsimp only at hlater hsecs ⊢
  have hrefilled := refill_level h hnow
  have hburst : (n : ℚ) ≤ b.burst := by exact_mod_cast hn
  refine le_min hburst ?_
  rw [refill_last, refill_rate]
  split at hlater
  · rename_i henough
    have hgrow : 0 ≤ (later - now) * b.rate :=
      mul_nonneg (by linarith) h.rate.le
    linarith
  · have hgap : (n - (b.refill now).tokens) / b.rate ≤ later - now := by linarith
    have hfilled := (div_le_iff₀ h.rate).mp hgap
    linarith

end TokenBucket

/-! ## Any sequence of calls -/

inductive Call where
  | take (n : ℕ)
  | secondsUntil (n : ℕ)

namespace TokenBucket

/-- The events a call admits, and the bucket after it. -/
def call (b : TokenBucket) (now : ℚ) : Call → ℕ × TokenBucket
  | .take n => ((b.take now n).1.1, (b.take now n).2)
  | .secondsUntil n => (0, (b.secondsUntil now n).2)

def after (b : TokenBucket) (calls : List (ℚ × Call)) : TokenBucket :=
  calls.foldl (fun b c => (b.call c.1 c.2).2) b

/-- What each call admits, with its time. -/
def admissions : TokenBucket → List (ℚ × Call) → List (ℚ × ℕ)
  | _, [] => []
  | b, c :: calls => (c.1, (b.call c.1 c.2).1) :: (b.call c.1 c.2).2.admissions calls

end TokenBucket

/-- The clock does not run back. -/
def Clocked : ℚ → List (ℚ × Call) → Prop
  | _, [] => True
  | last, c :: calls => last ≤ c.1 ∧ Clocked c.1 calls

/-- The events admitted from one time to another. -/
def admittedBetween (admissions : List (ℚ × ℕ)) (start stop : ℚ) : ℕ :=
  ((admissions.filter fun a => start ≤ a.1 ∧ a.1 ≤ stop).map Prod.snd).sum

namespace TokenBucket

variable {b : TokenBucket} {now : ℚ}

/-- A call admits no more than the tokens it takes. -/
theorem call_tokens (h : b.Level) (now : ℚ) (c : Call) :
    (b.call now c).2.tokens = (b.refill now).tokens - (b.call now c).1 := by
  cases c with
  | take n => exact take_tokens h now n
  | secondsUntil n =>
    have hcall : (b.call now (.secondsUntil n)).2 = b.refill now := by
      show (b.secondsUntil now n).2 = _
      rw [secondsUntil_of_rate h]
    have hnone : (b.call now (.secondsUntil n)).1 = 0 := rfl
    rw [hcall, hnone]
    simp

theorem call_level (h : b.Level) (hnow : b.last ≤ now) (c : Call) : (b.call now c).2.Level := by
  cases c with
  | take n => exact take_level h hnow n
  | secondsUntil n =>
    have hcall : (b.call now (.secondsUntil n)).2 = b.refill now := by
      show (b.secondsUntil now n).2 = _
      rw [secondsUntil_of_rate h]
    rw [hcall]
    exact refill_level h hnow

theorem call_frame (h : b.Level) (now : ℚ) (c : Call) : (b.call now c).2.rate = b.rate ∧
    (b.call now c).2.burst = b.burst ∧ (b.call now c).2.last = now := by
  cases c with
  | take n =>
    show (b.take now n).2.rate = _ ∧ (b.take now n).2.burst = _ ∧ (b.take now n).2.last = _
    rw [take_of_rate h]
    exact ⟨rfl, rfl, rfl⟩
  | secondsUntil n =>
    show (b.secondsUntil now n).2.rate = _ ∧ (b.secondsUntil now n).2.burst = _ ∧
      (b.secondsUntil now n).2.last = _
    rw [secondsUntil_of_rate h]
    exact ⟨rfl, rfl, rfl⟩

/-- Every call leaves a bucket between empty and full. -/
theorem after_level (h : b.Level) {calls : List (ℚ × Call)} (hclock : Clocked b.last calls) :
    (b.after calls).Level := by
  induction calls generalizing b with
  | nil => exact h
  | cons c calls ih =>
    obtain ⟨hnow, hrest⟩ := hclock
    obtain ⟨-, -, hlast⟩ := call_frame h c.1 c.2
    exact ih (call_level h hnow c.2) (by rw [hlast]; exact hrest)

theorem after_frame (h : b.Level) {calls : List (ℚ × Call)} (hclock : Clocked b.last calls) :
    (b.after calls).rate = b.rate ∧ (b.after calls).burst = b.burst := by
  induction calls generalizing b with
  | nil => exact ⟨rfl, rfl⟩
  | cons c calls ih =>
    obtain ⟨hnow, hrest⟩ := hclock
    obtain ⟨hrate, hburst, hlast⟩ := call_frame h c.1 c.2
    have hih := ih (call_level h hnow c.2) (by rw [hlast]; exact hrest)
    rw [hrate, hburst] at hih
    exact hih

theorem admittedBetween_cons (a : ℚ × ℕ) (admissions : List (ℚ × ℕ)) (start stop : ℚ) :
    admittedBetween (a :: admissions) start stop =
      (if start ≤ a.1 ∧ a.1 ≤ stop then a.2 else 0) + admittedBetween admissions start stop := by
  unfold admittedBetween
  rw [List.filter_cons]
  by_cases hin : start ≤ a.1 ∧ a.1 ≤ stop
  · simp [hin]
  · simp [hin]

/-- Behind the end of the window nothing counts. -/
theorem admittedBetween_late (b : TokenBucket) {calls : List (ℚ × Call)} {last stop : ℚ}
    (start : ℚ) (hclock : Clocked last calls) (hlate : stop < last) :
    admittedBetween (b.admissions calls) start stop = 0 := by
  induction calls generalizing b last with
  | nil => rfl
  | cons c calls ih =>
    obtain ⟨hnow, hrest⟩ := hclock
    have hout : ¬(start ≤ c.1 ∧ c.1 ≤ stop) := by
      rintro ⟨-, hle⟩
      linarith
    rw [admissions, admittedBetween_cons, if_neg hout, ih _ hrest (by linarith)]

/-- From here to the end of the window: the tokens at hand and those that flow in. -/
theorem admitted_le_of_last (h : b.Level) {calls : List (ℚ × Call)} {stop : ℚ} (start : ℚ)
    (hclock : Clocked b.last calls) (hstop : b.last ≤ stop) :
    (admittedBetween (b.admissions calls) start stop : ℚ) ≤
      b.tokens + b.rate * (stop - b.last) := by
  induction calls generalizing b with
  | nil =>
    have hflow : 0 ≤ b.rate * (stop - b.last) := mul_nonneg h.rate.le (by linarith)
    have hnone : admittedBetween (b.admissions []) start stop = 0 := rfl
    rw [hnone]
    have hpos := h.nonneg
    push_cast
    linarith
  | cons c calls ih =>
    obtain ⟨hnow, hrest⟩ := hclock
    obtain ⟨hrate, -, hlast⟩ := call_frame h c.1 c.2
    rw [admissions, admittedBetween_cons]
    by_cases hlate : stop < c.1
    · have hout : ¬(start ≤ c.1 ∧ c.1 ≤ stop) := by
        rintro ⟨-, hle⟩
        linarith
      have hnone := admittedBetween_late (b.call c.1 c.2).2 start hrest hlate
      rw [if_neg hout, hnone]
      have hflow : 0 ≤ b.rate * (stop - b.last) := mul_nonneg h.rate.le (by linarith)
      have hpos := h.nonneg
      push_cast
      linarith
    · have hih := ih (call_level h hnow c.2) (by rw [hlast]; exact hrest)
        (by rw [hlast]; exact not_lt.mp hlate)
      have htokens := call_tokens h c.1 c.2
      have hrefill := refill_tokens_le b c.1
      rw [hrate, hlast, htokens] at hih
      have hhead : ((if start ≤ c.1 ∧ c.1 ≤ stop then (b.call c.1 c.2).1 else 0 : ℕ) : ℚ) ≤
          ((b.call c.1 c.2).1 : ℚ) := by
        split
        · exact le_rfl
        · positivity
      push_cast at hhead ⊢
      linarith

/-- A window of any place and length: a full bucket and what flows in. -/
theorem admitted_le_window (h : b.Level) {calls : List (ℚ × Call)} {start stop : ℚ}
    (hclock : Clocked b.last calls) (hstop : start ≤ stop) :
    (admittedBetween (b.admissions calls) start stop : ℚ) ≤ b.burst + b.rate * (stop - start) := by
  have hflow : 0 ≤ b.rate * (stop - start) := mul_nonneg h.rate.le (by linarith)
  have hburst : (0 : ℚ) ≤ b.burst := by positivity
  induction calls generalizing b with
  | nil =>
    have hnone : admittedBetween (b.admissions []) start stop = 0 := rfl
    rw [hnone]
    push_cast
    linarith
  | cons c calls ih =>
    obtain ⟨hnow, hrest⟩ := hclock
    obtain ⟨hrate, hframe, hlast⟩ := call_frame h c.1 c.2
    have hlevel := call_level h hnow c.2
    have hclock' : Clocked (b.call c.1 c.2).2.last calls := by
      rw [hlast]
      exact hrest
    rw [admissions, admittedBetween_cons]
    by_cases hin : start ≤ c.1 ∧ c.1 ≤ stop
    · -- The first call inside the window finds at most a full bucket.
      have hfits : (b.call c.1 c.2).2.last ≤ stop := by
        rw [hlast]
        exact hin.2
      have hrest := admitted_le_of_last hlevel start hclock' hfits
      have htokens := call_tokens h c.1 c.2
      have hfull := (refill_level h hnow).le_burst
      rw [hrate, hlast, htokens] at hrest
      rw [refill_burst] at hfull
      have hshorter : b.rate * (stop - c.1) ≤ b.rate * (stop - start) :=
        mul_le_mul_of_nonneg_left (by linarith [hin.1]) h.rate.le
      rw [if_pos hin]
      push_cast
      linarith
    · have hih := ih hlevel hclock' (by rw [hrate]; exact hflow) (by rw [hframe]; exact hburst)
      rw [hrate, hframe] at hih
      rw [if_neg hin, Nat.zero_add]
      exact hih

end TokenBucket

/-! ## The pace of a backlog -/

/-- A poll that finds events: when it takes its tokens and when the pause after it is computed. -/
structure Poll where
  takeAt : ℚ
  events : ℕ
  sleepAt : ℚ

/-- The pause after a poll, and the bucket it leaves. -/
def Poll.pause (p : Poll) (interval : ℚ) (b : TokenBucket) : ℚ × TokenBucket :=
  nextSleep (b.take p.takeAt p.events).2 p.sleepAt (b.take p.takeAt p.events).1.2 interval

/-- Each poll comes no sooner than the pause before it allows. -/
def Paced (interval : ℚ) : TokenBucket → List Poll → Prop
  | _, [] => True
  | b, p :: polls => b.last ≤ p.takeAt ∧ p.takeAt ≤ p.sleepAt ∧
      (∀ q ∈ polls.head?, p.sleepAt + (p.pause interval b).1 ≤ q.takeAt) ∧
      Paced interval (p.pause interval b).2 polls

/-- Polls that find a backlog and no capacity for any of it. -/
def Starved (interval : ℚ) : TokenBucket → List Poll → Prop
  | _, [] => True
  | b, p :: polls => 0 < p.events ∧ (b.take p.takeAt p.events).1.1 = 0 ∧
      Starved interval (p.pause interval b).2 polls

namespace TokenBucket

variable {b : TokenBucket}

/-- A poll that admits nothing has found less than one token. -/
theorem tokens_lt_one (h : b.Level) {now : ℚ} {n : ℕ} (hn : 0 < n)
    (hnone : (b.take now n).1.1 = 0) : (b.refill now).tokens < 1 := by
  by_contra hmore
  have hone : ((1 : ℕ) : ℚ) ≤ (b.refill now).tokens := by
    push_cast
    exact not_lt.mp hmore
  have hfloor := le_toNat_floor hone
  rw [take_of_rate h] at hnone
  dsimp only at hnone
  omega

/-- The pause after a poll that admits nothing: the interval, or less once a token would be there
by then. -/
theorem pause_eq (h : b.Level) {p : Poll} {interval : ℚ} (hevents : 0 < p.events)
    (hnone : (b.take p.takeAt p.events).1.1 = 0) :
    p.pause interval b =
      (max 0 (min interval ((b.take p.takeAt p.events).2.secondsUntil p.sleepAt
        (min p.events b.burst)).1),
        (b.take p.takeAt p.events).2.refill p.sleepAt) := by
  have hsplit := take_split b p.takeAt p.events
  have hdeferred : (b.take p.takeAt p.events).1.2 = p.events := by omega
  have hburst : (b.take p.takeAt p.events).2.burst = b.burst := by
    rw [take_of_rate h]
    rfl
  have hrate : ¬(b.take p.takeAt p.events).2.rate ≤ 0 := by
    rw [take_of_rate h]
    exact not_le.mpr h.rate
  have hrefilled : ((b.take p.takeAt p.events).2.secondsUntil p.sleepAt
      (min p.events b.burst)).2 = (b.take p.takeAt p.events).2.refill p.sleepAt := by
    unfold secondsUntil
    rw [if_neg hrate]
  unfold Poll.pause nextSleep
  rw [hdeferred, hburst, if_neg (by omega)]
  exact Prod.ext rfl hrefilled

/-- A bucket short of a token is not full, so nothing that flowed in was cut off. -/
theorem refill_tokens_of_lt_one (h : b.Level) {now : ℚ} (hless : (b.refill now).tokens < 1) :
    (b.refill now).tokens = b.tokens + (now - b.last) * b.rate := by
  have hburst : (1 : ℚ) ≤ b.burst := by exact_mod_cast h.burst
  have hfull : ¬(b.burst : ℚ) ≤ b.tokens + (now - b.last) * b.rate := by
    intro hover
    have htokens : (b.refill now).tokens = b.burst := min_eq_left hover
    linarith
  exact min_eq_right (not_le.mp hfull).le

/-- The time from the first of the polls to the last. -/
def elapsed (p : Poll) (polls : List Poll) : ℚ := ((p :: polls).getLast (by simp)).takeAt - p.takeAt

theorem elapsed_cons (p q : Poll) (polls : List Poll) :
    elapsed p (q :: polls) = (q.takeAt - p.takeAt) + elapsed q polls := by
  unfold elapsed
  rw [List.getLast_cons (by simp)]
  ring

/-- While polls starve no token is lost, and every pause lasts for the interval. -/
theorem starved_tokens (h : b.Level) {interval : ℚ} {p : Poll} {polls : List Poll}
    (hpaced : Paced interval b (p :: polls)) (hstarved : Starved interval b (p :: polls)) :
    (b.refill p.takeAt).tokens + elapsed p polls * b.rate < 1 ∧
      polls.length * max 0 interval ≤ elapsed p polls := by
  induction polls generalizing b p with
  | nil =>
    obtain ⟨hevents, hnone, -⟩ := hstarved
    have hless := tokens_lt_one h hevents hnone
    have hzero : elapsed p [] = 0 := sub_self _
    rw [hzero]
    simpa using hless
  | cons q polls ih =>
    obtain ⟨htake, hsleep, hwait, hpaced⟩ := hpaced
    obtain ⟨hevents, hnone, hstarved⟩ := hstarved
    have hwait := hwait q (by simp)
    rw [pause_eq h hevents hnone] at hwait hpaced hstarved
    dsimp only at hwait hpaced hstarved
    have htaken := take_level h htake p.events
    have htokens := take_tokens h p.takeAt p.events
    obtain ⟨hrate, hburst, hlast⟩ := call_frame h p.takeAt (.take p.events)
    rw [hnone, Nat.cast_zero, sub_zero] at htokens
    change (b.take p.takeAt p.events).2.rate = b.rate at hrate
    change (b.take p.takeAt p.events).2.burst = b.burst at hburst
    change (b.take p.takeAt p.events).2.last = p.takeAt at hlast
    generalize (b.take p.takeAt p.events).2 = taken at *
    have hsleep' : taken.last ≤ p.sleepAt := by
      rw [hlast]
      exact hsleep
    have hrefilled := refill_level htaken hsleep'
    obtain ⟨hih, hpauses⟩ := ih hrefilled hpaced hstarved
    rw [refill_rate, hrate] at hih
    have hlater : 0 ≤ elapsed q polls :=
      (mul_nonneg (by positivity) (le_max_left _ _)).trans hpauses
    have hflow : 0 ≤ elapsed q polls * b.rate := mul_nonneg hlater h.rate.le
    have hless : ((taken.refill p.sleepAt).refill q.takeAt).tokens < 1 := by linarith
    have hnow : (taken.refill p.sleepAt).last ≤ q.takeAt := hpaced.1
    have hgrown := refill_tokens_of_lt_one hrefilled hless
    have hbefore := refill_tokens_of_lt_one htaken
      ((tokens_le_refill hrefilled hnow).trans_lt hless)
    rw [refill_last, refill_rate, hrate] at hgrown
    rw [hlast, hrate, htokens] at hbefore
    have hwaited : max 0 interval ≤ q.takeAt - p.sleepAt := by
      by_contra hshort
      -- The pause was cut at the time a token is there, and the next poll would have found it.
      have hcut : (taken.secondsUntil p.sleepAt (min p.events b.burst)).1 ≤ interval := by
        by_contra hlong
        rw [min_eq_left (not_le.mp hlong).le] at hwait
        linarith
      rw [min_eq_right hcut, max_eq_right (secondsUntil_nonneg htaken _ _)] at hwait
      have hwanted : min p.events b.burst ≤ taken.burst := by
        rw [hburst]
        exact Nat.min_le_right _ _
      have hthere := le_refill_secondsUntil htaken hsleep' hwanted hwait
      have hsame : (taken.secondsUntil p.sleepAt (min p.events b.burst)).2 =
          taken.refill p.sleepAt := by rw [secondsUntil_of_rate htaken]
      have hone : 1 ≤ min p.events b.burst := by
        have hfloor := h.burst
        omega
      have hone : ((1 : ℕ) : ℚ) ≤ ((min p.events b.burst : ℕ) : ℚ) := by exact_mod_cast hone
      rw [hsame] at hthere
      push_cast at hone hthere
      linarith
    rw [elapsed_cons, List.length_cons]
    constructor
    · linarith
    · push_cast
      linarith

end TokenBucket

/-! ## The limiter's promise -/

/-- What the limiter promises from a full bucket on, for a rate and a burst. -/
structure Promise (b : TokenBucket) : Prop where
  level : ∀ calls, Clocked b.last calls →
    0 ≤ (b.after calls).tokens ∧ (b.after calls).tokens ≤ b.burst
  window : ∀ calls start length, Clocked b.last calls → 0 ≤ length →
    (admittedBetween (b.admissions calls) start (start + length) : ℚ) ≤ b.burst + b.rate * length
  split : ∀ calls now n, ((b.after calls).take now n).1.1 + ((b.after calls).take now n).1.2 = n
  wait : ∀ calls now n, Clocked b.last (calls ++ [(now, .secondsUntil n)]) → n ≤ b.burst →
    ((b.after (calls ++ [(now, .secondsUntil n)])).take
      (now + ((b.after calls).secondsUntil now n).1) n).1 = (n, 0)
  pace : ∀ calls interval p polls, Clocked b.last calls →
    Paced interval (b.after calls) (p :: polls) → Starved interval (b.after calls) (p :: polls) →
      TokenBucket.elapsed p polls * b.rate < 1 ∧ polls.length * (interval * b.rate) < 1

theorem clocked_append {last : ℚ} {calls more : List (ℚ × Call)}
    (h : Clocked last (calls ++ more)) : Clocked last calls := by
  induction calls generalizing last with
  | nil => trivial
  | cons c calls ih => exact ⟨h.1, ih h.2⟩

/-- The last call of a clocked sequence finds the clock where it is or before it. -/
theorem last_after_le {b : TokenBucket} (h : b.Level) {calls : List (ℚ × Call)} {now : ℚ} {c : Call}
    (hclock : Clocked b.last (calls ++ [(now, c)])) : (b.after calls).last ≤ now := by
  induction calls generalizing b with
  | nil => exact hclock.1
  | cons d calls ih =>
    obtain ⟨hnow, hrest⟩ := hclock
    obtain ⟨-, -, hlast⟩ := TokenBucket.call_frame h d.1 d.2
    exact ih (TokenBucket.call_level h hnow d.2) (by rw [hlast]; exact hrest)

/-- Any positive rate and any burst: the bucket stays between empty and full, admits at most a full
bucket and the flow in any window, splits what it is asked for, keeps the time it tells, and starves
a backlog for less than the time one token takes. -/
theorem tokenBucket_promise (ratePerSec : ℚ) (hrate : 0 < ratePerSec) (burst : ℤ) (now : ℚ) :
    Promise (.new ratePerSec burst now) := by
  have hlevel := TokenBucket.new_level hrate burst now
  generalize TokenBucket.new ratePerSec burst now = b at hlevel
  refine ⟨?_, ?_, ?_, ?_, ?_⟩
  · intro calls hclock
    have hafter := TokenBucket.after_level hlevel hclock
    obtain ⟨-, hburst⟩ := TokenBucket.after_frame hlevel hclock
    have hfull := hafter.le_burst
    rw [hburst] at hfull
    exact ⟨hafter.nonneg, hfull⟩
  · intro calls start length hclock hlength
    have hwindow := TokenBucket.admitted_le_window hlevel hclock
      (by linarith : start ≤ start + length)
    have hspan : start + length - start = length := by ring
    rw [hspan] at hwindow
    exact hwindow
  · exact fun calls now n => TokenBucket.take_split _ now n
  · intro calls now n hclock hn
    have hcalls := clocked_append hclock
    have hafter := TokenBucket.after_level hlevel hcalls
    have hnow := last_after_le hlevel hclock
    obtain ⟨-, hburst⟩ := TokenBucket.after_frame hlevel hcalls
    have hsplit : b.after (calls ++ [(now, .secondsUntil n)]) =
        ((b.after calls).secondsUntil now n).2 := by
      unfold TokenBucket.after
      rw [List.foldl_append]
      rfl
    have hwanted : n ≤ (b.after calls).burst := by
      rw [hburst]
      exact hn
    have hthere := TokenBucket.le_refill_secondsUntil hafter hnow hwanted le_rfl
    rw [hsplit]
    exact TokenBucket.take_all (TokenBucket.call_level hafter hnow (.secondsUntil n)) hthere
  · intro calls interval p polls hclock hpaced hstarved
    have hafter := TokenBucket.after_level hlevel hclock
    obtain ⟨hsame, -⟩ := TokenBucket.after_frame hlevel hclock
    obtain ⟨htokens, hpauses⟩ := TokenBucket.starved_tokens hafter hpaced hstarved
    have hfilled := (TokenBucket.refill_level hafter hpaced.1).nonneg
    rw [hsame] at htokens
    have htime : TokenBucket.elapsed p polls * b.rate < 1 := by linarith
    have hinterval : (polls.length : ℚ) * interval ≤ polls.length * max 0 interval :=
      mul_le_mul_of_nonneg_left (le_max_right _ _) (by positivity)
    have hscaled := mul_le_mul_of_nonneg_right (hinterval.trans hpauses) hlevel.rate.le
    refine ⟨htime, ?_⟩
    linarith

/-- The default limiter: one event a second and thirty at once. -/
theorem tokenBucket_promise_default : Promise (.new 1 30 0) :=
  tokenBucket_promise 1 one_pos 30 0

example : ((TokenBucket.new 1 30 0).take 0 100).1 = (30, 70) := by decide +kernel

end SocTalk.Adapter
