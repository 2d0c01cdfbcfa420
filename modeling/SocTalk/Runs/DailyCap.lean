import SocTalk.Lib.Transition
import SocTalk.Runs.Endpoints

/-! The daily ceiling at a claim: what the tenant has spent and what its leased runs may still spend,
read one after the other under the tenant's claim lock. -/
namespace SocTalk.Runs.DailyCap
open ReadCommitted Transition

/-! ## The figures -/

/-- The sum of two doubles; zero changes none. -/
def floatAdd (a b : ℚ) : ℚ := if b = 0 then a else nearest (a + b)

def sumDollars (xs : List ℚ) : ℚ := xs.foldl floatAdd 0

structure DatedRow extends LedgerRow where
  occurredAt : Time

structure ChatMessage where
  tokensIn : Option ℕ := none
  tokensOut : Option ℕ := none
  dollars : Option ℚ := none
  dollarsUnpriced : Option ℚ := none
  createdAt : Time

structure DailyCaps where
  tokens : ℤ
  dollars : ℚ

/-- What the install defaults and the tenant's policy resolve to. -/
structure Policy where
  caps : DailyCaps
  costTracking : Bool := true
  zone : String := "UTC"

/-- The committed rows of the tenant. -/
structure Books where
  runs : RunId → Option RunRow
  runIds : List RunId
  investigations : InvestigationId → Option InvestigationRow
  ledger : List DatedRow := []
  chat : List ChatMessage := []
  policy : Policy

def Books.tables (b : Books) : Tables :=
  ⟨b.runs, b.runIds, b.investigations, b.ledger.map (·.toLedgerRow), []⟩

structure TenantDailySpend where
  tokens : ℤ
  dollars : ℚ
  deriving DecidableEq

/-- Today's ledger and chat rows, the dollars of unknown price left out. `dayStart` is the
midnight before a time in a zone. -/
def getTenantDailySpend (dayStart : String → Time → Time) (b : Books) (zone : String) (now : Time) :
    TenantDailySpend :=
  let ledger := b.ledger.filter fun r => dayStart zone now ≤ r.occurredAt
  let chat := b.chat.filter fun m => dayStart zone now ≤ m.createdAt
  { tokens := (ledger.map (·.tokensDelta)).sum +
      (chat.map fun m => ((m.tokensIn.getD 0 + m.tokensOut.getD 0 : ℕ) : ℤ)).sum
    dollars := sumDollars
      (ledger.map (fun r => if r.priceSource = some "unknown" then 0 else r.dollarsDelta) ++
        chat.map fun m => max (floatSub (m.dollars.getD 0) (m.dollarsUnpriced.getD 0)) 0) }

/-- `claimed_by` is written and cleared together with `claimed_at`. -/
def leased (now : Time) (row : RunRow) : Bool :=
  row.status == .active && row.claimedAt.isSome && row.leaseExpiresAt.any (now < ·)

def leasedRuns (b : Books) (now : Time) : List (RunId × RunRow) :=
  b.runIds.filterMap fun id => ((b.runs id).filter (leased now)).map (id, ·)

/-- What enforcement compares with the budget. -/
def enforceableUsed (b : Books) (id : RunId) (row : RunRow) : ℚ :=
  max (floatSub row.dollarsUsed (unpricedLedgered b.tables id)) 0

/-- The tokens and dollars that the leased runs may still spend. -/
def reservedHeadroom (b : Books) (now : Time) : ℤ × ℚ :=
  (((leasedRuns b now).map fun r => ((r.2.tokensBudget - r.2.tokensUsed : ℕ) : ℤ)).sum,
    sumDollars ((leasedRuns b now).map fun r =>
      max (floatSub r.2.dollarsBudget (enforceableUsed b r.1 r.2)) 0))

/-- `assert_tenant_daily_cap_ok` on what has been read. -/
def dailyCapOk (spend : TenantDailySpend) (caps : DailyCaps) (costTracking : Bool)
    (reserved : ℤ × ℚ) : Bool :=
  let capHit := decide (caps.tokens ≤ spend.tokens) ||
    costTracking && decide (caps.dollars ≤ spend.dollars)
  let overReserved := (reserved.1 ≠ 0 || reserved.2 ≠ 0) &&
    (decide (caps.tokens ≤ spend.tokens + reserved.1) ||
      costTracking && decide (caps.dollars ≤ floatAdd spend.dollars reserved.2))
  !(capHit || overReserved)

theorem lt_of_dailyCapOk {spend : TenantDailySpend} {caps : DailyCaps} {costTracking : Bool}
    {reserved : ℤ × ℚ} (h : dailyCapOk spend caps costTracking reserved = true) :
    spend.tokens + reserved.1 < caps.tokens ∧
      (costTracking = true → floatAdd spend.dollars reserved.2 < caps.dollars) := by
  unfold dailyCapOk at h
  simp only [Bool.not_eq_true', Bool.or_eq_false_iff, Bool.and_eq_false_iff, decide_eq_false_iff_not,
    not_le, ne_eq, decide_not, Bool.not_eq_false', decide_eq_true_eq] at h
  obtain ⟨⟨htokens, hdollars⟩, hzero | ⟨htokens', hdollars'⟩⟩ := h
  · obtain ⟨h1, h2⟩ := hzero
    rw [h1, h2, add_zero]
    refine ⟨htokens, fun ht => ?_⟩
    rcases hdollars with hoff | hlt
    · rw [ht] at hoff
      cases hoff
    · exact hlt
  · refine ⟨htokens', fun ht => ?_⟩
    rcases hdollars' with hoff | hlt
    · rw [ht] at hoff
      cases hoff
    · exact hlt

/-! ## Claims, statement by statement -/

/-- What a claim decides on. -/
structure Check where
  now : Time
  costTracking : Bool
  zone : String
  spend : TenantDailySpend
  caps : DailyCaps

/-- Where a claim's transaction stands; `now` is its timestamp, from before the lock. -/
inductive Phase where
  | idle
  | waiting (now : Time)
  | locked (now : Time)
  | tracked (now : Time) (costTracking : Bool)
  | zoned (now : Time) (costTracking : Bool) (zone : String)
  | spent (now : Time) (costTracking : Bool) (zone : String) (spend : TenantDailySpend)
  | capped (check : Check)
  | admitted (now : Time)
  | leased
  | denied

/-- The transaction is behind the lock and has not ended. -/
def Phase.inside : Phase → Bool
  | .idle | .waiting _ => false
  | _ => true

/-- A lease that a claim writes. -/
structure Grant where
  session : ℕ
  run : RunId
  now : Time
  expiresAt : Time

def Books.grant (b : Books) (g : Grant) : Books :=
  { b with
    runs := Function.update b.runs g.run ((b.runs g.run).map fun row =>
      { row with claimedAt := some g.now, leaseId := some g.session
                 leaseExpiresAt := some g.expiresAt }) }

/-- An admitted claim, with the rows at its decision, every lease granted by then among them. -/
structure Admission where
  check : Check
  books : Books

structure State where
  books : Books
  claims : ℕ → Phase := fun _ => .idle
  /-- The claim that holds the tenant's advisory lock. -/
  holder : Option ℕ := none
  /-- Leases not committed yet. -/
  grants : List Grant := []
  admissions : List Admission := []

def State.granted (s : State) : Books := s.grants.foldl Books.grant s.books

def State.move (s : State) (i : ℕ) (p : Phase) : State :=
  { s with claims := Function.update s.claims i p }

/-- The transaction ends and releases its lock. -/
def State.close (s : State) (i : ℕ) : State :=
  { s.move i .idle with
    holder := if s.holder = some i then none else s.holder
    grants := s.grants.filter fun g => g.session ≠ i }

inductive Op where
  | begin (i : ℕ) (now : Time)
  | lock (i : ℕ)
  | readTracking (i : ℕ)
  | readZone (i : ℕ)
  | readSpend (i : ℕ)
  | readCaps (i : ℕ)
  | decide (i : ℕ)
  | lease (i : ℕ) (wall : Time) (locked : Resource → Bool)
  | commit (i : ℕ)
  /-- A failed statement or a crash: the transaction can only be rolled back, so the fallback of
  `reserved_headroom` leases nothing. -/
  | abort (i : ℕ)
  /-- Any other transaction commits: a report, a chat turn, a release, a policy. -/
  | other (books : Books)

section

variable (dayStart : String → Time → Time)

def step (s : State) : Op → State
  | .begin i now => match s.claims i with
    | .idle => s.move i (.waiting now)
    | _ => s
  | .lock i => match s.claims i, s.holder with
    | .waiting now, none => { s.move i (.locked now) with holder := some i }
    | _, _ => s
  | .readTracking i => match s.claims i with
    | .locked now => s.move i (.tracked now s.books.policy.costTracking)
    | _ => s
  | .readZone i => match s.claims i with
    | .tracked now costTracking => s.move i (.zoned now costTracking s.books.policy.zone)
    | _ => s
  | .readSpend i => match s.claims i with
    | .zoned now costTracking zone =>
      s.move i (.spent now costTracking zone (getTenantDailySpend dayStart s.books zone now))
    | _ => s
  | .readCaps i => match s.claims i with
    | .spent now costTracking zone spend =>
      s.move i (.capped ⟨now, costTracking, zone, spend, s.books.policy.caps⟩)
    | _ => s
  | .decide i => match s.claims i with
    | .capped c =>
      if dailyCapOk c.spend c.caps c.costTracking (reservedHeadroom s.books c.now) then
        { s.move i (.admitted c.now) with admissions := s.admissions ++ [⟨c, s.granted⟩] }
      else s.move i .denied
    | _ => s
  | .lease i wall locked => match s.claims i with
    | .admitted now => match claimChoice ⟨s.books.tables, locked⟩ now with
      | some run => { s.move i .leased with
          grants := s.grants ++ [⟨i, run, now, wall + leaseTtlSeconds⟩] }
      | none => s
    | _ => s
  | .commit i => match s.claims i with
    | .admitted _ | .leased | .denied =>
      { s.close i with
        books := (s.grants.filter fun g => g.session = i).foldl Books.grant s.books }
    | _ => s
  | .abort i => s.close i
  | .other books => { s with books }

/-- Spend and reservations at the decision stay below the ceiling; dollars where they are
tracked. -/
def Admission.UnderCap (a : Admission) : Prop :=
  let spend := getTenantDailySpend dayStart a.books a.check.zone a.check.now
  let reserved := reservedHeadroom a.books a.check.now
  spend.tokens + reserved.1 < a.check.caps.tokens ∧
    (a.check.costTracking = true → floatAdd spend.dollars reserved.2 < a.check.caps.dollars)

/-- When a claim reads the reservations, the spend that it has read is still the spend. -/
def SpendStill (s : State) : Op → Prop
  | .decide i => ∀ c, s.claims i = .capped c →
    let spend := getTenantDailySpend dayStart s.books c.zone c.now
    spend.tokens = c.spend.tokens ∧ (c.costTracking = true → spend.dollars = c.spend.dollars)
  | _ => True

end

/-! ## The lock -/

structure Inv (dayStart : String → Time → Time) (s : State) : Prop where
  locked : ∀ i, (s.claims i).inside = true → s.holder = some i
  grants : ∀ g ∈ s.grants, s.claims g.session = .leased
  admissions : ∀ a ∈ s.admissions, a.UnderCap dayStart

section

variable {dayStart : String → Time → Time} {s s' : State} {i : ℕ}

@[simp] theorem move_claims (s : State) (i : ℕ) (p : Phase) : (s.move i p).claims i = p :=
  Function.update_self ..

theorem move_claims_of_ne (s : State) {i j : ℕ} (p : Phase) (h : j ≠ i) :
    (s.move i p).claims j = s.claims j :=
  Function.update_of_ne h ..

/-- A statement of a claim behind the lock that writes nothing. -/
theorem Inv.move (h : Inv dayStart s) {p : Phase} (hin : (s.claims i).inside = true)
    (hnot : s.claims i ≠ .leased) : Inv dayStart (s.move i p) := by
  constructor
  · intro j hj
    by_cases hji : j = i
    · rw [hji]
      exact h.locked i hin
    · rw [move_claims_of_ne s p hji] at hj
      exact h.locked j hj
  · intro g hg
    have hold := h.grants g hg
    have hne : g.session ≠ i := by
      intro heq
      rw [heq] at hold
      exact hnot hold
    rw [move_claims_of_ne s p hne]
    exact hold
  · exact h.admissions

/-- Behind the lock no other claim has leases in flight. -/
theorem Inv.grants_eq_nil (h : Inv dayStart s) (hin : (s.claims i).inside = true)
    (hnot : s.claims i ≠ .leased) : s.grants = [] := by
  refine List.eq_nil_iff_forall_not_mem.mpr fun g hg => ?_
  have hleased := h.grants g hg
  have hholder : s.holder = some g.session := by
    apply h.locked
    rw [hleased]
    rfl
  have hsame : g.session = i := Option.some.inj (hholder.symm.trans (h.locked i hin))
  rw [hsame] at hleased
  exact hnot hleased

theorem Inv.close (h : Inv dayStart s) (i : ℕ) : Inv dayStart (s.close i) := by
  constructor
  · intro j hj
    have hne : j ≠ i := by
      intro heq
      rw [heq] at hj
      have hidle : (s.close i).claims i = .idle := move_claims s i .idle
      rw [hidle] at hj
      cases hj
    have hsame : (s.close i).claims j = s.claims j := move_claims_of_ne s .idle hne
    rw [hsame] at hj
    have hholder := h.locked j hj
    show (if s.holder = some i then none else s.holder) = some j
    rw [hholder, if_neg]
    intro heq
    exact hne (Option.some.inj heq)
  · intro g hg
    obtain ⟨hmem, hne⟩ := List.mem_filter.mp hg
    have hne : g.session ≠ i := by simpa using hne
    have hsame : (s.close i).claims g.session = s.claims g.session :=
      move_claims_of_ne s .idle hne
    rw [hsame]
    exact h.grants g hmem
  · exact h.admissions

/-- A claim that has not passed the lock moves on. -/
theorem Inv.begin (h : Inv dayStart s) {now : Time} (hidle : s.claims i = .idle) :
    Inv dayStart (s.move i (.waiting now)) := by
  constructor
  · intro j hj
    by_cases hji : j = i
    · rw [hji, move_claims] at hj
      cases hj
    · rw [move_claims_of_ne s _ hji] at hj
      exact h.locked j hj
  · intro g hg
    have hold := h.grants g hg
    have hne : g.session ≠ i := by
      intro heq
      rw [heq, hidle] at hold
      cases hold
    rw [move_claims_of_ne s _ hne]
    exact hold
  · exact h.admissions

theorem Inv.lock (h : Inv dayStart s) {now : Time} (hfree : s.holder = none) :
    Inv dayStart { s.move i (.locked now) with holder := some i } := by
  have hnone : ∀ j, (s.claims j).inside = false := by
    intro j
    by_contra hin
    have hholder := h.locked j (by simpa using hin)
    rw [hfree] at hholder
    cases hholder
  constructor
  · intro j hj
    by_cases hji : j = i
    · rw [hji]
    · have hsame : (s.move i (.locked now)).claims j = s.claims j := move_claims_of_ne s _ hji
      rw [show ({ s.move i (.locked now) with holder := some i } : State).claims j = s.claims j from
        hsame, hnone j] at hj
      cases hj
  · intro g hg
    have hold := h.grants g hg
    have hin := hnone g.session
    rw [hold] at hin
    cases hin
  · exact h.admissions

/-- An admission on the spend as it is counts everything that is granted. -/
theorem Inv.decide (h : Inv dayStart s) {c : Check} (hcapped : s.claims i = .capped c)
    (hstill : SpendStill dayStart s (.decide i))
    (hok : dailyCapOk c.spend c.caps c.costTracking (reservedHeadroom s.books c.now) = true) :
    (⟨c, s.granted⟩ : Admission).UnderCap dayStart := by
  have hnone : s.grants = [] := h.grants_eq_nil (by rw [hcapped]; rfl) (by rw [hcapped]; nofun)
  have hgranted : s.granted = s.books := by
    unfold State.granted
    rw [hnone]
    rfl
  obtain ⟨htokens, hdollars⟩ := hstill c hcapped
  obtain ⟨hlt, hlt'⟩ := lt_of_dailyCapOk hok
  unfold Admission.UnderCap
  rw [hgranted]
  constructor
  · rw [htokens]
    exact hlt
  · intro ht
    rw [hdollars ht]
    exact hlt' ht

theorem Inv.step (h : Inv dayStart s) (op : Op) (hstill : SpendStill dayStart s op) :
    Inv dayStart (step dayStart s op) := by
  cases op with
  | begin i now =>
    unfold DailyCap.step
    dsimp only
    split
    · exact h.begin ‹_›
    · exact h
  | lock i =>
    unfold DailyCap.step
    dsimp only
    split
    · exact h.lock ‹_›
    · exact h
  | readTracking i | readZone i | readSpend i | readCaps i =>
    unfold DailyCap.step
    dsimp only
    split
    · rename_i hphase
      exact h.move (by rw [hphase]; rfl) (by rw [hphase]; nofun)
    · exact h
  | decide i =>
    unfold DailyCap.step
    dsimp only
    split
    · rename_i c hphase
      split
      · rename_i hok
        have hmove : Inv dayStart (s.move i (.admitted c.now)) :=
          h.move (by rw [hphase]; rfl) (by rw [hphase]; nofun)
        refine ⟨hmove.locked, hmove.grants, fun a ha => ?_⟩
        rcases List.mem_append.mp ha with ha | ha
        · exact h.admissions a ha
        · obtain rfl := List.mem_singleton.mp ha
          exact h.decide hphase hstill hok
      · exact h.move (by rw [hphase]; rfl) (by rw [hphase]; nofun)
    · exact h
  | lease i wall locked =>
    unfold DailyCap.step
    dsimp only
    split
    · rename_i now hphase
      split
      · rename_i run hrun
        have hmove : Inv dayStart (s.move i .leased) :=
          h.move (by rw [hphase]; rfl) (by rw [hphase]; nofun)
        refine ⟨hmove.locked, fun g hg => ?_, h.admissions⟩
        rcases List.mem_append.mp hg with hg | hg
        · exact hmove.grants g hg
        · obtain rfl := List.mem_singleton.mp hg
          exact move_claims s i .leased
      · exact h
    · exact h
  | commit i =>
    have hclose := h.close i
    unfold DailyCap.step
    dsimp only
    split
    · exact ⟨hclose.locked, hclose.grants, h.admissions⟩
    · exact ⟨hclose.locked, hclose.grants, h.admissions⟩
    · exact ⟨hclose.locked, hclose.grants, h.admissions⟩
    · exact h
  | abort i => exact h.close i
  | other books => exact ⟨h.locked, h.grants, h.admissions⟩

/-- However claims interleave with whatever else commits, every claim was admitted below the
ceiling, if the spend that it read was still the spend when it read the reservations. -/
theorem admissions_under_cap (books : Books)
    (hrun : Run (step dayStart) (SpendStill dayStart) { books } s) :
    ∀ a ∈ s.admissions, a.UnderCap dayStart := by
  have hstart : Inv dayStart { books } := by
    constructor
    · exact fun i hi => by cases hi
    · exact fun g hg => by cases hg
    · exact fun a ha => by cases ha
  have hinv : Inv dayStart s := hrun.inv (fun _ op hinv hstill => hinv.step op hstill) hstart
  exact hinv.admissions

end

/-- A heartbeat's commit. -/
def Books.heartbeat (b : Books) (run : RunId) (usage : Usage) (now wall : Time) : Books :=
  match b.runs run with
  | some row =>
    let prev : Totals := ⟨row.tokensUsed, row.dollarsUsed, unpricedLedgered b.tables run⟩
    { b with
      ledger := b.ledger ++ (ledgerRows run usage prev).map fun r => { r with occurredAt := now }
      runs := Function.update b.runs run
        (some { row.withTotals usage with leaseExpiresAt := some (wall + leaseTtlSeconds) }) }
  | none => b

/-- Of two runs of a hundred tokens each, one is leased and has used forty, under a ceiling of a
hundred. -/
def oneLeased : Books where
  runs := fun
    | 0 => some { investigation := 0, startedAt := 0, notBefore := 0, claimedAt := some 0,
                  leaseId := some 0, leaseExpiresAt := some 60, tokensUsed := 40,
                  tokensBudget := 100 }
    | 1 => some { investigation := 1, startedAt := 0, notBefore := 0, tokensBudget := 100 }
    | _ => none
  runIds := [0, 1]
  investigations := fun _ => some { severity := 5 }
  ledger := [⟨⟨0, 40, 0, none, none⟩, 5⟩]
  policy := { caps := ⟨100, 50⟩, costTracking := false }

/-- The reads of one claim up to its decision, with what commits before the last of them. -/
def claimAt (i : ℕ) (now : Time) (between : List Op) : List Op :=
  [.begin i now, .lock i, .readTracking i, .readZone i, .readSpend i, .readCaps i] ++ between ++
    [.decide i]

/-- The lease has expired: one claim takes the run again, and a second one finds it counted. -/
def burst : List Op :=
  claimAt 1 100 [] ++ [.lease 1 100 fun _ => false, .commit 1] ++ claimAt 2 101 []

theorem admissions_under_cap_burst :
    (burst.foldl (step fun _ _ => 0) { books := oneLeased }).admissions.length = 1 ∧
      ∀ a ∈ (burst.foldl (step fun _ _ => 0) { books := oneLeased }).admissions,
        a.UnderCap fun _ _ => 0 := by
  refine ⟨rfl, admissions_under_cap oneLeased (Run.of_admits ?_)⟩
  refine ⟨trivial, trivial, trivial, trivial, trivial, trivial, ?_, trivial, trivial, trivial,
    trivial, trivial, trivial, trivial, trivial, ?_, trivial⟩
  · intro c hc
    cases hc
    refine ⟨by decide, fun ht => ?_⟩
    cases ht
  · intro c hc
    cases hc
    refine ⟨by decide, fun ht => ?_⟩
    cases ht

/-- A report lands between the two sums, and neither counts it. -/
def reported : List Op := claimAt 1 10 [.other (oneLeased.heartbeat 0 { tokens := 70 } 11 11)]

/-- Without the condition a claim is admitted with nothing left under the ceiling. -/
theorem not_under_cap_reported :
    ¬∀ (dayStart : String → Time → Time) (books : Books) (s : State),
      Run (step dayStart) (fun _ _ => True) { books } s →
        ∀ a ∈ s.admissions, a.UnderCap dayStart := by
  intro h
  have hadmits : Admits (step fun _ _ => 0) (fun _ _ => True) { books := oneLeased } reported :=
    ⟨trivial, trivial, trivial, trivial, trivial, trivial, trivial, trivial, trivial⟩
  have hall := h (fun _ _ => 0) oneLeased _ (Run.of_admits hadmits)
  obtain ⟨hlt, -⟩ := hall _ (List.mem_singleton.mpr rfl)
  revert hlt
  decide

end SocTalk.Runs.DailyCap
