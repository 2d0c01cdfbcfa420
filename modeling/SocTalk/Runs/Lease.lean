import SocTalk.Runs.Rules

/-! Lease safety: what a completion does commits once per claimed activation, and only
under the lease the run currently carries. -/
namespace SocTalk.Runs
open ReadCommitted

/-- The run and lease a worker request is made under. -/
def Request.presents : Request → Option (RunId × LeaseId)
  | .heartbeat run lease _ _ => some (run, lease)
  | .release run lease _ _ => some (run, lease)
  | .complete run lease _ _ _ => some (run, lease)
  | _ => none

def Request.completes : Request → Option (RunId × LeaseId)
  | .complete run lease _ _ _ => some (run, lease)
  | _ => none

def Request.isPromote : Request → Bool
  | .promote _ _ _ => true
  | _ => false

/-- No row and no effect carries the lease. -/
def LeaseFree (l : LeaseId) (t : Tables) : Prop :=
  (∀ id row, t.runs id = some row → row.leaseId ≠ some l) ∧ ∀ e ∈ t.effects, e.lease ≠ l

def endedLeases (effects : List Effect) : List LeaseId :=
  (effects.filter (·.kind == .ended)).map (·.lease)

/-- A lease is on one run at most, a completed lease on none, and no lease is completed twice.
Leases not minted yet are nowhere. -/
structure LeaseInv (n : ℕ) (t : Tables) : Prop where
  fresh : ∀ l, n ≤ l → LeaseFree l t
  spent : ∀ e ∈ t.effects, ∀ id row, t.runs id = some row → row.leaseId ≠ some e.lease
  unique : ∀ id id' row row' l, t.runs id = some row → t.runs id' = some row' →
    row.leaseId = some l → row'.leaseId = some l → id = id'
  once : (endedLeases t.effects).Nodup

/-- What the commit of session `i` does to the tables. -/
structure CommitLaw (i : ℕ) (req : Request) (t t' : Tables) : Prop where
  minted : ∀ id row l, t'.runs id = some row → row.leaseId = some l →
    l = i ∨ ∃ old, t.runs id = some old ∧ old.leaseId = some l
  held : ∀ run lease, req.presents = some (run, lease) → (heldRow t run lease).isSome = true
  completes : ∀ run lease, req.completes = some (run, lease) → ∃ new, new ≠ [] ∧
    t'.effects = t.effects ++ new ∧ (∀ e ∈ new, e.run = run ∧ e.lease = lease) ∧
    ∀ e ∈ t.effects, e.lease ≠ lease
  others : req.completes = none → t'.effects = t.effects ∧
    (∀ c row row', t.investigations c = some row → t'.investigations c = some row' →
      row'.status = row.status ∧ row'.severity = row.severity) ∧
    (req.isPromote = false → ∀ id, t.runs id = none → t'.runs id = none)

def leaseOutline : Outline Tables Unit Request where
  inv n sh := LeaseInv n sh.db
  rely i sh sh' := LeaseFree i sh.db → LeaseFree i sh'.db
  commits i req sh sh' := CommitLaw i req sh.db sh'.db
  calls _ _ _ _ := True
  inv_open n sh h := ⟨fun l hl => h.fresh l (by omega), h.spent, h.unique, h.once⟩
  rely_refl _ _ h := h
  rely_trans _ _ _ _ h h' hl := h' (h hl)

/-! ## Commits and leases -/

/-- The row written carries no lease, or the lease its run already had. -/
def KeepsLease (t : Tables) (w : Write) : Prop :=
  ∀ id row, w.runRow? = some (id, row) →
    row.leaseId = none ∨ ∃ old, t.runs id = some old ∧ row.leaseId = old.leaseId

theorem lease_applyAll {ws : List Write} {t : Tables} (h : ∀ w ∈ ws, KeepsLease t w)
    {id : RunId} {row : RunRow} {l : LeaseId} (hr : (store.applyAll ws t).runs id = some row)
    (hl : row.leaseId = some l) : ∃ old, t.runs id = some old ∧ old.leaseId = some l := by
  rcases runs_applyAll ws t id with ⟨w, hw, row', hrow, heq⟩ | ⟨-, heq⟩
  · obtain rfl := Option.some.inj (heq.symm.trans hr)
    rcases h w hw id row' hrow with hnone | ⟨old, hold, hsame⟩
    · rw [hnone] at hl
      cases hl
    · exact ⟨old, hold, hsame ▸ hl⟩
  · exact ⟨row, heq ▸ hr, hl⟩

/-- Writes that mint no lease keep the invariant, as long as the leases of their effects are
taken off the rows they were on. -/
theorem LeaseInv.commit {n : ℕ} {t : Tables} {ws : List Write} (hinv : LeaseInv n t)
    (hk : ∀ w ∈ ws, KeepsLease t w)
    (hheld : ∀ e ∈ ws.filterMap Write.effect?, ∃ id row, t.runs id = some row ∧
      row.leaseId = some e.lease)
    (hspent : ∀ e ∈ ws.filterMap Write.effect?, ∀ id row,
      (store.applyAll ws t).runs id = some row → row.leaseId ≠ some e.lease)
    (honce : (endedLeases (ws.filterMap Write.effect?)).Nodup) :
    LeaseInv n (store.applyAll ws t) ∧
      ∀ j, LeaseFree j t → LeaseFree j (store.applyAll ws t) := by
  have hrely : ∀ j, LeaseFree j t → LeaseFree j (store.applyAll ws t) := by
    rintro j ⟨hrows, heffects⟩
    refine ⟨fun id row hr hl => ?_, fun e he => ?_⟩
    · obtain ⟨old, hold, hol⟩ := lease_applyAll hk hr hl
      exact hrows id old hold hol
    · rw [effects_applyAll] at he
      rcases List.mem_append.mp he with he | he
      · exact heffects e he
      · obtain ⟨id, row, hr, hl⟩ := hheld e he
        intro hej
        exact hrows id row hr (hej ▸ hl)
  refine ⟨⟨fun l hl => hrely l (hinv.fresh l hl), ?_, ?_, ?_⟩, hrely⟩
  · intro e he id row hr hl
    rw [effects_applyAll] at he
    rcases List.mem_append.mp he with he | he
    · obtain ⟨old, hold, hol⟩ := lease_applyAll hk hr hl
      exact hinv.spent e he id old hold hol
    · exact hspent e he id row hr hl
  · intro id id' row row' l hr hr' hl hl'
    obtain ⟨old, hold, hol⟩ := lease_applyAll hk hr hl
    obtain ⟨old', hold', hol'⟩ := lease_applyAll hk hr' hl'
    exact hinv.unique id id' old old' l hold hold' hol hol'
  · rw [effects_applyAll]
    unfold endedLeases
    rw [List.filter_append, List.map_append, List.nodup_append]
    refine ⟨hinv.once, honce, ?_⟩
    intro l hl l' hl' heq
    obtain ⟨e, he, rfl⟩ := List.mem_map.mp hl
    obtain ⟨e', he', rfl⟩ := List.mem_map.mp hl'
    obtain ⟨id, row, hr, hrl⟩ := hheld e' (List.mem_filter.mp he').1
    exact hinv.spent e (List.mem_filter.mp he).1 id row hr (heq ▸ hrl)

/-- A row keeps its lease or loses it. -/
def LeaseKept (old row : RunRow) : Prop := row.leaseId = none ∨ row.leaseId = old.leaseId

/-- An investigation keeps its verdict. -/
def VerdictKept (old row : InvestigationRow) : Prop :=
  row.status = old.status ∧ row.severity = old.severity

/-- A write no request but a completion makes anything worse with: no effect, no verdict
on an investigation, no new lease. -/
def QuietWrite (t : Tables) : Write → Prop
  | .setRun id row => ∃ old, t.runs id = some old ∧ LeaseKept old row
  | .insertRun _ row => row.leaseId = none
  | .setInvestigation c row => ∀ old, t.investigations c = some old → VerdictKept old row
  | .insertEffect _ => False
  | _ => True

theorem QuietWrite.keepsLease {t : Tables} {w : Write} (h : QuietWrite t w) : KeepsLease t w := by
  intro id row hw
  cases w with
  | setRun id' row' =>
    obtain ⟨rfl, rfl⟩ : id' = id ∧ row' = row := by simpa [Write.runRow?] using hw
    obtain ⟨old, hold, hnone | hsame⟩ := h
    · exact Or.inl hnone
    · exact Or.inr ⟨old, hold, hsame⟩
  | insertRun id' row' =>
    obtain ⟨rfl, rfl⟩ : id' = id ∧ row' = row := by simpa [Write.runRow?] using hw
    exact Or.inl h
  | _ => cases hw

theorem effects_of_quiet {t : Tables} {ws : List Write} (h : ∀ w ∈ ws, QuietWrite t w) :
    ws.filterMap Write.effect? = [] := by
  rw [List.filterMap_eq_nil_iff]
  intro w hw
  have hq := h w hw
  cases w with
  | insertEffect e => exact hq.elim
  | _ => rfl

/-- The commit of a request that completes nothing. -/
theorem quiet_commit {i n : ℕ} {req : Request} {sh : Shared Tables Unit} {ws : List Write}
    (hinv : LeaseInv n sh.db) (hq : ∀ w ∈ ws, QuietWrite sh.db w)
    (hcompletes : req.completes = none)
    (hheld : ∀ run lease, req.presents = some (run, lease) →
      (heldRow sh.db run lease).isSome = true)
    (hpromote : req.isPromote = false → ∀ w ∈ ws, w.insertedRun? = none) :
    Guarantees leaseOutline i n sh { sh with db := store.applyAll ws sh.db } ∧
      leaseOutline.commits i req sh { sh with db := store.applyAll ws sh.db } := by
  have heff := effects_of_quiet hq
  obtain ⟨hinv', hrely⟩ := hinv.commit (fun w hw => (hq w hw).keepsLease) (by simp [heff])
    (by simp [heff]) (by simp [heff, endedLeases])
  refine ⟨⟨hinv', fun j _ => hrely j⟩, ?_, hheld, ?_, fun _ => ⟨?_, ?_, ?_⟩⟩
  · exact fun id row l hr hl =>
      Or.inr (lease_applyAll (fun w hw => (hq w hw).keepsLease) hr hl)
  · intro run lease hc
    rw [hcompletes] at hc
    cases hc
  · simp [effects_applyAll, heff]
  · intro c row row' hr hr'
    rcases investigations_applyAll ws sh.db c with ⟨w, hw, row'', hrow, heq⟩ | ⟨-, heq⟩
    · obtain rfl := Option.some.inj (heq.symm.trans hr')
      have hqw := hq w hw
      cases w with
      | setInvestigation c' r =>
        obtain ⟨rfl, rfl⟩ : c' = c ∧ r = row'' := by simpa [Write.investigationRow?] using hrow
        exact hqw row hr
      | _ => cases hrow
    · obtain rfl := Option.some.inj ((heq.symm.trans hr').symm.trans hr)
      exact ⟨rfl, rfl⟩
  · intro hp id hnone
    rcases runs_applyAll ws sh.db id with ⟨w, hw, row, hrow, -⟩ | ⟨-, heq⟩
    · have hqw := hq w hw
      cases w with
      | setRun id' r =>
        obtain ⟨rfl, rfl⟩ : id' = id ∧ r = row := by simpa [Write.runRow?] using hrow
        obtain ⟨old, hold, -⟩ := hqw
        rw [hnone] at hold
        cases hold
      | insertRun id' r => cases hpromote hp _ hw
      | _ => cases hrow
    · rw [heq, hnone]

/-! ## The reporting endpoints -/

theorem held_iff_of_runs_eq {t t' : Tables} {run : RunId} {lease : LeaseId}
    (h : t'.runs run = t.runs run) : heldRow t' run lease = heldRow t run lease := by
  unfold heldRow
  rw [h]

/-- A report that rewrites the held row and keeps or drops its lease. -/
theorem safe_quietReport {i : ℕ} {req : Request} {sh : Shared Tables Unit} {run : RunId}
    {lease : LeaseId} {lab : Stmt} {rows : List LedgerRow} {row row' : RunRow}
    (hreq : req.completes = none) (hp : req.presents = some (run, lease))
    (hheld : heldRow sh.db run lease = some row)
    (hrow : row'.leaseId = none ∨ row'.leaseId = row.leaseId) :
    Safe leaseOutline store always i req (.commit lab)
      (rows.map .insertLedger ++ [.setRun run row']) sh := by
  intro n sh' locked hi hinv hr _
  have hruns : sh'.db.runs run = sh.db.runs run :=
    runs_of_relyOn hr (by simp [store, Write.locks])
  have hheld' : heldRow sh'.db run lease = some row := (held_iff_of_runs_eq hruns).trans hheld
  refine quiet_commit hinv ?_ hreq ?_ ?_
  · intro w hw
    rcases List.mem_append.mp hw with hw | hw
    · obtain ⟨r, -, rfl⟩ := List.mem_map.mp hw
      trivial
    · obtain rfl := List.mem_singleton.mp hw
      exact ⟨row, (heldRow_eq_some.mp hheld').1, hrow⟩
  · intro run' lease' hp'
    obtain ⟨rfl, rfl⟩ : run = run' ∧ lease = lease' := by simpa [hp] using hp'
    rw [hheld']
    rfl
  · intro _ w hw
    rcases List.mem_append.mp hw with hw | hw
    · obtain ⟨r, -, rfl⟩ := List.mem_map.mp hw
      rfl
    · obtain rfl := List.mem_singleton.mp hw
      rfl

theorem safe_heartbeat (i : ℕ) (sh : Shared Tables Unit) (run : RunId) (lease : LeaseId)
    (wall : Time) (usage : Usage) :
    Safe leaseOutline store always i (.heartbeat run lease wall usage)
      (heartbeatRun run lease wall usage) [] sh := by
  unfold heartbeatRun
  refine safe_report (fun v hv => by simp [hv]) ?_
  intro n sh' read row locked _ _ _ hheld _
  rw [heldRow_applyAll_ledger, hheld, Option.isSome_some, if_pos rfl]
  exact safe_quietReport rfl rfl hheld (Or.inr rfl)

theorem safe_release (i : ℕ) (sh : Shared Tables Unit) (run : RunId) (lease : LeaseId)
    (now : Time) (usage : Usage) :
    Safe leaseOutline store always i (.release run lease now usage)
      (releaseRun run lease now usage) [] sh := by
  unfold releaseRun
  refine safe_report (fun v hv => by simp [hv]) ?_
  intro n sh' read row locked _ _ _ hheld _
  rw [heldRow_applyAll_ledger, hheld]
  dsimp only
  split
  · exact safe_quietReport rfl rfl hheld (Or.inl rfl)
  · exact safe_quietReport rfl rfl hheld (Or.inl rfl)

/-! ## The completion -/

/-- The effects of a completion: its end of the run first, the rest under the same key. -/
theorem effects_of_completion {run : RunId} {lease : LeaseId} (rows : List LedgerRow)
    (row : RunRow) {ws : List Write} {i : ℕ} (hws : ∀ w ∈ ws, CompletionWrite i run lease w) :
    let all := rows.map Write.insertLedger ++
      [.setRun run row, .insertEffect ⟨run, lease, .ended⟩] ++ ws
    ∃ rest, all.filterMap Write.effect? = ⟨run, lease, .ended⟩ :: rest ∧
      ∀ e ∈ rest, e.run = run ∧ e.lease = lease ∧ e.kind ≠ .ended := by
  intro all
  refine ⟨ws.filterMap Write.effect?, ?_, ?_⟩
  · have hrows : (rows.map Write.insertLedger).filterMap Write.effect? = [] := by
      rw [List.filterMap_eq_nil_iff]
      intro w hw
      obtain ⟨r, -, rfl⟩ := List.mem_map.mp hw
      rfl
    show (_ ++ _ ++ ws).filterMap _ = _
    rw [List.filterMap_append, List.filterMap_append, hrows]
    rfl
  · intro e he
    obtain ⟨w, hw, hwe⟩ := List.mem_filterMap.mp he
    have hq := hws w hw
    cases w with
    | insertEffect e' =>
      obtain rfl := Option.some.inj hwe
      exact hq
    | _ => cases hwe

/-- The commit of a completion under the current lease. -/
theorem completion_commit {i n : ℕ} {req : Request} {sh : Shared Tables Unit} {run : RunId}
    {lease : LeaseId} {rows : List LedgerRow} {row row' : RunRow} {ws : List Write}
    (hinv : LeaseInv n sh.db) (hreq : req.presents = some (run, lease))
    (hcompletes : req.completes = some (run, lease))
    (hheld : heldRow sh.db run lease = some row) (hrow : row'.leaseId = none)
    (hws : ∀ w ∈ ws, CompletionWrite i run lease w) :
    let all := rows.map Write.insertLedger ++
      [.setRun run row', .insertEffect ⟨run, lease, .ended⟩] ++ ws
    Guarantees leaseOutline i n sh { sh with db := store.applyAll all sh.db } ∧
      leaseOutline.commits i req sh { sh with db := store.applyAll all sh.db } := by
  intro all
  obtain ⟨hrun, hlease, -⟩ := heldRow_eq_some.mp hheld
  obtain ⟨rest, heff, hrest⟩ := effects_of_completion rows row' hws
  have hmem : ∀ w ∈ all, (∃ r, w = .insertLedger r) ∨ w = .setRun run row' ∨
      w = .insertEffect ⟨run, lease, .ended⟩ ∨ CompletionWrite i run lease w := by
    intro w hw
    rcases List.mem_append.mp hw with hw | hw
    · rcases List.mem_append.mp hw with hw | hw
      · obtain ⟨r, -, rfl⟩ := List.mem_map.mp hw
        exact Or.inl ⟨r, rfl⟩
      · simp only [List.mem_cons, List.not_mem_nil, or_false] at hw
        rcases hw with rfl | rfl
        · exact Or.inr (Or.inl rfl)
        · exact Or.inr (Or.inr (Or.inl rfl))
    · exact Or.inr (Or.inr (Or.inr (hws w hw)))
  -- Whatever is written for a run row carries no lease.
  have hnone : ∀ w ∈ all, ∀ id r, w.runRow? = some (id, r) → r.leaseId = none := by
    intro w hw id r hr
    rcases hmem w hw with ⟨l, rfl⟩ | rfl | rfl | hq
    · cases hr
    · obtain ⟨-, rfl⟩ : run = id ∧ row' = r := by simpa [Write.runRow?] using hr
      exact hrow
    · cases hr
    · obtain ⟨-, c, now, notBefore, rfl⟩ := hq.newRun hr
      rfl
  have hk : ∀ w ∈ all, KeepsLease sh.db w := fun w hw id r hr => Or.inl (hnone w hw id r hr)
  have hkey : ∀ e ∈ all.filterMap Write.effect?, e.run = run ∧ e.lease = lease := by
    intro e he
    rw [heff] at he
    rcases List.mem_cons.mp he with rfl | he
    · exact ⟨rfl, rfl⟩
    · exact ⟨(hrest e he).1, (hrest e he).2.1⟩
  have hset : Write.setRun run row' ∈ all := by simp [all]
  have hspent : ∀ e ∈ all.filterMap Write.effect?, ∀ id r,
      (store.applyAll all sh.db).runs id = some r → r.leaseId ≠ some e.lease := by
    intro e he id r hr hl
    rw [(hkey e he).2] at hl
    obtain ⟨old, hold, hol⟩ := lease_applyAll hk hr hl
    obtain rfl := hinv.unique id run old row lease hold hrun hol hlease
    rcases runs_applyAll all sh.db id with ⟨w, hw, r', hr', heq⟩ | ⟨hno, -⟩
    · obtain rfl := Option.some.inj (heq.symm.trans hr)
      rw [hnone w hw id r' hr'] at hl
      cases hl
    · exact hno _ hset row' rfl
  have honce : (endedLeases (all.filterMap Write.effect?)).Nodup := by
    have hfilter : (all.filterMap Write.effect?).filter (·.kind == .ended) =
        [⟨run, lease, .ended⟩] := by
      rw [heff, List.filter_cons_of_pos (by rfl), List.cons_inj_right, List.filter_eq_nil_iff]
      intro e he
      simpa using (hrest e he).2.2
    unfold endedLeases
    rw [hfilter]
    simp
  obtain ⟨hinv', hrely⟩ := hinv.commit hk
    (fun e he => ⟨run, row, hrun, (hkey e he).2.symm ▸ hlease⟩) hspent honce
  refine ⟨⟨hinv', fun j _ => hrely j⟩, ?_, ?_, ?_, ?_⟩
  · exact fun id row l hr hl => Or.inr (lease_applyAll hk hr hl)
  · intro run' lease' hp
    obtain ⟨rfl, rfl⟩ : run = run' ∧ lease = lease' := by simpa [hreq] using hp
    rw [hheld]
    rfl
  · intro run' lease' hc
    obtain ⟨rfl, rfl⟩ : run = run' ∧ lease = lease' := by simpa [hcompletes] using hc
    have hne : all.filterMap Write.effect? ≠ [] := by
      rw [heff]
      exact List.cons_ne_nil _ _
    refine ⟨all.filterMap Write.effect?, hne, effects_applyAll all sh.db, hkey, ?_⟩
    intro e he hl
    exact hinv.spent e he run row hrun (hl ▸ hlease)
  · intro hc
    rw [hcompletes] at hc
    cases hc

theorem safe_complete (i : ℕ) (sh : Shared Tables Unit) (run : RunId) (lease : LeaseId)
    (now : Time) (payload : CompletePayload) (reads : CompleteReads) :
    Safe leaseOutline store always i (.complete run lease now payload reads)
      (completeRun i run lease now payload reads) [] sh := by
  unfold completeRun
  refine safe_report (fun v hv => by simp [hv]) ?_
  intro n sh' read row locked _ _ _ hheld _
  rw [heldRow_applyAll_ledger, hheld]
  dsimp only
  refine Safe.of_emits (Q := CompletionWrite i run lease) ?_ ?_
  · split
    · exact emits_applyDisposition i run lease now row.investigation payload reads
    · trivial
    · trivial
  intro ws' n' sh'' hws' _ hinv' hr
  have hruns : sh''.db.runs run = sh'.db.runs run :=
    runs_of_relyOn hr (by simp [store, Write.locks])
  exact completion_commit hinv' rfl rfl ((held_iff_of_runs_eq hruns).trans hheld) rfl hws'

/-! ## The other parties -/

theorem leaseKept_trans (a b c : RunRow) (h : LeaseKept a b) (h' : LeaseKept b c) :
    LeaseKept a c := by
  rcases h' with h' | h'
  · exact Or.inl h'
  · rw [LeaseKept, h']
    exact h

theorem verdictKept_trans (a b c : InvestigationRow) (h : VerdictKept a b)
    (h' : VerdictKept b c) : VerdictKept a c :=
  ⟨h'.1.trans h.1, h'.2.trans h.2⟩

theorem Kept.quiet {t : Tables} {w : Write} (h : Kept LeaseKept VerdictKept t w) :
    QuietWrite t w := by
  cases w with
  | setRun id row => exact h
  | setInvestigation c row =>
    obtain ⟨old, hold, hv⟩ := h
    intro old' hold'
    obtain rfl := Option.some.inj (hold.symm.trans hold')
    exact hv
  | lock r => trivial
  | insertRun id row => exact h.elim
  | insertLedger row => exact h.elim
  | insertEffect e => exact h.elim

theorem safe_of_leaseKept {i : ℕ} {req : Request} {prog : Program}
    (hprog : KeepsProg LeaseKept VerdictKept prog) (hp : req.presents = none)
    (hc : req.completes = none) {ws : List Write} {sh : Shared Tables Unit}
    (hws : ∀ w ∈ ws, Kept LeaseKept VerdictKept sh.db w) :
    Safe leaseOutline store always i req prog ws sh := by
  apply safe_of_keeps leaseKept_trans verdictKept_trans hprog hws
  intro ws' n sh' hws' _ hinv
  refine quiet_commit hinv (fun w hw => (hws' w hw).quiet) hc ?_ ?_
  · intro run lease hpr
    rw [hp] at hpr
    cases hpr
  · exact fun _ w hw => (hws' w hw).insertedRun?

theorem safe_promote (i : ℕ) (sh : Shared Tables Unit) (severity : ℕ) (now notBefore : Time) :
    Safe leaseOutline store always i (.promote severity now notBefore)
      (promoteAlert i severity now notBefore) [] sh := by
  apply safe_promoteAlert
  intro n sh' _ hinv _ hnone _ all
  refine quiet_commit hinv ?_ rfl (by simp [Request.presents]) (by simp [Request.isPromote])
  intro w hw
  simp only [all, List.mem_cons, List.not_mem_nil, or_false] at hw
  rcases hw with rfl | rfl
  · intro old hold
    rw [hnone] at hold
    cases hold
  · rfl

/-- The claim's commit: one existing run gets the session's own fresh lease. -/
theorem claim_commit {i n : ℕ} {req : Request} {sh : Shared Tables Unit} {id : RunId}
    {row row' : RunRow} (hi : i < n) (hinv : LeaseInv n sh.db) (hfree : LeaseFree i sh.db)
    (hrow : sh.db.runs id = some row) (hlease : row'.leaseId = some i)
    (hp : req.presents = none) (hc : req.completes = none) :
    let t' : Tables := { sh.db with runs := Function.update sh.db.runs id (some row') }
    Guarantees leaseOutline i n sh { sh with db := t' } ∧
      leaseOutline.commits i req sh { sh with db := t' } := by
  intro t'
  have hcases : ∀ k r, t'.runs k = some r → (k = id ∧ r = row') ∨ sh.db.runs k = some r := by
    intro k r hk
    by_cases hkid : k = id
    · refine Or.inl ⟨hkid, ?_⟩
      have hself : t'.runs id = some row' := Function.update_self id (some row') sh.db.runs
      rw [hkid, hself] at hk
      exact (Option.some.inj hk).symm
    · refine Or.inr ?_
      have hsame : t'.runs k = sh.db.runs k := Function.update_of_ne hkid (some row') sh.db.runs
      exact hsame ▸ hk
  have hrely : ∀ j, j ≠ i → LeaseFree j sh.db → LeaseFree j t' := by
    rintro j hj ⟨hrows, heff⟩
    refine ⟨fun k r hk hl => ?_, heff⟩
    rcases hcases k r hk with ⟨-, rfl⟩ | hk
    · rw [hlease] at hl
      exact hj (Option.some.inj hl).symm
    · exact hrows k r hk hl
  refine ⟨⟨⟨?_, ?_, ?_, hinv.once⟩, fun j hj => hrely j hj⟩, ?_, ?_, ?_, ?_⟩
  · exact fun l hl => hrely l (by omega) (hinv.fresh l hl)
  · intro e he k r hk hl
    rcases hcases k r hk with ⟨-, rfl⟩ | hk
    · rw [hlease] at hl
      exact hfree.2 e he (Option.some.inj hl).symm
    · exact hinv.spent e he k r hk hl
  · intro k k' r r' l hk hk' hl hl'
    rcases hcases k r hk with ⟨hkid, hrr⟩ | hold
    · rw [hrr, hlease] at hl
      rcases hcases k' r' hk' with ⟨hkid', -⟩ | hold'
      · exact hkid.trans hkid'.symm
      · exact absurd (hl'.trans hl.symm) (hfree.1 k' r' hold')
    · rcases hcases k' r' hk' with ⟨-, hrr'⟩ | hold'
      · rw [hrr', hlease] at hl'
        exact absurd (hl.trans hl'.symm) (hfree.1 k r hold)
      · exact hinv.unique k k' r r' l hold hold' hl hl'
  · intro k r l hk hl
    rcases hcases k r hk with ⟨-, hrr⟩ | hold
    · rw [hrr, hlease] at hl
      exact Or.inl (Option.some.inj hl).symm
    · exact Or.inr ⟨r, hold, hl⟩
  · intro run lease hpr
    rw [hp] at hpr
    cases hpr
  · intro run lease hcr
    rw [hc] at hcr
    cases hcr
  · refine fun _ => ⟨rfl, ?_, ?_⟩
    · intro c r r' hr hr'
      obtain rfl := Option.some.inj (hr.symm.trans hr')
      exact ⟨rfl, rfl⟩
    · intro _ k hk
      have hne : k ≠ id := by
        rintro rfl
        rw [hrow] at hk
        cases hk
      exact (Function.update_of_ne hne (some row') sh.db.runs).trans hk

theorem safe_claim (i : ℕ) (sh : Shared Tables Unit) (now wall : Time) (capOk : Bool)
    (hfree : LeaseFree i sh.db) :
    Safe leaseOutline store always i (.claim now wall capOk) (claimRun i now wall capOk) []
      sh := by
  have hquit : ∀ (rs : List Resource) (sh' : Shared Tables Unit),
      Safe leaseOutline store always i (.claim now wall capOk) (.commit .plain)
        (rs.map Write.lock) sh' :=
    fun rs sh' => safe_of_leaseKept (keeps_commit _) rfl rfl (kept_lock rs sh'.db)
  unfold claimRun
  intro n1 sh1 locked1 _ _ hr1 _
  dsimp only
  split
  · exact hquit [.claimLock] sh1
  · intro n2 sh2 locked2 _ _ hr2 _
    dsimp only
    cases hchoice : claimChoice ⟨store.applyAll ([] ++ [.lock .claimLock]) sh2.db, locked2⟩ now with
    | none => exact hquit [.claimLock] sh2
    | some id =>
      intro n3 sh3 locked3 _ _ hr3 _
      let leased : RunRow → RunRow := fun row =>
        { row with claimedAt := some now, leaseId := some i,
                   leaseExpiresAt := some (wall + leaseTtlSeconds) }
      have hlast : ∀ found : Option RunRow, sh3.db.runs id = found →
          Safe leaseOutline store always i (.claim now wall capOk) (.commit .plain)
            ([.lock .claimLock, .lock (.run id)] ++
              found.toList.map fun row => .setRun id (leased row)) sh3 := by
        intro found hfound
        cases found with
        | none => exact hquit [.claimLock, .run id] sh3
        | some row =>
          intro n4 sh4 locked4 hi hinv hr4 _
          have hfree4 : LeaseFree i sh4.db := hr4.1 (hr3.1 (hr2.1 (hr1.1 hfree)))
          have hrow4 : sh4.db.runs id = some row := by
            rw [runs_of_relyOn hr4 (by simp [store, Write.locks])]
            exact hfound
          exact claim_commit hi hinv hfree4 hrow4 (show (leased row).leaseId = some i from rfl)
            (show (Request.claim now wall capOk).presents = none from rfl)
            (show (Request.claim now wall capOk).completes = none from rfl)
      exact hlast _ rfl

theorem safe_serve (n : ℕ) (req : Request) (sh : Shared Tables Unit)
    (hinv : leaseOutline.inv n sh) : Safe leaseOutline store always n req (serve n req) [] sh := by
  cases req with
  | claim now wall capOk => exact safe_claim n sh now wall capOk (hinv.fresh n le_rfl)
  | heartbeat run lease wall usage => exact safe_heartbeat n sh run lease wall usage
  | release run lease now usage => exact safe_release n sh run lease now usage
  | complete run lease now payload reads => exact safe_complete n sh run lease now payload reads
  | reap now =>
    exact safe_of_leaseKept (keeps_reap (fun _ => Or.inl rfl) now) rfl rfl (by simp)
  | unlock run now tokens dollars =>
    exact safe_of_leaseKept (keeps_unlock run now tokens dollars fun _ _ _ => Or.inl rfl) rfl rfl
      (by simp)
  | transition run resume =>
    exact safe_of_leaseKept (keeps_transition run resume fun _ _ _ => Or.inr rfl) rfl rfl (by simp)
  | attach c => exact safe_of_leaseKept (keeps_attach c fun _ => ⟨rfl, rfl⟩) rfl rfl (by simp)
  | promote severity now notBefore => exact safe_promote n sh severity now notBefore

/-! ## Every run -/

theorem leaseInv_empty : LeaseInv 0 Tables.empty where
  fresh _ _ := ⟨fun _ _ h => (by cases h), by simp [Tables.empty]⟩
  spent _ _ _ _ h := by cases h
  unique _ _ _ _ _ h := by cases h
  once := List.nodup_nil

theorem consistent_of_run {sys : System} (h : Run store serve always init sys) :
    Consistent leaseOutline store always sys :=
  (consistent_start leaseInv_empty).run safe_serve h

theorem admits_always (sys : System) (e : Event Request) : Admits store always sys e := by
  cases e with
  | advance i =>
    intro s _
    split <;> trivial
  | _ => trivial

/-- A step that changes the tables is the commit of a request, and does what the law says. -/
theorem step_law {sys sys' : System} {e : Event Request}
    (h : Consistent leaseOutline store always sys) (hs : step store serve sys e = some sys') :
    sys'.shared.db = sys.shared.db ∨ ∃ i s, e = .advance i ∧ sys.session i = some s ∧
      CommitLaw i s.req sys.shared.db sys'.shared.db := by
  rcases h.commit_step (admits_always sys e) hs with heq | ⟨i, s, lab, he, hsome, -, hc⟩
  · exact Or.inl heq
  · exact Or.inr ⟨i, s, he, hsome, hc⟩

/-- The lease was minted by a request that has ended, and the run does not carry it. -/
def StaleLease (sys : System) (run : RunId) (lease : LeaseId) : Prop :=
  lease < sys.opened ∧ sys.session lease = none ∧
    ∀ row, sys.shared.db.runs run = some row → row.leaseId ≠ some lease

/-- A step opens no session under an old number. -/
theorem session_closed {sys sys' : System} {e : Event Request}
    (hs : step store serve sys e = some sys') {l : ℕ} (hl : l < sys.opened)
    (hnone : sys.session l = none) : l < sys'.opened ∧ sys'.session l = none := by
  have hkeep : ∀ i x, sys.session i ≠ none → Function.update sys.session i x l = none := by
    intro i x hi
    have hne : l ≠ i := fun h => hi (h ▸ hnone)
    rw [Function.update_of_ne hne]
    exact hnone
  cases e with
  | begin req =>
    obtain rfl := Option.some.inj hs
    refine ⟨Nat.lt_succ_of_lt hl, ?_⟩
    show Function.update sys.session sys.opened _ l = none
    rw [Function.update_of_ne (by omega)]
    exact hnone
  | crash i =>
    unfold step at hs
    cases hi : sys.session i with
    | none => simp [hi] at hs
    | some s =>
      simp only [hi] at hs
      obtain rfl := Option.some.inj hs
      exact ⟨hl, hkeep i _ (by simp [hi])⟩
  | advance i =>
    unfold step at hs
    cases hi : sys.session i with
    | none => simp [hi] at hs
    | some s =>
      simp only [hi] at hs
      cases hp : s.prog with
      | stmt lab writes next =>
        simp only [hp] at hs
        split at hs
        · obtain rfl := Option.some.inj hs
          exact ⟨hl, hkeep i _ (by simp [hi])⟩
        · cases hs
      | call x next =>
        simp only [hp] at hs
        obtain rfl := Option.some.inj hs
        exact ⟨hl, hkeep i _ (by simp [hi])⟩
      | commit lab =>
        simp only [hp] at hs
        obtain rfl := Option.some.inj hs
        exact ⟨hl, hkeep i _ (by simp [hi])⟩
      | rollback =>
        simp only [hp] at hs
        obtain rfl := Option.some.inj hs
        exact ⟨hl, hkeep i _ (by simp [hi])⟩

theorem StaleLease.step {sys sys' : System} {e : Event Request} {run : RunId} {lease : LeaseId}
    (h : StaleLease sys run lease) (hcons : Consistent leaseOutline store always sys)
    (hs : step store serve sys e = some sys') : StaleLease sys' run lease := by
  obtain ⟨hlt, hnone, hrow⟩ := h
  obtain ⟨hlt', hnone'⟩ := session_closed hs hlt hnone
  refine ⟨hlt', hnone', ?_⟩
  rcases step_law hcons hs with heq | ⟨i, s, -, hsome, hlaw⟩
  · rw [heq]
    exact hrow
  · intro row hr hl
    rcases hlaw.minted run row lease hr hl with hi | ⟨old, hold, hol⟩
    · rw [← hi, hnone] at hsome
      cases hsome
    · exact hrow old hold hol

theorem StaleLease.run {sys sys' : System} {run : RunId} {lease : LeaseId}
    (h : StaleLease sys run lease) (hreach : Run store serve always init sys)
    (hrun : Run store serve always sys sys') : StaleLease sys' run lease := by
  have hcons := consistent_of_run hreach
  induction hrun with
  | refl => exact h
  | step e hmid hadm hs ih => exact ih.step (hcons.run safe_serve hmid) hs

/-- A request presents a lease that the run does not carry while active. -/
def StaleRequest (sys : System) (i : ℕ) : Prop :=
  ∃ s run lease, sys.session i = some s ∧ s.req.presents = some (run, lease) ∧
    heldRow sys.shared.db run lease = none

/-- The step commits the completion of a run under the lease it carries; what it adds to
the effects is keyed by run and lease, and nothing was under that lease before. -/
def CompletesHeld (sys : System) (e : Event Request) (sys' : System) : Prop :=
  ∃ i s run lease new, e = .advance i ∧ sys.session i = some s ∧
    s.req.completes = some (run, lease) ∧ (heldRow sys.shared.db run lease).isSome = true ∧
    sys'.shared.db.effects = sys.shared.db.effects ++ new ∧
    (∀ f ∈ new, f.run = run ∧ f.lease = lease) ∧ ∀ f ∈ sys.shared.db.effects, f.lease ≠ lease

/-- Lease safety of a state: of what has been committed, of every next step, and of stale
leases in everything that follows. -/
structure LeaseSafe (sys : System) : Prop where
  once : (endedLeases sys.shared.db.effects).Nodup
  inert : ∀ i sys', StaleRequest sys i → step store serve sys (.advance i) = some sys' →
    sys'.shared.db = sys.shared.db
  stale : ∀ run lease sys', StaleLease sys run lease → Run store serve always sys sys' →
    StaleLease sys' run lease ∧ heldRow sys'.shared.db run lease = none
  effects : ∀ e sys', step store serve sys e = some sys' →
    sys'.shared.db.effects ≠ sys.shared.db.effects → CompletesHeld sys e sys'
  dispositions : ∀ e sys' c row row', step store serve sys e = some sys' →
    sys.shared.db.investigations c = some row → sys'.shared.db.investigations c = some row' →
    row'.status ≠ row.status ∨ row'.severity ≠ row.severity → CompletesHeld sys e sys'
  followUps : ∀ e sys' id, step store serve sys e = some sys' →
    sys.shared.db.runs id = none → sys'.shared.db.runs id ≠ none →
    CompletesHeld sys e sys' ∨
      ∃ i s, e = .advance i ∧ sys.session i = some s ∧ s.req.isPromote = true

theorem CommitLaw.completesHeld {sys sys' : System} {i : ℕ}
    {s : Session Tables Write Unit Stmt Resource Request} {run : RunId} {lease : LeaseId}
    (h : CommitLaw i s.req sys.shared.db sys'.shared.db) (hsome : sys.session i = some s)
    (hc : s.req.completes = some (run, lease)) : CompletesHeld sys (.advance i) sys' := by
  have hp : s.req.presents = some (run, lease) := by
    cases hreq : s.req <;> simp_all [Request.completes, Request.presents]
  obtain ⟨new, -, heff, hkey, hfirst⟩ := h.completes run lease hc
  exact ⟨i, s, run, lease, new, rfl, hsome, hc, h.held run lease hp, heff, hkey, hfirst⟩

/-- Every state of every run is lease safe. -/
theorem lease_safe {sys : System} (hrun : Run store serve always init sys) : LeaseSafe sys := by
  have hcons := consistent_of_run hrun
  -- A step either commits a completion under its lease, or leaves its rows alone.
  have hstep : ∀ e sys', step store serve sys e = some sys' → CompletesHeld sys e sys' ∨
      sys'.shared.db = sys.shared.db ∨ ∃ i s, e = .advance i ∧ sys.session i = some s ∧
        s.req.completes = none ∧ CommitLaw i s.req sys.shared.db sys'.shared.db := by
    intro e sys' hs
    rcases step_law hcons hs with heq | ⟨i, s, rfl, hsome, hlaw⟩
    · exact Or.inr (Or.inl heq)
    · cases hc : s.req.completes with
      | some key => exact Or.inl (hlaw.completesHeld hsome hc)
      | none => exact Or.inr (Or.inr ⟨i, s, rfl, hsome, hc, hlaw⟩)
  refine ⟨hcons.inv.once, ?_, ?_, ?_, ?_, ?_⟩
  · intro i sys' ⟨s, run, lease, hsome, hp, hnone⟩ hs
    rcases step_law hcons hs with heq | ⟨j, t, hj, ht, hlaw⟩
    · exact heq
    · cases hj
      obtain rfl := Option.some.inj (hsome.symm.trans ht)
      have hheld := hlaw.held run lease hp
      rw [hnone] at hheld
      cases hheld
  · intro run lease sys' hstale hrun'
    have hlater := hstale.run hrun hrun'
    refine ⟨hlater, ?_⟩
    cases hheld : heldRow sys'.shared.db run lease with
    | none => rfl
    | some row =>
      obtain ⟨hr, hl, -⟩ := heldRow_eq_some.mp hheld
      exact absurd hl (hlater.2.2 row hr)
  · intro e sys' hs hne
    rcases hstep e sys' hs with h | heq | ⟨i, s, -, -, hc, hlaw⟩
    · exact h
    · exact absurd (by rw [heq]) hne
    · exact absurd (hlaw.others hc).1 hne
  · intro e sys' c row row' hs hr hr' hne
    rcases hstep e sys' hs with h | heq | ⟨i, s, -, -, hc, hlaw⟩
    · exact h
    · rw [heq, hr] at hr'
      obtain rfl := Option.some.inj hr'
      simp at hne
    · obtain ⟨hst, hsev⟩ := (hlaw.others hc).2.1 c row row' hr hr'
      rcases hne with hne | hne
      · exact absurd hst hne
      · exact absurd hsev hne
  · intro e sys' id hs hnone hsome'
    rcases hstep e sys' hs with h | heq | ⟨i, s, he, hsome, hc, hlaw⟩
    · exact Or.inl h
    · exact absurd (by rw [heq, hnone]) hsome'
    · refine Or.inr ⟨i, s, he, hsome, ?_⟩
      cases hp : s.req.isPromote with
      | true => rfl
      | false => exact absurd ((hlaw.others hc).2.2 hp id hnone) hsome'

/-- An alert is promoted, its run claimed, and the run completed with a close. -/
def closeUnderLease : List (Event Request) := promoteAndClaim ++
  [.begin (.complete 0 1 2
      { status := .completed, usage := { tokens := 0 }, disposition := some .closeFp } {}),
   .advance 2, .advance 2, .advance 2, .advance 2, .advance 2, .advance 2, .advance 2, .advance 2]

theorem lease_safe_closeUnderLease : ∃ sys,
    runEvents store serve always init closeUnderLease = some sys ∧
    sys.shared.db.effects = [⟨0, 1, .ended⟩, ⟨0, 1, .closed⟩] ∧ LeaseSafe sys := by
  have heff : (runEvents store serve always init closeUnderLease).map (·.shared.db.effects) =
      some [⟨0, 1, .ended⟩, ⟨0, 1, .closed⟩] := by decide +kernel
  obtain ⟨sys, hsys, heq⟩ := Option.map_eq_some_iff.mp heff
  exact ⟨sys, hsys, heq, lease_safe (Run.of_runEvents hsys)⟩

end SocTalk.Runs
