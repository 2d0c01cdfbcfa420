import SocTalk.Runs.Endpoints

/-! What a list of writes leaves in the tables, and the proof rules for the worker's
reporting endpoints. -/
namespace SocTalk.Runs
open ReadCommitted

/-! ## The tables after a list of writes -/

def Write.runRow? : Write → Option (RunId × RunRow)
  | .setRun id row => some (id, row)
  | .insertRun id row => some (id, row)
  | _ => none

def Write.investigationRow? : Write → Option (InvestigationId × InvestigationRow)
  | .setInvestigation id row => some (id, row)
  | _ => none

def Write.effect? : Write → Option Effect
  | .insertEffect e => some e
  | _ => none

def Write.ledgerRow? : Write → Option LedgerRow
  | .insertLedger row => some row
  | _ => none

def Write.insertedRun? : Write → Option RunId
  | .insertRun id _ => some id
  | _ => none

/-- The row a write leaves under `id`, if it writes one. -/
def under {R : Type} (id : ℕ) (written : Option (ℕ × R)) : Option R :=
  written.bind fun p => if p.1 = id then some p.2 else none

theorem under_eq_some {R : Type} {id : ℕ} {written : Option (ℕ × R)} {row : R} :
    under id written = some row ↔ written = some (id, row) := by
  cases written with
  | none => simp [under]
  | some p =>
    obtain ⟨id', row'⟩ := p
    by_cases h : id' = id <;> simp [under, h]

theorem under_eq_none {R : Type} {id : ℕ} {written : Option (ℕ × R)} :
    under id written = none ↔ ∀ row, written ≠ some (id, row) := by
  rw [Option.eq_none_iff_forall_ne_some]
  exact forall_congr' fun row => not_congr under_eq_some

theorem runs_apply (id : RunId) (w : Write) (t : Tables) :
    (store.apply w t).runs id = (under id w.runRow?).or (t.runs id) := by
  cases w with
  | setRun id' row =>
    by_cases h : id' = id
    · simp [store, Write.apply, Write.runRow?, under, h]
    · simp [store, Write.apply, Write.runRow?, under, h, Function.update_of_ne (Ne.symm h)]
  | insertRun id' row =>
    by_cases h : id' = id
    · simp [store, Write.apply, Write.runRow?, under, h]
    · simp [store, Write.apply, Write.runRow?, under, h, Function.update_of_ne (Ne.symm h)]
  | _ => rfl

theorem investigations_apply (c : InvestigationId) (w : Write) (t : Tables) :
    (store.apply w t).investigations c =
      (under c w.investigationRow?).or (t.investigations c) := by
  cases w with
  | setInvestigation c' row =>
    by_cases h : c' = c
    · simp [store, Write.apply, Write.investigationRow?, under, h]
    · simp [store, Write.apply, Write.investigationRow?, under, h, Function.update_of_ne (Ne.symm h)]
  | _ => rfl

/-- A run row after the writes: one of those written, or the old one if none was. -/
theorem runs_applyAll (ws : List Write) (t : Tables) (id : RunId) :
    (∃ w ∈ ws, ∃ row, w.runRow? = some (id, row) ∧ (store.applyAll ws t).runs id = some row) ∨
      ((∀ w ∈ ws, ∀ row, w.runRow? ≠ some (id, row)) ∧
        (store.applyAll ws t).runs id = t.runs id) := by
  have h := store.lookup_applyAll (fun t => t.runs id) (runs_apply id) ws t
  simpa only [under_eq_some, under_eq_none] using h

theorem runs_eq_none_of_applyAll {ws : List Write} {t : Tables} {id : RunId}
    (h : (store.applyAll ws t).runs id = none) : t.runs id = none := by
  rcases runs_applyAll ws t id with ⟨w, -, row, -, heq⟩ | ⟨-, heq⟩
  · rw [h] at heq
    cases heq
  · exact heq ▸ h

theorem investigations_applyAll (ws : List Write) (t : Tables) (c : InvestigationId) :
    (∃ w ∈ ws, ∃ row, w.investigationRow? = some (c, row) ∧
        (store.applyAll ws t).investigations c = some row) ∨
      ((∀ w ∈ ws, ∀ row, w.investigationRow? ≠ some (c, row)) ∧
        (store.applyAll ws t).investigations c = t.investigations c) := by
  have h := store.lookup_applyAll (fun t => t.investigations c) (investigations_apply c) ws t
  simpa only [under_eq_some, under_eq_none] using h

theorem investigations_applyAll_congr (ws : List Write) {t t' : Tables} {c : InvestigationId}
    (h : t.investigations c = t'.investigations c) :
    (store.applyAll ws t).investigations c = (store.applyAll ws t').investigations c :=
  store.lookup_applyAll_congr (fun t => t.investigations c) (investigations_apply c) ws h

theorem effects_applyAll (ws : List Write) (t : Tables) :
    (store.applyAll ws t).effects = t.effects ++ ws.filterMap Write.effect? :=
  store.appended_applyAll (fun w t => by cases w <;> simp [store, Write.apply, Write.effect?]) ws t

theorem ledger_applyAll (ws : List Write) (t : Tables) :
    (store.applyAll ws t).ledger = t.ledger ++ ws.filterMap Write.ledgerRow? :=
  store.appended_applyAll (fun w t => by cases w <;> simp [store, Write.apply, Write.ledgerRow?]) ws t

theorem runIds_applyAll (ws : List Write) (t : Tables) :
    (store.applyAll ws t).runIds = t.runIds ++ ws.filterMap Write.insertedRun? :=
  store.appended_applyAll (fun w t => by cases w <;> simp [store, Write.apply, Write.insertedRun?]) ws t

/-- Ledger inserts leave the run and investigation tables alone. -/
theorem applyAll_ledger (rows : List LedgerRow) (t : Tables) :
    store.applyAll (rows.map .insertLedger) t = { t with ledger := t.ledger ++ rows } := by
  induction rows generalizing t with
  | nil => simp
  | cons row rows ih =>
    rw [List.map_cons, Store.applyAll_cons, ih]
    simp [store, Write.apply]

@[simp] theorem runs_applyAll_ledger (rows : List LedgerRow) (t : Tables) :
    (store.applyAll (rows.map .insertLedger) t).runs = t.runs := by
  rw [applyAll_ledger]

@[simp] theorem heldRow_applyAll_ledger (rows : List LedgerRow) (t : Tables) (run : RunId)
    (lease : LeaseId) :
    heldRow (store.applyAll (rows.map .insertLedger) t) run lease = heldRow t run lease := by
  unfold heldRow
  rw [runs_applyAll_ledger]

/-! ## Rules for the reporting endpoints -/

/-- The ledger rows of a report whose first statement read `read`. -/
def reportRows (run : RunId) (usage : Usage) (read : Option Totals) : List LedgerRow :=
  match read with
  | none => []
  | some prev => ledgerRows run usage prev

section

variable {o : Outline Tables Unit Request} {cond : Stmt → View Tables Resource → Prop}
variable {i : ℕ} {req : Request} {sh : Shared Tables Unit}

theorem safe_recordSpendDelta {run : RunId} {usage : Usage} {k : Option Totals → Program}
    (h : ∀ sh' read, RelyOn o store i [] sh sh' →
      Safe o store cond i req (k read) ((reportRows run usage read).map .insertLedger) sh') :
    Safe o store cond i req (recordSpendDelta run usage k) [] sh := by
  intro n sh' locked hi hinv hr _
  dsimp only
  cases hread : readTotals (store.applyAll [] sh'.db) run with
  | none => exact h sh' none hr
  | some prev =>
    intro n' sh'' locked' hi' hinv' hr' _
    exact h sh'' (some _) (hr.trans hr')

/-- A row a session has written stays as it read it until the session commits. -/
theorem runs_of_relyOn {ws : List Write} {sh sh' : Shared Tables Unit} {run : RunId}
    (h : RelyOn o store i ws sh sh') (hw : Resource.run run ∈ store.held ws) :
    sh'.db.runs run = sh.db.runs run := congrArg Prod.fst (h.2 _ hw)

theorem investigations_of_relyOn {ws : List Write} {sh sh' : Shared Tables Unit}
    {c : InvestigationId} (h : RelyOn o store i ws sh sh')
    (hw : Resource.investigation c ∈ store.held ws) :
    sh'.db.investigations c = sh.db.investigations c := congrArg Prod.snd (h.2 _ hw)

/-- A report and the guarded update of the run row. Under no current lease it rolls back;
under one, the row is still the committed one when the update is followed up. -/
theorem safe_report {run : RunId} {lease : LeaseId} {usage : Usage}
    {lab : Option Totals → Stmt} {f : RunRow → List Write}
    {next : View Tables Resource → Program}
    (hnone : ∀ v, heldRow v.db run lease = none → next v = .rollback)
    (hsome : ∀ n sh' read row locked, i < n → o.inv n sh' →
      o.rely i sh sh' → heldRow sh'.db run lease = some row →
      cond (lab read)
        ⟨store.applyAll ((reportRows run usage read).map .insertLedger) sh'.db, locked⟩ →
      Safe o store cond i req
        (next ⟨store.applyAll ((reportRows run usage read).map .insertLedger) sh'.db,
          locked⟩)
        ((reportRows run usage read).map .insertLedger ++ f row) sh') :
    Safe o store cond i req
      (recordSpendDelta run usage fun read =>
        .stmt (lab read) (fun v => (heldRow v.db run lease).toList.flatMap f) next) [] sh := by
  refine safe_recordSpendDelta fun sh' read hr => ?_
  intro n sh'' locked hi hinv hr' hcond
  dsimp only
  rw [heldRow_applyAll_ledger]
  cases hheld : heldRow sh''.db run lease with
  | none =>
    rw [hnone _ (by rw [heldRow_applyAll_ledger]; exact hheld)]
    trivial
  | some row =>
    have hrely : o.rely i sh sh'' := o.rely_trans i _ _ _ hr.1 hr'.1
    have hsafe := hsome n sh'' read row locked hi hinv hrely hheld hcond
    simpa using hsafe

/-- A promotion locks its fresh investigation before it inserts the run, so neither exists
when it commits. -/
theorem safe_promoteAlert {severity : ℕ} {now notBefore : Time}
    (h : ∀ n sh', i < n → o.inv n sh' → o.rely i sh sh' → sh'.db.investigations i = none →
      sh'.db.runs i = none →
      let all : List Write :=
        [.setInvestigation i { severity := severity }, .insertRun i (newRun i now notBefore)]
      Guarantees o i n sh' { sh' with db := store.applyAll all sh'.db } ∧
        o.commits i req sh' { sh' with db := store.applyAll all sh'.db }) :
    Safe o store cond i req (promoteAlert i severity now notBefore) [] sh := by
  unfold promoteAlert
  intro n sh1 locked1 _ _ hr1 _
  dsimp only
  cases hnew : (store.applyAll [] sh1.db).investigations i with
  | some row => trivial
  | none =>
    rw [Option.isSome_none, if_neg (by simp)]
    intro n2 sh2 locked2 _ _ hr2 _
    rw [if_pos (by simp)]
    by_cases hins : insertable
        (store.applyAll ([] ++ [Write.setInvestigation i { severity := severity }]) sh2.db) i i
    · simp only [hins, if_true]
      intro n3 sh3 locked3 hi hinv hr3 _
      apply h n3 sh3 hi hinv (o.rely_trans i _ _ _ hr1.1 (o.rely_trans i _ _ _ hr2.1 hr3.1))
      · rw [investigations_of_relyOn hr3 (by simp [store, Write.locks]),
          investigations_of_relyOn hr2 (by simp [store, Write.locks])]
        exact hnew
      · rw [runs_of_relyOn hr3 (by simp [store, Write.locks])]
        simp only [insertable, Bool.and_eq_true, Option.isNone_iff_eq_none] at hins
        exact hins.1
    · dsimp only
      rw [if_neg hins]
      trivial

end

/-! ## What completions and promotions write -/

/-- A write on an investigation, or the session's own fresh run. -/
def FreshWrite (session : ℕ) : Write → Prop
  | .setInvestigation _ _ => True
  | .insertRun id row => id = session ∧ ∃ c now notBefore, row = newRun c now notBefore
  | _ => False

/-- What a completion writes after it has ended its run. -/
def CompletionWrite (session : ℕ) (run : RunId) (lease : LeaseId) : Write → Prop
  | .insertEffect e => e.run = run ∧ e.lease = lease ∧ e.kind ≠ .ended
  | w => FreshWrite session w

theorem FreshWrite.newRun {session : ℕ} {w : Write} {id : RunId} {row : RunRow}
    (h : FreshWrite session w) (hw : w.runRow? = some (id, row)) :
    id = session ∧ ∃ c now notBefore, row = newRun c now notBefore := by
  cases w with
  | insertRun id' row' =>
    obtain ⟨rfl, rfl⟩ : id' = id ∧ row' = row := by simpa [Write.runRow?] using hw
    exact h
  | setRun id' row' => exact h.elim
  | _ => cases hw

theorem FreshWrite.noLedger {session : ℕ} {w : Write} (h : FreshWrite session w) :
    w.ledgerRow? = none := by
  cases w with
  | insertLedger row => exact h.elim
  | _ => rfl

/-- What a completion writes besides its effects. -/
theorem CompletionWrite.fresh {session : ℕ} {run : RunId} {lease : LeaseId} {w : Write}
    (h : CompletionWrite session run lease w) : (∃ e, w = .insertEffect e) ∨ FreshWrite session w := by
  cases w with
  | insertEffect e => exact Or.inl ⟨e, rfl⟩
  | _ => exact Or.inr h

theorem CompletionWrite.newRun {session : ℕ} {run : RunId} {lease : LeaseId} {w : Write}
    {id : RunId} {row : RunRow} (h : CompletionWrite session run lease w)
    (hw : w.runRow? = some (id, row)) :
    id = session ∧ ∃ c now notBefore, row = Runs.newRun c now notBefore := by
  rcases h.fresh with ⟨e, rfl⟩ | h
  · cases hw
  · exact h.newRun hw

theorem CompletionWrite.noLedger {session : ℕ} {run : RunId} {lease : LeaseId} {w : Write}
    (h : CompletionWrite session run lease w) : w.ledgerRow? = none := by
  rcases h.fresh with ⟨e, rfl⟩ | h
  · rfl
  · exact h.noLedger

section

variable (session : ℕ) (run : RunId) (lease : LeaseId) (now : Time) (c : InvestigationId)
variable (payload : CompletePayload) (reads : CompleteReads)

theorem emits_followUpRun :
    Emits (CompletionWrite session run lease) (followUpRun session run lease now c) := by
  unfold followUpRun
  intro v
  refine ⟨by simp, ?_⟩
  dsimp only
  split
  · intro v'
    refine ⟨fun w hw => ?_, fun v'' => ⟨fun w hw => ?_, ?_⟩⟩
    · obtain ⟨row, -, rfl⟩ := List.mem_map.mp hw
      trivial
    · dsimp only at hw
      split at hw
      · rcases List.mem_cons.mp hw with rfl | hw
        · exact ⟨rfl, c, now, now, rfl⟩
        · obtain rfl := List.mem_singleton.mp hw
          exact ⟨rfl, rfl, by simp⟩
      · cases hw
    · dsimp only
      split <;> trivial
  · trivial

theorem emits_afterDisposition (d : Option TriagePolicy.Disposition) (changed : Bool) :
    Emits (CompletionWrite session run lease)
      (afterDisposition session run lease now c payload reads d changed) := by
  unfold afterDisposition
  intro v
  refine ⟨fun w hw => ?_, fun v' => ⟨fun w hw => ?_, emits_followUpRun session run lease now c⟩⟩
  · split at hw
    · obtain rfl := List.mem_singleton.mp hw
      exact ⟨rfl, rfl, by simp⟩
    · cases hw
  · split at hw
    · obtain rfl := List.mem_singleton.mp hw
      exact ⟨rfl, rfl, by simp⟩
    · cases hw

theorem emits_applyDisposition :
    Emits (CompletionWrite session run lease)
      (applyDisposition session run lease now c payload reads) := by
  unfold applyDisposition
  split
  · intro v
    refine ⟨fun w hw => ?_, emits_afterDisposition session run lease now c payload reads _ _⟩
    dsimp only at hw
    split at hw
    · obtain ⟨row, -, hw⟩ := List.mem_flatMap.mp hw
      rcases List.mem_cons.mp hw with rfl | hw
      · trivial
      · obtain rfl := List.mem_singleton.mp hw
        exact ⟨rfl, rfl, by simp⟩
    · cases hw
  · intro v
    refine ⟨fun w hw => ?_, emits_afterDisposition session run lease now c payload reads _ _⟩
    rcases List.mem_append.mp hw with hw | hw
    · split at hw
      · obtain ⟨row, -, rfl⟩ := List.mem_map.mp hw
        trivial
      · cases hw
    · obtain rfl := List.mem_singleton.mp hw
      exact ⟨rfl, rfl, by simp⟩
  · exact emits_afterDisposition session run lease now c payload reads _ _

end

/-! ## Programs that only update rows -/

section

variable (R : RunRow → RunRow → Prop) (V : InvestigationRow → InvestigationRow → Prop)

/-- An update of an existing row, within `R` for a run and `V` for an investigation. -/
def Kept (t : Tables) : Write → Prop
  | .setRun id row => ∃ old, t.runs id = some old ∧ R old row
  | .setInvestigation c row => ∃ old, t.investigations c = some old ∧ V old row
  | .lock _ => True
  | _ => False

/-- All the program writes are such updates, judged by what each statement sees. -/
def KeepsProg : Program → Prop
  | .stmt _ writes next => ∀ v : View Tables Resource,
      (∀ w ∈ writes v, Kept R V v.db w) ∧ KeepsProg (next v)
  | .call _ _ => False
  | .commit _ => True
  | .rollback => True

variable {R V}

theorem kept_lock (rs : List Resource) (t : Tables) :
    ∀ w ∈ rs.map Write.lock, Kept R V t w := by
  intro w hw
  obtain ⟨r, -, rfl⟩ := List.mem_map.mp hw
  trivial

/-- A row after such updates is within `R` of the committed one. -/
theorem Kept.runs {t : Tables} {ws : List Write} (hws : ∀ w ∈ ws, Kept R V t w) {id : RunId}
    {row : RunRow} (hrow : (store.applyAll ws t).runs id = some row) :
    ∃ old, t.runs id = some old ∧ (row = old ∨ R old row) := by
  rcases runs_applyAll ws t id with ⟨w, hw, row', hrow', heq⟩ | ⟨-, heq⟩
  · obtain rfl := Option.some.inj (heq.symm.trans hrow)
    have hk := hws w hw
    cases w with
    | setRun id' r =>
      obtain ⟨rfl, rfl⟩ : id' = id ∧ r = row' := by simpa [Write.runRow?] using hrow'
      obtain ⟨old, hold, hR⟩ := hk
      exact ⟨old, hold, Or.inr hR⟩
    | insertRun id' r => exact hk.elim
    | _ => cases hrow'
  · exact ⟨row, heq ▸ hrow, Or.inl rfl⟩

theorem Kept.investigations {t : Tables} {ws : List Write} (hws : ∀ w ∈ ws, Kept R V t w)
    {c : InvestigationId} {row : InvestigationRow}
    (hrow : (store.applyAll ws t).investigations c = some row) :
    ∃ old, t.investigations c = some old ∧ (row = old ∨ V old row) := by
  rcases investigations_applyAll ws t c with ⟨w, hw, row', hrow', heq⟩ | ⟨-, heq⟩
  · obtain rfl := Option.some.inj (heq.symm.trans hrow)
    have hk := hws w hw
    cases w with
    | setInvestigation c' r =>
      obtain ⟨rfl, rfl⟩ : c' = c ∧ r = row' := by simpa [Write.investigationRow?] using hrow'
      obtain ⟨old, hold, hV⟩ := hk
      exact ⟨old, hold, Or.inr hV⟩
    | _ => cases hrow'
  · exact ⟨row, heq ▸ hrow, Or.inl rfl⟩

theorem Kept.insertedRun? {t : Tables} {w : Write} (h : Kept R V t w) : w.insertedRun? = none := by
  cases w with
  | insertRun id row => exact h.elim
  | _ => rfl

theorem Kept.noLedger {t : Tables} {ws : List Write} (hws : ∀ w ∈ ws, Kept R V t w) :
    ws.filterMap Write.ledgerRow? = [] := by
  rw [List.filterMap_eq_nil_iff]
  intro w hw
  have hk := hws w hw
  cases w with
  | insertLedger e => exact hk.elim
  | _ => rfl

/-- An update over the session's own pending updates is one over the committed rows. -/
theorem Kept.of_view (hR : ∀ a b c, R a b → R b c → R a c) (hV : ∀ a b c, V a b → V b c → V a c)
    {t : Tables} {ws : List Write} {w : Write} (hws : ∀ w ∈ ws, Kept R V t w)
    (h : Kept R V (store.applyAll ws t) w) : Kept R V t w := by
  cases w with
  | setRun id row =>
    obtain ⟨seen, hseen, hrow⟩ := h
    obtain ⟨old, hold, rfl | hold'⟩ := Kept.runs hws hseen
    · exact ⟨seen, hold, hrow⟩
    · exact ⟨old, hold, hR _ _ _ hold' hrow⟩
  | setInvestigation c row =>
    obtain ⟨seen, hseen, hrow⟩ := h
    obtain ⟨old, hold, rfl | hold'⟩ := Kept.investigations hws hseen
    · exact ⟨seen, hold, hrow⟩
    · exact ⟨old, hold, hV _ _ _ hold' hrow⟩
  | lock r => trivial
  | insertRun id row => exact h.elim
  | insertLedger row => exact h.elim
  | insertEffect e => exact h.elim

variable {o : Outline Tables Unit Request} {cond : Stmt → View Tables Resource → Prop}
variable {i : ℕ} {req : Request}

/-- A pending update stays one: the row it writes is held. -/
theorem Kept.stable {ws : List Write} {w : Write} {sh sh' : Shared Tables Unit}
    (h : Kept R V sh.db w) (hw : w ∈ ws) (hr : RelyOn o store i ws sh sh') :
    Kept R V sh'.db w := by
  have hheld : ∀ r ∈ w.locks, r ∈ store.held ws := fun r hr => List.mem_flatMap.mpr ⟨w, hw, hr⟩
  cases w with
  | setRun id row =>
    have hruns := runs_of_relyOn hr (hheld (.run id) List.mem_cons_self)
    obtain ⟨old, hold, hrow⟩ := h
    exact ⟨old, hruns.trans hold, hrow⟩
  | setInvestigation c row =>
    have hinv := investigations_of_relyOn hr (hheld (.investigation c) List.mem_cons_self)
    obtain ⟨old, hold, hrow⟩ := h
    exact ⟨old, hinv.trans hold, hrow⟩
  | lock r => trivial
  | insertRun id row => exact h.elim
  | insertLedger row => exact h.elim
  | insertEffect e => exact h.elim

/-- To show such a program safe, show the commit of any such updates. -/
theorem safe_of_keeps (hR : ∀ a b c, R a b → R b c → R a c)
    (hV : ∀ a b c, V a b → V b c → V a c) {prog : Program} (hprog : KeepsProg R V prog)
    {ws : List Write} {sh : Shared Tables Unit} (hws : ∀ w ∈ ws, Kept R V sh.db w)
    (hcommit : ∀ ws' n sh', (∀ w ∈ ws', Kept R V sh'.db w) → i < n → o.inv n sh' →
      Guarantees o i n sh' { sh' with db := store.applyAll ws' sh'.db } ∧
        o.commits i req sh' { sh' with db := store.applyAll ws' sh'.db }) :
    Safe o store cond i req prog ws sh := by
  induction prog generalizing ws sh with
  | rollback => trivial
  | call x next => exact hprog.elim
  | commit lab =>
    intro n sh' locked hi hinv hr _
    exact hcommit ws n sh' (fun w hw => (hws w hw).stable hw hr) hi hinv
  | stmt lab writes next ih =>
    intro n sh' locked _ _ hr _
    have hws' : ∀ w ∈ ws, Kept R V sh'.db w := fun w hw => (hws w hw).stable hw hr
    obtain ⟨hwrites, hnext⟩ := hprog ⟨store.applyAll ws sh'.db, locked⟩
    refine ih _ hnext ?_
    intro w hw
    rcases List.mem_append.mp hw with hw | hw
    · exact hws' w hw
    · exact (hwrites w hw).of_view hR hV hws'

theorem keeps_commit (lab : Stmt) : KeepsProg R V (.commit lab) := trivial

theorem keeps_reapRows (hR : ∀ row, R row row.withoutLease) (now : Time) (ids : List RunId) :
    KeepsProg R V (reapRows now ids) := by
  induction ids with
  | nil => trivial
  | cons id ids ih =>
    intro v
    refine ⟨fun w hw => ?_, ih⟩
    dsimp only at hw
    split at hw
    · rename_i row hrow
      split at hw
      · obtain rfl := List.mem_singleton.mp hw
        exact ⟨row, hrow, hR row⟩
      · cases hw
    · cases hw

theorem keeps_reap (hR : ∀ row, R row row.withoutLease) (now : Time) :
    KeepsProg R V (reapExpiredLeases now) :=
  fun _ => ⟨by simp, keeps_reapRows hR now _⟩

theorem keeps_unlock (run : RunId) (now : Time) (tokens : Option ℕ) (dollars : Option ℚ)
    (hR : ∀ row tokens dollars, R row (RunRow.unlocked row now tokens dollars)) :
    KeepsProg R V (unlockRun run now tokens dollars) := by
  unfold unlockRun
  intro v
  refine ⟨fun w hw => ?_, ?_⟩
  · obtain ⟨row, -, hw⟩ := List.mem_flatMap.mp hw
    exact kept_lock [.run run, .investigation row.investigation] _ w hw
  · dsimp only
    split
    · trivial
    · split
      · trivial
      · split
        · trivial
        · intro v'
          refine ⟨fun w hw => ?_, trivial⟩
          dsimp only at hw
          split at hw
          · rename_i row hrow
            split at hw
            · obtain rfl := List.mem_singleton.mp hw
              exact ⟨row, hrow, hR row _ _⟩
            · cases hw
          · cases hw

theorem keeps_transition (run : RunId) (resume : Bool)
    (hR : ∀ (row : RunRow) (s : RunStatus), s.live = true → R row { row with status := s }) :
    KeepsProg R V (transitionRun run resume) := by
  unfold transitionRun
  intro v
  refine ⟨fun w hw => ?_, ?_⟩
  · dsimp only at hw
    split at hw
    · rename_i row hrow
      split at hw
      · cases hw
      · simp only [List.mem_cons, List.not_mem_nil, or_false] at hw
        rcases hw with rfl | rfl
        · trivial
        · exact ⟨row, hrow, hR row _ (by cases resume <;> rfl)⟩
    · cases hw
  · dsimp only
    split
    · split <;> trivial
    · trivial

theorem keeps_attach (c : InvestigationId)
    (hV : ∀ row : InvestigationRow, V row { row with hasNewEvidence := true }) :
    KeepsProg R V (attachEvidence c) := by
  unfold attachEvidence
  refine fun v => ⟨by simp, ?_⟩
  dsimp only
  split
  · trivial
  · refine fun v' => ⟨fun w hw => ?_, trivial⟩
    obtain ⟨row, hrow, rfl⟩ := List.mem_map.mp hw
    exact ⟨row, Option.mem_toList.mp hrow, hV row⟩

/-- The claim mints a lease and touches nothing else. -/
theorem keeps_claim (session : ℕ) (now wall : Time) (capOk : Bool)
    (hR : ∀ (row : RunRow) claimed lease expires, R row
      { row with claimedAt := claimed, leaseId := lease, leaseExpiresAt := expires }) :
    KeepsProg R V (claimRun session now wall capOk) := by
  unfold claimRun
  refine fun v => ⟨kept_lock [.claimLock] _, ?_⟩
  split
  · trivial
  · refine fun v' => ⟨fun w hw => ?_, ?_⟩
    · obtain ⟨id, -, rfl⟩ := List.mem_map.mp hw
      trivial
    · dsimp only
      split
      · trivial
      · refine fun v'' => ⟨fun w hw => ?_, trivial⟩
        obtain ⟨row, hrow, rfl⟩ := List.mem_map.mp hw
        exact ⟨row, Option.mem_toList.mp hrow, hR row _ _ _⟩

end

end SocTalk.Runs
