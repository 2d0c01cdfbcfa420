import SocTalk.Triage.ClosePlanes

/-! The volume cap: however the transactions of the two planes interleave, no close commits while
the committed ones inside its rolling window are as many as the cap. -/
namespace SocTalk.Triage.VolumeCap
open Py ReadCommitted TriagePolicy

/-! ## What the cap promises -/

/-- From the transaction's timestamp on, fewer closes than the cap are inside the window. -/
def CappedPolicy.Unspent (p : CappedPolicy) (tenant : Tenant) (ctx : Context) (db : DB) : Prop :=
  ∃ cap window, intPolicy p.policy "auto_close_volume_cap" 500 = .ok cap ∧ 0 < cap ∧
    intPolicy p.policy "auto_close_volume_window_hours" 24 = .ok window ∧
    ∀ now, ctx.now ≤ now →
      (countRecentAutoCloses { ctx with now } db tenant (max 1 window) : ℤ) < cap

/-- The policy that session `i` reads for its close of an investigation. -/
inductive DecidedUnder (i : ℕ) : Request → ℕ → CappedPolicy → Prop
  | ingest {ctx : Context} {batch : List Delivery} {n : ℕ} {a : Arrival}
      (h : batch[n]? = some (.fresh a)) : DecidedUnder i (.ingest ctx batch) (uuid i n) a.policy
  | complete {ctx : Context} {c : Completion} :
      DecidedUnder i (.complete ctx c) c.investigation c.policy

/-- The investigation is closed as a false positive. -/
def Closed (tenant : Tenant) (id : ℕ) (db : DB) : Prop :=
  ∃ i ∈ db.investigations, i.id = id ∧ i.tenant = tenant ∧ i.status = .autoClosedFp

/-- A step that commits a close finds the cap of the close's own policy not spent by the closes
committed before it. -/
def CapKept (tenant : Tenant) (sys : System) : Prop :=
  ∀ e sys', step store (serve tenant) sys e = some sys' → ∀ id,
    ¬Closed tenant id sys.shared.db → Closed tenant id sys'.shared.db →
    ∃ i s p, e = .advance i ∧ sys.session i = some s ∧ DecidedUnder i s.req id p ∧
      p.Unspent tenant s.req.ctx sys.shared.db

/-! ## The closes and the count -/

def isClosed (tenant : Tenant) (i : Investigation) : Bool :=
  i.tenant == tenant && i.status == .autoClosedFp

/-- The closes that both planes count. -/
def closes (tenant : Tenant) (db : DB) : List Investigation :=
  db.investigations.filter (isClosed tenant)

section

variable {tenant : Tenant} {ctx : Context} {db db' : DB}

theorem closed_iff {id : ℕ} : Closed tenant id db ↔ ∃ i ∈ closes tenant db, i.id = id := by
  unfold Closed closes isClosed
  constructor
  · rintro ⟨i, hmem, hid, htenant, hstatus⟩
    exact ⟨i, List.mem_filter.mpr ⟨hmem, by simp [htenant, hstatus]⟩, hid⟩
  · rintro ⟨i, hmem, hid⟩
    obtain ⟨hmem, hclosed⟩ := List.mem_filter.mp hmem
    have hboth : i.tenant = tenant ∧ i.status = .autoClosedFp := by simpa using hclosed
    exact ⟨i, hmem, hid, hboth.1, hboth.2⟩

/-- The count is over the closes alone. -/
theorem countRecent_eq (window : ℤ) : countRecentAutoCloses ctx db tenant window =
    (closes tenant db).countP fun i => match i.closedAt with
      | some closed => decide (ctx.now - window * microsPerHour < closed)
      | none => false := by
  unfold countRecentAutoCloses closes isClosed
  rw [List.countP_filter]
  congr 1
  funext i
  exact Bool.and_comm _ _

/-- More closes count for more. -/
theorem countRecent_le_of_sublist (h : (closes tenant db).Sublist (closes tenant db'))
    (window : ℤ) :
    countRecentAutoCloses ctx db tenant window ≤ countRecentAutoCloses ctx db' tenant window := by
  rw [countRecent_eq, countRecent_eq]
  exact h.countP_le

/-- Closes only leave the window as time passes. -/
theorem countRecent_antitone {now : ℤ} (h : ctx.now ≤ now) (window : ℤ) :
    countRecentAutoCloses { ctx with now } db tenant window ≤
      countRecentAutoCloses ctx db tenant window := by
  rw [countRecent_eq, countRecent_eq]
  refine List.countP_mono_left fun i _ hi => ?_
  cases hclosed : i.closedAt with
  | none => simp [hclosed] at hi
  | some closed =>
    have hin : now - window * microsPerHour < closed := by simpa [hclosed] using hi
    have hin' : ctx.now - window * microsPerHour < closed := by omega
    simpa using hin'

theorem CappedPolicy.Unspent.of_closes {p : CappedPolicy} (h : p.Unspent tenant ctx db)
    (heq : closes tenant db' = closes tenant db) : p.Unspent tenant ctx db' := by
  obtain ⟨cap, window, hcap, hpos, hwindow, hlt⟩ := h
  refine ⟨cap, window, hcap, hpos, hwindow, fun now hnow => ?_⟩
  have hsame : countRecentAutoCloses { ctx with now } db' tenant (max 1 window) =
      countRecentAutoCloses { ctx with now } db tenant (max 1 window) := by
    rw [countRecent_eq, countRecent_eq, heq]
  rw [hsame]
  exact hlt now hnow

end

/-! ## What a transaction relies on -/

/-- An investigation of the tenant is active. -/
def Active (tenant : Tenant) (id : ℕ) (db : DB) : Prop :=
  db.investigations.any (isActive tenant id) = true

/-- What other transactions leave as it is: ids stay, nothing that was there becomes active
again, the closes stay while the advisory lock is held, and no locked id appears. -/
structure Steady (tenant : Tenant) (held : List Resource) (db db' : DB) : Prop where
  ids : ∀ id, known db id = true → known db' id = true
  settled : ∀ id, known db id = true → Active tenant id db' → Active tenant id db
  counted : Resource.volume ∈ held → closes tenant db' = closes tenant db
  fresh : ∀ id, Resource.investigation id ∈ held → known db' id = true → known db id = true

def capDiscipline (tenant : Tenant) : Discipline DB Resource Request where
  rely _ held db db' := Steady tenant held db db'
  commits i req db db' := ∀ id, ¬Closed tenant id db → Closed tenant id db' →
    ∃ p, DecidedUnder i req id p ∧ p.Unspent tenant req.ctx db
  rely_refl _ _ _ := ⟨fun _ h => h, fun _ _ h => h, fun _ => rfl, fun _ _ h => h⟩
  rely_trans _ _ _ _ _ h h' :=
    { ids := fun id hk => h'.ids id (h.ids id hk)
      settled := fun id hk ha => h.settled id hk (h'.settled id (h.ids id hk) ha)
      counted := fun hheld => (h'.counted hheld).trans (h.counted hheld)
      fresh := fun id hheld hk => h.fresh id hheld (h'.fresh id hheld hk) }

/-- A transaction that leaves the table as it is. -/
theorem Steady.of_same {tenant : Tenant} {held : List Resource} {db db' : DB}
    (h : db'.investigations = db.investigations) : Steady tenant held db db' := by
  have hknown : ∀ id, known db' id = known db id := by
    intro id
    unfold known
    rw [h]
  refine ⟨fun id hk => (hknown id).trans hk, ?_, ?_, fun id _ hk => (hknown id).symm.trans hk⟩
  · intro id _ ha
    unfold Active at ha ⊢
    rwa [h] at ha
  · intro _
    unfold closes
    rw [h]

/-! ## The floor -/

section

variable {tenant : Tenant} {ctx : Context} {i : ℕ} {req : Request} {ws : List Write} {db : DB}

/-- The transaction holds the lock, and the cap was not spent when it counted. -/
def Counted (tenant : Tenant) (ctx : Context) (p : CappedPolicy) (ws : List Write) (db : DB) :
    Prop :=
  Resource.volume ∈ store.held ws ∧ p.Unspent tenant ctx db

theorem Counted.steady {p : CappedPolicy} {db' : DB} (h : Counted tenant ctx p ws db)
    (hs : Steady tenant (store.held ws) db db') : Counted tenant ctx p ws db' :=
  ⟨h.1, h.2.of_closes (hs.counted h.1)⟩

/-- An assertion on the pending writes that other transactions keep, that the advisory lock
keeps, and under which the transaction counts at least what is committed. -/
structure Assertion (tenant : Tenant) (P : List Write → DB → Prop) : Prop where
  steady : ∀ ws db db', P ws db → Steady tenant (store.held ws) db db' → P ws db'
  lock : ∀ ws db, P ws db → P (ws ++ [.lock .volume]) db
  counts : ∀ ws db, P ws db → (closes tenant db).Sublist (closes tenant (store.applyAll ws db))

variable {P : List Write → DB → Prop}

/-- A read. -/
theorem Assertion.select (hA : Assertion tenant P) (hP : P ws db)
    {next : View DB Resource → Program}
    (hnext : ∀ db locked, P ws db →
      Sound (capDiscipline tenant) store i req (next ⟨store.applyAll ws db, locked⟩) ws db) :
    Sound (capDiscipline tenant) store i req (select next) ws db := by
  refine Sound.of_stmt (P := P ws) (fun db db' h hs => hA.steady ws db db' h hs) hP ?_
  intro db locked hP
  rw [List.append_nil]
  exact hnext db locked hP

theorem sound_attempt {α : Type} {x : M α} {next : α → Program}
    (hnext : ∀ a, x = .ok a → Sound (capDiscipline tenant) store i req (next a) ws db) :
    Sound (capDiscipline tenant) store i req (attempt x next) ws db := by
  unfold attempt
  cases x with
  | ok a => exact hnext a rfl
  | error e => trivial

/-- Past the check a transaction either knows the cap spent, or holds the lock under which it
counted fewer closes. -/
theorem Assertion.volumeCapExceeded (hA : Assertion tenant P) (p : CappedPolicy) (hP : P ws db)
    {next : Bool → Program}
    (hnext : ∀ exceeded ws db, P ws db → (exceeded = false → Counted tenant ctx p ws db) →
      Sound (capDiscipline tenant) store i req (next exceeded) ws db) :
    Sound (capDiscipline tenant) store i req (volumeCapExceeded tenant ctx p.policy next) ws
      db := by
  refine sound_attempt fun cap hcap => ?_
  obtain ⟨cap', hcap', hpos⟩ := p.inForce
  obtain rfl := Except.ok.inj (hcap'.symm.trans hcap)
  rw [if_neg (by omega)]
  refine sound_attempt fun window hwindow => ?_
  refine Sound.of_stmt (P := P ws) (fun db db' h hs => hA.steady ws db db' h hs) hP ?_
  intro db locked hP
  refine hA.select (hA.lock ws db hP) fun db locked hP => hnext _ _ _ hP fun hbelow => ?_
  have hheld : Resource.volume ∈ store.held (ws ++ [.lock .volume]) := by
    simp [store, Write.locks]
  have hlt : (countRecentAutoCloses ctx (store.applyAll (ws ++ [.lock .volume]) db) tenant
      (max 1 window) : ℤ) < cap' := by simpa using hbelow
  refine ⟨hheld, cap', window, hcap', hpos, hwindow, fun now hnow => ?_⟩
  -- The count saw every committed close, and none enters the window later.
  have hseen : countRecentAutoCloses ctx db tenant (max 1 window) ≤
      countRecentAutoCloses ctx (store.applyAll (ws ++ [.lock .volume]) db) tenant
        (max 1 window) := countRecent_le_of_sublist (hA.counts _ _ hP) _
  have hlater : countRecentAutoCloses { ctx with now } db tenant (max 1 window) ≤
      countRecentAutoCloses ctx db tenant (max 1 window) := countRecent_antitone hnow _
  omega

end

theorem not_exceeded {exceeded : Bool}
    (h : (if exceeded then some Veto.volumeCap else none) = none) : exceeded = false := by
  cases exceeded with
  | true => cases h
  | false => rfl

/-! ## Ingest -/

section

variable {tenant : Tenant} {ctx : Context} {i : ℕ} {batch : List Delivery} {ws : List Write}
  {db db' : DB}

/-- A pending write of ingest: a lock, or an investigation under a locked id that is not in the
table; a closed one was counted. -/
def Filed (tenant : Tenant) (ctx : Context) (i : ℕ) (batch : List Delivery) (ws : List Write)
    (db : DB) : Write → Prop
  | .lock _ => True
  | .insertInvestigation row => known db row.id = false ∧
      Resource.investigation row.id ∈ store.held ws ∧ (isClosed tenant row = true →
        ∃ p, DecidedUnder i (.ingest ctx batch) row.id p ∧ Counted tenant ctx p ws db)
  | .updateActive _ _ _ => False

def AllFiled (tenant : Tenant) (ctx : Context) (i : ℕ) (batch : List Delivery) (ws : List Write)
    (db : DB) : Prop :=
  ∀ w ∈ ws, Filed tenant ctx i batch ws db w

/-- The table under the pending writes: the committed rows, then those filed. -/
theorem AllFiled.investigations {ws' : List Write}
    (h : ∀ w ∈ ws', Filed tenant ctx i batch ws db w) (db' : DB) :
    ∃ rows, (store.applyAll ws' db').investigations = db'.investigations ++ rows ∧
      ∀ row ∈ rows, .insertInvestigation row ∈ ws' := by
  induction ws' generalizing db' with
  | nil => exact ⟨[], by simp, by simp⟩
  | cons w ws' ih =>
    have htail : ∀ w ∈ ws', Filed tenant ctx i batch ws db w := fun w' hw' =>
      h w' (List.mem_cons_of_mem w hw')
    obtain ⟨rows, heq, hrows⟩ := ih htail (w.apply db')
    have hlater : ∀ row ∈ rows, .insertInvestigation row ∈ w :: ws' := fun row hrow =>
      List.mem_cons_of_mem w (hrows row hrow)
    cases w with
    | lock r => exact ⟨rows, heq, hlater⟩
    | insertInvestigation row =>
      refine ⟨row :: rows, ?_, ?_⟩
      · rw [store.applyAll_cons]
        exact heq.trans (List.append_assoc _ _ _)
      · intro row' hrow'
        rcases List.mem_cons.mp hrow' with rfl | hrow'
        · exact List.mem_cons_self
        · exact hlater row' hrow'
    | updateActive tenant' id change => exact (h _ List.mem_cons_self).elim

theorem Filed.steady {w : Write} (h : Filed tenant ctx i batch ws db w)
    (hs : Steady tenant (store.held ws) db db') : Filed tenant ctx i batch ws db' w := by
  cases w with
  | lock r => trivial
  | updateActive tenant' id change => exact h
  | insertInvestigation row =>
    obtain ⟨hnew, hheld, hclosed⟩ := h
    refine ⟨?_, hheld, fun hc => ?_⟩
    · have hstays : ¬known db' row.id = true := by
        intro hk
        have hold := hs.fresh row.id hheld hk
        rw [hnew] at hold
        cases hold
      simpa using hstays
    · obtain ⟨p, hp, hcounted⟩ := hclosed hc
      exact ⟨p, hp, hcounted.steady hs⟩

/-- More pending writes hold more locks. -/
theorem Filed.mono {w : Write} (h : Filed tenant ctx i batch ws db w) (ws' : List Write) :
    Filed tenant ctx i batch (ws ++ ws') db w := by
  cases w with
  | lock r => trivial
  | updateActive tenant' id change => exact h
  | insertInvestigation row =>
    obtain ⟨hnew, hheld, hclosed⟩ := h
    refine ⟨hnew, Store.mem_held_append hheld ws', fun hc => ?_⟩
    obtain ⟨p, hp, hvolume, hunspent⟩ := hclosed hc
    exact ⟨p, hp, Store.mem_held_append hvolume ws', hunspent⟩

theorem AllFiled.concat {w : Write} (h : AllFiled tenant ctx i batch ws db)
    (hw : Filed tenant ctx i batch (ws ++ [w]) db w) :
    AllFiled tenant ctx i batch (ws ++ [w]) db := by
  intro w' hw'
  rcases List.mem_append.mp hw' with hw' | hw'
  · exact (h w' hw').mono [w]
  · obtain rfl := List.mem_singleton.mp hw'
    exact hw

theorem assertion_allFiled : Assertion tenant (AllFiled tenant ctx i batch) where
  steady _ _ _ h hs := fun w hw => (h w hw).steady hs
  lock _ _ h := h.concat trivial
  counts ws db h := by
    obtain ⟨rows, heq, -⟩ := AllFiled.investigations h db
    unfold closes
    rw [heq, List.filter_append]
    exact List.sublist_append_left _ _

/-- The commit of a batch: every close in it was counted against the closes committed by now. -/
theorem AllFiled.commit (h : AllFiled tenant ctx i batch ws db) :
    Sound (capDiscipline tenant) store i (.ingest ctx batch) (.commit () : Program) ws db := by
  intro db' hr
  have hfiled : AllFiled tenant ctx i batch ws db' := fun w hw => (h w hw).steady hr
  obtain ⟨rows, heq, hrows⟩ := AllFiled.investigations hfiled db'
  refine ⟨?_, ?_⟩
  · intro id hnot hclosed
    obtain ⟨row, hmem, hid, htenant, hstatus⟩ := hclosed
    rw [heq] at hmem
    rcases List.mem_append.mp hmem with hold | hnew
    · exact absurd ⟨row, hold, hid, htenant, hstatus⟩ hnot
    · obtain ⟨-, -, hcounted⟩ := hfiled _ (hrows row hnew)
      obtain ⟨p, hp, -, hunspent⟩ := hcounted (by simp [isClosed, htenant, hstatus])
      exact ⟨p, hid ▸ hp, hunspent⟩
  · intro j held _ hfree
    have hknown : ∀ id, known db' id = true →
        known (store.applyAll ws db') id = true := by
      intro id hk
      unfold known at hk ⊢
      rw [heq, List.any_append, hk, Bool.true_or]
    have hfresh : ∀ row ∈ rows, known db' row.id = false := fun row hrow =>
      (hfiled _ (hrows row hrow)).1
    refine ⟨hknown, ?_, ?_, ?_⟩
    · intro id hk hactive
      unfold Active at hactive ⊢
      rw [heq, List.any_append, Bool.or_eq_true] at hactive
      rcases hactive with hold | hnew
      · exact hold
      · obtain ⟨row, hrow, hact⟩ := List.any_eq_true.mp hnew
        have hid : row.id = id := by
          have hall : (row.id = id ∧ row.tenant = tenant) ∧ row.status = .active := by
            simpa [isActive] using hact
          exact hall.1.1
        have hunknown := hfresh row hrow
        rw [hid, hk] at hunknown
        cases hunknown
    · -- A session beside this one holds the lock, so this one has counted nothing.
      intro hvolume
      have hnone : rows.filter (isClosed tenant) = [] := by
        refine List.filter_eq_nil_iff.mpr fun row hrow hc => ?_
        obtain ⟨-, -, hcounted⟩ := hfiled _ (hrows row hrow)
        obtain ⟨p, -, hmine, -⟩ := hcounted hc
        exact hfree _ hvolume hmine
      unfold closes
      rw [heq, List.filter_append, hnone, List.append_nil]
    · intro id hheld hk
      unfold known at hk ⊢
      rw [heq, List.any_append, Bool.or_eq_true] at hk
      rcases hk with hold | hnew
      · exact hold
      · obtain ⟨row, hrow, hid⟩ := List.any_eq_true.mp hnew
        obtain ⟨-, hmine, -⟩ := hfiled _ (hrows row hrow)
        have hid : row.id = id := by simpa using hid
        exact absurd (hid ▸ hmine) (hfree _ hheld)

/-- An insert under the primary key. -/
theorem AllFiled.insert {row : Investigation} {next : Program}
    (h : AllFiled tenant ctx i batch ws db)
    (hclosed : isClosed tenant row = true →
      ∃ p, DecidedUnder i (.ingest ctx batch) row.id p ∧ Counted tenant ctx p ws db)
    (hnext : ∀ ws db, AllFiled tenant ctx i batch ws db →
      Sound (capDiscipline tenant) store i (.ingest ctx batch) next ws db) :
    Sound (capDiscipline tenant) store i (.ingest ctx batch) (insert row next) ws db := by
  intro db' locked hr
  have hfiled : AllFiled tenant ctx i batch ws db' := fun w hw => (h w hw).steady hr
  dsimp only
  split
  · trivial
  · rename_i hnew
    refine hnext _ _ (hfiled.concat ⟨?_, ?_, fun hc => ?_⟩)
    · -- An id in the table would also be in the transaction's view of it.
      obtain ⟨rows, heq, -⟩ := AllFiled.investigations hfiled db'
      unfold known at hnew ⊢
      rw [heq, List.any_append] at hnew
      simpa using (by simpa using hnew : _ ∧ _).1
    · simp [store, Write.locks]
    · obtain ⟨p, hp, hcounted⟩ := hclosed hc
      obtain ⟨hvolume, hunspent⟩ := hcounted.steady hr
      exact ⟨p, hp, Store.mem_held_append hvolume _, hunspent⟩

section

variable {n : ℕ} {a : Arrival} {next : Program}
  (hnext : ∀ ws db, AllFiled tenant ctx i batch ws db →
    Sound (capDiscipline tenant) store i (.ingest ctx batch) next ws db)

include hnext

theorem sound_promote (id : ℕ) (h : AllFiled tenant ctx i batch ws db) :
    Sound (capDiscipline tenant) store i (.ingest ctx batch) (promote tenant id a next) ws db := by
  refine h.insert ?_ hnext
  intro hc
  simp [isClosed] at hc

theorem sound_autoCloseAlert (ha : batch[n]? = some (.fresh a))
    (h : AllFiled tenant ctx i batch ws db) (hcounted : Counted tenant ctx a.policy ws db) :
    Sound (capDiscipline tenant) store i (.ingest ctx batch)
      (autoCloseAlert tenant ctx (uuid i n) a next) ws db :=
  h.insert (fun _ => ⟨a.policy, .ingest ha, hcounted⟩) hnext

omit hnext in
/-- Past the floor nothing is vetoed but what was counted. -/
theorem sound_closeFloorVeto {activeIncident : Bool} {next : Option Veto → Program}
    (h : AllFiled tenant ctx i batch ws db)
    (hnext : ∀ veto ws db, AllFiled tenant ctx i batch ws db →
      (veto = none → Counted tenant ctx a.policy ws db) →
      Sound (capDiscipline tenant) store i (.ingest ctx batch) (next veto) ws db) :
    Sound (capDiscipline tenant) store i (.ingest ctx batch)
      (closeFloorVeto tenant ctx a activeIncident next) ws db := by
  unfold closeFloorVeto
  split
  · exact hnext _ ws db h nofun
  · split
    · exact hnext _ ws db h nofun
    · refine assertion_allFiled.select h fun db locked h => ?_
      split
      · exact hnext _ ws db h nofun
      · refine assertion_allFiled.volumeCapExceeded a.policy h fun exceeded ws db h hcounted => ?_
        exact hnext _ ws db h fun hnone => hcounted (not_exceeded hnone)

theorem sound_rulesAutoClose (ha : batch[n]? = some (.fresh a)) (denied : Bool)
    (h : AllFiled tenant ctx i batch ws db) :
    Sound (capDiscipline tenant) store i (.ingest ctx batch)
      (rulesAutoClose tenant ctx (uuid i n) a denied next) ws db := by
  unfold rulesAutoClose
  split
  · refine sound_closeFloorVeto h fun veto ws db h hcounted => ?_
    cases veto with
    | some v => exact sound_promote hnext _ h
    | none => exact sound_autoCloseAlert hnext ha h (hcounted rfl)
  · exact sound_promote hnext _ h

theorem sound_memoizedClose (ha : batch[n]? = some (.fresh a))
    (h : AllFiled tenant ctx i batch ws db) :
    Sound (capDiscipline tenant) store i (.ingest ctx batch)
      (memoizedClose tenant ctx (uuid i n) a next) ws db := by
  unfold memoizedClose
  split
  · refine sound_closeFloorVeto h fun veto ws db h hcounted => ?_
    cases veto with
    | some v => exact sound_rulesAutoClose hnext ha false h
    | none =>
      rw [if_neg (by simp)]
      split
      · exact sound_rulesAutoClose hnext ha true h
      · exact sound_autoCloseAlert hnext ha h (hcounted rfl)
  · exact sound_rulesAutoClose hnext ha false h

end

/-- A batch, by induction over the events that are left of it. -/
theorem sound_ingestEvents (rest : List Delivery) (n : ℕ) (hrest : batch.drop n = rest)
    (h : AllFiled tenant ctx i batch ws db) :
    Sound (capDiscipline tenant) store i (.ingest ctx batch) (ingestEvents tenant ctx i n rest) ws
      db := by
  induction rest generalizing n ws db with
  | nil => exact AllFiled.commit h
  | cons d rest ih =>
    have hd : batch[n]? = some d := by
      rw [← List.head?_drop, hrest]
      rfl
    have htail : batch.drop (n + 1) = rest := by
      rw [← List.tail_drop, hrest]
      rfl
    cases d with
    | elsewhere => exact ih (n + 1) htail h
    | fresh a => exact sound_memoizedClose (fun ws db h => ih (n + 1) htail h) hd h

end

/-! ## The worker -/

section

variable {tenant : Tenant} {ctx : Context} {i : ℕ} {c : Completion} {ws : List Write}
  {db db' : DB} {id : ℕ} {change : Change}

@[simp] theorem Change.id_apply (change : Change) (row : Investigation) :
    (change.apply row).id = row.id := by
  cases change <;> rfl

@[simp] theorem Change.tenant_apply (change : Change) (row : Investigation) :
    (change.apply row).tenant = row.tenant := by
  cases change <;> rfl

theorem isActive_iff {row : Investigation} : isActive tenant id row = true ↔
    row.id = id ∧ row.tenant = tenant ∧ row.status = .active := by
  simp [isActive, and_assoc]

/-- A row under the update: as it was, or an active one changed. -/
theorem mem_updateActive {row : Investigation}
    (h : row ∈ (Write.apply (.updateActive tenant id change) db).investigations) :
    row ∈ db.investigations ∨
      ∃ old ∈ db.investigations, isActive tenant id old = true ∧ row = change.apply old := by
  obtain ⟨old, hold, rfl⟩ := List.mem_map.mp h
  by_cases hactive : isActive tenant id old = true
  · rw [if_pos hactive]
    exact Or.inr ⟨old, hold, hactive, rfl⟩
  · rw [if_neg hactive]
    exact Or.inl hold

theorem known_updateActive (id' : ℕ) :
    known (Write.apply (.updateActive tenant id change) db) id' = known db id' := by
  unfold known Write.apply
  rw [List.any_map]
  congr
  funext row
  simp only [Function.comp]
  split <;> simp

/-- The update makes nothing active. -/
theorem active_updateActive {id' : ℕ}
    (h : Active tenant id' (Write.apply (.updateActive tenant id change) db)) :
    Active tenant id' db := by
  obtain ⟨row, hmem, hrow⟩ := List.any_eq_true.mp h
  obtain ⟨hid, htenant, -⟩ := isActive_iff.mp hrow
  rcases mem_updateActive hmem with hold | ⟨old, hold, hactive, rfl⟩
  · exact List.any_eq_true.mpr ⟨row, hold, hrow⟩
  · obtain ⟨-, -, hstatus⟩ := isActive_iff.mp hactive
    rw [Change.id_apply] at hid
    rw [Change.tenant_apply] at htenant
    exact List.any_eq_true.mpr ⟨old, hold, isActive_iff.mpr ⟨hid, htenant, hstatus⟩⟩

/-- An escalation closes nothing. -/
theorem closes_escalated :
    closes tenant (Write.apply (.updateActive tenant id .escalated) db) = closes tenant db := by
  have hkept : ∀ row : Investigation, isClosed tenant
      (if isActive tenant id row then Change.escalated.apply row else row) =
        isClosed tenant row := by
    intro row
    split <;> rfl
  have hsame : ∀ row ∈ db.investigations.filter (isClosed tenant),
      (if isActive tenant id row then Change.escalated.apply row else row) = row := by
    intro row hrow
    have hclosed : row.tenant = tenant ∧ row.status = .autoClosedFp := by
      simpa [isClosed] using (List.mem_filter.mp hrow).2
    rw [if_neg]
    intro hactive
    obtain ⟨-, -, hstatus⟩ := isActive_iff.mp hactive
    rw [hclosed.2] at hstatus
    cases hstatus
  unfold closes Write.apply
  rw [List.filter_map, show isClosed tenant ∘ _ = isClosed tenant from funext hkept]
  exact (List.map_congr_left hsame).trans (List.map_id' _)

/-- The update of an escalation, or of a close that was counted. -/
theorem sound_commit_update (hlocks : store.applyAll ws = fun db => db)
    (hcounted : change ≠ .escalated → Counted tenant ctx c.policy ws db) :
    Sound (capDiscipline tenant) store i (.complete ctx c) (.commit () : Program)
      (ws ++ [.updateActive tenant c.investigation change]) db := by
  intro db' hr
  have hdb : store.applyAll (ws ++ [.updateActive tenant c.investigation change]) db' =
      Write.apply (.updateActive tenant c.investigation change) db' := by
    rw [store.applyAll_append, hlocks]
    rfl
  have hcounted' : change ≠ .escalated → Resource.volume ∈ store.held ws ∧
      c.policy.Unspent tenant ctx db' := by
    intro hne
    obtain ⟨hvolume, hunspent⟩ := hcounted hne
    exact ⟨hvolume, hunspent.of_closes (hr.counted (Store.mem_held_append hvolume _))⟩
  rw [hdb]
  refine ⟨?_, ?_⟩
  · intro id hnot hclosed
    obtain ⟨row, hmem, hid, htenant, hstatus⟩ := hclosed
    rcases mem_updateActive hmem with hold | ⟨old, hold, hactive, rfl⟩
    · exact absurd ⟨row, hold, hid, htenant, hstatus⟩ hnot
    · obtain ⟨hold, -, hactive⟩ := isActive_iff.mp hactive
      have hne : change ≠ .escalated := by
        rintro rfl
        have hstill : old.status = .autoClosedFp := hstatus
        rw [hactive] at hstill
        cases hstill
      rw [Change.id_apply, hold] at hid
      exact ⟨c.policy, hid ▸ .complete, (hcounted' hne).2⟩
  · intro j held _ hfree
    refine ⟨fun id hk => (known_updateActive id).trans hk, fun id _ ha => active_updateActive ha,
      ?_, fun id _ hk => (known_updateActive id).symm.trans hk⟩
    intro hvolume
    cases change with
    | escalated => exact closes_escalated
    | closed now signature reopenUntil =>
      obtain ⟨hmine, -⟩ := hcounted' nofun
      exact absurd (Store.mem_held_append hmine _) (hfree _ hvolume)

/-- A completion that has only locked so far, for an investigation in the table. -/
def Attending (c : Completion) (ws : List Write) (db : DB) : Prop :=
  store.applyAll ws = (fun db => db) ∧ known db c.investigation = true

theorem assertion_attending : Assertion tenant (Attending c) where
  steady _ _ _ h hs := ⟨h.1, hs.ids _ h.2⟩
  lock ws _ h := by
    refine ⟨funext fun db => ?_, h.2⟩
    rw [store.applyAll_append, h.1]
    rfl
  counts ws db h := by
    rw [h.1]

/-- What the floor has found where it vetoes nothing: the cap was counted, or the investigation
is closed already and stays so. -/
def Passed (tenant : Tenant) (ctx : Context) (c : Completion) (ws : List Write) (db : DB) : Prop :=
  Counted tenant ctx c.policy ws db ∨ ¬Active tenant c.investigation db

theorem Passed.steady (h : Passed tenant ctx c ws db) (ha : Attending c ws db)
    (hs : Steady tenant (store.held ws) db db') : Passed tenant ctx c ws db' := by
  rcases h with hcounted | hidle
  · exact Or.inl (hcounted.steady hs)
  · exact Or.inr fun hactive => hidle (hs.settled _ ha.2 hactive)

theorem sound_update (h : Attending c ws db)
    (hpassed : change ≠ .escalated → Passed tenant ctx c ws db) :
    Sound (capDiscipline tenant) store i (.complete ctx c)
      (update tenant c.investigation change (.commit ())) ws db := by
  intro db' locked hr
  have hpassed' : change ≠ .escalated → Passed tenant ctx c ws db' := fun hne =>
    (hpassed hne).steady h hr
  have hview : store.applyAll ws db' = db' := by
    rw [h.1]
  dsimp only
  rw [hview]
  split
  · rename_i hactive
    refine sound_commit_update h.1 fun hne => ?_
    rcases hpassed' hne with hcounted | hidle
    · exact hcounted
    · exact absurd hactive hidle
  · -- No row matches: the commit changes nothing.
    intro db'' _
    rw [List.append_nil, h.1]
    refine ⟨fun id hnot hclosed => absurd hclosed hnot, ?_⟩
    exact fun j held _ _ => Steady.of_same rfl

theorem sound_closeFpFloorVeto {next : Option Veto → Program} (h : Attending c ws db)
    (hnext : ∀ veto ws db, Attending c ws db →
      (veto = none → Passed tenant ctx c ws db) →
      Sound (capDiscipline tenant) store i (.complete ctx c) (next veto) ws db) :
    Sound (capDiscipline tenant) store i (.complete ctx c)
      (closeFpFloorVeto tenant ctx c next) ws db := by
  refine assertion_attending.select h fun db locked h => ?_
  have hview : store.applyAll ws db = db := by
    rw [h.1]
  have hrow : ∀ row ∈ db.investigations, isActive tenant c.investigation row = true →
      row ∈ db.investigations.filter (fun i => i.id == c.investigation && i.tenant == tenant) := by
    intro row hmem hactive
    obtain ⟨hid, htenant, -⟩ := isActive_iff.mp hactive
    exact List.mem_filter.mpr ⟨hmem, by simp [hid, htenant]⟩
  dsimp only
  rw [hview]
  split
  · rename_i hnone
    refine hnext none ws db h fun _ => Or.inr fun hactive => ?_
    obtain ⟨row, hmem, hrow'⟩ := List.any_eq_true.mp hactive
    have hin := hrow row hmem hrow'
    rw [hnone] at hin
    cases hin
  · rename_i old hone
    split
    · rename_i hstatus
      refine hnext none ws db h fun _ => Or.inr fun hactive => ?_
      obtain ⟨row, hmem, hrow'⟩ := List.any_eq_true.mp hactive
      have hin := hrow row hmem hrow'
      rw [hone] at hin
      obtain rfl := List.mem_singleton.mp hin
      exact hstatus (isActive_iff.mp hrow').2.2
    · split
      · exact hnext _ ws db h nofun
      · refine assertion_attending.select h fun db locked h => ?_
        split
        · exact hnext _ ws db h nofun
        · refine assertion_attending.volumeCapExceeded c.policy h fun exceeded ws db h hc => ?_
          exact hnext _ ws db h fun hnone => Or.inl (hc (not_exceeded hnone))
  · trivial

theorem sound_completeRun (i : ℕ) (ctx : Context) (c : Completion) (db : DB) :
    Sound (capDiscipline tenant) store i (.complete ctx c) (completeRun tenant ctx c) [] db := by
  intro db' locked _
  dsimp only
  split
  · rename_i hknown
    have hattending : Attending c [] db' := ⟨rfl, hknown⟩
    refine sound_closeFpFloorVeto hattending fun veto ws db h hpassed => ?_
    refine sound_update h fun hne => hpassed ?_
    cases veto with
    | none => rfl
    | some v => exact absurd rfl hne
  · trivial

end

/-! ## Every run -/

theorem sound_serve (tenant : Tenant) (n : ℕ) (req : Request) (db : DB) :
    Sound (capDiscipline tenant) store n req (serve tenant n req) [] db := by
  cases req with
  | ingest ctx batch => exact sound_ingestEvents batch 0 rfl (by simp [AllFiled])
  | complete ctx c => exact sound_completeRun n ctx c db

instance : ∀ lab v, Decidable (always lab v) := fun _ _ => isTrue trivial

/-- A cap of one close a day. -/
def capOfOne : CappedPolicy := ⟨[("auto_close_volume_cap", .int 1)], 1, rfl, by decide⟩

def noise : Arrival :=
  { policy := capOfOne, severity := 2, firstEventAt := 0, rulesClose := true
    signature := ⟨[], [], []⟩, reopenWindow := 0 }

/-- A batch closes an alert and a worker an investigation: the worker reads its status first, and
counts when the batch has committed. -/
def bothPlanes : List (Event Request) :=
  [.begin (.ingest quietContext [.fresh noise]),
    .begin (.complete quietContext ⟨5, capOfOne, false, ⟨[], [], []⟩, 0⟩)] ++
  List.replicate 3 (.advance 1) ++ List.replicate 5 (.advance 0) ++ List.replicate 4 (.advance 1)

def oneActive : DB := { investigations := [⟨5, 0, .active, 5, 0, none, none, none, 0, false⟩] }

end SocTalk.Triage.VolumeCap
