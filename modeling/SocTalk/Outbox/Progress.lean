import Mathlib.Data.List.Chain
import SocTalk.Lib.Sessions
import SocTalk.Outbox.Executor

/-! Every execution that ends brings its row forward, as long as its handler leaves the
transaction in which the row is marked open. -/
namespace SocTalk.Outbox
open ReadCommitted Proposals Transaction

variable {P : Type}

/-! ## Marking a claimed row -/

/-- A text that a column takes. -/
def storable (s : String) : Bool := !s.toList.contains '\x00'

/-- The handler leaves the transaction open, and what it returns or raises can be stored. -/
def Settles (kind : String) (handler : Option Handler) : Prop :=
  match handlerFor kind handler false with
  | (.ok externalRef, aborted) => aborted = false ∧ storable (externalRef.getD "") = true
  | (.error err, aborted) => aborted = false ∧ storable err = true

instance (kind : String) (handler : Option Handler) : Decidable (Settles kind handler) := by
  unfold Settles
  split <;> infer_instance

def encodingError : String := "invalid byte sequence for encoding"

theorem storeText_open (s : String) : storeText s false =
    if storable s then (.ok (), false) else (.error encodingError, true) := by
  unfold storeText storable
  cases s.toList.contains '\x00' <;> rfl

theorem recordSuccess_open (externalRef : Option String) : recordSuccess externalRef false =
    if storable (externalRef.getD "") then (.ok .succeeded, false)
    else (.error encodingError, true) := by
  unfold recordSuccess markOutboxSucceeded
  rw [bind_apply, storeText_open]
  cases storable (externalRef.getD "") <;> rfl

theorem recordFailure_open (err : String) : recordFailure err false =
    if storable err then (.ok .failed, false) else (.error encodingError, true) := by
  unfold recordFailure markOutboxFailed
  simp only [bind_apply, statement_open, storeText_open]
  cases hs : storable err with
  | true =>
    simp only [if_true, storeText_open, hs]
    rfl
  | false => rfl

/-- An aborted transaction refuses the bookkeeping. -/
theorem recordSuccess_aborted (externalRef : Option String) :
    recordSuccess externalRef true = (.error refusal, true) := rfl

theorem recordFailure_aborted (err : String) : recordFailure err true = (.error refusal, true) :=
  rfl

/-- `execute_one` gets to a mark exactly where the handler settles. -/
theorem executeClaimed_eq (kind : String) (handler : Option Handler) :
    (Settles kind handler → ∃ mark, executeClaimed kind handler false = (.ok mark, false)) ∧
      (¬ Settles kind handler → ∃ e, executeClaimed kind handler false = (.error e, true)) := by
  unfold executeClaimed Settles rescuing
  rw [bind_apply]
  rcases handlerFor kind handler false with ⟨r, aborted⟩
  cases r with
  | error err =>
    cases aborted with
    | true => exact ⟨fun h => absurd h.1 (by decide), fun _ => ⟨refusal, recordFailure_aborted err⟩⟩
    | false =>
      dsimp only
      rw [recordFailure_open]
      cases storable err with
      | true => exact ⟨fun _ => ⟨.failed, rfl⟩, fun h => absurd ⟨rfl, rfl⟩ h⟩
      | false => exact ⟨fun h => absurd h.2 (by decide), fun _ => ⟨encodingError, rfl⟩⟩
  | ok externalRef =>
    cases aborted with
    | true =>
      dsimp only
      rw [recordSuccess_aborted]
      exact ⟨fun h => absurd h.1 (by decide), fun _ => ⟨refusal, rfl⟩⟩
    | false =>
      dsimp only
      rw [recordSuccess_open]
      cases storable (externalRef.getD "") with
      | true => exact ⟨fun _ => ⟨.succeeded, rfl⟩, fun h => absurd ⟨rfl, rfl⟩ h⟩
      | false => exact ⟨fun h => absurd h.2 (by decide), fun _ => ⟨refusal, rfl⟩⟩

/-! ## The history of a row -/

/-- A claim of a due row, or the mark of a claimed one. -/
def Next (row row' : OutboxRow P) : Prop :=
  ∃ now, (row.status = .pending ∧ row.nextAttemptAt ≤ now ∧ row' = row.claimed now) ∨
    (row.status = .inFlight ∧ row.claimedAt = some now ∧ ∃ mark, row' = row.marked now mark)

/-- How often the row was claimed by an execution that was recorded. -/
def executions (rows : List (OutboxRow P)) : ℕ := rows.countP fun row => row.status == .inFlight

/-- The executions a row in its state accounts for, within its budget. -/
def Accounted (executions : ℕ) (row : OutboxRow P) : Prop :=
  match row.status with
  | .pending => executions = row.attempts ∧ row.attempts < row.maxAttempts
  | .inFlight => executions = row.attempts + 1 ∧ row.attempts < row.maxAttempts
  | .succeeded => executions = row.attempts + 1 ∧ row.attempts < row.maxAttempts
  | .failed => executions = row.attempts ∧ row.attempts ≤ row.maxAttempts

structure History (rows : List (OutboxRow P)) (now : Option (OutboxRow P)) : Prop where
  ends : rows.getLast? = now
  follows : rows.IsChain Next
  accounted : ∀ row ∈ now, Accounted (executions rows) row

theorem Accounted.le {n : ℕ} {row : OutboxRow P} (h : Accounted n row) : n ≤ row.maxAttempts := by
  unfold Accounted at h
  cases hs : row.status <;> rw [hs] at h <;> dsimp only at h <;> omega

theorem Accounted.next {n : ℕ} {row row' : OutboxRow P} (h : Accounted n row) (hn : Next row row') :
    Accounted (n + if row'.status = .inFlight then 1 else 0) row' := by
  obtain ⟨now, ⟨hs, -, rfl⟩ | ⟨hs, -, mark, rfl⟩⟩ := hn
  · simp only [Accounted, hs] at h
    simp only [Accounted, OutboxRow.claimed, if_true]
    omega
  · simp only [Accounted, hs] at h
    cases mark with
    | succeeded => simpa [Accounted, OutboxRow.marked] using h
    | failed =>
      unfold OutboxRow.marked OutboxRow.afterFailure
      by_cases hmax : row.maxAttempts ≤ row.attempts + 1
      · simp only [if_pos hmax, Accounted, reduceCtorEq, if_false]
        omega
      · simp only [if_neg hmax, Accounted, reduceCtorEq, if_false]
        omega

theorem executions_snoc (rows : List (OutboxRow P)) (row : OutboxRow P) :
    executions (rows ++ [row]) = executions rows + if row.status = .inFlight then 1 else 0 := by
  unfold executions
  rw [List.countP_append, List.countP_singleton]
  simp

theorem History.snoc {rows : List (OutboxRow P)} {row row' : OutboxRow P}
    (h : History rows (some row)) (hn : Next row row') : History (rows ++ [row']) (some row') where
  ends := List.getLast?_concat
  follows := by
    refine h.follows.append (List.isChain_singleton row') ?_
    intro last hlast first hfirst
    obtain rfl := Option.some.inj (h.ends.symm.trans hlast)
    obtain rfl := Option.some.inj hfirst
    exact hn
  accounted := by
    intro r hr
    obtain rfl := Option.some.inj hr
    rw [executions_snoc]
    exact (h.accounted row rfl).next hn

/-- A row that is final is the last its history holds. -/
theorem History.final_last {rows : List (OutboxRow P)} {now : Option (OutboxRow P)}
    (h : History rows now) {pre post : List (OutboxRow P)} {row : OutboxRow P}
    (heq : rows = pre ++ row :: post) (hs : row.status = .succeeded ∨ row.status = .failed) :
    post = [] := by
  cases post with
  | nil => rfl
  | cons row' post =>
    have hfollows := h.follows
    rw [heq] at hfollows
    have htail := (List.isChain_append.mp hfollows).2.1
    obtain ⟨now, ⟨hpending, -⟩ | ⟨hflight, -⟩⟩ := (List.isChain_cons_cons.mp htail).1
    · rcases hs with hs | hs <;> simp [hs] at hpending
    · rcases hs with hs | hs <;> simp [hs] at hflight

/-- Every committed row has its history and is in no executor's hands. -/
def Settled (t : Tables P) : Prop :=
  ∀ id, History (t.history id) (t.rows id) ∧ ∀ row ∈ t.rows id, row.status ≠ .inFlight

/-! ## What a session has in hand -/

/-- The session claimed the row, due at its time. -/
def Claimed (id : OutboxId) (row : OutboxRow P) (now : Time) (t : Tables P) : Prop :=
  t.rows id = some row ∧ row.status = .pending ∧ row.nextAttemptAt ≤ now

def claimWrites (id : OutboxId) (row : OutboxRow P) (now : Time) : List (Write P) :=
  [.lock (.row id), .set id (row.claimed now)]

/-- What a session has pending: nothing on a row, a fresh row, a claim, or a claim and a mark. -/
inductive InHand (t : Tables P) : List (Write P) → Prop
  | idle (ws : List (Write P)) (h : ∀ w ∈ ws, ∃ r, w = .lock r) : InHand t ws
  | fresh (id : OutboxId) (row : OutboxRow P) (h : t.rows id = none) (hs : row.status = .pending)
      (ha : row.attempts = 0 ∧ 0 < row.maxAttempts) : InHand t [.insert id row]
  | claimed (id : OutboxId) (row : OutboxRow P) (now : Time) (h : Claimed id row now t) :
      InHand t (claimWrites id row now)
  | marked (id : OutboxId) (row : OutboxRow P) (now : Time) (mark : Mark)
      (h : Claimed id row now t) :
      InHand t (claimWrites id row now ++ [.set id ((row.claimed now).marked now mark)])

/-- The session set the row and has not committed. -/
def Executes (id : OutboxId) (ws : List (Write P)) : Prop := ∃ row, Write.set id row ∈ ws

/-- What a session's end needs in hand: an open claim neither commits nor is rolled back. -/
def EndsWith (t : Tables P) : Program P → List (Write P) → Prop
  | .rollback, ws => ∀ w ∈ ws, ∃ r, w = .lock r
  | .commit _, ws => InHand t ws ∧ ∀ id row now, ws ≠ claimWrites id row now
  | _, ws => InHand t ws

/-- What a session's end does to the row it executed. -/
structure Progress (row row' : OutboxRow P) (now : Time) : Prop where
  due : row.status = .pending ∧ row.nextAttemptAt ≤ now
  outcome : row'.status = .succeeded ∨
    (row'.status = .failed ∧ row'.attempts = row.attempts + 1 ∧ row.maxAttempts ≤ row'.attempts) ∨
    (row'.status = .pending ∧ row'.attempts = row.attempts + 1 ∧ now < row'.nextAttemptAt)

theorem progress_marked {row : OutboxRow P} {now : Time} (mark : Mark)
    (hs : row.status = .pending) (hdue : row.nextAttemptAt ≤ now) :
    Progress row ((row.claimed now).marked now mark) now := by
  refine ⟨⟨hs, hdue⟩, ?_⟩
  cases mark with
  | succeeded => exact Or.inl rfl
  | failed =>
    unfold OutboxRow.marked OutboxRow.afterFailure
    by_cases hmax : (row.claimed now).maxAttempts ≤ (row.claimed now).attempts + 1
    · rw [if_pos hmax]
      exact Or.inr (Or.inl ⟨rfl, rfl, hmax⟩)
    · rw [if_neg hmax]
      refine Or.inr (Or.inr ⟨rfl, rfl, ?_⟩)
      have hpow : 1 ≤ 2 ^ ((row.claimed now).attempts + 1) := Nat.one_le_two_pow
      have hpos : 0 < backoff ((row.claimed now).attempts + 1) := by
        unfold backoff maxBackoffSeconds
        omega
      exact Int.lt_add_of_pos_right now (Int.natCast_pos.mpr hpos)

/-! ## What a session keeps -/

theorem rows_of_agree {ws : List (Write P)} {t t' : Tables P} {id : OutboxId}
    (ha : Agree (store P) Settled ws t t') (hheld : Resource.row id ∈ (store P).held ws) :
    t'.rows id = t.rows id := congrArg Prod.fst (ha.2 _ hheld)

theorem claimWrites_held (id : OutboxId) (row : OutboxRow P) (now : Time) :
    Resource.row id ∈ (store P).held (claimWrites id row now) := by
  simp [claimWrites, store, Write.locks]

theorem InHand.stable {ws : List (Write P)} {t t' : Tables P} (h : InHand t ws)
    (ha : Agree (store P) Settled ws t t') : InHand t' ws := by
  cases h with
  | idle ws h => exact .idle ws h
  | fresh id row h hs hattempts =>
    have hrow : t'.rows id = t.rows id := rows_of_agree ha (by simp [store, Write.locks])
    exact .fresh id row (hrow.trans h) hs hattempts
  | claimed id row now h =>
    have hrow := rows_of_agree ha (claimWrites_held id row now)
    exact .claimed id row now ⟨hrow.trans h.1, h.2⟩
  | marked id row now mark h =>
    have hheld : Resource.row id ∈ (store P).held (claimWrites id row now ++
        [.set id ((row.claimed now).marked now mark)]) := by
      rw [Store.held_append]
      exact List.mem_append_left _ (claimWrites_held id row now)
    have hrow := rows_of_agree ha hheld
    exact .marked id row now mark ⟨hrow.trans h.1, h.2⟩

theorem not_claimWrites_of_idle {ws : List (Write P)} (h : ∀ w ∈ ws, ∃ r, w = .lock r)
    (id : OutboxId) (row : OutboxRow P) (now : Time) : ws ≠ claimWrites id row now := by
  rintro rfl
  obtain ⟨r, hr⟩ := h (.set id (row.claimed now)) (by simp [claimWrites])
  cases hr

theorem idle_rows {ws : List (Write P)} (h : ∀ w ∈ ws, ∃ r, w = .lock r) (id : OutboxId) :
    ws.filterMap (Write.row? id) = [] := by
  rw [List.filterMap_eq_nil_iff]
  intro w hw
  obtain ⟨r, rfl⟩ := h w hw
  rfl

/-- What a session has in hand when it commits keeps every row settled. -/
theorem settled_commit {ws : List (Write P)} {t : Tables P} (hI : Settled t) (h : InHand t ws)
    (hne : ∀ id row now, ws ≠ claimWrites id row now) : Settled ((store P).applyAll ws t) := by
  intro id
  rw [history_applyAll, rows_applyAll]
  obtain ⟨hhist, hflight⟩ := hI id
  have hsame : ws.filterMap (Write.row? id) = [] →
      History (t.history id ++ ws.filterMap (Write.row? id))
        ((ws.filterMap (Write.row? id)).getLast?.or (t.rows id)) ∧
      ∀ row ∈ (ws.filterMap (Write.row? id)).getLast?.or (t.rows id), row.status ≠ .inFlight := by
    intro hnil
    rw [hnil, List.append_nil]
    exact ⟨hhist, hflight⟩
  cases h with
  | idle ws h => exact hsame (idle_rows h id)
  | claimed id' row now h => exact absurd rfl (hne id' row now)
  | fresh id' row hnone hs hattempts =>
    by_cases hid : id' = id
    · subst hid
      rw [hnone] at hhist
      have hempty : t.history id' = [] := List.getLast?_eq_none_iff.mp hhist.ends
      have hwritten : [Write.insert id' row].filterMap (Write.row? id') = [row] := by
        simp [Write.row?]
      rw [hwritten, hempty]
      change History [row] (some row) ∧ ∀ r ∈ some row, r.status ≠ .inFlight
      refine ⟨⟨rfl, List.isChain_singleton row, fun r hr => ?_⟩, fun r hr => ?_⟩
      · obtain rfl := Option.some.inj hr
        simp [Accounted, hs, executions, hattempts.1, hattempts.2]
      · obtain rfl := Option.some.inj hr
        rw [hs]
        decide
    · exact hsame (by simp [Write.row?, hid])
  | marked id' row now mark h =>
    by_cases hid : id' = id
    · subst hid
      obtain ⟨hrow, hpending, hdue⟩ := h
      have hwritten : (claimWrites id' row now ++
          [Write.set id' ((row.claimed now).marked now mark)]).filterMap (Write.row? id') =
          [row.claimed now, (row.claimed now).marked now mark] := by
        simp [claimWrites, Write.row?, List.filterMap_cons]
      rw [hwritten]
      rw [hrow] at hhist
      have hclaim : Next row (row.claimed now) := ⟨now, Or.inl ⟨hpending, hdue, rfl⟩⟩
      have hmark : Next (row.claimed now) ((row.claimed now).marked now mark) :=
        ⟨now, Or.inr ⟨rfl, rfl, mark, rfl⟩⟩
      have htwo := (hhist.snoc hclaim).snoc hmark
      rw [List.append_assoc] at htwo
      refine ⟨htwo, fun r hr => ?_⟩
      have hlast : some ((row.claimed now).marked now mark) = some r := hr
      obtain rfl := Option.some.inj hlast
      rcases (progress_marked mark hpending hdue).outcome with h | h | h
      · rw [h]
        decide
      · rw [h.1]
        decide
      · rw [h.1]
        decide
    · exact hsame (by simp [claimWrites, Write.row?, hid])

/-! ## The programs -/

/-- The handler of each row that is fetched settles. -/
def settles : Stmt P → View (Tables P) Resource → Prop
  | .plain, _ => True
  | .fetch id handlers, v => ∀ row ∈ v.db.rows id, Settles row.kind (handlerOf handlers row)

instance (lab : Stmt P) (v : View (Tables P) Resource) : Decidable (settles lab v) := by
  cases lab <;> unfold settles <;> infer_instance

/-- What is asserted of a session, wherever its program stands. -/
def Asserted (prog : Program P) (ws : List (Write P)) (t : Tables P) : Prop := EndsWith t prog ws

abbrev Sound (prog : Program P) (ws : List (Write P)) (t : Tables P) : Prop :=
  Upholds (store P) settles Settled Asserted prog ws t

theorem sound_commit {ws : List (Write P)} {t : Tables P} (lab : Stmt P) (h : InHand t ws)
    (hne : ∀ id row now, ws ≠ claimWrites id row now) : Sound (.commit lab) ws t :=
  fun _ ha => ⟨⟨h.stable ha, hne⟩, fun _ _ => settled_commit ha.1 (h.stable ha) hne⟩

theorem sound_commit_idle {ws : List (Write P)} {t : Tables P} (lab : Stmt P)
    (h : ∀ w ∈ ws, ∃ r, w = .lock r) : Sound (.commit lab) ws t :=
  sound_commit lab (.idle ws h) (not_claimWrites_of_idle h)

/-- The claimed row as the session sees it. -/
theorem rows_claimWrites (id : OutboxId) (row : OutboxRow P) (now : Time) (t : Tables P) :
    ((store P).applyAll (claimWrites id row now) t).rows id = some (row.claimed now) := by
  rw [rows_applyAll]
  simp [claimWrites, Write.row?]

theorem sound_handleAndMark {id : OutboxId} {row : OutboxRow P} {now : Time}
    {handlers : Handlers P} {t : Tables P} (h : Claimed id row now t)
    (hset : Settles (row.claimed now).kind (handlerOf handlers (row.claimed now))) :
    Sound (handleAndMark now handlers id (row.claimed now)) (claimWrites id row now) t := by
  obtain ⟨mark, hmark⟩ := (executeClaimed_eq _ _).1 hset
  unfold handleAndMark
  rw [hmark]
  intro t1 ha1
  have h1 := (InHand.claimed id row now h).stable ha1
  refine ⟨h1, fun t2 ha2 => ⟨h1.stable ha2, fun locked _ => ?_⟩⟩
  have hrow : t2.rows id = some row := by
    rw [rows_of_agree (ha1.trans ha2) (claimWrites_held id row now)]
    exact h.1
  have hwritten : updateRow id (fun row => row.marked now mark)
      (⟨(store P).applyAll (claimWrites id row now) t2, locked⟩ : View (Tables P) Resource) =
      [.set id ((row.claimed now).marked now mark)] := by
    unfold updateRow
    rw [rows_claimWrites]
    rfl
  rw [hwritten]
  refine sound_commit .plain (.marked id row now mark ⟨hrow, h.2⟩) ?_
  intro id' row' now' heq
  have hlen := congrArg List.length heq
  simp [claimWrites] at hlen

theorem soonest_mem {t : Tables P} {ids : List OutboxId} {id : OutboxId}
    (h : soonest t ids = some id) : id ∈ ids := by
  induction ids generalizing id with
  | nil => cases h
  | cons first ids ih =>
    unfold soonest at h
    cases hs : soonest t ids with
    | none =>
      simp only [hs] at h
      obtain rfl := Option.some.inj h
      exact List.mem_cons_self
    | some other =>
      simp only [hs] at h
      split at h
      · obtain rfl := Option.some.inj h
        exact List.mem_cons_of_mem first (ih hs)
      · obtain rfl := Option.some.inj h
        exact List.mem_cons_self

/-- No committed row is in flight, so a claim is of a row that is pending and due. -/
theorem claimed_of_choice {t : Tables P} {locked : Resource → Bool} {now : Time}
    {kinds : Option (List String)} {id : OutboxId} (hI : Settled t)
    (h : claimChoice ⟨t, locked⟩ now kinds = some id) : ∃ row, Claimed id row now t := by
  have hclaim := (List.mem_filter.mp (soonest_mem h)).2
  unfold claimableBy at hclaim
  dsimp only at hclaim
  cases hrow : t.rows id with
  | none => simp [hrow] at hclaim
  | some row =>
    have hflight := (hI id).2 row hrow
    simp [hrow, hflight] at hclaim
    exact ⟨row, hrow, hclaim.1.1⟩

theorem sound_executeOne (now : Time) (kinds : Option (List String)) (handlers : Handlers P)
    (t : Tables P) : Sound (executeOne now kinds handlers) [] t := by
  unfold executeOne
  intro t1 ha1
  refine ⟨.idle [] (by simp), fun locked _ => ?_⟩
  dsimp only
  rw [Store.applyAll_nil]
  cases hchoice : claimChoice ⟨t1, locked⟩ now kinds with
  | none => exact sound_commit_idle .plain (by simp)
  | some id =>
    obtain ⟨row, hclaim⟩ := claimed_of_choice ha1.1 hchoice
    intro t2 ha2
    have hlock : ∀ w ∈ ([] : List (Write P)) ++
        ((some id).toList.map fun id => Write.lock (.row id)), ∃ r, w = .lock r := by simp
    refine ⟨.idle _ hlock, fun locked2 _ => ?_⟩
    have hrow2 : t2.rows id = some row := by
      rw [rows_of_agree ha2 (by simp [store, Write.locks])]
      exact hclaim.1
    have hwritten : updateRow id (fun row => row.claimed now)
        (⟨(store P).applyAll ([] ++ ((some id).toList.map fun id => Write.lock (.row id))) t2,
          locked2⟩ : View (Tables P) Resource) = [.set id (row.claimed now)] := by
      unfold updateRow
      rw [rows_applyAll, idle_rows hlock, List.getLast?_nil, Option.none_or, hrow2]
      rfl
    rw [hwritten]
    have hinHand : Claimed id row now t2 := ⟨hrow2, hclaim.2⟩
    intro t3 ha3
    have h3 := (InHand.claimed id row now hinHand).stable ha3
    refine ⟨h3, fun locked3 hset => ?_⟩
    have hview := rows_claimWrites id row now t3
    have hsettles := hset (row.claimed now) hview
    have hrow3 : t3.rows id = some row := by
      rw [rows_of_agree ha3 (claimWrites_held id row now)]
      exact hrow2
    dsimp only
    have hmatch : ((store P).applyAll ([] ++ (some id).toList.map (fun id => Write.lock (.row id)) ++
        [Write.set id (row.claimed now)]) t3).rows id = some (row.claimed now) := hview
    rw [hmatch]
    exact sound_handleAndMark ⟨hrow3, hclaim.2⟩ hsettles

theorem sound_enqueue (session : ℕ) (now : Time) (kind idempotencyKey : String) (payload : P)
    (t : Tables P) : Sound (enqueue session now kind idempotencyKey payload) [] t := by
  unfold enqueue
  intro t1 ha1
  refine ⟨.idle [] (by simp), fun locked _ => ?_⟩
  dsimp only
  rw [Store.applyAll_nil]
  by_cases hskip : queued t1 idempotencyKey = true ∨ (t1.rows session).isSome = true
  · rw [if_pos hskip]
    split
    · exact fun t2 _ => by simp [Asserted, EndsWith]
    · exact sound_commit_idle .plain (by simp)
  · rw [if_neg hskip]
    rw [not_or] at hskip
    rw [if_neg (by simp [hskip.2])]
    refine sound_commit .plain (.fresh session _ ?_ rfl ⟨rfl, ?_⟩) ?_
    · simpa using hskip.2
    · simp
    · intro id row now' heq
      have hlen := congrArg List.length heq
      simp [claimWrites] at hlen

theorem sound_serve (session : ℕ) (req : Request P) (t : Tables P) :
    Sound (serve session req) [] t := by
  cases req with
  | enqueue now kind idempotencyKey payload =>
    exact sound_enqueue session now kind idempotencyKey payload t
  | execute now kinds handlers => exact sound_executeOne now kinds handlers t

/-! ## Every run -/

/-- The program's next step is its session's last. -/
def Ending : Program P → Bool
  | .commit _ => true
  | .rollback => true
  | _ => false

/-- What a session that executes a row has in hand. -/
theorem InHand.executes {ws : List (Write P)} {t : Tables P} {id : OutboxId} (h : InHand t ws)
    (he : Executes id ws) : ∃ row now, Claimed id row now t ∧ (ws = claimWrites id row now ∨
      ∃ mark, ws = claimWrites id row now ++ [.set id ((row.claimed now).marked now mark)]) := by
  obtain ⟨set, hset⟩ := he
  cases h with
  | idle ws h =>
    obtain ⟨r, hr⟩ := h _ hset
    cases hr
  | fresh id' row h hs ha => simp at hset
  | claimed id' row now h =>
    obtain ⟨rfl, -⟩ : id = id' ∧ set = row.claimed now := by simpa [claimWrites] using hset
    exact ⟨row, now, h, Or.inl rfl⟩
  | marked id' row now mark h =>
    have hid : id = id' := by
      rcases List.mem_append.mp hset with hmem | hmem
      · have heq : id = id' ∧ set = row.claimed now := by simpa [claimWrites] using hmem
        exact heq.1
      · have heq : id = id' ∧ set = (row.claimed now).marked now mark := by simpa using hmem
        exact heq.1
    subst hid
    exact ⟨row, now, h, Or.inr ⟨mark, rfl⟩⟩

theorem upheld_of_run {sys : System P} (h : Run (store P) serve settles (init P) sys) :
    Upheld (store P) settles Settled Asserted sys := by
  refine Run.upheld (fun n req t _ => sound_serve n req t) h fun id => ⟨⟨rfl, List.isChain_nil, ?_⟩, ?_⟩
  · rintro row ⟨⟩
  · rintro row ⟨⟩

/-- A session that has the row in hand claimed it pending and due. -/
theorem inHand_of_session {sys : System P} (h : Upheld (store P) settles Settled Asserted sys)
    {i : ℕ} {s : Session (Tables P) (Write P) OutboxId (Stmt P) Resource (Request P)}
    (hs : sys.session i = some s) : InHand sys.shared.db s.pending := by
  have hhere : EndsWith sys.shared.db s.prog s.pending := (h.2 i s hs).here h.1
  cases hp : s.prog with
  | rollback =>
    rw [hp] at hhere
    exact .idle _ hhere
  | commit lab =>
    rw [hp] at hhere
    exact hhere.1
  | call x next =>
    rw [hp] at hhere
    exact hhere
  | stmt lab writes next =>
    rw [hp] at hhere
    exact hhere

/-- The last step of a session that executed a row. -/
theorem progress_of_ending {sys sys' : System P}
    (h : Upheld (store P) settles Settled Asserted sys) {i : ℕ} {id : OutboxId}
    {s : Session (Tables P) (Write P) OutboxId (Stmt P) Resource (Request P)}
    (hs : sys.session i = some s) (hend : Ending s.prog = true) (he : Executes id s.pending)
    (hstep : step (store P) serve sys (.advance i) = some sys') :
    ∃ row row' now, sys.shared.db.rows id = some row ∧ sys'.shared.db.rows id = some row' ∧
      Progress row row' now := by
  have hhere : EndsWith sys.shared.db s.prog s.pending := (h.2 i s hs).here h.1
  cases hp : s.prog with
  | call x next => simp [hp, Ending] at hend
  | stmt lab writes next => simp [hp, Ending] at hend
  | rollback =>
    rw [hp] at hhere
    obtain ⟨set, hset⟩ := he
    obtain ⟨r, hr⟩ := hhere _ hset
    cases hr
  | commit lab =>
    rw [hp] at hhere
    obtain ⟨row, now, hclaim, hws⟩ := hhere.1.executes he
    have hmarked : ∃ mark, s.pending = claimWrites id row now ++
        [.set id ((row.claimed now).marked now mark)] := hws.resolve_left (hhere.2 id row now)
    obtain ⟨mark, hws⟩ := hmarked
    have hsys : sys'.shared.db = (store P).applyAll s.pending sys.shared.db := by
      unfold ReadCommitted.step at hstep
      simp only [hs, hp] at hstep
      exact (congrArg (fun sys => sys.shared.db) (Option.some.inj hstep)).symm
    refine ⟨row, (row.claimed now).marked now mark, now, hclaim.1, ?_,
      progress_marked mark hclaim.2.1 hclaim.2.2⟩
    rw [hsys, rows_applyAll, hws]
    simp [claimWrites, Write.row?]

/-- In every run in which the handlers settle: an execution that ends leaves its row succeeded,
failed for good, or pending with one more attempt at a later time; executors claim only rows that
are pending and due; a row is executed no more often than its budget says; and a row that has
succeeded is in no session's hands and never changes again. -/
theorem outbox_progress {sys : System P} (h : Run (store P) serve settles (init P) sys) :
    (∀ i s id sys', sys.session i = some s → Ending s.prog = true → Executes id s.pending →
      step (store P) serve sys (.advance i) = some sys' →
      ∃ row row' now, sys.shared.db.rows id = some row ∧ sys'.shared.db.rows id = some row' ∧
        Progress row row' now) ∧
    (∀ locked now kinds id, claimChoice ⟨sys.shared.db, locked⟩ now kinds = some id →
      ∃ row, sys.shared.db.rows id = some row ∧ row.status = .pending ∧ row.nextAttemptAt ≤ now) ∧
    (∀ id row, sys.shared.db.rows id = some row →
      executions (sys.shared.db.history id) ≤ row.maxAttempts) ∧
    (∀ id pre row post, sys.shared.db.history id = pre ++ row :: post → row.status = .succeeded →
      post = [] ∧ ∀ i s, sys.session i = some s → ¬ Executes id s.pending) := by
  have hup := upheld_of_run h
  refine ⟨?_, ?_, ?_, ?_⟩
  · exact fun i s id sys' hs hend he hstep => progress_of_ending hup hs hend he hstep
  · exact fun locked now kinds id hchoice => claimed_of_choice hup.1 hchoice
  · intro id row hrow
    exact ((hup.1 id).1.accounted row hrow).le
  · intro id pre row post heq hsucceeded
    have hlast := (hup.1 id).1.final_last heq (Or.inl hsucceeded)
    refine ⟨hlast, fun i s hs he => ?_⟩
    obtain ⟨claimed, now, hclaim, -⟩ := (inHand_of_session hup hs).executes he
    have hends := (hup.1 id).1.ends
    rw [heq, hlast, List.getLast?_concat, hclaim.1] at hends
    obtain rfl := Option.some.inj hends
    rw [hclaim.2.1] at hsucceeded
    cases hsucceeded

/-- A request run to its end with nothing in between. -/
def alone (session : ℕ) (req : Request Unit) (steps : ℕ) : List (Event (Request Unit)) :=
  .begin req :: List.replicate steps (.advance session)

/-- Handlers that give every row this one. -/
def handling (handler : Handler) : Handlers Unit := fun _ => some fun _ => handler

/-- An annotation, whose handler runs into a deadlock or writes its note. -/
def annotate (deadlock : Bool) : Handler :=
  handleResponseAction ⟨"annotate_investigation", true, true, ""⟩ {} do
    statement (if deadlock then some "deadlock detected" else none)
    pure none

/-- The first execution fails under its savepoint, the second succeeds. -/
def failsThenSucceeds : List (Event (Request Unit)) :=
  alone 0 (.enqueue 0 "response_action" "response:1" ()) 2 ++
    alone 1 (.execute 5 none (handling (annotate true))) 6 ++
    alone 2 (.execute 25 none (handling (annotate false))) 6

theorem outbox_progress_failsThenSucceeds : ∃ sys,
    runEvents (store Unit) serve settles (init Unit) failsThenSucceeds = some sys ∧
    (sys.shared.db.history 0).map (fun row => (row.status, row.attempts, row.nextAttemptAt)) =
      [(.pending, 0, 0), (.inFlight, 0, 0), (.pending, 1, 25), (.inFlight, 1, 25),
        (.succeeded, 1, 25)] ∧
    executions (sys.shared.db.history 0) ≤ 5 := by
  have hlast : (runEvents (store Unit) serve settles (init Unit) failsThenSucceeds).map (fun sys =>
      ((sys.shared.db.history 0).map (fun row => (row.status, row.attempts, row.nextAttemptAt)),
        (sys.shared.db.rows 0).map (·.maxAttempts))) =
      some ([(.pending, 0, 0), (.inFlight, 0, 0), (.pending, 1, 25), (.inFlight, 1, 25),
        (.succeeded, 1, 25)], some 5) := by decide +kernel
  obtain ⟨sys, hsys, heq⟩ := Option.map_eq_some_iff.mp hlast
  obtain ⟨hhist, hmax⟩ := Prod.mk.inj heq
  obtain ⟨row, hrow, hrowmax⟩ := Option.map_eq_some_iff.mp hmax
  have hbound := (outbox_progress (Run.of_runEvents hsys)).2.2.1 0 row hrow
  exact ⟨sys, hsys, hhist, hrowmax ▸ hbound⟩

def always : Stmt Unit → View (Tables Unit) Resource → Prop := fun _ _ => True

instance (lab : Stmt Unit) (v : View (Tables Unit) Resource) : Decidable (always lab v) :=
  isTrue trivial

/-- A tool's proposal whose first update waits for a lock too long. -/
def lockTimeout : Handlers Unit :=
  handling (handleToolProposal "p" true
    { claim := some "canceling statement due to lock timeout" } (pure ()))

/-- Two rows are due; the first is executed, and the executor comes back for the next. -/
def executedAndBack : List (Event (Request Unit)) :=
  alone 0 (.enqueue 0 "execute_proposal" "proposal:0" ()) 2 ++
    alone 1 (.enqueue 1 "execute_proposal" "proposal:1" ()) 2 ++
    alone 2 (.execute 5 none lockTimeout) 4

def executesRow (id : OutboxId) (ws : List (Write Unit)) : Bool :=
  ws.any fun w => match w with
    | .set id' _ => id' == id
    | _ => false

/-- The execution ends with the row as it was, and the row is claimed again before the other. -/
theorem not_progress_lockTimeout : ∃ sys sys' s,
    runEvents (store Unit) serve always (init Unit) executedAndBack = some sys ∧
    sys.session 2 = some s ∧ Ending s.prog = true ∧ Executes 0 s.pending ∧
    step (store Unit) serve sys (.advance 2) = some sys' ∧
    (sys'.shared.db.rows 0).map (fun row => (row.status, row.attempts, row.nextAttemptAt)) =
      some (.pending, 0, 0) ∧
    claimChoice ⟨sys'.shared.db, fun _ => false⟩ 6 none = some 0 ∧
    ¬ ∃ row row' now, sys.shared.db.rows 0 = some row ∧ sys'.shared.db.rows 0 = some row' ∧
      Progress row row' now := by
  have hlast : ((runEvents (store Unit) serve always (init Unit) executedAndBack).bind fun sys =>
      (sys.session 2).bind fun s => (step (store Unit) serve sys (.advance 2)).map fun sys' =>
        (Ending s.prog && executesRow 0 s.pending &&
            claimChoice ⟨sys'.shared.db, fun _ => false⟩ 6 none == some 0,
          [sys.shared.db, sys'.shared.db].map fun t =>
            (t.rows 0).map fun row => (row.status, row.attempts, row.nextAttemptAt))) =
      some (true, [some (.pending, 0, 0), some (.pending, 0, 0)]) := by decide +kernel
  obtain ⟨sys, hsys, hlast⟩ := Option.bind_eq_some_iff.mp hlast
  obtain ⟨s, hs, hlast⟩ := Option.bind_eq_some_iff.mp hlast
  obtain ⟨sys', hsys', heq⟩ := Option.map_eq_some_iff.mp hlast
  simp only [Prod.mk.injEq, Bool.and_eq_true, beq_iff_eq, List.map_cons, List.map_nil,
    List.cons.injEq, and_true] at heq
  obtain ⟨⟨⟨hend, hexec⟩, hchoice⟩, hbefore, hafter⟩ := heq
  refine ⟨sys, sys', s, hsys, hs, hend, ?_, hsys', hafter, hchoice, ?_⟩
  · unfold executesRow at hexec
    obtain ⟨w, hw, hid⟩ := List.any_eq_true.mp hexec
    cases w with
    | set id row =>
      obtain rfl : id = 0 := by simpa using hid
      exact ⟨row, hw⟩
    | insert id row => cases hid
    | lock r => cases hid
  · rintro ⟨row, row', now, hrow, hrow', hprogress⟩
    rw [hrow] at hbefore
    rw [hrow'] at hafter
    simp only [Option.map_some, Option.some.injEq, Prod.mk.injEq] at hbefore hafter
    rcases hprogress.outcome with h | h | h
    · rw [hafter.1] at h
      cases h
    · rw [hafter.1] at h
      cases h.1
    · have hattempts := h.2.1
      omega

end SocTalk.Outbox
