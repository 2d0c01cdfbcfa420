import SocTalk.Deliveries.Batch

/-! Every source event is triaged once: whatever batches are delivered and re-delivered, run
side by side, fail and are tried again, the alerts count each committed event once. -/
namespace SocTalk.Deliveries
open Py ReadCommitted Triage

/-- The alerts count the source events, one row for a key, each linked to its alert. -/
structure Triaged (db : DB) : Prop where
  keys : (db.sourceEvents.map keyOf).Nodup
  eventIds : (db.sourceEvents.map (·.id)).Nodup
  alertIds : (db.alerts.map (·.id)).Nodup
  linked : ∀ s ∈ db.sourceEvents, ∃ a ∈ db.alerts, s.alertId = some a.id ∧ a.tenant = s.tenant
  counted : ∀ a ∈ db.alerts,
    a.eventCount = db.sourceEvents.countP fun s => s.alertId == some a.id
  single : ∀ a ∈ db.alerts, ∀ a' ∈ db.alerts, a.status = .new → a'.status = .new →
    a.tenant = a'.tenant → a.signature = a'.signature → a.id = a'.id

/-! ## What one event does to the tables -/

section

variable {db db' : DB} {s : SourceEvent}

theorem Triaged.alert_ext (h : Triaged db) {a a' : Alert} (ha : a ∈ db.alerts)
    (ha' : a' ∈ db.alerts) (hid : a.id = a'.id) : a = a' :=
  List.inj_on_of_nodup_map h.alertIds ha ha' hid

theorem hasEvent_eq_false {key : EventKey} :
    hasEvent db key = false ↔ ∀ s ∈ db.sourceEvents, keyOf s ≠ key := by
  simp [hasEvent]

/-- A new row for a new key. -/
theorem Triaged.keys_append (h : Triaged db) (hkey : hasEvent db (keyOf s) = false)
    (hid : ∀ s' ∈ db.sourceEvents, s'.id ≠ s.id) :
    ((db.sourceEvents ++ [s]).map keyOf).Nodup ∧
      ((db.sourceEvents ++ [s]).map (·.id)).Nodup := by
  have hkey := hasEvent_eq_false.mp hkey
  rw [List.map_append, List.map_append]
  constructor
  · refine h.keys.append (List.nodup_singleton _) ?_
    intro key hold hnew
    obtain ⟨s', hs', rfl⟩ := List.mem_map.mp hold
    exact hkey s' hs' (by simpa using hnew)
  · refine h.eventIds.append (List.nodup_singleton _) ?_
    intro id hold hnew
    obtain ⟨s', hs', rfl⟩ := List.mem_map.mp hold
    exact hid s' hs' (by simpa using hnew)

/-- The event opens an alert of its own. -/
theorem Triaged.insert (h : Triaged db) {a : Alert} (hkey : hasEvent db (keyOf s) = false)
    (hsid : ∀ s' ∈ db.sourceEvents, s'.id ≠ s.id) (haid : ∀ a' ∈ db.alerts, a'.id ≠ a.id)
    (hnone : ∀ a' ∈ db.alerts, a'.tenant = a.tenant → a'.signature = a.signature →
      a'.status ≠ .new)
    (hlink : s.alertId = some a.id) (htenant : a.tenant = s.tenant) (hcount : a.eventCount = 1)
    (hevents : db'.sourceEvents = db.sourceEvents ++ [s]) (halerts : db'.alerts = db.alerts ++ [a]) :
    Triaged db' := by
  obtain ⟨hkeys, hids⟩ := h.keys_append hkey hsid
  refine ⟨hevents ▸ hkeys, hevents ▸ hids, ?_, ?_, ?_, ?_⟩
  · rw [halerts, List.map_append]
    refine h.alertIds.append (List.nodup_singleton _) ?_
    intro id hold hnew
    obtain ⟨a', ha', rfl⟩ := List.mem_map.mp hold
    exact haid a' ha' (by simpa using hnew)
  · intro s' hs'
    rw [halerts]
    rw [hevents] at hs'
    rcases List.mem_append.mp hs' with hs' | hs'
    · obtain ⟨a', ha', hlinked⟩ := h.linked s' hs'
      exact ⟨a', List.mem_append_left _ ha', hlinked⟩
    · obtain rfl := List.mem_singleton.mp hs'
      exact ⟨a, List.mem_append_right _ (List.mem_singleton.mpr rfl), hlink, htenant⟩
  · intro a' ha'
    rw [halerts] at ha'
    rw [hevents, List.countP_append, List.countP_singleton]
    rcases List.mem_append.mp ha' with ha' | ha'
    · have hne := haid a' ha'
      rw [h.counted a' ha', if_neg (by simp [hlink, Ne.symm hne])]
      omega
    · obtain rfl := List.mem_singleton.mp ha'
      -- No older event is linked to the new alert.
      have hzero : db.sourceEvents.countP (fun s => s.alertId == some a'.id) = 0 := by
        rw [List.countP_eq_zero]
        intro s' hs' heq
        obtain ⟨b, hb, hlinked, -⟩ := h.linked s' hs'
        rw [hlinked] at heq
        exact haid b hb (by simpa using heq)
      rw [hcount, hzero, if_pos (by simp [hlink])]
  · intro b hb b' hb' hnew hnew' htenant' hsig
    rw [halerts] at hb hb'
    rcases List.mem_append.mp hb with hold | hlast
    · rcases List.mem_append.mp hb' with hold' | hlast'
      · exact h.single b hold b' hold' hnew hnew' htenant' hsig
      · obtain rfl := List.mem_singleton.mp hlast'
        exact absurd hnew (hnone b hold htenant' hsig)
    · obtain rfl := List.mem_singleton.mp hlast
      rcases List.mem_append.mp hb' with hold' | hlast'
      · exact absurd hnew' (hnone b' hold' htenant'.symm hsig.symm)
      · obtain rfl := List.mem_singleton.mp hlast'
        rfl

theorem names_refOf (h : Triaged db) {a b : Alert} (ha : a ∈ db.alerts) (hb : b ∈ db.alerts) :
    (refOf a).names b = true ↔ b = a := by
  constructor
  · intro hnamed
    simp only [AlertRef.names, refOf, Bool.and_eq_true, beq_iff_eq] at hnamed
    exact h.alert_ext hb ha hnamed.1
  · rintro rfl
    simp [AlertRef.names, refOf, ofSignature]

/-- The event is one more of an alert that is there. -/
theorem Triaged.coalesce (h : Triaged db) {a : Alert} (e : Ingest) (ts : ℤ)
    (hkey : hasEvent db (keyOf s) = false) (hsid : ∀ s' ∈ db.sourceEvents, s'.id ≠ s.id)
    (ha : a ∈ db.alerts) (hlink : s.alertId = some a.id) (htenant : a.tenant = s.tenant)
    (hevents : db'.sourceEvents = db.sourceEvents ++ [s])
    (halerts : db'.alerts = db.alerts.map fun b =>
      if (refOf a).names b then (AlertChange.coalesced a e ts).apply b else b) : Triaged db' := by
  obtain ⟨hkeys, hids⟩ := h.keys_append hkey hsid
  have hid (b : Alert) : (if (refOf a).names b then (AlertChange.coalesced a e ts).apply b
      else b).id = b.id := by
    split <;> simp
  have htenants (b : Alert) : (if (refOf a).names b then (AlertChange.coalesced a e ts).apply b
      else b).tenant = b.tenant := by
    split <;> simp
  have hsigs (b : Alert) : (if (refOf a).names b then (AlertChange.coalesced a e ts).apply b
      else b).signature = b.signature := by
    split <;> simp
  have hstatus (b : Alert) : (if (refOf a).names b then (AlertChange.coalesced a e ts).apply b
      else b).status = b.status := by
    split <;> rfl
  refine ⟨hevents ▸ hkeys, hevents ▸ hids, ?_, ?_, ?_, ?_⟩
  · rw [halerts, List.map_map]
    simpa [Function.comp_def, hid] using h.alertIds
  · have hmem : ∀ b ∈ db.alerts, (if (refOf a).names b then
        (AlertChange.coalesced a e ts).apply b else b) ∈ db'.alerts := by
      intro b hb
      rw [halerts]
      exact List.mem_map_of_mem hb
    intro s' hs'
    rw [hevents] at hs'
    rcases List.mem_append.mp hs' with hs' | hs'
    · obtain ⟨b, hb, hlinked, hten⟩ := h.linked s' hs'
      exact ⟨_, hmem b hb, by rw [hid]; exact hlinked, by rw [htenants]; exact hten⟩
    · obtain rfl := List.mem_singleton.mp hs'
      exact ⟨_, hmem a ha, by rw [hid]; exact hlink, by rw [htenants]; exact htenant⟩
  · intro b' hb'
    rw [halerts] at hb'
    obtain ⟨b, hb, rfl⟩ := List.mem_map.mp hb'
    rw [hid, hevents, List.countP_append, List.countP_singleton]
    have hcounted := h.counted b hb
    by_cases hba : b = a
    · rw [if_pos ((names_refOf h ha hb).mpr hba), if_pos (by simp [hlink, hba])]
      show b.eventCount + 1 = _
      omega
    · have hne : b.id ≠ a.id := fun heq => hba (h.alert_ext hb ha heq)
      rw [if_neg (fun hnamed => hba ((names_refOf h ha hb).mp hnamed)),
        if_neg (by simp [hlink, Ne.symm hne])]
      omega
  · intro b hb b' hb' hnew hnew' htenant' hsig
    rw [halerts] at hb hb'
    obtain ⟨c, hc, rfl⟩ := List.mem_map.mp hb
    obtain ⟨c', hc', rfl⟩ := List.mem_map.mp hb'
    rw [hstatus] at hnew hnew'
    rw [htenants, htenants] at htenant'
    rw [hsigs, hsigs] at hsig
    rw [hid, hid]
    exact h.single c hc c' hc' hnew hnew' htenant' hsig

/-- Changes of an alert that neither count an event nor open the alert. -/
def Quiet : AlertChange → Prop
  | .coalesced _ _ _ => False
  | .described _ => True
  | .settled status _ => status ≠ .new
  | .deconflicted => True

theorem Quiet.eventCount {c : AlertChange} (h : Quiet c) (a : Alert) :
    (c.apply a).eventCount = a.eventCount := by
  cases c with
  | coalesced => exact h.elim
  | _ => rfl

theorem Quiet.new {c : AlertChange} (h : Quiet c) {a : Alert} (hnew : (c.apply a).status = .new) :
    a.status = .new := by
  cases c with
  | coalesced => exact h.elim
  | described => exact hnew
  | settled status investigation => exact absurd hnew h
  | deconflicted => cases hnew

theorem Triaged.quiet (h : Triaged db) {c : AlertChange} (hquiet : Quiet c) (ref : AlertRef)
    (hevents : db'.sourceEvents = db.sourceEvents)
    (halerts : db'.alerts = db.alerts.map fun b => if ref.names b then c.apply b else b) :
    Triaged db' := by
  have hid (b : Alert) : (if ref.names b then c.apply b else b).id = b.id := by
    split <;> simp
  have htenants (b : Alert) : (if ref.names b then c.apply b else b).tenant = b.tenant := by
    split <;> simp
  have hsigs (b : Alert) : (if ref.names b then c.apply b else b).signature = b.signature := by
    split <;> simp
  have hcount (b : Alert) : (if ref.names b then c.apply b else b).eventCount = b.eventCount := by
    split
    · exact hquiet.eventCount b
    · rfl
  have hnews (b : Alert) : (if ref.names b then c.apply b else b).status = .new →
      b.status = .new := by
    split
    · exact hquiet.new
    · exact id
  refine ⟨hevents ▸ h.keys, hevents ▸ h.eventIds, ?_, ?_, ?_, ?_⟩
  · rw [halerts, List.map_map]
    simpa [Function.comp_def, hid] using h.alertIds
  · intro s' hs'
    rw [hevents] at hs'
    obtain ⟨b, hb, hlinked, hten⟩ := h.linked s' hs'
    rw [halerts]
    exact ⟨_, List.mem_map_of_mem hb, by rw [hid]; exact hlinked, by rw [htenants]; exact hten⟩
  · intro b' hb'
    rw [halerts] at hb'
    obtain ⟨b, hb, rfl⟩ := List.mem_map.mp hb'
    rw [hid, hcount, hevents]
    exact h.counted b hb
  · intro b hb b' hb' hnew hnew' htenant' hsig
    rw [halerts] at hb hb'
    obtain ⟨x, hx, rfl⟩ := List.mem_map.mp hb
    obtain ⟨x', hx', rfl⟩ := List.mem_map.mp hb'
    rw [htenants, htenants] at htenant'
    rw [hsigs, hsigs] at hsig
    rw [hid, hid]
    exact h.single x hx x' hx' (hnews x hnew) (hnews x' hnew') htenant' hsig

end

/-! ## What a session has written so far -/

/-- The session that minted an id. -/
def minter (id : ℕ) : ℕ := (Nat.unpair id).1

@[simp] theorem minter_uuid (session n : ℕ) : minter (uuid session n) = session := by
  simp [minter, uuid]

theorem uuid_inj {session n n' : ℕ} (h : uuid session n = uuid session n') : n = n' := by
  have hpair := congrArg Nat.unpair h
  simpa [uuid] using hpair

/-- None of the rows is the session's. -/
structure Unowned (session : ℕ) (db : DB) : Prop where
  alerts : ∀ a ∈ db.alerts, minter a.id ≠ session
  events : ∀ s ∈ db.sourceEvents, minter s.id ≠ session

/-- What the triage of `done` by one session makes of the tables, with its new events. -/
structure Extends (session : ℕ) (done : Batch) (db db' : DB) (new : List SourceEvent) :
    Prop where
  triaged : Triaged db'
  events : db'.sourceEvents = db.sourceEvents ++ new
  delivered : ∀ s ∈ new, (∃ d ∈ done, keyOf s = ingestKey d.event) ∧
    ∃ n < done.length, s.id = uuid session n
  minted : ∀ a ∈ db'.alerts, (∃ a₀ ∈ db.alerts, a₀.id = a.id) ∨
    ∃ n < done.length, a.id = uuid session n
  kept : ∀ a ∈ db.alerts, a ∈ db'.alerts ∨ ∃ s ∈ new, s.alertId = some a.id
  unchanged : new = [] → db' = db

/-- The pending writes triage `done` on whatever rows are committed, as long as those that
the session holds locked stay. -/
structure Sound (session : ℕ) (done : Batch) (mark : List SourceEvent → Prop) (ws : List Write)
    (sh : Shared DB Unit) : Prop where
  unowned : Unowned session sh.db
  present : ∀ d ∈ done, hasEvent (store.applyAll ws sh.db) (ingestKey d.event) = true
  triages : ∀ db, Triaged db → Unowned session db →
    (∀ r ∈ store.held ws, rowOf r db = rowOf r sh.db) →
    ∃ new, Extends session done db (store.applyAll ws db) new ∧ mark new

/-- What the others may do: commit events and alerts of their own. -/
def Grows (session : ℕ) (db db' : DB) : Prop :=
  (Unowned session db → Unowned session db') ∧
    ∀ key, hasEvent db key = true → hasEvent db' key = true

/-- The events of a batch are in the table, each alert that is not as before has a new event
of the batch, and a batch without new events changes nothing. -/
structure Delivered (batch : Batch) (db db' : DB) : Prop where
  present : ∀ d ∈ batch, hasEvent db' (ingestKey d.event) = true
  extended : ∃ new, db'.sourceEvents = db.sourceEvents ++ new ∧
    (∀ s ∈ new, ∃ d ∈ batch, keyOf s = ingestKey d.event) ∧
    ∀ a ∈ db.alerts, a ∈ db'.alerts ∨ ∃ s ∈ new, s.alertId = some a.id
  redelivered : (∀ d ∈ batch, hasEvent db (ingestKey d.event) = true) → db' = db

/-- Every id was minted by a session that has been opened. -/
structure Minted (opened : ℕ) (db : DB) : Prop where
  alerts : ∀ a ∈ db.alerts, minter a.id < opened
  events : ∀ s ∈ db.sourceEvents, minter s.id < opened

def outline : Outline DB Unit Batch where
  inv n sh := Triaged sh.db ∧ Minted n sh.db
  rely i sh sh' := Grows i sh.db sh'.db
  commits _ batch sh sh' := Delivered batch sh.db sh'.db
  calls _ _ _ _ := True
  inv_open _ _ h := ⟨h.1, fun a ha => Nat.lt_succ_of_lt (h.2.alerts a ha),
    fun s hs => Nat.lt_succ_of_lt (h.2.events s hs)⟩
  rely_refl _ _ := ⟨id, fun _ h => h⟩
  rely_trans _ _ _ _ h h' := ⟨fun hun => h'.1 (h.1 hun), fun key hkey => h'.2 key (h.2 key hkey)⟩

/-! ## Rows under the pending writes -/

theorem rowOf_applyAll_congr (ws : List Write) (r : Resource) {db db' : DB}
    (h : rowOf r db = rowOf r db') :
    rowOf r (store.applyAll ws db) = rowOf r (store.applyAll ws db') := by
  induction ws generalizing db db' with
  | nil => exact h
  | cons w ws ih =>
    rw [Store.applyAll_cons, Store.applyAll_cons]
    apply ih
    show rowOf r (w.apply db) = rowOf r (w.apply db')
    rw [rowOf_apply, rowOf_apply, h]

theorem hasEvent_apply (w : Write) (db : DB) {key : EventKey} (h : hasEvent db key = true) :
    hasEvent (w.apply db) key = true := by
  have hrow := congrArg Prod.fst (rowOf_apply w (.event key) db)
  cases w with
  | reserve s =>
    simpa [rowOf, Write.onRow, h] using hrow
  | _ => exact hrow.trans h

/-- A pending write makes an event present, or it is committed. -/
theorem hasEvent_applyAll_mono (ws : List Write) {key : EventKey} {db db' : DB}
    (hgrow : hasEvent db key = true → hasEvent db' key = true)
    (h : hasEvent (store.applyAll ws db) key = true) :
    hasEvent (store.applyAll ws db') key = true := by
  induction ws generalizing db db' with
  | nil => exact hgrow h
  | cons w ws ih =>
    rw [Store.applyAll_cons] at h ⊢
    refine ih ?_ h
    intro hw
    have hrow := congrArg Prod.fst (rowOf_apply w (.event key) db)
    have hrow' := congrArg Prod.fst (rowOf_apply w (.event key) db')
    cases w with
    | reserve s =>
      show hasEvent ((Write.reserve s).apply db') key = true
      have hor : (hasEvent db key || keyOf s == key) = true := hrow.symm.trans hw
      have hor' : (hasEvent db' key || keyOf s == key) = true := by
        rw [Bool.or_eq_true] at hor ⊢
        exact hor.imp_left hgrow
      exact hrow'.trans hor'
    | _ => exact hrow'.trans (hgrow (hrow.symm.trans hw))

section

variable {session : ℕ} {done : Batch} {mark : List SourceEvent → Prop} {ws : List Write}
  {sh sh' : Shared DB Unit}

theorem Sound.stable (h : Sound session done mark ws sh)
    (hr : RelyOn outline store session ws sh sh') : Sound session done mark ws sh' where
  unowned := hr.1.1 h.unowned
  present d hd := hasEvent_applyAll_mono ws (hr.1.2 _) (h.present d hd)
  triages db htriaged hunowned hrows := h.triages db htriaged hunowned fun r hmem =>
    (hrows r hmem).trans (hr.2 r hmem)

/-- A row that the session holds stays as it sees it. -/
theorem rowOf_view {ws' : List Write} {r : Resource}
    (hr : RelyOn outline store session (ws ++ ws') sh sh') (hmem : r ∈ store.held (ws ++ ws')) :
    rowOf r (store.applyAll ws sh'.db) = rowOf r (store.applyAll ws sh.db) :=
  rowOf_applyAll_congr ws r (hr.2 r hmem)

end

/-! ## The writes of one event -/

/-- The link of a row that was just reserved. -/
theorem link_reserved {db : DB} (row : SourceEvent) (hfresh : ∀ s ∈ db.sourceEvents, s.id ≠ row.id)
    (alert : ℕ) :
    (db.sourceEvents ++ [row]).map (fun s =>
      if s.id = row.id then { s with alertId := some alert } else s) =
      db.sourceEvents ++ [{ row with alertId := some alert }] := by
  have hold : db.sourceEvents.map (fun s =>
      if s.id = row.id then { s with alertId := some alert } else s) = db.sourceEvents :=
    (List.map_congr_left fun s hs => if_neg (hfresh s hs)).trans (List.map_id' _)
  rw [List.map_append, hold]
  simp

section

variable {session : ℕ} {done : Batch} {db D D' : DB} {new : List SourceEvent}

/-- The id of the session's next event is in no row. -/
theorem Extends.fresh (h : Extends session done db D new) (hunowned : Unowned session db) :
    (∀ s ∈ D.sourceEvents, s.id ≠ uuid session done.length) ∧
      ∀ a ∈ D.alerts, a.id ≠ uuid session done.length := by
  constructor
  · intro s hs heq
    rw [h.events] at hs
    rcases List.mem_append.mp hs with hs | hs
    · exact hunowned.events s hs (by rw [heq, minter_uuid])
    · obtain ⟨-, n, hn, hid⟩ := h.delivered s hs
      have hsame := uuid_inj (hid.symm.trans heq)
      omega
  · intro a ha heq
    rcases h.minted a ha with ⟨a₀, ha₀, hid⟩ | ⟨n, hn, hid⟩
    · exact hunowned.alerts a₀ ha₀ (by rw [hid, heq, minter_uuid])
    · have hsame := uuid_inj (hid.symm.trans heq)
      omega

/-- One more event, with its row and what it does to the alerts. -/
theorem Extends.event (h : Extends session done db D new) {d : Delivery} {s : SourceEvent}
    (htriaged : Triaged D') (hevents : D'.sourceEvents = D.sourceEvents ++ [s])
    (hkey : keyOf s = ingestKey d.event) (hid : s.id = uuid session done.length)
    (hminted : ∀ a ∈ D'.alerts, (∃ a₀ ∈ D.alerts, a₀.id = a.id) ∨ a.id = uuid session done.length)
    (hkept : ∀ a ∈ D.alerts, a ∈ D'.alerts ∨ s.alertId = some a.id) :
    Extends session (done ++ [d]) db D' (new ++ [s]) where
  triaged := htriaged
  events := by rw [hevents, h.events, List.append_assoc]
  delivered := by
    intro s' hs'
    rw [List.length_append, List.length_singleton]
    rcases List.mem_append.mp hs' with hs' | hs'
    · obtain ⟨⟨d', hd', hkey'⟩, n, hn, hid'⟩ := h.delivered s' hs'
      exact ⟨⟨d', List.mem_append_left _ hd', hkey'⟩, n, by omega, hid'⟩
    · obtain rfl := List.mem_singleton.mp hs'
      exact ⟨⟨d, List.mem_append_right _ (List.mem_singleton.mpr rfl), hkey⟩, done.length,
        by omega, hid⟩
  minted := by
    intro a ha
    rw [List.length_append, List.length_singleton]
    rcases hminted a ha with ⟨a₁, ha₁, hid₁⟩ | hid'
    · rcases h.minted a₁ ha₁ with ⟨a₀, ha₀, hid₀⟩ | ⟨n, hn, hid₀⟩
      · exact Or.inl ⟨a₀, ha₀, hid₀.trans hid₁⟩
      · exact Or.inr ⟨n, by omega, hid₁.symm.trans hid₀⟩
    · exact Or.inr ⟨done.length, by omega, hid'⟩
  kept := by
    intro a ha
    rcases h.kept a ha with hmem | ⟨s', hs', hlink⟩
    · rcases hkept a hmem with hmem' | hlink
      · exact Or.inl hmem'
      · exact Or.inr ⟨s, List.mem_append_right _ (List.mem_singleton.mpr rfl), hlink⟩
    · exact Or.inr ⟨s', List.mem_append_left _ hs', hlink⟩
  unchanged := by
    intro hnil
    exact absurd hnil (by simp)

/-- The event joins an alert. -/
theorem Extends.coalesce (h : Extends session done db D new) (hunowned : Unowned session db)
    (d : Delivery) (ts : ℤ) {a : Alert} (ha : a ∈ D.alerts) (htenant : a.tenant = d.event.tenant)
    (hkey : hasEvent D (ingestKey d.event) = false) (r : Resource) :
    ∃ s, s.alertId = some a.id ∧ Extends session (done ++ [d]) db
      (store.applyAll [.reserve (sourceEventRow (uuid session done.length) d.event ts), .lock r,
        .updateAlert (refOf a) (.coalesced a d.event ts),
        .link (uuid session done.length) a.id] D) (new ++ [s]) := by
  obtain ⟨hsid, -⟩ := h.fresh hunowned
  have hrow := link_reserved (sourceEventRow (uuid session done.length) d.event ts) hsid a.id
  let row := { sourceEventRow (uuid session done.length) d.event ts with alertId := some a.id }
  refine ⟨row, rfl, h.event (h.triaged.coalesce (s := row) d.event ts hkey hsid ha rfl htenant hrow
    rfl) hrow rfl rfl ?_ ?_⟩
  · intro b' hb'
    obtain ⟨b, hb, rfl⟩ := List.mem_map.mp hb'
    refine Or.inl ⟨b, hb, ?_⟩
    split <;> simp
  · intro b hb
    by_cases hba : b = a
    · exact Or.inr (by rw [hba])
    · refine Or.inl (List.mem_map.mpr ⟨b, hb, if_neg fun hnamed => hba ?_⟩)
      exact (names_refOf h.triaged ha hb).mp hnamed

/-- The event opens an alert. -/
theorem Extends.insert (h : Extends session done db D new) (hunowned : Unowned session db)
    (d : Delivery) (ts : ℤ) (signature : String)
    (hnone : ∀ a ∈ D.alerts, a.tenant = d.event.tenant → a.signature = signature →
      a.status ≠ .new)
    (hkey : hasEvent D (ingestKey d.event) = false) (r : Resource) :
    ∃ s, s.alertId = some (uuid session done.length) ∧ Extends session (done ++ [d]) db
      (store.applyAll [.reserve (sourceEventRow (uuid session done.length) d.event ts), .lock r,
        .insertAlert (alertRow (uuid session done.length) d.event ts signature),
        .link (uuid session done.length) (uuid session done.length)] D) (new ++ [s]) := by
  obtain ⟨hsid, haid⟩ := h.fresh hunowned
  have hrow := link_reserved (sourceEventRow (uuid session done.length) d.event ts) hsid
    (uuid session done.length)
  let row := { sourceEventRow (uuid session done.length) d.event ts with
    alertId := some (uuid session done.length) }
  let alert := alertRow (uuid session done.length) d.event ts signature
  refine ⟨row, rfl, h.event (h.triaged.insert (s := row) (a := alert) hkey hsid haid hnone rfl rfl
    rfl hrow rfl) hrow rfl rfl ?_ ?_⟩
  · intro a ha
    rcases List.mem_append.mp ha with ha | ha
    · exact Or.inl ⟨a, ha, rfl⟩
    · obtain rfl := List.mem_singleton.mp ha
      exact Or.inr rfl
  · intro a ha
    exact Or.inl (List.mem_append_left _ ha)

/-- An event that is there already adds nothing. -/
theorem Extends.skip (h : Extends session done db D new) (d : Delivery) :
    Extends session (done ++ [d]) db D new where
  triaged := h.triaged
  events := h.events
  delivered := by
    intro s hs
    obtain ⟨⟨d', hd', hkey⟩, n, hn, hid⟩ := h.delivered s hs
    rw [List.length_append]
    exact ⟨⟨d', List.mem_append_left _ hd', hkey⟩, n, by omega, hid⟩
  minted := by
    intro a ha
    rw [List.length_append]
    rcases h.minted a ha with hold | ⟨n, hn, hid⟩
    · exact Or.inl hold
    · exact Or.inr ⟨n, by omega, hid⟩
  kept := h.kept
  unchanged := h.unchanged

/-- The write leaves events and counts alone; among the alerts it changes only one. -/
def QuietWrite (ref : AlertRef) (w : Write) : Prop :=
  w.Beside ∨ ∃ c, Quiet c ∧ w = .updateAlert ref c

def Marks (alert : ℕ) (new : List SourceEvent) : Prop := ∃ s ∈ new, s.alertId = some alert

theorem Triaged.same {db' : DB} (h : Triaged db) (halerts : db'.alerts = db.alerts)
    (hevents : db'.sourceEvents = db.sourceEvents) : Triaged db' := by
  obtain ⟨hkeys, heids, haids, hlinked, hcounted, hsingle⟩ := h
  rw [← halerts] at haids hcounted hsingle
  rw [← hevents] at hkeys heids hcounted
  refine ⟨hkeys, heids, haids, ?_, hcounted, hsingle⟩
  rw [halerts, hevents]
  exact hlinked

theorem Extends.quiet (h : Extends session done db D new) {ref : AlertRef}
    (hmark : Marks ref.id new) {w : Write} (hw : QuietWrite ref w) :
    Extends session done db (w.apply D) new := by
  have hne : new = [] → w.apply D = db := by
    rintro rfl
    obtain ⟨s, hs, -⟩ := hmark
    cases hs
  rcases hw with hbeside | ⟨c, hquiet, rfl⟩
  · obtain ⟨halerts, hevents⟩ := hbeside.same D
    exact ⟨h.triaged.same halerts hevents, hevents ▸ h.events, h.delivered, halerts ▸ h.minted,
      halerts ▸ h.kept, hne⟩
  · refine ⟨h.triaged.quiet hquiet ref rfl rfl, h.events, h.delivered, ?_, ?_, hne⟩
    · intro a' ha'
      obtain ⟨a, ha, rfl⟩ := List.mem_map.mp ha'
      have hid : (if ref.names a then c.apply a else a).id = a.id := by
        split <;> simp
      rw [hid]
      exact h.minted a ha
    · intro a ha
      rcases h.kept a ha with hmem | hlinked
      · by_cases hnamed : ref.names a = true
        · have hid : a.id = ref.id := by
            simp only [AlertRef.names, Bool.and_eq_true, beq_iff_eq] at hnamed
            exact hnamed.1
          rw [hid]
          exact Or.inr hmark
        · exact Or.inl (List.mem_map.mpr ⟨a, hmem, if_neg hnamed⟩)
      · exact Or.inr hlinked

end

/-! ## The pending writes of one event -/

theorem hasEvent_applyAll (ws : List Write) {db : DB} {key : EventKey}
    (h : hasEvent db key = true) : hasEvent (store.applyAll ws db) key = true := by
  induction ws generalizing db with
  | nil => exact h
  | cons w ws ih => exact ih (hasEvent_apply w db h)

section

variable {session : ℕ} {done : Batch} {mark : List SourceEvent → Prop} {ws : List Write}
  {sh : Shared DB Unit}

theorem Sound.unmark (h : Sound session done mark ws sh) :
    Sound session done (fun _ => True) ws sh where
  unowned := h.unowned
  present := h.present
  triages db htriaged hunowned hrows :=
    (h.triages db htriaged hunowned hrows).imp fun _ hnew => ⟨hnew.1, trivial⟩

theorem Sound.quiet {ref : AlertRef} (h : Sound session done (Marks ref.id) ws sh) {w : Write}
    (hw : QuietWrite ref w) : Sound session done (Marks ref.id) (ws ++ [w]) sh where
  unowned := h.unowned
  present d hd := by
    rw [Store.applyAll_append]
    exact hasEvent_applyAll [w] (h.present d hd)
  triages db htriaged hunowned hrows := by
    have hsub : ∀ r ∈ store.held ws, rowOf r db = rowOf r sh.db := by
      intro r hr
      apply hrows r
      rw [Store.held_append]
      exact List.mem_append_left _ hr
    obtain ⟨new, hext, hmark⟩ := h.triages db htriaged hunowned hsub
    rw [Store.applyAll_append]
    exact ⟨new, hext.quiet hmark hw, hmark⟩

theorem Sound.skip (h : Sound session done (fun _ => True) ws sh) (d : Delivery)
    (hkey : hasEvent (store.applyAll ws sh.db) (ingestKey d.event) = true) :
    Sound session (done ++ [d]) (fun _ => True) ws sh where
  unowned := h.unowned
  present d' hd' := by
    rcases List.mem_append.mp hd' with hd' | hd'
    · exact h.present d' hd'
    · rw [List.mem_singleton.mp hd']
      exact hkey
  triages db htriaged hunowned hrows :=
    (h.triages db htriaged hunowned hrows).imp fun _ hnew => ⟨hnew.1.skip d, trivial⟩

/-- The reservation of an event and the writes after it, when they extend the tables that they
are applied to by that event. -/
theorem Sound.event (h : Sound session done (fun _ => True) ws sh) (d : Delivery) {alert : ℕ}
    {row : SourceEvent} {rest : List Write} (hkey : keyOf row = ingestKey d.event)
    (hext : ∀ db D new, Unowned session db → Extends session done db D new →
      (∀ r ∈ store.held (.reserve row :: rest),
        rowOf r D = rowOf r (store.applyAll ws sh.db)) →
      ∃ s, s.alertId = some alert ∧ Extends session (done ++ [d]) db
        (store.applyAll (.reserve row :: rest) D) (new ++ [s])) :
    Sound session (done ++ [d]) (Marks alert) (ws ++ .reserve row :: rest) sh where
  unowned := h.unowned
  present d' hd' := by
    rw [Store.applyAll_append, Store.applyAll_cons]
    apply hasEvent_applyAll rest
    rcases List.mem_append.mp hd' with hd' | hd'
    · exact hasEvent_apply (.reserve row) _ (h.present d' hd')
    · rw [List.mem_singleton.mp hd']
      have hrow := congrArg Prod.fst
        (rowOf_apply (.reserve row) (.event (ingestKey d.event)) (store.applyAll ws sh.db))
      refine hrow.trans ?_
      simp [Write.onRow, hkey]
  triages db htriaged hunowned hrows := by
    rw [Store.held_append] at hrows
    obtain ⟨new, hnew, -⟩ := h.triages db htriaged hunowned fun r hr =>
      hrows r (List.mem_append_left _ hr)
    have hview : ∀ r ∈ store.held (.reserve row :: rest),
        rowOf r (store.applyAll ws db) = rowOf r (store.applyAll ws sh.db) := fun r hr =>
      rowOf_applyAll_congr ws r (hrows r (List.mem_append_right _ hr))
    obtain ⟨s, hs, hext⟩ := hext db _ new hunowned hnew hview
    rw [Store.applyAll_append]
    exact ⟨new ++ [s], hext, s, List.mem_append_right _ (List.mem_singleton.mpr rfl), hs⟩

/-- What the view says of an event and a signature, where the rows behind both are the same. -/
theorem hasEvent_of_row {db db' : DB} {key : EventKey}
    (h : rowOf (.event key) db = rowOf (.event key) db') : hasEvent db key = hasEvent db' key :=
  congrArg Prod.fst h

theorem alerts_of_row {db db' : DB} {tenant : Tenant} {signature : String}
    (h : rowOf (.signature tenant signature) db = rowOf (.signature tenant signature) db') :
    db.alerts.filter (ofSignature tenant signature) =
      db'.alerts.filter (ofSignature tenant signature) := congrArg Prod.snd h

theorem Sound.coalesce (h : Sound session done (fun _ => True) ws sh) (d : Delivery) (ts : ℤ)
    {signature : String} {a : Alert}
    (hkey : hasEvent (store.applyAll ws sh.db) (ingestKey d.event) = false)
    (ha : a ∈ (store.applyAll ws sh.db).alerts.filter (ofSignature d.event.tenant signature)) :
    Sound session (done ++ [d]) (Marks a.id)
      (ws ++ [.reserve (sourceEventRow (uuid session done.length) d.event ts),
        .lock (.signature d.event.tenant signature),
        .updateAlert (refOf a) (.coalesced a d.event ts),
        .link (uuid session done.length) a.id]) sh := by
  apply h.event d rfl
  intro db D new hunowned hext hrows
  have hkeyD : hasEvent D (ingestKey d.event) = false :=
    (hasEvent_of_row (hrows (.event (ingestKey d.event)) (by simp [store, Write.locks,
      keyOf, sourceEventRow, ingestKey]))).trans hkey
  have hrow := alerts_of_row (hrows (.signature d.event.tenant signature)
    (by simp [store, Write.locks]))
  rw [← hrow] at ha
  obtain ⟨hmem, hsig⟩ := List.mem_filter.mp ha
  have htenant : a.tenant = d.event.tenant := by
    simp only [ofSignature, Bool.and_eq_true, beq_iff_eq] at hsig
    exact hsig.1
  exact hext.coalesce hunowned d ts hmem htenant hkeyD _

theorem Sound.insert (h : Sound session done (fun _ => True) ws sh) (d : Delivery) (ts : ℤ)
    {signature : String}
    (hkey : hasEvent (store.applyAll ws sh.db) (ingestKey d.event) = false)
    (hnone : ∀ a ∈ (store.applyAll ws sh.db).alerts.filter (ofSignature d.event.tenant signature),
      a.status ≠ .new) :
    Sound session (done ++ [d]) (Marks (uuid session done.length))
      (ws ++ [.reserve (sourceEventRow (uuid session done.length) d.event ts),
        .lock (.signature d.event.tenant signature),
        .insertAlert (alertRow (uuid session done.length) d.event ts signature),
        .link (uuid session done.length) (uuid session done.length)]) sh := by
  apply h.event d rfl
  intro db D new hunowned hext hrows
  have hkeyD : hasEvent D (ingestKey d.event) = false :=
    (hasEvent_of_row (hrows (.event (ingestKey d.event)) (by simp [store, Write.locks,
      keyOf, sourceEventRow, ingestKey]))).trans hkey
  have hrow := alerts_of_row (hrows (.signature d.event.tenant signature)
    (by simp [store, Write.locks]))
  rw [← hrow] at hnone
  refine hext.insert hunowned d ts signature ?_ hkeyD _
  intro a ha htenant hsig
  exact hnone a (List.mem_filter.mpr ⟨ha, by simp [ofSignature, htenant, hsig]⟩)

end

/-! ## The cascade changes nothing that counts -/

section

variable {ref : AlertRef} {next prog : Program}

/-- A program whose writes until `next` are quiet. -/
abbrev Cascade (ref : AlertRef) (next : Program) : Program → Prop :=
  LeadsTo (QuietWrite ref) next

theorem cascade_select {body : View DB Resource → Program} (h : ∀ v, Cascade ref next (body v)) :
    Cascade ref next (select body) :=
  .stmt (by simp) h

theorem cascade_execute {writes : List Write} (hw : ∀ w ∈ writes, QuietWrite ref w)
    (h : Cascade ref next prog) : Cascade ref next (execute writes prog) :=
  .stmt (fun _ => hw) fun _ => h

/-- A write beside the alerts and source events. -/
theorem cascade_beside {w : Write} (hw : w.Beside) (h : Cascade ref next prog) :
    Cascade ref next (execute [w] prog) := by
  refine cascade_execute ?_ h
  intro w' hw'
  obtain rfl := List.mem_singleton.mp hw'
  exact Or.inl hw

theorem cascade_update {c : AlertChange} (hc : Quiet c) (h : Cascade ref next prog) :
    Cascade ref next (execute [.updateAlert ref c] prog) := by
  refine cascade_execute ?_ h
  intro w' hw'
  obtain rfl := List.mem_singleton.mp hw'
  exact Or.inr ⟨c, hc, rfl⟩

theorem cascade_attempt {α : Type} {x : M α} {body : α → Program}
    (h : ∀ a, Cascade ref next (body a)) : Cascade ref next (attempt x body) := by
  unfold attempt
  cases x with
  | ok a => exact h a
  | error e => exact .rollback

theorem cascade_flagNewEvidence (tenant : Tenant) (investigation : ℕ)
    (h : Cascade ref next prog) : Cascade ref next (flagNewEvidence tenant investigation prog) := by
  refine cascade_select fun v => ?_
  split
  · exact cascade_beside (w := .updateInvestigation _ _) trivial h
  · exact h

theorem cascade_describe (description : Option String) (h : Cascade ref next prog) :
    Cascade ref next (describe ref description prog) := by
  unfold describe
  cases description with
  | none => exact h
  | some d =>
    dsimp only
    split
    · exact h
    · exact cascade_update (c := .described _) trivial h

variable (f : Fresh)

theorem cascade_recordKeys (investigation : ℕ) (h : Cascade f.alert next prog) :
    Cascade f.alert next (recordKeys f investigation prog) := by
  refine cascade_execute ?_ h
  intro w hw
  obtain ⟨k, -, rfl⟩ := List.mem_map.mp hw
  exact Or.inl trivial

theorem cascade_startRun (investigation : ℕ) (settle : FloatVal) (h : Cascade f.alert next prog) :
    Cascade f.alert next (startRun f investigation settle prog) := by
  refine .stmt ?_ ?_
  · intro v w hw
    split at hw
    · cases hw
    · obtain rfl := List.mem_singleton.mp hw
      exact Or.inl trivial
  · intro v
    split
    · exact .rollback
    · exact h

theorem cascade_autoCloseAlert (days : Value) (h : Cascade f.alert next prog) :
    Cascade f.alert next (autoCloseAlert f days prog) := by
  refine cascade_select fun v => ?_
  cases v.db.alert? f.alert.id with
  | none => exact .rollback
  | some alert =>
    refine cascade_attempt fun window => cascade_beside (w := .insertInvestigation _) trivial ?_
    exact cascade_update (c := .settled .autoClosed _) nofun h

theorem cascade_promote : Cascade f.alert next (promote f next) := by
  refine cascade_attempt fun settle => cascade_select fun v => ?_
  cases v.db.alert? f.alert.id with
  | none => exact .rollback
  | some alert =>
    refine cascade_beside (w := .insertInvestigation _) trivial ?_
    have hkeys := cascade_recordKeys f f.uuid (LeadsTo.here : Cascade f.alert next next)
    have hstart := cascade_startRun f f.uuid settle hkeys
    exact cascade_update (c := .settled .promoted _) nofun hstart

theorem cascade_rulesAutoClose (denied : Bool) :
    Cascade f.alert next (rulesAutoClose f next denied) := by
  refine cascade_attempt fun closes => ?_
  split
  · refine cascade_select fun v => cascade_attempt fun veto => ?_
    split
    · exact cascade_promote f
    · exact cascade_autoCloseAlert f _ .here
  · exact cascade_promote f

theorem cascade_memoizedClose (authorized : Bool) :
    Cascade f.alert next (memoizedClose f next authorized) := by
  unfold memoizedClose
  split
  · exact cascade_rulesAutoClose f _
  · cases shapeKey (some f.event.source) f.event.evidence.decoder f.event.evidence.templateHash
        f.event.evidence.templateVersion with
    | none => exact cascade_rulesAutoClose f _
    | some mkey =>
      refine cascade_select fun v => ?_
      cases lookupMemoizedClose f.ctx.env f.ctx.now v.db.verdictCache (f.event.tenant, mkey) with
      | none => exact cascade_rulesAutoClose f _
      | some memo =>
        refine cascade_select fun v => cascade_attempt fun veto => ?_
        split
        · exact cascade_rulesAutoClose f _
        · split
          · exact cascade_rulesAutoClose f _
          · exact cascade_autoCloseAlert f _ (cascade_beside (w := .bumpHit _) trivial .here)

theorem cascade_reopenOrDecide : Cascade f.alert next (reopenOrDecide f next) := by
  refine cascade_select fun v => ?_
  cases reopenable f.ctx v.db f.event f.candidate.ts with
  | none => exact cascade_select fun v => cascade_memoizedClose f _
  | some investigation =>
    have hattach : Cascade f.alert next
        (execute [.updateAlert f.alert (.settled .promoted investigation)] next) := by
        exact cascade_update (c := .settled .promoted _) nofun .here
    refine cascade_beside (w := .updateInvestigation _ _) trivial (cascade_select fun v => ?_)
    split
    · exact hattach
    · exact cascade_startRun f _ _ hattach

theorem cascade_deconflictOrDecide : Cascade f.alert next (deconflictOrDecide f next) := by
  unfold deconflictOrDecide
  split
  · refine cascade_select fun v => ?_
    cases deconflict f.ctx v.db f.event.tenant f.candidate.ts
        (deconflictionInputs f.ctx f.event) with
    | none => exact cascade_reopenOrDecide f
    | some d =>
      refine cascade_beside (w := .observe _ _ _ _) trivial ?_
      cases d.status with
      | declaredTest =>
            exact cascade_update (c := .deconflicted) trivial .here
      | outOfScope =>
        exact cascade_reopenOrDecide
          { f with candidate := { f.candidate with forcePromote := true } }
  · exact cascade_reopenOrDecide f

theorem cascade_triageFresh (hf : f.alert = ref) : Cascade ref next (triageFresh f next) := by
  rw [← hf]
  unfold triageFresh
  split
  · refine cascade_select fun v => ?_
    cases findCorrelatedInvestigation f.ctx v.db f.event.tenant f.candidate.keys with
    | none => exact cascade_deconflictOrDecide f
    | some investigation =>
      have hflag := cascade_flagNewEvidence f.event.tenant investigation
        (LeadsTo.here : Cascade f.alert next next)
      have hkeys := cascade_recordKeys f investigation hflag
      exact cascade_update (c := .settled .promoted _) nofun hkeys
  · exact cascade_deconflictOrDecide f

end

/-! ## The batch -/

section

variable {session : ℕ} {done batch : Batch} {ws : List Write} {sh : Shared DB Unit}
  {next prog : Program}

theorem Minted.extends {n : ℕ} {db db' : DB} {new : List SourceEvent} (h : Minted n db)
    (hsession : session < n) (hext : Extends session done db db' new) : Minted n db' := by
  constructor
  · intro a ha
    rcases hext.minted a ha with ⟨a₀, ha₀, hid⟩ | ⟨k, -, hid⟩
    · rw [← hid]
      exact h.alerts a₀ ha₀
    · rw [hid, minter_uuid]
      exact hsession
  · intro s hs
    rw [hext.events] at hs
    rcases List.mem_append.mp hs with hs | hs
    · exact h.events s hs
    · obtain ⟨-, k, -, hid⟩ := hext.delivered s hs
      rw [hid, minter_uuid]
      exact hsession

theorem Grows.extends {other : ℕ} {db db' : DB} {new : List SourceEvent} (hne : other ≠ session)
    (hext : Extends session done db db' new) : Grows other db db' := by
  constructor
  · intro hunowned
    constructor
    · intro a ha
      rcases hext.minted a ha with ⟨a₀, ha₀, hid⟩ | ⟨k, -, hid⟩
      · rw [← hid]
        exact hunowned.alerts a₀ ha₀
      · rw [hid, minter_uuid]
        exact hne.symm
    · intro s hs
      rw [hext.events] at hs
      rcases List.mem_append.mp hs with hs | hs
      · exact hunowned.events s hs
      · obtain ⟨-, k, -, hid⟩ := hext.delivered s hs
        rw [hid, minter_uuid]
        exact hne.symm
  · intro key hkey
    unfold hasEvent at hkey ⊢
    rw [hext.events, List.any_append, hkey]
    rfl

/-- The new events are those of the batch that were not there. -/
theorem Extends.redelivered {db db' : DB} {new : List SourceEvent}
    (hext : Extends session batch db db' new)
    (hall : ∀ d ∈ batch, hasEvent db (ingestKey d.event) = true) : db' = db := by
  apply hext.unchanged
  rw [List.eq_nil_iff_forall_not_mem]
  intro s hs
  obtain ⟨⟨d, hd, hkey⟩, -⟩ := hext.delivered s hs
  obtain ⟨old, hold, hsame⟩ := List.any_eq_true.mp (hall d hd)
  have hnodup := hext.triaged.keys
  rw [hext.events, List.map_append] at hnodup
  have hdisjoint := List.disjoint_of_nodup_append hnodup
  refine hdisjoint (List.mem_map_of_mem hold) ?_
  rw [beq_iff_eq.mp hsame, ← hkey]
  exact List.mem_map_of_mem hs

theorem Sound.commit (h : Sound session batch (fun _ => True) ws sh) :
    Safe outline store always session batch (.commit ()) ws sh := by
  intro n sh' locked hsession hinv hr _
  have h' := h.stable hr
  obtain ⟨new, hext, -⟩ := h'.triages sh'.db hinv.1 h'.unowned fun _ _ => rfl
  have hdelivered : Delivered batch sh'.db (store.applyAll ws sh'.db) :=
    ⟨h'.present, ⟨new, hext.events, fun s hs => (hext.delivered s hs).1, hext.kept⟩,
      hext.redelivered⟩
  exact ⟨⟨⟨hext.triaged, hinv.2.extends hsession hext⟩, fun j hj => Grows.extends hj hext⟩,
    hdelivered⟩

/-- The rest of an event's triage, once it is counted. -/
theorem Sound.cascade (ref : AlertRef) (h : Sound session done (Marks ref.id) ws sh)
    (hprog : Cascade ref next prog)
    (hnext : ∀ ws sh, Sound session done (fun _ => True) ws sh →
      Safe outline store always session batch next ws sh) :
    Safe outline store always session batch prog ws sh :=
  Safe.of_leadsTo (P := Sound session done (Marks ref.id)) hprog
    (fun _ _ _ h hr => h.stable hr) (fun _ _ _ h hw => h.quiet hw)
    (fun ws sh h => hnext ws sh h.unmark) h

/-- What a session knows while it triages a new event under the lock of its signature: the
event is there by its own reservation only, and which alerts the signature has. -/
structure Pending (session : ℕ) (done : Batch) (d : Delivery) (signature : String)
    (alerts : List Alert) (ws : List Write) (sh : Shared DB Unit) : Prop where
  sound : Sound session done (fun _ => True) ws sh
  absent : hasEvent (store.applyAll ws sh.db) (ingestKey d.event) = false
  alerts : (store.applyAll ws sh.db).alerts.filter (ofSignature d.event.tenant signature) = alerts

/-- The reservation, and the lock. -/
abbrev opening (session : ℕ) (done : Batch) (d : Delivery) (ts : ℤ) (signature : String) :
    List Write :=
  [.reserve (sourceEventRow (uuid session done.length) d.event ts),
    .lock (.signature d.event.tenant signature)]

variable {d : Delivery} {signature : String} {alerts : List Alert} {ts : ℤ}

theorem mem_held_opening (ws' : List Write) :
    .event (ingestKey d.event) ∈ store.held (ws ++ (opening session done d ts signature ++ ws')) ∧
      .signature d.event.tenant signature ∈
        store.held (ws ++ (opening session done d ts signature ++ ws')) := by
  simp [store, Write.locks, keyOf, sourceEventRow, ingestKey]

theorem Pending.stable (h : Pending session done d signature alerts ws sh) (ws' : List Write)
    {sh' : Shared DB Unit}
    (hr : RelyOn outline store session (ws ++ (opening session done d ts signature ++ ws')) sh sh') :
    Pending session done d signature alerts ws sh' :=
  ⟨h.sound.stable hr.mono,
    (hasEvent_of_row (rowOf_view hr (mem_held_opening ws').1)).trans h.absent,
    (alerts_of_row (rowOf_view hr (mem_held_opening ws').2)).trans h.alerts⟩

theorem safe_coalesce (h : Pending session done d signature alerts ws sh) {a : Alert}
    (ha : a ∈ alerts) (hprog : Cascade (refOf a) next prog)
    (hnext : ∀ ws sh, Sound session (done ++ [d]) (fun _ => True) ws sh →
      Safe outline store always session batch next ws sh) :
    Safe outline store always session batch
      (coalesce d.event ts (uuid session done.length) a prog)
      (ws ++ opening session done d ts signature) sh := by
  intro n1 sh1 locked1 _ _ hr1 _ n2 sh2 locked2 _ _ hr2 _
  have h1 := h.stable [] (by simpa using hr1)
  rw [List.append_assoc] at hr2
  have h2 := h1.stable _ hr2
  have hsound : Sound session (done ++ [d]) (Marks (refOf a).id) _ sh2 :=
    h2.sound.coalesce d ts h2.absent (h2.alerts.symm ▸ ha)
  apply Sound.cascade (refOf a) _ hprog hnext
  simpa using hsound

theorem safe_triageNew (h : Pending session done d signature alerts ws sh)
    (hnone : ∀ a ∈ alerts, a.status ≠ .new)
    (hnext : ∀ ws sh, Sound session (done ++ [d]) (fun _ => True) ws sh →
      Safe outline store always session batch next ws sh) :
    Safe outline store always session batch
      (triageNew d ts (uuid session done.length) signature next)
      (ws ++ opening session done d ts signature) sh := by
  intro n1 sh1 locked1 _ _ hr1 _ n2 sh2 locked2 _ _ hr2 _
  have h1 := h.stable [] (by simpa using hr1)
  rw [List.append_assoc] at hr2
  have h2 := h1.stable _ hr2
  have hsound : Sound session (done ++ [d])
      (Marks (refOf (alertRow (uuid session done.length) d.event ts signature)).id) _ sh2 :=
    h2.sound.insert d ts h2.absent (h2.alerts.symm ▸ hnone)
  have hprog : Cascade (refOf (alertRow (uuid session done.length) d.event ts signature)) next
      (describe (refOf (alertRow (uuid session done.length) d.event ts signature))
        d.event.description <| select fun v => triageFresh
          { ctx := d.ctx, event := d.event, uuid := uuid session done.length
            alert := refOf (alertRow (uuid session done.length) d.event ts signature)
            candidate := { alert := uuid session done.length, ts := ts
                           policy := effectivePolicy d.ctx v.db d.event.tenant
                           keys := extractKeys d.ctx d.event, forcePromote := false } } next) :=
    cascade_describe _ (cascade_select fun v => cascade_triageFresh _ rfl)
  apply Sound.cascade (refOf (alertRow (uuid session done.length) d.event ts signature)) _
    hprog hnext
  simpa using hsound

theorem mem_of_openAlert {db : DB} {tenant : Tenant} {a : Alert}
    (h : openAlert db tenant signature = some a) :
    a ∈ db.alerts.filter (ofSignature tenant signature) := by
  have hfound := List.find?_some h
  simp only [Bool.and_eq_true] at hfound
  refine List.mem_filter.mpr ⟨List.mem_of_find?_eq_some h, ?_⟩
  simpa [ofSignature] using hfound.1

theorem not_new_of_openAlert {db : DB} {tenant : Tenant}
    (h : openAlert db tenant signature = none) :
    ∀ a ∈ db.alerts.filter (ofSignature tenant signature), a.status ≠ .new := by
  intro a ha hnew
  obtain ⟨hmem, hsig⟩ := List.mem_filter.mp ha
  have hnone := List.find?_eq_none.mp h a hmem
  rw [hnew] at hnone
  exact hnone (by simpa [ofSignature] using hsig)

theorem mem_of_promotedAlert {db : DB} {tenant : Tenant} {a : Alert} {i : Investigation}
    (h : promotedAlert db tenant signature = some (a, i)) :
    a ∈ db.alerts.filter (ofSignature tenant signature) := by
  have hmem := List.argmax_mem h
  obtain ⟨b, hb, hjoin⟩ := List.mem_flatMap.mp hmem
  split_ifs at hjoin with hsig
  · obtain ⟨j, -, heq⟩ := List.mem_map.mp hjoin
    obtain rfl := (Prod.mk.inj heq).1
    exact List.mem_filter.mpr ⟨hb, by simp [ofSignature, hsig.1, hsig.2.1]⟩
  · cases hjoin

theorem alerts_opening (session : ℕ) (done : Batch) (d : Delivery) (ts : ℤ) (signature : String)
    (ws : List Write) (sh : Shared DB Unit) :
    (store.applyAll (ws ++ opening session done d ts signature) sh.db).alerts =
      (store.applyAll ws sh.db).alerts := by
  rw [Store.applyAll_append]
  rfl

/-- Under the lock of the signature what is read of its alerts is the last word. -/
theorem safe_joinOrOpen (h : Pending session done d signature alerts ws sh)
    (hnext : ∀ ws sh, Sound session (done ++ [d]) (fun _ => True) ws sh →
      Safe outline store always session batch next ws sh) :
    Safe outline store always session batch
      (joinOrOpen d ts (uuid session done.length) signature next)
      (ws ++ opening session done d ts signature) sh := by
  intro n1 sh1 locked1 _ _ hr1 _
  have h1 := h.stable [] (by simpa using hr1)
  have hview := alerts_opening session done d ts signature ws sh1
  dsimp only
  rw [List.append_nil]
  cases hopen : openAlert (store.applyAll (ws ++ opening session done d ts signature) sh1.db)
      d.event.tenant signature with
  | some existing =>
    have hmem := mem_of_openAlert hopen
    rw [hview, h1.alerts] at hmem
    exact safe_coalesce h1 hmem .here hnext
  | none =>
    have hnone := not_new_of_openAlert hopen
    rw [hview, h1.alerts] at hnone
    intro n2 sh2 locked2 _ _ hr2 _
    have h2 := h1.stable [] (by simpa using hr2)
    have hview := alerts_opening session done d ts signature ws sh2
    dsimp only
    rw [List.append_nil]
    cases hpromoted : promotedAlert
        (store.applyAll (ws ++ opening session done d ts signature) sh2.db) d.event.tenant
        signature with
    | none => exact safe_triageNew h2 hnone hnext
    | some joined =>
      obtain ⟨existing, investigation⟩ := joined
      have hmem := mem_of_promotedAlert hpromoted
      rw [hview, h2.alerts] at hmem
      dsimp only
      split
      · exact safe_triageNew h2 hnone hnext
      · exact safe_coalesce h2 hmem (cascade_flagNewEvidence _ _ .here) hnext

theorem safe_upsertAlert (h : Sound session done (fun _ => True) ws sh)
    (habsent : hasEvent (store.applyAll ws sh.db) (ingestKey d.event) = false)
    (hnext : ∀ ws sh, Sound session (done ++ [d]) (fun _ => True) ws sh →
      Safe outline store always session batch next ws sh) :
    Safe outline store always session batch (upsertAlert d ts (uuid session done.length) next)
      (ws ++ [.reserve (sourceEventRow (uuid session done.length) d.event ts)]) sh := by
  intro n1 sh1 locked1 _ _ hr1 _
  have habsent1 := (hasEvent_of_row (rowOf_view hr1 (by
    simp [store, Write.locks, keyOf, sourceEventRow, ingestKey]))).trans habsent
  have hpending : Pending session done d
      (alertSignature d.ctx d.event.ruleId d.event.assetIds ts) _ ws sh1 :=
    ⟨h.stable hr1.mono, habsent1, rfl⟩
  rw [List.append_assoc]
  exact safe_joinOrOpen hpending hnext

/-- One event: its reservation decides whether it is triaged. -/
theorem safe_triageEvent (h : Sound session done (fun _ => True) ws sh) (d : Delivery)
    (hnext : ∀ ws sh, Sound session (done ++ [d]) (fun _ => True) ws sh →
      Safe outline store always session batch next ws sh) :
    Safe outline store always session batch (triageEvent session done.length d next) ws sh := by
  intro n1 sh1 locked1 _ _ hr1 _
  have h1 := h.stable hr1
  dsimp only
  cases hkey : hasEvent (store.applyAll ws sh1.db) (ingestKey d.event) with
  | true =>
    rw [if_pos rfl, if_pos rfl, List.append_nil]
    exact hnext ws sh1 (h1.skip d hkey)
  | false =>
    rw [if_neg (by simp), if_neg (by simp)]
    exact safe_upsertAlert h1 hkey hnext

theorem safe_ingestEvents (done rest : Batch) (hbatch : done ++ rest = batch)
    (h : Sound session done (fun _ => True) ws sh) :
    Safe outline store always session batch (ingestEvents session done.length rest) ws sh := by
  induction rest generalizing done ws sh with
  | nil =>
    rw [List.append_nil] at hbatch
    exact (hbatch ▸ h).commit
  | cons d rest ih =>
    refine safe_triageEvent h d fun ws' sh' h' => ?_
    have hrest := ih (done ++ [d]) (by simpa using hbatch) h'
    simpa using hrest

end

theorem safe_serve (session : ℕ) (batch : Batch) (sh : Shared DB Unit)
    (hinv : outline.inv session sh) :
    Safe outline store always session batch (serve session batch) [] sh := by
  obtain ⟨-, hminted⟩ := hinv
  have hunowned : Unowned session sh.db :=
    ⟨fun a ha => ne_of_lt (hminted.alerts a ha), fun s hs => ne_of_lt (hminted.events s hs)⟩
  refine safe_ingestEvents [] batch (List.nil_append batch) ⟨hunowned, by simp, ?_⟩
  intro db htriaged _ _
  exact ⟨[], ⟨htriaged, by simp, by simp, fun a ha => Or.inl ⟨a, ha, rfl⟩, fun a ha => Or.inl ha,
    fun _ => rfl⟩, trivial⟩

/-! ## Every run -/

theorem sum_map_ite {α : Type} (p : α → Bool) (xs : List α) :
    (xs.map fun x => if p x then 1 else 0).sum = xs.countP p := by
  induction xs with
  | nil => rfl
  | cons x xs ih =>
    rw [List.map_cons, List.sum_cons, List.countP_cons, ih]
    omega

/-- Double counting. -/
theorem sum_countP_comm {α β : Type} (r : α → β → Bool) (xs : List α) (ys : List β) :
    (xs.map fun x => ys.countP (r x)).sum = (ys.map fun y => xs.countP fun x => r x y).sum := by
  induction ys with
  | nil => simp
  | cons y ys ih =>
    have hone := sum_map_ite (fun x => r x y) xs
    simp only [List.countP_cons, List.map_cons, List.sum_cons]
    rw [List.sum_map_add, ih, hone]
    omega

/-- Each source event is counted once: its key is there once, it is linked to one alert, and the
counts of a tenant's alerts add up to the tenant's events. -/
structure ExactlyOnce (db : DB) : Prop where
  distinct : (db.sourceEvents.map keyOf).Nodup
  linked : ∀ s ∈ db.sourceEvents, ∃! a, a ∈ db.alerts ∧ s.alertId = some a.id
  total : ∀ tenant, ((db.alerts.filter (·.tenant == tenant)).map (·.eventCount)).sum =
    db.sourceEvents.countP (·.tenant == tenant)
  single : ∀ a ∈ db.alerts, ∀ a' ∈ db.alerts, a.status = .new → a'.status = .new →
    a.tenant = a'.tenant → a.signature = a'.signature → a = a'

theorem Triaged.exactlyOnce {db : DB} (h : Triaged db) : ExactlyOnce db := by
  refine ⟨h.keys, ?_, ?_, ?_⟩
  · intro s hs
    obtain ⟨a, ha, hlink, -⟩ := h.linked s hs
    refine ⟨a, ⟨ha, hlink⟩, ?_⟩
    rintro a' ⟨ha', hlink'⟩
    exact h.alert_ext ha' ha (Option.some.inj (hlink'.symm.trans hlink))
  · intro tenant
    have hcounts : (db.alerts.filter (·.tenant == tenant)).map (·.eventCount) =
        (db.alerts.filter (·.tenant == tenant)).map fun a =>
          db.sourceEvents.countP fun s => s.alertId == some a.id :=
      List.map_congr_left fun a ha => h.counted a (List.mem_of_mem_filter ha)
    have hone : ∀ s ∈ db.sourceEvents, (db.alerts.filter (·.tenant == tenant)).countP
        (fun a => s.alertId == some a.id) = if s.tenant == tenant then 1 else 0 := by
      intro s hs
      obtain ⟨b, hb, hlink, htenant⟩ := h.linked s hs
      have honly : (db.alerts.map (·.id)).count b.id = 1 :=
        List.count_eq_one_of_mem h.alertIds (List.mem_map_of_mem hb)
      rw [List.count, List.countP_map] at honly
      rw [List.countP_filter]
      by_cases hsame : s.tenant = tenant
      · rw [if_pos (by simp [hsame]), ← honly]
        apply List.countP_congr
        intro a ha
        constructor
        · intro hboth
          simp only [hlink, Bool.and_eq_true, beq_iff_eq, Option.some.injEq] at hboth
          simp [hboth.1]
        · intro hid
          have hab : a = b := h.alert_ext ha hb (by simpa using hid)
          simp [hab, hlink, htenant, hsame]
      · rw [if_neg (by simpa using hsame), List.countP_eq_zero]
        intro a ha hboth
        simp only [hlink, Bool.and_eq_true, beq_iff_eq, Option.some.injEq] at hboth
        have hab : a = b := h.alert_ext ha hb hboth.1.symm
        exact hsame (htenant.symm.trans (hab ▸ hboth.2))
    rw [hcounts, sum_countP_comm, List.map_congr_left hone]
    exact sum_map_ite (fun s => s.tenant == tenant) db.sourceEvents
  · intro a ha a' ha' hnew hnew' htenant hsig
    exact h.alert_ext ha ha' (h.single a ha a' ha' hnew hnew' htenant hsig)

/-- Session `i` goes on with `prog`, and has written nothing. -/
def goOn (sys : System) (i : ℕ) (s : Session DB Write Unit Unit Resource Batch)
    (prog : Program) : System :=
  { sys with session := Function.update sys.session i (some { s with prog := prog }) }

/-- A session that comes to an event it finds in the table goes on to the next. -/
def SkipsRedelivered (sys : System) : Prop :=
  ∀ i s n d rest, sys.session i = some s → s.prog = ingestEvents i n (d :: rest) →
    hasEvent (viewOf store sys i s).db (ingestKey d.event) = true →
    step store serve sys (.advance i) = some (goOn sys i s (ingestEvents i (n + 1) rest))

theorem skipsRedelivered (sys : System) : SkipsRedelivered sys := by
  intro i s n d rest hs hprog hkey
  unfold step
  simp only [hs, hprog, ingestEvents, triageEvent, hkey, if_true, Store.held_nil, List.all_nil,
    List.append_nil]
  rfl

/-- Whatever is delivered, each source event is triaged exactly once. -/
theorem triaged_once {db : DB} (halerts : db.alerts = []) (hevents : db.sourceEvents = [])
    {sys : System} (hrun : Run store serve always (start ⟨db, []⟩) sys) :
    ExactlyOnce sys.shared.db ∧ SkipsRedelivered sys ∧
      ∀ e sys', step store serve sys e = some sys' → sys'.shared.db = sys.shared.db ∨
        ∃ i s, e = .advance i ∧ sys.session i = some s ∧
          Delivered s.req sys.shared.db sys'.shared.db := by
  have hinit : outline.inv 0 ⟨db, []⟩ := by
    refine ⟨⟨?_, ?_, ?_, ?_, ?_, ?_⟩, ?_, ?_⟩ <;> simp [halerts, hevents]
  have hconsistent := (consistent_start hinit).run safe_serve hrun
  refine ⟨hconsistent.inv.1.exactlyOnce, skipsRedelivered sys, ?_⟩
  intro e sys' hstep
  have hadm : Admits store always sys e := by
    cases e with
    | advance i =>
      intro s _
      split <;> trivial
    | _ => trivial
  rcases hconsistent.commit_step hadm hstep with hsame | ⟨i, s, lab, he, hs, -, hdelivered⟩
  · exact Or.inl hsame
  · exact Or.inr ⟨i, s, he, hs, hdelivered⟩

instance : ∀ lab v, Decidable (always lab v) := fun _ _ => isTrue trivial

/-- Two events of one signature. -/
def twoEvents : Batch := [⟨quietContext, bruteForce "e1" 0⟩, ⟨quietContext, bruteForce "e2" 1⟩]

/-- A batch fails half-way, two replicas process copies of it side by side, and it is delivered
once more. -/
def redeliveries : List (Event Batch) :=
  [.begin twoEvents] ++ List.replicate 8 (.advance 0) ++ [.crash 0] ++
  [.begin twoEvents, .begin twoEvents] ++ List.replicate 23 (.advance 1) ++
  List.replicate 3 (.advance 2) ++ [.begin twoEvents] ++ List.replicate 3 (.advance 3)

theorem triaged_once_redeliveries : ∃ sys,
    runEvents store serve always (start ⟨{}, []⟩) redeliveries = some sys ∧
    sys.shared.db.alerts.map (·.eventCount) = [2] ∧ sys.shared.db.sourceEvents.length = 2 ∧
    ExactlyOnce sys.shared.db := by
  have hlast : (runEvents store serve always (start ⟨{}, []⟩) redeliveries).map (fun sys =>
      (sys.shared.db.alerts.map (·.eventCount), sys.shared.db.sourceEvents.length)) =
      some ([2], 2) := by decide +kernel
  obtain ⟨sys, hsys, heq⟩ := Option.map_eq_some_iff.mp hlast
  obtain ⟨hcounts, hlength⟩ := Prod.mk.inj heq
  exact ⟨sys, hsys, hcounts, hlength, (triaged_once rfl rfl (Run.of_runEvents hsys)).1⟩

end SocTalk.Deliveries
