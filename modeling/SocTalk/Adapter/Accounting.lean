import Mathlib.Data.List.ReduceOption
import SocTalk.Adapter.Checkpoint
import SocTalk.Adapter.Ingest
import SocTalk.Lib.Transition

/-! Loss accounting: the events that the cursor passes without the control plane, against the
counters of the process. -/
namespace SocTalk.Adapter
open Py Keyset

variable {A : Settings}

/-! ## The batch -/

def Hit.event (h : Hit) : Event := ⟨prefixOf 128 h.sourceId, h.timestamp, h⟩

theorem hitToEvent_eq_ok {h : Hit} {found : Option Event} (hfound : hitToEvent h = .ok found) :
    found = if h.sourceId = "" then none else some h.event := by
  unfold hitToEvent at hfound
  split at hfound
  · rename_i hunnamed
    rw [if_pos hunnamed]
    exact ((pure_eq_ok _ _).mp hfound).symm
  · rename_i hnamed
    rw [if_neg hnamed]
    split at hfound
    · cases hfound
    · exact ((pure_eq_ok _ _).mp hfound).symm

/-- A page that converts gives an event for each document with an id of either kind. -/
theorem events_of_mapM {hits : List Hit} {found : List (Option Event)}
    (h : hits.mapM hitToEvent = .ok found) :
    found.reduceOption = (hits.filter fun h => h.sourceId ≠ "").map Hit.event := by
  induction hits generalizing found with
  | nil =>
    have hnil : [] = found := by simpa using h
    rw [← hnil]
    rfl
  | cons hit hits ih =>
    rw [List.mapM_cons, bind_eq_ok] at h
    obtain ⟨e, he, h⟩ := h
    obtain ⟨rest, hrest, h⟩ := (bind_eq_ok _ _ _).mp h
    obtain rfl : e :: rest = found := by simpa using h
    rw [hitToEvent_eq_ok he]
    by_cases hunnamed : hit.sourceId = ""
    · rw [if_pos hunnamed, List.reduceOption_cons_of_none, ih hrest,
        List.filter_cons_of_neg (by simpa using hunnamed)]
    · rw [if_neg hunnamed, List.reduceOption_cons_of_some, ih hrest,
        List.filter_cons_of_pos (by simpa using hunnamed), List.map_cons]

/-- The batch of a poll, read off the page. -/
structure IsBatch (s : State) (p : PollInput A) (index : Index A) (b : Batch) : Prop where
  answer : p.answer = some index
  events : b.events =
    ((A.queryAlerts s.cursor index).filter fun h => h.sourceId ≠ "").map Hit.event
  nonempty : b.events ≠ []
  split : b.allowed + b.excess = b.events.length
  taken : s.bucket.take p.now b.events.length = ((b.allowed, b.excess), b.bucket)

theorem batch?_eq_some {s : State} {p : PollInput A} {index : Index A} {b : Batch}
    (h : A.batch? s p = some (index, b)) : IsBatch s p index b := by
  unfold Settings.batch? at h
  obtain ⟨index', hanswer, h⟩ := Option.bind_eq_some_iff.mp h
  split at h
  · cases h
  · rename_i found hfound
    dsimp only at h
    split at h
    · cases h
    · rename_i hsome
      have hpair := Option.some.inj h
      obtain rfl := congrArg Prod.fst hpair
      obtain rfl := congrArg Prod.snd hpair
      have hevents := events_of_mapM hfound
      exact ⟨hanswer, hevents, by simpa using hsome, TokenBucket.take_split _ _ _, rfl⟩

/-- Every document is an event under a name of its own. -/
theorem Index.sourceId_ne (index : Index A) {h : Hit} (hh : h ∈ index.hits) : h.sourceId ≠ "" := by
  have hnamed := index.named h hh
  unfold Hit.sourceId
  split
  · split
    · exact hnamed
    · assumption
  · exact hnamed

theorem mem_hits {index : Index A} {c : Cursor} {h : Hit} (hh : h ∈ A.queryAlerts c index) :
    h ∈ index.hits :=
  (List.mem_filter.mp (List.mem_of_mem_take hh)).1

theorem mem_ahead {index : Index A} {c : Cursor} {h : Hit} (hh : h ∈ A.queryAlerts c index) :
    A.ahead c h = true :=
  (List.mem_filter.mp (List.mem_of_mem_take hh)).2

section

variable {s : State} {p : PollInput A} {index : Index A} {b : Batch}

/-- Each document of the page is an event. -/
theorem IsBatch.events_eq (hb : IsBatch s p index b) :
    b.events = (A.queryAlerts s.cursor index).map Hit.event := by
  rw [hb.events, List.filter_eq_self.mpr fun h hh => ?_]
  simpa using index.sourceId_ne (mem_hits hh)

theorem IsBatch.length_eq (hb : IsBatch s p index b) :
    b.events.length = (A.queryAlerts s.cursor index).length := by
  rw [hb.events_eq, List.length_map]

theorem IsBatch.allowed_le (hb : IsBatch s p index b) :
    b.allowed ≤ (A.queryAlerts s.cursor index).length := by
  have hsplit := hb.split
  have hlength := hb.length_eq
  omega

theorem IsBatch.sent_eq_nil_iff (hb : IsBatch s p index b) : b.sent = [] ↔ b.allowed = 0 := by
  unfold Batch.sent
  rw [List.take_eq_nil_iff]
  exact or_iff_left hb.nonempty

/-- The first documents of the page are sent. -/
theorem IsBatch.sent_hits (hb : IsBatch s p index b) :
    b.sent.map (·.hit) = (A.queryAlerts s.cursor index).take b.allowed := by
  unfold Batch.sent
  rw [hb.events_eq, ← List.map_take, List.map_map]
  exact List.map_id _

theorem IsBatch.sent_ahead (hb : IsBatch s p index b) :
    ∀ h ∈ b.sent.map (·.hit), A.ahead s.cursor h = true := by
  intro h hh
  rw [hb.sent_hits] at hh
  exact mem_ahead (List.mem_of_mem_take hh)

end

/-! ## The delivery -/

section

variable (s : State) (index : Index A) {b : Batch}

theorem deliver_nothing (reply : Reply) (hsent : b.sent = []) :
    A.deliver s index b reply =
      s.moveTo index (if A.sheds b then lastCursor s.cursor b.events else s.cursor) := by
  unfold Settings.deliver
  rw [if_pos (List.isEmpty_iff.mpr hsent)]

theorem deliver_failed (hsent : b.sent ≠ []) :
    A.deliver s index b .failed = { s with batchSeq := s.batchSeq + 1 } := by
  unfold Settings.deliver
  rw [if_neg (by simpa using hsent)]

theorem deliver_lost (hsent : b.sent ≠ []) :
    A.deliver s index b .lost =
      { s with batchSeq := s.batchSeq + 1, accepted := s.accepted ++ b.sent.map (·.hit) } := by
  unfold Settings.deliver
  rw [if_neg (by simpa using hsent)]

theorem deliver_answered (duplicates : ℕ) (hsent : b.sent ≠ []) :
    A.deliver s index b (.answered duplicates) =
      State.moveTo
        { s with
          batchSeq := s.batchSeq + 1
          accepted := s.accepted ++ b.sent.map (·.hit)
          acknowledged := s.acknowledged + b.sent.length
          duplicate := s.duplicate + duplicates
          forwarded := s.forwarded + (b.sent.length - duplicates) }
        index (lastCursor s.cursor (if A.sheds b then b.events else b.sent)) := by
  unfold Settings.deliver
  rw [if_neg (by simpa using hsent)]

theorem State.moveTo_self : s.moveTo index s.cursor = s := by
  have hnothing : index.hits.filter (fun h => A.ahead s.cursor h && !A.ahead s.cursor h) = [] := by
    simp
  unfold State.moveTo
  rw [hnothing, List.append_nil]

/-- The answered deliveries are counted one by one, whatever the answers say. -/
theorem deliveries_deliver (reply : Reply) (h : s.forwarded + s.duplicate = s.acknowledged) :
    (A.deliver s index b reply).forwarded + (A.deliver s index b reply).duplicate =
      (A.deliver s index b reply).acknowledged := by
  by_cases hsent : b.sent = []
  · rw [deliver_nothing s index reply hsent]
    exact h
  · cases reply with
    | failed =>
      rw [deliver_failed s index hsent]
      exact h
    | lost =>
      rw [deliver_lost s index hsent]
      exact h
    | answered duplicates =>
      rw [deliver_answered s index duplicates hsent]
      show s.forwarded + (b.sent.length - duplicates) + ((s.duplicate + duplicates : ℕ) : ℤ) =
        ((s.acknowledged + b.sent.length : ℕ) : ℤ)
      push_cast
      omega

end

/-! ## The cursor's move -/

/-- What the cursor keeps of a document. -/
def Settings.mark (A : Settings) (h : Hit) : ℚ ×ₗ WithTop String :=
  toLex (A.instant h.timestamp, ((prefixOf 128 h.sourceId : String) : WithTop String))

theorem ahead_cursor {x : Hit} (hstamped : x.timestamp ≠ "") (c : Cursor) (h : Hit) :
    A.ahead (x.event.cursor c) h = decide (A.mark x < A.sortKey h) := by
  have hcursor : x.event.cursor c = ⟨x.timestamp, some (prefixOf 128 x.sourceId)⟩ := by
    unfold Event.cursor Hit.event
    rw [if_neg hstamped]
  rw [hcursor]
  rfl

/-- What is behind a document that is ahead is ahead. -/
theorem ahead_of_lt {c : Cursor} {x h : Hit} (hx : A.ahead c x = true)
    (hlt : A.sortKey x < A.sortKey h) : A.ahead c h = true := by
  unfold Settings.ahead at hx ⊢
  have htime : A.instant x.timestamp ≤ A.instant h.timestamp :=
    (Prod.Lex.toLex_lt_toLex.mp hlt).elim (fun h => h.le) fun h => h.1.le
  split at hx
  · have hle : A.instant c.ts ≤ A.instant x.timestamp := by simpa using hx
    simpa using hle.trans htime
  · exact decide_eq_true ((of_decide_eq_true hx).trans hlt)

section

variable {index : Index A} {c : Cursor} {n : ℕ} {x : Hit}

theorem Index.ahead_sorted (index : Index A) (c : Cursor) :
    (index.ahead c).Pairwise fun h k => A.sortKey h ≤ A.sortKey k :=
  index.sorted.filter _

theorem queryAlerts_nodup (index : Index A) (c : Cursor) : (A.queryAlerts c index).Nodup :=
  (index.nodup.filter _).sublist (List.take_sublist _ _)

/-- The first documents of the page are the first of all that are ahead. -/
theorem take_queryAlerts (hn : n ≤ (A.queryAlerts c index).length) :
    (index.ahead c).take n = (A.queryAlerts c index).take n := by
  have hbatch : n ≤ A.batchSize := hn.trans (List.length_take_le _ _)
  unfold Settings.queryAlerts
  rw [List.take_take, Nat.min_eq_left hbatch]

theorem mem_of_last (hlast : ((index.ahead c).take n).getLast? = some x) : x ∈ index.ahead c :=
  List.mem_of_mem_take (List.mem_of_getLast? hlast)

/-- A move behind `x` whose mark leaves the rest ahead passes documents of the page only. -/
theorem passed_subset (hlast : ((index.ahead c).take n).getLast? = some x)
    (hrest : ∀ y ∈ (index.ahead c).drop n, A.mark x < A.sortKey y) :
    ∀ h ∈ index.hits.filter (fun h => A.ahead c h && !A.ahead (x.event.cursor c) h),
      h ∈ (index.ahead c).take n := by
  intro h hh
  have hstamped := index.stamped x (List.mem_filter.mp (mem_of_last hlast)).1
  obtain ⟨hin, hmoved⟩ := List.mem_filter.mp hh
  obtain ⟨hahead, hbehind⟩ := Bool.and_eq_true_iff.mp hmoved
  rw [ahead_cursor hstamped] at hbehind
  have hmem : h ∈ (index.ahead c).take n ++ (index.ahead c).drop n := by
    rw [List.take_append_drop]
    exact List.mem_filter.mpr ⟨hin, hahead⟩
  rcases List.mem_append.mp hmem with hpage | hdrop
  · exact hpage
  · simp [hrest h hdrop] at hbehind

/-- A move to a cut passes the page as it is. -/
theorem passed_of_cut (hstamped : x.timestamp ≠ "")
    (hcut : CutAt A.sortKey (index.ahead c) n (A.mark x)) :
    (index.hits.filter fun h => A.ahead c h && !A.ahead (x.event.cursor c) h) =
      (index.ahead c).take n := by
  rw [← hcut.filter_not_lt]
  unfold Index.ahead
  rw [List.filter_filter]
  refine List.filter_congr fun h _ => ?_
  rw [ahead_cursor hstamped, Bool.and_comm]

theorem lastCursor_of_last (hlast : ((index.ahead c).take n).getLast? = some x)
    (hn : n ≤ (A.queryAlerts c index).length) :
    lastCursor c (((A.queryAlerts c index).take n).map Hit.event) = x.event.cursor c := by
  rw [take_queryAlerts hn] at hlast
  unfold lastCursor
  rw [List.getLast?_map, hlast]
  rfl

end

/-! ## What is counted -/

/-- How many events the cursor has passed without the control plane's having accepted them. -/
def State.lost (s : State) : ℕ := (s.passed.filter fun h => h ∉ s.accepted).length

/-- The counters tell the losses and the deliveries as they are. -/
structure Exact (A : Settings) (s : State) : Prop where
  lost : s.lost = s.dropped
  lossless : A.mode = .defer → s.lost = 0
  deliveries : s.forwarded + s.duplicate = s.acknowledged

/-- How many documents of the page the cursor is set behind. -/
def Settings.reach (A : Settings) (b : Batch) : Reply → ℕ
  | .answered _ => if A.sheds b then b.events.length else b.allowed
  | _ => if b.allowed = 0 ∧ A.sheds b then b.events.length else 0

/-- The last document behind which the cursor is set. -/
def Settings.reached (A : Settings) (s : State) (index : Index A) (b : Batch) (reply : Reply) :
    Option Hit :=
  ((index.ahead s.cursor).take (A.reach b reply)).getLast?

/-- A batch whose delivery counts right. The mark of the document that the cursor is set behind
leaves what follows ahead, and, where anything is ever discarded, not the document itself. A tail is
discarded only with an answered delivery, or with none, and only of documents that the control plane
does not have. -/
structure Accountable (s : State) (index : Index A) (b : Batch) (reply : Reply) : Prop where
  rest : ∀ x ∈ A.reached s index b reply,
    ∀ y ∈ (index.ahead s.cursor).drop (A.reach b reply), A.mark x < A.sortKey y
  settled : A.mode = .shed → ∀ x ∈ A.reached s index b reply, A.sortKey x ≤ A.mark x
  answered : A.sheds b = true → b.allowed ≠ 0 → ∃ n, reply = .answered n
  fresh : A.sheds b = true → ∀ h ∈ (A.queryAlerts s.cursor index).drop b.allowed, h ∉ s.accepted

section

variable {s : State} {p : PollInput A} {index : Index A} {b : Batch} {reply : Reply}

/-- The cursor behind the first events of the batch is the one behind their last document. -/
theorem IsBatch.lastCursor_take (hb : IsBatch s p index b) {n : ℕ} (hpos : 0 < n)
    (hn : n ≤ b.events.length) :
    ∃ x, ((index.ahead s.cursor).take n).getLast? = some x ∧
      lastCursor s.cursor (b.events.take n) = x.event.cursor s.cursor := by
  rw [hb.length_eq] at hn
  have hpage := take_queryAlerts hn
  have hlength : ((index.ahead s.cursor).take n).length = n := by
    rw [hpage, List.length_take]
    exact Nat.min_eq_left hn
  have hsome : ((index.ahead s.cursor).take n) ≠ [] := List.ne_nil_of_length_pos (by omega)
  refine ⟨_, List.getLast?_eq_getLast_of_ne_nil hsome, ?_⟩
  have hcursor := lastCursor_of_last (List.getLast?_eq_getLast_of_ne_nil hsome) hn
  rw [hb.events_eq, ← List.map_take]
  exact hcursor

theorem reach_of_sheds (hacc : Accountable s index b reply) (hshed : A.sheds b = true) :
    A.reach b reply = b.events.length := by
  unfold Settings.reach
  by_cases hnone : b.allowed = 0
  · cases reply <;> simp [hnone, hshed]
  · obtain ⟨duplicates, rfl⟩ := hacc.answered hshed hnone
    simp [hshed]

theorem reach_answered (duplicates : ℕ) (hkeep : A.sheds b = false) :
    A.reach b (.answered duplicates) = b.allowed := by
  unfold Settings.reach
  simp [hkeep]

theorem dropped_countExcess (s : State) (b : Batch) :
    (A.countExcess s b).dropped = if A.sheds b then s.dropped + b.excess else s.dropped := rfl

/-! ## Deferring -/

/-- Nothing is lost or counted as lost. -/
structure Kept (s : State) : Prop where
  accepted : ∀ h ∈ s.passed, h ∈ s.accepted
  dropped : s.dropped = 0

theorem Kept.lost_eq (h : Kept s) : s.lost = 0 := by
  unfold State.lost
  rw [List.length_eq_zero_iff, List.filter_eq_nil_iff]
  intro k hk
  simpa using h.accepted k hk

theorem Kept.deliver (h : Kept s) (hb : IsBatch s p index b)
    (hacc : Accountable s index b reply) (hmode : A.mode = .defer) :
    Kept (A.deliver (A.countExcess s b) index b reply) := by
  have hkeep : A.sheds b = false := by simp [Settings.sheds, hmode]
  have hdropped : (A.countExcess s b).dropped = 0 := by
    rw [dropped_countExcess, hkeep]
    exact h.dropped
  by_cases hsent : b.sent = []
  · rw [deliver_nothing _ index reply hsent, hkeep, if_neg Bool.false_ne_true, State.moveTo_self]
    exact ⟨h.accepted, hdropped⟩
  · cases reply with
    | failed =>
      rw [deliver_failed _ index hsent]
      exact ⟨h.accepted, hdropped⟩
    | lost =>
      rw [deliver_lost _ index hsent]
      exact ⟨fun k hk => List.mem_append_left _ (h.accepted k hk), hdropped⟩
    | answered duplicates =>
      have hpos : 0 < b.allowed := Nat.pos_of_ne_zero fun hz => hsent (hb.sent_eq_nil_iff.mpr hz)
      have hn : b.allowed ≤ b.events.length := by
        have hsplit := hb.split
        omega
      obtain ⟨x, hlast, hcursor⟩ := hb.lastCursor_take hpos hn
      have hreach := reach_answered duplicates hkeep
      have hrest := hacc.rest x (by unfold Settings.reached; rw [hreach]; exact hlast)
      rw [hreach] at hrest
      rw [deliver_answered _ index duplicates hsent, hkeep, if_neg Bool.false_ne_true]
      refine ⟨fun k hk => ?_, hdropped⟩
      show k ∈ s.accepted ++ b.sent.map (·.hit)
      rcases List.mem_append.mp hk with hold | hnew
      · exact List.mem_append_left _ (h.accepted k hold)
      · have hmoved : k ∈ index.hits.filter fun h =>
            A.ahead s.cursor h && !A.ahead (x.event.cursor s.cursor) h := by
          rw [← hcursor]
          exact hnew
        have hpage := passed_subset hlast hrest k hmoved
        rw [take_queryAlerts hb.allowed_le, ← hb.sent_hits] at hpage
        exact List.mem_append_right _ hpage

/-! ## Discarding -/

/-- What is lost is counted, and what is passed is behind the cursor. -/
structure Counted (A : Settings) (s : State) : Prop where
  lost : s.lost = s.dropped
  behind : ∀ h ∈ s.passed, A.ahead s.cursor h = false

/-- What was passed before is behind the cursor, so nothing that is sent now is among it. -/
theorem Counted.filter_sent (h : Counted A s) {sent : List Hit}
    (hsent : ∀ k ∈ sent, A.ahead s.cursor k = true) :
    s.passed.filter (fun k => k ∉ s.accepted ++ sent) = s.passed.filter fun k => k ∉ s.accepted := by
  refine List.filter_congr fun k hk => ?_
  have hnot : k ∉ sent := by
    intro hin
    have hahead := hsent k hin
    rw [h.behind k hk] at hahead
    cases hahead
  simp [hnot]

/-- Of a page whose first `n` documents are sent and whose others are unknown, the others count. -/
theorem lost_page {page accepted : List Hit} {n : ℕ} (hnodup : page.Nodup)
    (hfresh : ∀ h ∈ page.drop n, h ∉ accepted) :
    (page.filter fun h => h ∉ accepted ++ page.take n).length = page.length - n := by
  have hsent : (page.take n).filter (fun h => h ∉ accepted ++ page.take n) = [] := by
    refine List.filter_eq_nil_iff.mpr fun h hh => ?_
    simp [hh]
  have htail : (page.drop n).filter (fun h => h ∉ accepted ++ page.take n) = page.drop n := by
    refine List.filter_eq_self.mpr fun h hh => ?_
    have hnot : h ∉ page.take n := by
      intro hin
      have hsplit : (page.take n ++ page.drop n).Nodup := by rwa [List.take_append_drop]
      exact (List.nodup_append.mp hsplit).2.2 h hin h hh rfl
    simp [hnot, hfresh h hh]
  have hpage : page.filter (fun h => h ∉ accepted ++ page.take n) =
      (page.take n).filter (fun h => h ∉ accepted ++ page.take n) ++
        (page.drop n).filter (fun h => h ∉ accepted ++ page.take n) := by
    rw [← List.filter_append, List.take_append_drop]
  rw [hpage, hsent, htail, List.nil_append, List.length_drop]

/-- What a move to a cut does, with what is sent before it. -/
theorem Counted.moved {t : State} {sent : List Hit} {n : ℕ} {x : Hit} (h : Counted A s)
    (hlast : ((index.ahead s.cursor).take n).getLast? = some x)
    (hcut : CutAt A.sortKey (index.ahead s.cursor) n (A.mark x))
    (hsent : ∀ k ∈ sent, A.ahead s.cursor k = true)
    (hcursor : t.cursor = x.event.cursor s.cursor)
    (hpassed : t.passed = s.passed ++ index.hits.filter fun h =>
      A.ahead s.cursor h && !A.ahead (x.event.cursor s.cursor) h)
    (haccepted : t.accepted = s.accepted ++ sent)
    (hdropped : t.dropped = s.dropped +
      (((index.ahead s.cursor).take n).filter fun k => k ∉ s.accepted ++ sent).length) :
    Counted A t := by
  have hx := List.mem_filter.mp (mem_of_last hlast)
  have hstamped := index.stamped x hx.1
  rw [passed_of_cut hstamped hcut] at hpassed
  constructor
  · unfold State.lost
    rw [hpassed, haccepted, List.filter_append, List.length_append, h.filter_sent hsent, hdropped,
      ← h.lost]
    rfl
  · intro k hk
    rw [hcursor, ahead_cursor hstamped]
    refine decide_eq_false fun hlt => ?_
    rw [hpassed] at hk
    rcases List.mem_append.mp hk with hold | hnew
    · have hbehind := h.behind k hold
      have hle := hcut.page x (List.mem_of_getLast? hlast)
      rw [ahead_of_lt hx.2 (hle.trans_lt hlt)] at hbehind
      cases hbehind
    · exact absurd hlt (not_lt.mpr (hcut.page k hnew))

/-- A discarded tail: the cursor goes to the end of the page, and what the limiter did not admit of
it is lost and counted. -/
theorem Counted.discard (h : Counted A s) (hb : IsBatch s p index b)
    (hacc : Accountable s index b reply) (hmode : A.mode = .shed) (hshed : A.sheds b = true) :
    Counted A (A.deliver (A.countExcess s b) index b reply) := by
  have hevents : 0 < b.events.length := List.length_pos_iff.mpr hb.nonempty
  obtain ⟨x, hlast, hcursor⟩ := hb.lastCursor_take hevents le_rfl
  rw [List.take_length] at hcursor
  have hreach := reach_of_sheds hacc hshed
  have hreached : A.reached s index b reply = some x := by
    unfold Settings.reached
    rw [hreach]
    exact hlast
  have hrest := hacc.rest x hreached
  rw [hreach] at hrest
  have hcut := CutAt.of_last (index.ahead_sorted s.cursor) hlast (hacc.settled hmode x hreached) hrest
  have hpage : (index.ahead s.cursor).take b.events.length = A.queryAlerts s.cursor index := by
    rw [hb.length_eq, take_queryAlerts le_rfl, List.take_length]
  have hlost := lost_page (queryAlerts_nodup index s.cursor) (hacc.fresh hshed)
  rw [← hb.sent_hits, ← hpage] at hlost
  have hsplit := hb.split
  have hlength : ((index.ahead s.cursor).take b.events.length).length = b.events.length := by
    rw [hpage, hb.length_eq]
  have hcount : (A.countExcess s b).dropped = s.dropped + b.excess := by
    rw [dropped_countExcess, if_pos hshed]
  have hdropped : s.dropped + b.excess = s.dropped +
      (((index.ahead s.cursor).take b.events.length).filter
        fun k => k ∉ s.accepted ++ b.sent.map (·.hit)).length := by
    rw [hlost, hlength]
    omega
  have hlastCursor : lastCursor (A.countExcess s b).cursor b.events = x.event.cursor s.cursor :=
    hcursor
  by_cases hsent : b.sent = []
  · rw [deliver_nothing _ index reply hsent, if_pos hshed, hlastCursor]
    have haccepted : s.accepted = s.accepted ++ b.sent.map (·.hit) := by
      rw [hsent, List.map_nil, List.append_nil]
    exact h.moved hlast hcut hb.sent_ahead rfl rfl haccepted (hcount.trans hdropped)
  · have hallowed : b.allowed ≠ 0 := fun hz => hsent (hb.sent_eq_nil_iff.mpr hz)
    obtain ⟨duplicates, rfl⟩ := hacc.answered hshed hallowed
    rw [deliver_answered _ index duplicates hsent, if_pos hshed, hlastCursor]
    exact h.moved hlast hcut hb.sent_ahead rfl rfl rfl (hcount.trans hdropped)

/-- Where the cursor stays and what is sent is ahead of it, nothing is lost. -/
theorem Counted.stay {t : State} {sent : List Hit} (h : Counted A s)
    (hsent : ∀ k ∈ sent, A.ahead s.cursor k = true) (hcursor : t.cursor = s.cursor)
    (hpassed : t.passed = s.passed) (haccepted : t.accepted = s.accepted ++ sent)
    (hdropped : t.dropped = s.dropped) : Counted A t := by
  have hlost : t.lost = s.lost := by
    unfold State.lost
    rw [hpassed, haccepted, h.filter_sent hsent]
  refine ⟨?_, ?_⟩
  · rw [hlost, h.lost, hdropped]
  · rw [hpassed, hcursor]
    exact h.behind

/-- Nothing is discarded: the cursor passes what has been answered for. -/
theorem Counted.forward (h : Counted A s) (hb : IsBatch s p index b)
    (hacc : Accountable s index b reply) (hmode : A.mode = .shed) (hkeep : A.sheds b = false) :
    Counted A (A.deliver (A.countExcess s b) index b reply) := by
  have hcount : (A.countExcess s b).dropped = s.dropped := by
    rw [dropped_countExcess, hkeep]
    rfl
  have hnothing : ∀ k ∈ ([] : List Hit), A.ahead s.cursor k = true := by simp
  by_cases hsent : b.sent = []
  · rw [deliver_nothing _ index reply hsent, hkeep, if_neg Bool.false_ne_true, State.moveTo_self]
    exact h.stay hnothing rfl rfl (List.append_nil _).symm hcount
  · cases reply with
    | failed =>
      rw [deliver_failed _ index hsent]
      exact h.stay hnothing rfl rfl (List.append_nil _).symm hcount
    | lost =>
      rw [deliver_lost _ index hsent]
      exact h.stay hb.sent_ahead rfl rfl rfl hcount
    | answered duplicates =>
      have hpos : 0 < b.allowed := Nat.pos_of_ne_zero fun hz => hsent (hb.sent_eq_nil_iff.mpr hz)
      have hn : b.allowed ≤ b.events.length := by
        have hsplit := hb.split
        omega
      obtain ⟨x, hlast, hcursor⟩ := hb.lastCursor_take hpos hn
      have hreach := reach_answered duplicates hkeep
      have hreached : A.reached s index b (.answered duplicates) = some x := by
        unfold Settings.reached
        rw [hreach]
        exact hlast
      have hrest := hacc.rest x hreached
      rw [hreach] at hrest
      have hcut :=
        CutAt.of_last (index.ahead_sorted s.cursor) hlast (hacc.settled hmode x hreached) hrest
      have hnew : ((index.ahead s.cursor).take b.allowed).filter
          (fun k => k ∉ s.accepted ++ b.sent.map (·.hit)) = [] := by
        rw [take_queryAlerts hb.allowed_le, ← hb.sent_hits]
        refine List.filter_eq_nil_iff.mpr fun k hk => ?_
        simp only [decide_eq_true_eq, not_not]
        exact List.mem_append_right _ hk
      rw [deliver_answered _ index duplicates hsent, hkeep, if_neg Bool.false_ne_true]
      have hlastCursor : lastCursor (A.countExcess s b).cursor b.sent = x.event.cursor s.cursor :=
        hcursor
      rw [hlastCursor]
      refine h.moved hlast hcut hb.sent_ahead rfl rfl rfl ?_
      rw [hnew, List.length_nil, Nat.add_zero]
      exact hcount

end

/-! ## Runs of polls -/

/-- What the process starts with, where the control plane already has some documents. -/
def State.start (cursor : Cursor) (bucket : TokenBucket) (accepted : List Hit) : State :=
  { cursor := cursor, bucket := bucket, accepted := accepted }

/-- A poll that finds nothing to forward, or whose batch counts right. -/
def Settings.Accounts (A : Settings) (s : State) (p : PollInput A) : Prop :=
  ∀ index b, A.batch? s p = some (index, b) → Accountable s index b p.reply

/-- The counters beside what they count, in either mode. -/
structure Balanced (A : Settings) (s : State) : Prop where
  deliveries : s.forwarded + s.duplicate = s.acknowledged
  kept : A.mode = .defer → Kept s
  counted : A.mode = .shed → Counted A s

theorem Balanced.exact {s : State} (h : Balanced A s) : Exact A s := by
  refine ⟨?_, fun hmode => (h.kept hmode).lost_eq, h.deliveries⟩
  cases hmode : A.mode with
  | defer => rw [(h.kept hmode).lost_eq, (h.kept hmode).dropped]
  | shed => exact (h.counted hmode).lost

theorem Balanced.deliver {s : State} {p : PollInput A} {index : Index A} {b : Batch}
    (h : Balanced A s) (hb : IsBatch s p index b) (hacc : Accountable s index b p.reply) :
    Balanced A (A.deliver (A.countExcess s b) index b p.reply) where
  deliveries := deliveries_deliver _ index p.reply h.deliveries
  kept hmode := (h.kept hmode).deliver hb hacc hmode
  counted hmode := by
    cases hshed : A.sheds b with
    | true => exact (h.counted hmode).discard hb hacc hmode hshed
    | false => exact (h.counted hmode).forward hb hacc hmode hshed

theorem Balanced.queried {s : State} (h : Balanced A s) (n : ℕ) :
    Balanced A { s with queried := s.queried + n } where
  deliveries := h.deliveries
  kept hmode := ⟨(h.kept hmode).accepted, (h.kept hmode).dropped⟩
  counted hmode := ⟨(h.counted hmode).lost, (h.counted hmode).behind⟩

theorem Balanced.ingestOnce {s : State} (p : PollInput A) (h : Balanced A s)
    (hacc : A.Accounts s p) : Balanced A (A.ingestOnce s p) := by
  unfold Settings.ingestOnce
  dsimp only
  split
  · exact h.queried _
  · rename_i index b hbatch
    have haccountable := hacc index b hbatch
    exact (h.queried _).deliver (batch?_eq_some hbatch)
      ⟨haccountable.rest, haccountable.settled, haccountable.answered, haccountable.fresh⟩

/-- Polls that count right leave the counters exact. -/
theorem exact_of_accounts (A : Settings) (cursor : Cursor) (bucket : TokenBucket)
    (accepted : List Hit) {s : State}
    (hrun : Transition.Run A.ingestOnce A.Accounts (.start cursor bucket accepted) s) :
    Exact A s := by
  have hstart : Balanced A (.start cursor bucket accepted) :=
    ⟨rfl, fun _ => ⟨by simp [State.start], rfl⟩, fun _ => ⟨rfl, by simp [State.start]⟩⟩
  exact (Transition.Run.inv (fun _ p h hacc => h.ingestOnce p hacc) hstart hrun).exact

def oneAtOnce (mode : RateLimitMode) : Settings where
  mode := mode
  batchSize := 10
  instant ts := (isoInstant ts).getD 0

/-- Two alerts of one time. -/
def pair (mode : RateLimitMode) : Index (oneAtOnce mode) where
  hits := [⟨"2026-07-09T10:00:00Z", some "wz-1", "a1", false⟩,
    ⟨"2026-07-09T10:00:00Z", some "wz-2", "a2", false⟩]
  sorted := by cases mode <;> decide +kernel
  nodup := by decide +kernel
  named := by decide +kernel
  stamped := by decide +kernel

/-- One alert indexed twice. -/
def twins : Index (oneAtOnce .defer) where
  hits := [⟨"2026-07-09T10:00:00Z", some "wz-1", "a1", false⟩,
    ⟨"2026-07-09T10:00:00Z", some "wz-1", "b7", false⟩]
  sorted := by decide +kernel
  nodup := by decide +kernel
  named := by decide +kernel
  stamped := by decide +kernel

/-- A limiter that admits one event at once. -/
def quiet : State := .start ⟨"2026-07-09T09:00:00Z", none⟩ (.new 1 1 0) []

theorem accounts_pair (duplicates : ℕ) :
    (oneAtOnce .shed).Accounts quiet ⟨some (pair .shed), 0, .answered duplicates⟩ := by
  intro index b hbatch
  have hb := batch?_eq_some hbatch
  obtain rfl : pair .shed = index := Option.some.inj hb.answer
  have hpage : (oneAtOnce .shed).queryAlerts quiet.cursor (pair .shed) = (pair .shed).hits := by
    decide +kernel
  have hlength : b.events.length = 2 := by
    rw [hb.length_eq, hpage]
    rfl
  have htaken := congrArg Prod.fst hb.taken
  have hlimit : (quiet.bucket.take 0 2).1 = (1, 1) := by decide +kernel
  rw [hlength, hlimit] at htaken
  obtain ⟨hallowed, hexcess⟩ : 1 = b.allowed ∧ 1 = b.excess := Prod.mk.inj htaken
  have hshed : (oneAtOnce .shed).sheds b = true := by
    unfold Settings.sheds
    rw [← hexcess]
    rfl
  have hreach : (oneAtOnce .shed).reach b (.answered duplicates) = 2 := by
    unfold Settings.reach
    rw [if_pos hshed, hlength]
  refine ⟨?_, ?_, fun _ _ => ⟨duplicates, rfl⟩, fun _ h _ hin => ?_⟩
  · rw [hreach]
    have hnone : ((pair .shed).ahead quiet.cursor).drop 2 = [] := by decide +kernel
    simp [hnone]
  · intro _ x hx
    unfold Settings.reached at hx
    rw [hreach] at hx
    have hlast : (((pair .shed).ahead quiet.cursor).take 2).getLast? =
        some ⟨"2026-07-09T10:00:00Z", some "wz-2", "a2", false⟩ := by decide +kernel
    obtain rfl := Option.some.inj (hlast.symm.trans hx)
    decide +kernel
  · cases hin

/-- A discarded tail behind an answered delivery. -/
theorem exact_of_accounts_pair :
    ((oneAtOnce .shed).ingestOnce quiet ⟨some (pair .shed), 0, .answered 0⟩).dropped = 1 ∧
      ((oneAtOnce .shed).ingestOnce quiet ⟨some (pair .shed), 0, .answered 0⟩).passed =
        (pair .shed).hits ∧
      Exact (oneAtOnce .shed)
        ((oneAtOnce .shed).ingestOnce quiet ⟨some (pair .shed), 0, .answered 0⟩) :=
  ⟨by decide +kernel, by decide +kernel,
    exact_of_accounts (oneAtOnce .shed) ⟨"2026-07-09T09:00:00Z", none⟩ (.new 1 1 0) []
      (.step _ .refl (accounts_pair 0))⟩

/-- A failed delivery leaves the tail ahead of the cursor, and yet it is counted. Where two documents
share time and id, the cursor of the first passes both. -/
theorem not_exact :
    ¬Exact (oneAtOnce .shed) ((oneAtOnce .shed).ingestOnce quiet ⟨some (pair .shed), 0, .failed⟩) ∧
      ¬Exact (oneAtOnce .defer)
        ((oneAtOnce .defer).ingestOnce quiet ⟨some twins, 0, .answered 0⟩) := by
  constructor
  · intro h
    have hlost := h.lost
    revert hlost
    decide +kernel
  · intro h
    have hlost := h.lossless rfl
    revert hlost
    decide +kernel

end SocTalk.Adapter
