import SocTalk.Lib.Sha256
import SocTalk.Lib.Transition
import SocTalk.Projection.Inbox
import SocTalk.Reviews.Store

/-! The human lane of an investigation: review requests and decisions go into the audit trail and,
as beats, into the replay feed. -/
namespace SocTalk.Reviews.Feed
open Py Projection

/-! ## The beats -/

def PAYLOAD_VERSION : ℤ := 1

/-- `_clip(value, cap) or None`. -/
def clipped (value : Option String) (cap : ℕ) : Value :=
  let s := prefixOf cap (value.getD "")
  if s = "" then .none else .str s

def optText : Option String → Value
  | some s => .str s
  | none => .none

def optNumber : Option ℚ → Value
  | some q => .float (.fin q)
  | none => .none

structure Request where
  reason : Option String
  verdict_decision : String
  verdict_confidence : Option ℚ
  findings : List String := []
  enrichments : Dict := []

def decisionValue : Decision → String
  | .approve => "approve"
  | .reject => "reject"
  | .moreInfo => "more_info"

def human_review_requested (r : Request) : Inbox.Append where
  kind := "human_review_requested"
  payload := [
    ("payload_version", .int PAYLOAD_VERSION),
    ("reason", clipped r.reason 2000),
    ("verdict_decision", clipped (some r.verdict_decision) 40),
    ("verdict_confidence", optNumber r.verdict_confidence)]
  producer := some "review_events"

def human_decision (decision : Decision) : Inbox.Append where
  kind := "human_decision"
  payload := [
    ("payload_version", .int PAYLOAD_VERSION),
    ("decision", clipped (some (decisionValue decision)) 40)]
  producer := some "review_events"

/-! ## The two logs -/

/-- A row of `events`. -/
structure AuditRow where
  version : ℕ
  event_type : String
  data : Dict

structure Case where
  inbox : Inbox
  events : List AuditRow := []
  /-- The reviews of the queue under their ids. -/
  queue : List (String × ReviewStatus) := []

/-- The object as its column keeps it, if the cast takes it. -/
def storedDict (d : Dict) : Option Dict :=
  match (Value.dict d).stored with
  | some (.dict d) => some d
  | _ => none

/-- `_append_event_v1`. -/
def append_event_v1 (events : List AuditRow) (event_type : String) (data : Dict) :
    Option (List AuditRow) :=
  (storedDict data).map fun d =>
    events ++ [⟨(events.map (·.version)).foldr max 0 + 1, event_type, d⟩]

def requestData (r : Request) : Dict := [
  ("reason", optText r.reason),
  ("verdict_decision", .str r.verdict_decision),
  ("verdict_confidence", optNumber r.verdict_confidence),
  ("findings", .list (r.findings.map .str)),
  ("enrichments", .dict r.enrichments)]

def decisionData (decision : Decision) (feedback reviewer : Option String) : Dict := [
  ("decision", .str (decisionValue decision)),
  ("feedback", optText feedback),
  ("reviewer", optText reviewer)]

def expiredData (reason reviewer : Option String) : Dict := [
  ("reason", optText reason),
  ("reviewer", optText reviewer)]

def setStatus (queue : List (String × ReviewStatus)) (review_id : String) (status : ReviewStatus) :
    List (String × ReviewStatus) :=
  queue.map fun r => if r.1 = review_id then (r.1, status) else r

section

variable (sha256 : String → String)

/-- Nothing where a cast refuses the data and the request is rolled back. -/
def record_human_review_requested (c : Case) (id : String) (r : Request) : Option Case := do
  let events ← append_event_v1 c.events "human.review_requested" (requestData r)
  let inbox ← c.inbox.append_event sha256 (human_review_requested r)
  return {
    inbox := inbox
    events := events
    queue := if c.queue.any fun r => r.2 = .pending then c.queue else c.queue ++ [(id, .pending)] }

def record_human_decision_received (c : Case) (review_id : String) (decision : Decision)
    (feedback reviewer : Option String) : Option Case := do
  let events ← append_event_v1 c.events "human.decision_received"
    (decisionData decision feedback reviewer)
  let inbox ← c.inbox.append_event sha256 (human_decision decision)
  return {
    inbox := inbox
    events := events
    queue := setStatus c.queue review_id (decisionToReviewStatus decision) }

def record_human_review_expired (c : Case) (review_id : String) (reason reviewer : Option String) :
    Option Case := do
  let events ← append_event_v1 c.events "human.review_expired" (expiredData reason reviewer)
  return { c with events := events, queue := setStatus c.queue review_id .expired }

def isReviewKind (kind : String) : Bool :=
  kind == "human_review_requested" || kind == "human_decision"

inductive Op where
  | request (id : String) (r : Request)
  | decision (review_id : String) (ruling : Decision) (feedback reviewer : Option String)
  | expired (review_id : String) (reason reviewer : Option String)
  /-- Any other append to the inbox. -/
  | other (a : Inbox.Append) (h : isReviewKind a.kind = false)

def step (c : Case) : Op → Case
  | .request id r => (record_human_review_requested sha256 c id r).getD c
  | .decision review_id ruling feedback reviewer =>
    (record_human_decision_received sha256 c review_id ruling feedback reviewer).getD c
  | .expired review_id reason reviewer =>
    (record_human_review_expired c review_id reason reviewer).getD c
  | .other a _ => ((c.inbox.append_event sha256 a).map fun inbox => { c with inbox := inbox }).getD c

end

/-! ## What is recorded -/

/-- The review beats of the replay feed, in its order. -/
def Case.feed (c : Case) : List (String × Dict) :=
  (c.inbox.events.filter fun e => isReviewKind e.kind).map fun e => (e.kind, e.payload)

def Case.audit (c : Case) : List (String × Dict) := c.events.map fun r => (r.event_type, r.data)

/-- The append to the inbox of a call whose audit row the cast takes. -/
def Op.taken : Op → Option Inbox.Append
  | .request _ r => (storedDict (requestData r)).map fun _ => human_review_requested r
  | .decision _ ruling feedback reviewer =>
    (storedDict (decisionData ruling feedback reviewer)).map fun _ => human_decision ruling
  | .expired .. => none
  | .other a _ => some a

/-- The append of a review request or a decision. -/
def Op.review (op : Op) : Option Inbox.Append :=
  op.taken.filter fun a => isReviewKind a.kind

/-- The beat of a review request or a decision, as the column keeps it. -/
def Op.beat (op : Op) : Option (String × Dict) :=
  op.review.bind fun a => (storedDict a.payload).map fun d => (a.kind, d)

/-- Its audit row. -/
def Op.audit : Op → Option (String × Dict)
  | .request _ r => (storedDict (requestData r)).map fun d => ("human.review_requested", d)
  | .decision _ ruling feedback reviewer =>
    (storedDict (decisionData ruling feedback reviewer)).map fun d => ("human.decision_received", d)
  | .expired _ reason reviewer =>
    (storedDict (expiredData reason reviewer)).map fun d => ("human.review_expired", d)
  | .other .. => none

/-- Both logs hold a row for each request and each decision, in order. -/
structure InStep (sha256 : String → String) (c : Case) (ops : List Op) : Prop where
  feed : (ops.foldl (step sha256) c).feed = c.feed ++ ops.filterMap Op.beat
  audit : (ops.foldl (step sha256) c).audit = c.audit ++ ops.filterMap Op.audit

/-- The inbox holds no event under the key of the request or decision. -/
def Unrepeated (sha256 : String → String) (c : Case) (op : Op) : Prop :=
  ∀ a ∈ op.review, c.inbox.key sha256 a ∉ c.inbox.log.keys

/-! ## One call -/

theorem storedDict_of_stored {d : Dict} {e : Dict} (h : (Value.dict d).stored = some (.dict e)) :
    storedDict d = some e := by
  unfold storedDict
  rw [h]

theorem storedDict_eq_map (d : Dict) : storedDict d = (Value.storedPairs d).map byKey := by
  cases h : Value.storedPairs d with
  | none =>
    unfold storedDict Value.stored
    rw [h]
    rfl
  | some pairs =>
    refine storedDict_of_stored ?_
    unfold Value.stored
    rw [h]
    rfl

theorem isSome_stored_clipped (value : Option String) (cap : ℕ) :
    (clipped value cap).stored.isSome = true := by
  unfold clipped
  dsimp only
  split <;> simp [Value.stored]

theorem isSome_stored_optNumber (q : Option ℚ) : (optNumber q).stored.isSome = true := by
  cases q with
  | none => simp [optNumber, Value.stored]
  | some q =>
    show (FloatVal.stored (.fin q)).isSome = true
    simp only [FloatVal.stored]
    split <;> rfl

/-- Every beat can be kept. -/
theorem isSome_storedDict_request (r : Request) :
    (storedDict (human_review_requested r).payload).isSome = true := by
  obtain ⟨reason, hreason⟩ := Option.isSome_iff_exists.mp (isSome_stored_clipped r.reason 2000)
  obtain ⟨verdict, hverdict⟩ :=
    Option.isSome_iff_exists.mp (isSome_stored_clipped (some r.verdict_decision) 40)
  obtain ⟨confidence, hconfidence⟩ :=
    Option.isSome_iff_exists.mp (isSome_stored_optNumber r.verdict_confidence)
  have hversion : (Value.int PAYLOAD_VERSION).stored = some (.int PAYLOAD_VERSION) := by
    simp [Value.stored]
  rw [storedDict_eq_map]
  simp [human_review_requested, Value.storedPairs, hversion, hreason, hverdict, hconfidence]

theorem isSome_storedDict_decision (decision : Decision) :
    (storedDict (human_decision decision).payload).isSome = true := by
  obtain ⟨text, htext⟩ :=
    Option.isSome_iff_exists.mp (isSome_stored_clipped (some (decisionValue decision)) 40)
  have hversion : (Value.int PAYLOAD_VERSION).stored = some (.int PAYLOAD_VERSION) := by
    simp [Value.stored]
  rw [storedDict_eq_map]
  simp [human_decision, Value.storedPairs, hversion, htext]

theorem storedDict_append_event {seq : ℕ} {a : Inbox.Append} {e : Event}
    (he : Event.append_event seq a.kind a.payload a.visibility = some e) :
    storedDict a.payload = some e.payload ∧ e.kind = a.kind := by
  unfold Event.append_event at he
  split at he
  · rename_i d hd
    obtain rfl := Option.some.inj he
    exact ⟨storedDict_of_stored hd, rfl⟩
  · cases he

theorem exists_append_event (seq : ℕ) {a : Inbox.Append} (h : (storedDict a.payload).isSome = true) :
    ∃ e, Event.append_event seq a.kind a.payload a.visibility = some e := by
  rw [← Option.isSome_iff_exists, Event.isSome_append_event]
  unfold storedDict at h
  cases hd : (Value.dict a.payload).stored with
  | none =>
    rw [hd] at h
    cases h
  | some v => rfl

variable (sha256 : String → String)

/-- The row that a call appends to the inbox, with its key. -/
def attempt (c : Case) (op : Op) : Option (String × Event) :=
  op.taken.bind fun a =>
    (Event.append_event c.inbox.next a.kind a.payload a.visibility).map fun e =>
      (c.inbox.key sha256 a, e)

/-- What a call does to the two logs. -/
structure Steps (c : Case) (op : Op) (c' : Case) : Prop where
  named : c'.inbox.investigation_id = c.inbox.investigation_id
  log : c'.inbox.log = c.inbox.log.appendAll (attempt sha256 c op).toList
  audit : c'.audit = c.audit ++ op.audit.toList

theorem steps_other (c : Case) (a : Inbox.Append) (h : isReviewKind a.kind = false) :
    Steps sha256 c (.other a h) (step sha256 c (.other a h)) := by
  have htaken : (Op.other a h).taken = some a := rfl
  cases he : Event.append_event c.inbox.next a.kind a.payload a.visibility with
  | none =>
    have hstep : step sha256 c (.other a h) = c := by
      unfold step Inbox.append_event
      dsimp only
      rw [he]
      rfl
    rw [hstep]
    refine ⟨rfl, ?_, ?_⟩
    · unfold attempt
      rw [htaken, Option.bind_some, he]
      rfl
    · exact (List.append_nil _).symm
  | some e =>
    have hstep : step sha256 c (.other a h) = { c with inbox := { c.inbox with
        log := c.inbox.log.append (c.inbox.key sha256 a) e, next := c.inbox.next + 1 } } := by
      unfold step Inbox.append_event
      dsimp only
      rw [he]
      rfl
    rw [hstep]
    refine ⟨rfl, ?_, ?_⟩
    · unfold attempt
      rw [htaken, Option.bind_some, he]
      rfl
    · exact (List.append_nil _).symm

/-- A call that writes its audit row and then its beat. -/
theorem steps_of_beat {c : Case} {op : Op} {a : Inbox.Append} {event_type : String} {data : Dict}
    {queue : List (String × ReviewStatus)} (hbeat : (storedDict a.payload).isSome = true)
    (htaken : op.taken = (storedDict data).map fun _ => a)
    (haudit : op.audit = (storedDict data).map fun d => (event_type, d))
    (hstep : step sha256 c op = Option.getD (do
      let events ← append_event_v1 c.events event_type data
      let inbox ← c.inbox.append_event sha256 a
      return { inbox := inbox, events := events, queue := queue }) c) :
    Steps sha256 c op (step sha256 c op) := by
  obtain ⟨e, he⟩ := exists_append_event c.inbox.next hbeat
  have hinbox : c.inbox.append_event sha256 a = some { c.inbox with
      log := c.inbox.log.append (c.inbox.key sha256 a) e, next := c.inbox.next + 1 } :=
    Option.map_eq_some_iff.mpr ⟨e, he, rfl⟩
  cases hd : storedDict data with
  | none =>
    have hrefused : append_event_v1 c.events event_type data = none := by
      unfold append_event_v1
      rw [hd]
      rfl
    have hsame : step sha256 c op = c := by
      rw [hstep, hrefused]
      rfl
    rw [hsame]
    refine ⟨rfl, ?_, ?_⟩
    · unfold attempt
      rw [htaken, hd]
      rfl
    · rw [haudit, hd]
      exact (List.append_nil _).symm
  | some d =>
    have hwritten : append_event_v1 c.events event_type data = some (c.events ++
        [⟨(c.events.map (·.version)).foldr max 0 + 1, event_type, d⟩]) := by
      unfold append_event_v1
      rw [hd]
      rfl
    rw [hstep, hwritten, Option.bind_eq_bind, Option.bind_some, hinbox]
    refine ⟨rfl, ?_, ?_⟩
    · unfold attempt
      rw [htaken, hd, Option.map_some, Option.bind_some, he]
      rfl
    · show List.map _ (c.events ++ [_]) = _
      rw [haudit, hd, List.map_append]
      rfl

theorem steps_expired (c : Case) (review_id : String) (reason reviewer : Option String) :
    Steps sha256 c (.expired review_id reason reviewer)
      (step sha256 c (.expired review_id reason reviewer)) := by
  have haudit : (Op.expired review_id reason reviewer).audit =
      (storedDict (expiredData reason reviewer)).map fun d => ("human.review_expired", d) := rfl
  cases hd : storedDict (expiredData reason reviewer) with
  | none =>
    have hsame : step sha256 c (.expired review_id reason reviewer) = c := by
      unfold step record_human_review_expired append_event_v1
      dsimp only
      rw [hd]
      rfl
    rw [hsame]
    refine ⟨rfl, ?_, ?_⟩
    · rfl
    · rw [haudit, hd]
      exact (List.append_nil _).symm
  | some d =>
    have hwritten : step sha256 c (.expired review_id reason reviewer) = { c with
        events := c.events ++ [⟨(c.events.map (·.version)).foldr max 0 + 1,
          "human.review_expired", d⟩]
        queue := setStatus c.queue review_id .expired } := by
      unfold step record_human_review_expired append_event_v1
      dsimp only
      rw [hd]
      rfl
    rw [hwritten]
    refine ⟨rfl, ?_, ?_⟩
    · rfl
    · show List.map _ (c.events ++ [_]) = _
      rw [haudit, hd, List.map_append]
      rfl

theorem steps_step (c : Case) (op : Op) : Steps sha256 c op (step sha256 c op) := by
  cases op with
  | request id r =>
    exact steps_of_beat sha256 (isSome_storedDict_request r) rfl rfl rfl
  | decision review_id ruling feedback reviewer =>
    exact steps_of_beat sha256 (isSome_storedDict_decision ruling) rfl rfl rfl
  | expired review_id reason reviewer => exact steps_expired sha256 c review_id reason reviewer
  | other a h => exact steps_other sha256 c a h

/-! ## Sequences of calls -/

/-- The rows that the calls append to the inbox one after the other. -/
def attempts (c : Case) : List Op → List (String × Event)
  | [] => []
  | op :: ops => (attempt sha256 c op).toList ++ attempts (step sha256 c op) ops

def isReview (e : String × Event) : Bool := isReviewKind e.2.kind

def beatOf (e : String × Event) : String × Dict := (e.2.kind, e.2.payload)

theorem log_run (c : Case) (ops : List Op) :
    (ops.foldl (step sha256) c).inbox.log = c.inbox.log.appendAll (attempts sha256 c ops) := by
  induction ops generalizing c with
  | nil => rfl
  | cons op ops ih =>
    have hstep := (steps_step sha256 c op).log
    rw [List.foldl_cons, ih, hstep, ← KeyedLog.appendAll_append]
    rfl

theorem audit_run (c : Case) (ops : List Op) :
    (ops.foldl (step sha256) c).audit = c.audit ++ ops.filterMap Op.audit := by
  induction ops generalizing c with
  | nil => exact (List.append_nil _).symm
  | cons op ops ih =>
    have hstep := (steps_step sha256 c op).audit
    rw [List.foldl_cons, ih, hstep, List.append_assoc]
    cases haudit : op.audit <;> simp [haudit]

/-- The beat of a call is the review row that it appends. -/
theorem beat_attempt (c : Case) (op : Op) :
    ((attempt sha256 c op).toList.filter isReview).map beatOf = op.beat.toList := by
  unfold attempt Op.beat Op.review
  cases htaken : op.taken with
  | none => rfl
  | some a =>
    rw [Option.bind_some]
    cases he : Event.append_event c.inbox.next a.kind a.payload a.visibility with
    | none =>
      have hrefused : storedDict a.payload = none := by
        cases hd : storedDict a.payload with
        | none => rfl
        | some d =>
          obtain ⟨e, he'⟩ := exists_append_event c.inbox.next (by rw [hd]; rfl)
          rw [he] at he'
          cases he'
      cases hreview : isReviewKind a.kind <;> simp [Option.filter, hreview, hrefused]
    | some e =>
      obtain ⟨hd, hkind⟩ := storedDict_append_event he
      cases hreview : isReviewKind a.kind <;>
        simp [Option.filter, isReview, beatOf, hkind, hreview, hd]

theorem beats_attempts (c : Case) (ops : List Op) :
    ((attempts sha256 c ops).filter isReview).map beatOf = ops.filterMap Op.beat := by
  induction ops generalizing c with
  | nil => rfl
  | cons op ops ih =>
    unfold attempts
    rw [List.filter_append, List.map_append, beat_attempt, ih]
    cases hbeat : op.beat <;> simp [hbeat]

theorem isSome_storedDict_review {op : Op} {a : Inbox.Append} (h : op.review = some a) :
    (storedDict a.payload).isSome = true := by
  obtain ⟨htaken, hkind⟩ := Option.filter_eq_some_iff.mp h
  cases op with
  | request id r =>
    obtain ⟨-, -, rfl⟩ := Option.map_eq_some_iff.mp htaken
    exact isSome_storedDict_request r
  | decision review_id ruling feedback reviewer =>
    obtain ⟨-, -, rfl⟩ := Option.map_eq_some_iff.mp htaken
    exact isSome_storedDict_decision ruling
  | expired review_id reason reviewer => cases htaken
  | other a' hother =>
    obtain rfl := Option.some.inj htaken
    rw [hother] at hkind
    cases hkind

/-- A call appends no review row, or one under its key. -/
theorem unrepeated_iff (c : Case) (op : Op) : Unrepeated sha256 c op ↔
    ∀ e ∈ attempt sha256 c op, isReview e = true → e.1 ∉ c.inbox.log.keys := by
  constructor
  · intro h e he hreview
    obtain ⟨a, htaken, hrow⟩ := Option.bind_eq_some_iff.mp he
    obtain ⟨row, happend, rfl⟩ := Option.map_eq_some_iff.mp hrow
    obtain ⟨-, hkind⟩ := storedDict_append_event happend
    refine h a (Option.filter_eq_some_iff.mpr ⟨htaken, ?_⟩)
    rw [← hkind]
    exact hreview
  · intro h a ha
    obtain ⟨htaken, hreview⟩ := Option.filter_eq_some_iff.mp ha
    obtain ⟨row, happend⟩ := exists_append_event c.inbox.next (isSome_storedDict_review ha)
    obtain ⟨-, hkind⟩ := storedDict_append_event happend
    refine h (c.inbox.key sha256 a, row) ?_ ?_
    · exact Option.bind_eq_some_iff.mpr ⟨a, htaken, Option.map_eq_some_iff.mpr ⟨row, happend, rfl⟩⟩
    · unfold isReview
      rw [hkind]
      exact hreview

/-- The appended review rows are fresh exactly if no call repeats a key. -/
theorem fresh_attempts_iff (c : Case) (ops : List Op) :
    KeyedLog.Fresh isReview c.inbox.log (attempts sha256 c ops) ↔
      Transition.Admits (step sha256) (Unrepeated sha256) c ops := by
  induction ops generalizing c with
  | nil => exact iff_of_true trivial trivial
  | cons op ops ih =>
    have hlog := (steps_step sha256 c op).log
    unfold attempts Transition.Admits
    rw [← ih (step sha256 c op), hlog, unrepeated_iff]
    cases hattempt : attempt sha256 c op with
    | none => simp [KeyedLog.appendAll]
    | some e => simp [KeyedLog.Fresh, KeyedLog.appendAll]

theorem feed_eq (c : Case) : c.feed = (c.inbox.log.entries.filter isReview).map beatOf := by
  unfold Case.feed Inbox.events
  rw [List.filter_map, List.map_map]
  rfl

/-- The feed and the audit trail stay in step exactly if no review request or decision repeats the
idempotency key of an event before it. -/
theorem inStep_iff (c : Case) (ops : List Op) :
    InStep sha256 c ops ↔ Transition.Admits (step sha256) (Unrepeated sha256) c ops := by
  have hfeed := KeyedLog.map_filter_appendAll_eq_iff isReview beatOf c.inbox.log
    (attempts sha256 c ops)
  rw [← log_run, ← feed_eq, ← feed_eq, beats_attempts, fresh_attempts_iff] at hfeed
  rw [← hfeed]
  exact ⟨fun h => h.feed, fun h => ⟨h, audit_run sha256 c ops⟩⟩

/-- What is in the inbox stays there, and a request or decision leaves its key. -/
theorem mem_keys_step_of_mem {c : Case} (op : Op) {k : String} (h : k ∈ c.inbox.log.keys) :
    k ∈ (step sha256 c op).inbox.log.keys := by
  rw [(steps_step sha256 c op).log]
  cases attempt sha256 c op with
  | none => exact h
  | some e => exact KeyedLog.mem_keys_append_of_mem e.1 e.2 h

theorem mem_keys_step (c : Case) {op : Op} {a : Inbox.Append} (h : op.review = some a) :
    c.inbox.key sha256 a ∈ (step sha256 c op).inbox.log.keys := by
  obtain ⟨htaken, -⟩ := Option.filter_eq_some_iff.mp h
  obtain ⟨row, happend⟩ := exists_append_event c.inbox.next (isSome_storedDict_review h)
  have hattempt : attempt sha256 c op = some (c.inbox.key sha256 a, row) :=
    Option.bind_eq_some_iff.mpr ⟨a, htaken, Option.map_eq_some_iff.mpr ⟨row, happend, rfl⟩⟩
  rw [(steps_step sha256 c op).log, hattempt]
  exact KeyedLog.mem_keys_append _ _ _

/-- Every decision is recorded. -/
theorem review_decision (review_id : String) (ruling : Decision) (feedback reviewer : Option String) :
    (Op.decision review_id ruling feedback reviewer).review = some (human_decision ruling) := by
  have hdata : (storedDict (decisionData ruling feedback reviewer)).isSome = true := by
    rw [storedDict_eq_map]
    cases feedback <;> cases reviewer <;>
      simp [decisionData, Value.storedPairs, Value.stored, optText]
  obtain ⟨d, hd⟩ := Option.isSome_iff_exists.mp hdata
  have htaken : (Op.decision review_id ruling feedback reviewer).taken =
      some (human_decision ruling) := by
    show (storedDict (decisionData ruling feedback reviewer)).map _ = _
    rw [hd]
    rfl
  unfold Op.review
  rw [htaken]
  rfl

/-- A second round, asked for another reason and ruled as the first one. -/
def rounds : List Op :=
  [.request "review-1" ⟨some "lateral movement", "escalate", some (9 / 10), [], []⟩,
    .decision "review-1" .approve none (some "ana@soc.example"),
    .request "review-2" ⟨some "new beacon", "escalate", some (8 / 10), [], []⟩,
    .decision "review-2" .approve (some "still valid") (some "bob@soc.example")]

theorem not_inStep_rounds : ¬InStep Sha256.hexdigest { inbox := ⟨"case-1", .empty, 1⟩ } rounds := by
  rw [inStep_iff]
  generalize Sha256.hexdigest = sha256
  rintro ⟨-, -, -, hsecond, -⟩
  have hnew := hsecond _ (review_decision ..)
  have hthere := mem_keys_step_of_mem sha256
    (.request "review-2" ⟨some "new beacon", "escalate", some (8 / 10), [], []⟩)
    (mem_keys_step sha256 (step sha256 { inbox := ⟨"case-1", .empty, 1⟩ }
      (.request "review-1" ⟨some "lateral movement", "escalate", some (9 / 10), [], []⟩))
      (review_decision "review-1" .approve none (some "ana@soc.example")))
  refine hnew ?_
  unfold Inbox.key at hthere ⊢
  rw [(steps_step ..).named, (steps_step ..).named]
  exact hthere

end SocTalk.Reviews.Feed
