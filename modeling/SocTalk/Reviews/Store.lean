import SocTalk.Lib.ReadCommitted
import SocTalk.Triage.Store

/-! One review of an investigation: its queue row, the investigation, the investigation's event
log, and the chat messages that propose an action on the review. -/
namespace SocTalk.Reviews
open ReadCommitted

inductive ReviewStatus where
  | pending
  | approved
  | rejected
  | infoRequested
  | expired
  deriving DecidableEq

inductive Decision where
  | approve
  | reject
  | moreInfo
  deriving DecidableEq

/-- `_DECISION_TO_REVIEW_STATUS`. -/
def decisionToReviewStatus : Decision → ReviewStatus
  | .approve => .approved
  | .reject => .rejected
  | .moreInfo => .infoRequested

structure PendingReview where
  tenant : Option String
  status : ReviewStatus := .pending
  feedback : Option String := none
  reviewer : Option String := none
  deriving DecidableEq

structure InvestigationRow where
  tenant : String
  status : Triage.InvestigationStatus := .active
  closedAt : Option ℤ := none
  closeReason : Option String := none
  reopenSignature : Option Triage.ReopenSignature := none
  reopenWindowUntil : Option ℤ := none
  deriving DecidableEq

/-- An event's type with its data. -/
inductive EventData where
  | humanDecisionReceived (decision : Decision) (feedback : Option String) (reviewer : String)
  | humanReviewExpired (reason : Option String) (reviewer : String)
  | other (eventType : String)
  deriving DecidableEq

/-- A row of `events`, unique in its version. -/
structure EventRow where
  version : ℕ
  data : EventData
  deriving DecidableEq

abbrev MessageId := String

/-- A chat message; `confirmed` says that its content has a confirmation time. -/
structure ChatMessage where
  conversation : String
  isAction : Bool
  action : String
  targetKind : String
  feedback : Option String := none
  confirmed : Bool := false
  deriving DecidableEq

/-- `feed` holds the decision beats of the investigation's inbox, one a decision. -/
structure Tables where
  review : PendingReview
  investigation : InvestigationRow
  events : List EventRow := []
  feed : List Decision := []
  messages : MessageId → Option ChatMessage := fun _ => none

/-- The version is taken. -/
def Tables.hasVersion (t : Tables) (version : ℕ) : Bool :=
  t.events.any fun e => e.version == version

/-- `COALESCE(MAX(version), 0)`. -/
def Tables.maxVersion (t : Tables) : ℕ := (t.events.map (·.version)).foldr max 0

/-- What a transaction locks: a row, or an entry of a unique index. -/
inductive Resource where
  | review
  | investigation
  | version (version : ℕ)
  | beat (decision : Decision)
  | message (id : MessageId)
  deriving DecidableEq

inductive Write where
  | insertEvent (row : EventRow)
  | insertBeat (decision : Decision)
  | setReview (row : PendingReview)
  | setInvestigation (row : InvestigationRow)
  | setMessage (id : MessageId) (row : ChatMessage)
  deriving DecidableEq

def Write.apply : Write → Tables → Tables
  | .insertEvent row, t => { t with events := t.events ++ [row] }
  | .insertBeat decision, t => { t with feed := t.feed ++ [decision] }
  | .setReview row, t => { t with review := row }
  | .setInvestigation row, t => { t with investigation := row }
  | .setMessage id row, t => { t with messages := Function.update t.messages id (some row) }

def Write.locks : Write → List Resource
  | .insertEvent row => [.version row.version]
  | .insertBeat decision => [.beat decision]
  | .setReview _ => [.review]
  | .setInvestigation _ => [.investigation]
  | .setMessage id _ => [.message id]

/-- Of the unique index, whether the entry is there. -/
def rowOf : Resource → Tables → Bool
  | .version version, t => t.hasVersion version
  | _, _ => false

theorem Write.frame (w : Write) (r : Resource) (t : Tables) (h : r ∉ w.locks) :
    rowOf r (w.apply t) = rowOf r t := by
  cases r with
  | version version =>
    cases w with
    | insertEvent row =>
      have hne : row.version ≠ version := by
        intro heq
        apply h
        simp [Write.locks, heq]
      simp [rowOf, Write.apply, Tables.hasVersion, hne]
    | _ => rfl
  | _ => rfl

def store : Store Tables Write Resource Bool where
  apply := Write.apply
  locks := Write.locks
  row := rowOf
  frame := Write.frame

/-! ## The requests -/

/-- The statements that later conditions speak about. -/
inductive Stmt where
  | plain
  | readVersion

abbrev Program := Prog Tables Write Unit Stmt Resource

/-- The analyst behind a request, and whether the review is in the session's scope. -/
structure Caller where
  email : String
  seesReview : Bool := true
  deriving DecidableEq

/-- What a reject closes the investigation with: the time, and the reopen fields built from
its alerts and the tenant's policy. -/
structure Closing where
  now : ℤ
  reopenSignature : Triage.ReopenSignature
  reopenUntil : ℤ
  deriving DecidableEq

inductive Request where
  | approve (caller : Caller) (feedback : Option String)
  | reject (caller : Caller) (feedback : Option String) (closing : Closing)
  | requestInfo (caller : Caller) (questions : List String)
  | expire (caller : Caller) (reason : Option String)
  | confirm (caller : Caller) (conversation : String) (message : MessageId) (closing : Closing)

/-- `_append_event_v1`: the insert of a version that is there by then fails. -/
def appendEventV1 (data : EventData) (next : Program) : Program :=
  .stmt .readVersion (fun _ => []) fun v =>
  let nextVersion := v.db.maxVersion + 1
  .stmt .plain
    (fun v => if v.db.hasVersion nextVersion then [] else [.insertEvent ⟨nextVersion, data⟩])
    fun v => if v.db.hasVersion nextVersion then .rollback else next

/-- The closed investigation. -/
def InvestigationRow.closedAsFp (row : InvestigationRow) (feedback : Option String)
    (closing : Closing) : InvestigationRow :=
  { row with
    status := .autoClosedFp
    closedAt := some closing.now
    closeReason := feedback.or row.closeReason
    reopenSignature := some closing.reopenSignature
    reopenWindowUntil := some closing.reopenUntil }

/-- `record_human_decision_received`, and what the caller does next. -/
def recordHumanDecisionReceived (tenant : Option String) (decision : Decision)
    (feedback : Option String) (reviewer : String) (closing : Closing) (next : Program) :
    Program :=
  match tenant with
  | none => .rollback
  | some tenant =>
    appendEventV1 (.humanDecisionReceived decision feedback reviewer) <|
    .stmt .plain (fun v => if decision ∈ v.db.feed then [] else [.insertBeat decision]) fun _ =>
    .stmt .plain
      (fun v => [.setReview { v.db.review with
        status := decisionToReviewStatus decision
        feedback := feedback
        reviewer := some reviewer }])
      fun _ =>
    if decision = .reject then
      .stmt .plain
        (fun v => if v.db.investigation.tenant = tenant then
            [.setInvestigation (v.db.investigation.closedAsFp feedback closing)]
          else [])
        fun _ => next
    else next

/-- `record_human_review_expired`, and what the caller does next. -/
def recordHumanReviewExpired (tenant : Option String) (reason : Option String)
    (reviewer : String) (next : Program) : Program :=
  match tenant with
  | none => .rollback
  | some tenant =>
    appendEventV1 (.humanReviewExpired reason reviewer) <|
    .stmt .plain
      (fun v => if v.db.review.tenant = some tenant then
          [.setReview { v.db.review with
            status := .expired
            feedback := reason.or v.db.review.feedback
            reviewer := some reviewer }]
        else [])
      fun _ => next

/-- `_resolve_pending_review` in a session of its own, and the endpoint's check of the status. -/
def resolvePendingReview (caller : Caller) (next : Option String → Program) : Program :=
  .stmt .plain (fun _ => []) fun v =>
  if !caller.seesReview then .rollback
  else if v.db.review.status ≠ .pending then .rollback
  else next v.db.review.tenant

/-- No closing is written unless the decision is a reject. -/
def noClosing : Closing := ⟨0, ⟨[], [], []⟩, 0⟩

def reviewApprove (caller : Caller) (feedback : Option String) : Program :=
  resolvePendingReview caller fun tenant =>
    recordHumanDecisionReceived tenant .approve feedback caller.email noClosing (.commit .plain)

def reviewReject (caller : Caller) (feedback : Option String) (closing : Closing) : Program :=
  resolvePendingReview caller fun tenant =>
    recordHumanDecisionReceived tenant .reject feedback caller.email closing (.commit .plain)

/-- The questions as one feedback text, none without questions. -/
def questionsFeedback (questions : List String) : Option String :=
  if questions = [] then none else some ("Questions: " ++ String.intercalate " | " questions)

def reviewRequestInfo (caller : Caller) (questions : List String) : Program :=
  resolvePendingReview caller fun tenant =>
    recordHumanDecisionReceived tenant .moreInfo (questionsFeedback questions) caller.email
      noClosing (.commit .plain)

def reviewExpire (caller : Caller) (reason : Option String) : Program :=
  resolvePendingReview caller fun tenant =>
    recordHumanReviewExpired tenant reason caller.email (.commit .plain)

/-- What an action verb dispatches to. -/
inductive Helper where
  | decision (decision : Decision)
  | expired

/-- `_ACTION_DISPATCH`. -/
def actionDispatch (action targetKind : String) : Option Helper :=
  if targetKind ≠ "pending_review" then none
  else if action = "approve_review" then some (.decision .approve)
  else if action = "reject_review" then some (.decision .reject)
  else if action = "expire_review" then some .expired
  else none

/-- `content.get("feedback") or …`. -/
def ChatMessage.feedbackText (m : ChatMessage) : String :=
  match m.feedback with
  | some text => if text = "" then "AI-suggested; confirmed via chat" else text
  | none => "AI-suggested; confirmed via chat"

def markConfirmed (id : MessageId) (m : ChatMessage) : Program :=
  .stmt .plain (fun _ => [.setMessage id { m with confirmed := true }]) fun _ => .commit .plain

/-- `dispatch_confirm`, in one session. -/
def dispatchConfirm (caller : Caller) (conversation : String) (id : MessageId)
    (closing : Closing) : Program :=
  .stmt .plain (fun _ => []) fun v =>
  match v.db.messages id with
  | none => .rollback
  | some m =>
    if !m.isAction || m.conversation ≠ conversation then .rollback
    else if m.confirmed then .commit .plain
    else
      match actionDispatch m.action m.targetKind with
      | none => .rollback
      | some helper =>
        .stmt .plain (fun _ => []) fun v =>
        if !caller.seesReview then .rollback
        else
          match helper with
          | .decision decision =>
            recordHumanDecisionReceived v.db.review.tenant decision (some m.feedbackText)
              caller.email closing (markConfirmed id m)
          | .expired =>
            recordHumanReviewExpired v.db.review.tenant (some m.feedbackText) caller.email
              (markConfirmed id m)

def serve (_session : ℕ) : Request → Program
  | .approve caller feedback => reviewApprove caller feedback
  | .reject caller feedback closing => reviewReject caller feedback closing
  | .requestInfo caller questions => reviewRequestInfo caller questions
  | .expire caller reason => reviewExpire caller reason
  | .confirm caller conversation message closing =>
    dispatchConfirm caller conversation message closing

end SocTalk.Reviews
