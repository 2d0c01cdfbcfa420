import SocTalk.Projection.CustomerView
import SocTalk.Reviews.Store

/-! Who may decide a review: the review endpoints and the chat confirmation, each with its own
choice of database session, tenant scope and checks. -/
namespace SocTalk.Reviews.Confirm
open Projection (Audience Session Visibility tenant_context)

/-! ## Identities -/

inductive UserType where
  | mssp
  | tenant
  deriving DecidableEq

inductive Role where
  | platformAdmin
  | msspAdmin
  | msspManager
  | analyst
  | tenantAdmin
  | tenantManager
  | tenantAnalyst
  | customerViewer
  deriving DecidableEq

inductive Permission where
  | reviewDecide
  | useChat
  | tenantReviewDecide
  | tenantUseChat
  deriving DecidableEq

/-- `ROLE_PERMISSIONS`, as far as these four go. -/
def hasPermission : Role → Permission → Bool
  | .platformAdmin, p | .msspAdmin, p | .msspManager, p | .analyst, p =>
    p = .reviewDecide || p = .useChat
  | .tenantAdmin, p | .tenantManager, p | .tenantAnalyst, p =>
    p = .tenantReviewDecide || p = .tenantUseChat
  | .customerViewer, _ => false

structure UserIdentity where
  userId : ℕ
  email : String
  userType : UserType
  role : Role
  tenantId : Option ℕ := none
  /-- The Open-SOC pin. -/
  currentTenant : Option ℕ := none

/-- `require_permission_any((mssp, "mssp"), (tenant, "tenant"))`. -/
def requirePermissionAny (mssp tenant : Permission) (id : UserIdentity) : Bool :=
  (id.userType = .mssp && hasPermission id.role mssp) ||
    (id.userType = .tenant && id.tenantId.isSome && hasPermission id.role tenant)

/-- `_REVIEW_DECIDE_GUARD`, and `_CHAT_CONFIRM_GUARD`. -/
def reviewDecideGuard : UserIdentity → Bool :=
  requirePermissionAny .reviewDecide .tenantReviewDecide

def chatGuard : UserIdentity → Bool := requirePermissionAny .useChat .tenantUseChat

/-- `MSSP_LEVEL_ROLES` of the chat. -/
def Role.msspLevel : Role → Bool
  | .platformAdmin | .msspAdmin | .msspManager | .analyst => true
  | _ => false

/-- `_MSSP_LEVEL_ROLES` of the review endpoints. -/
def Role.fleet : Role → Bool
  | .platformAdmin | .msspAdmin | .msspManager => true
  | _ => false

/-- `_effective_review_tenant`, and the tenant of the request's session. -/
def UserIdentity.effectiveTenant (id : UserIdentity) : Option ℕ := id.currentTenant.or id.tenantId

/-! ## Rows, and who sees them -/

structure ReviewRow where
  tenant : Option ℕ
  investigation : ℕ
  status : ReviewStatus := .pending
  feedback : Option String := none
  reviewer : Option String := none
  respondedAt : Option ℤ := none

structure Investigation where
  tenant : ℕ
  visibility : Visibility := .customer_safe
  status : Triage.InvestigationStatus := .active
  closedAt : Option ℤ := none
  closeReason : Option String := none
  reopenSignature : Option Triage.ReopenSignature := none
  reopenWindowUntil : Option ℤ := none

inductive Scope where
  | tenant
  | msspFleet
  deriving DecidableEq

structure Conversation where
  scope : Scope
  tenant : Option ℕ
  createdBy : ℕ

/-- A row of `chat_messages`; `target` is the id of its target where that parses as a UUID. -/
structure Message where
  conversation : ℕ
  tenant : Option ℕ
  isAction : Bool := true
  action : String
  targetKind : String := "pending_review"
  target : Option ℕ
  feedback : Option String := none
  confirmed : Bool := false

structure Tables where
  reviews : ℕ → Option ReviewRow := fun _ => none
  investigations : ℕ → Option Investigation := fun _ => none
  conversations : ℕ → Option Conversation := fun _ => none
  messages : ℕ → Option Message := fun _ => none

/-- A session of the role that bypasses the row policies, or of the one they apply to. -/
inductive DbSession where
  | bypass
  | app (settings : Session)

def DbSession.seesReview (s : DbSession) (r : ReviewRow) : Bool :=
  match s with
  | .bypass => true
  | .app settings => r.tenant = settings.current_tenant_id

def DbSession.seesInvestigation (s : DbSession) (i : Investigation) : Bool :=
  match s with
  | .bypass => true
  | .app settings => settings.audiencePolicy i.tenant i.visibility

/-- The row policy of `conversations` and `chat_messages`. -/
def DbSession.seesChat (s : DbSession) (tenant : Option ℕ) : Bool :=
  match s with
  | .bypass => true
  | .app settings =>
    match tenant with
    | some t => settings.current_tenant_id = some t
    | none => settings.current_tenant_id.isNone && settings.current_audience = .mssp

/-- Whether the session may insert the beat of a decision, which is for the provider only, and
read it back. -/
def DbSession.insertsBeat (s : DbSession) (tenant : ℕ) : Bool :=
  match s with
  | .bypass => true
  | .app settings => settings.audiencePolicy tenant .mssp_only

inductive HttpError where
  | badRequest
  | forbidden
  | notFound
  | conflict
  | internalError
  deriving DecidableEq

inductive Write where
  | setReview (id : ℕ) (row : ReviewRow)
  | setInvestigation (id : ℕ) (row : Investigation)
  | setMessage (id : ℕ) (row : Message)

/-- It changes a review or an investigation. -/
def Write.Decides : Write → Prop
  | .setMessage _ _ => False
  | _ => True

/-! ## Recording a decision -/

/-- `record_human_decision_received` in a session: its event and beat, then the updates, each of
the rows that the session sees. -/
def recordHumanDecisionReceived (s : DbSession) (db : Tables) (id : ℕ) (r : ReviewRow)
    (decision : Decision) (feedback : Option String) (reviewer : String) (closing : Closing) :
    Except HttpError (List Write) :=
  match r.tenant, db.investigations r.investigation with
  | some tenant, some i =>
    if !s.insertsBeat tenant then .error .internalError
    else
      .ok ((if s.seesReview r then
          [.setReview id { r with
            status := decisionToReviewStatus decision
            feedback := feedback
            reviewer := some reviewer
            respondedAt := some closing.now }]
        else []) ++
        (if decision = .reject ∧ i.tenant = tenant ∧ s.seesInvestigation i then
          [.setInvestigation r.investigation { i with
            status := .autoClosedFp
            closedAt := some closing.now
            closeReason := feedback.or i.closeReason
            reopenSignature := some closing.reopenSignature
            reopenWindowUntil := some closing.reopenUntil }]
        else []))
  | _, _ => .error .internalError

/-- `record_human_review_expired`. -/
def recordHumanReviewExpired (s : DbSession) (id : ℕ) (r : ReviewRow) (reason : Option String)
    (reviewer : String) (now : ℤ) : Except HttpError (List Write) :=
  match r.tenant with
  | some _ =>
    .ok (if s.seesReview r then
        [.setReview id { r with
          status := .expired
          feedback := reason.or r.feedback
          reviewer := some reviewer
          respondedAt := r.respondedAt.or (some now) }]
      else [])
  | none => .error .internalError

/-- What an action does to a review in a session. -/
def record (s : DbSession) (db : Tables) (id : ℕ) (r : ReviewRow) (helper : Helper)
    (feedback : Option String) (reviewer : String) (closing : Closing) :
    Except HttpError (List Write) :=
  match helper with
  | .decision decision =>
    recordHumanDecisionReceived s db id r decision feedback reviewer closing
  | .expired => recordHumanReviewExpired s id r feedback reviewer closing.now

/-! ## The review endpoints -/

/-- The session in which `_resolve_pending_review` looks. -/
def UserIdentity.reviewSession (id : UserIdentity) : Except HttpError DbSession :=
  if id.role.fleet then .ok .bypass
  else
    match id.effectiveTenant with
    | none => .error .forbidden
    | some tenant => .ok (.app (tenant_context tenant))

def resolvePendingReview (id : UserIdentity) (db : Tables) (review : ℕ) :
    Except HttpError ReviewRow := do
  let s ← id.reviewSession
  match db.reviews review with
  | none => .error .notFound
  | some r => if s.seesReview r then .ok r else .error .notFound

/-- The session in which the decision is written. -/
def UserIdentity.writeSession (id : UserIdentity) (r : ReviewRow) : DbSession :=
  if id.role.fleet then .bypass
  else .app ⟨r.tenant, .mssp⟩

/-- `review_approve`, `review_reject` and `review_expire`. -/
def reviewEndpoint (id : UserIdentity) (db : Tables) (review : ℕ) (helper : Helper)
    (feedback : Option String) (closing : Closing) : Except HttpError (List Write) :=
  if !reviewDecideGuard id then .error .forbidden
  else do
    let r ← resolvePendingReview id db review
    if r.status ≠ .pending then .error .conflict
    else record (id.writeSession r) db review r helper feedback id.email closing

/-! ## The chat confirmation -/

/-- `_chat_db`: the session of an MSSP-level role, or the request's own. -/
def UserIdentity.chatSession (id : UserIdentity) : DbSession :=
  if id.role.msspLevel then .bypass
  else .app ⟨id.effectiveTenant, if id.userType = .tenant then .customer else .mssp⟩

/-- `content.get("feedback") or …`. -/
def Message.feedbackText (m : Message) : String :=
  match m.feedback with
  | some text => if text = "" then "AI-suggested; confirmed via chat" else text
  | none => "AI-suggested; confirmed via chat"

/-- `dispatch_confirm`. -/
def dispatchConfirm (s : DbSession) (db : Tables) (conversation message : ℕ) (reviewer : String)
    (closing : Closing) : Except HttpError (List Write) :=
  match (db.messages message).filter fun m => s.seesChat m.tenant with
  | none => .error .notFound
  | some m =>
    if !m.isAction then .error .notFound
    else if m.conversation ≠ conversation then .error .notFound
    else if m.confirmed then .ok []
    else
      match actionDispatch m.action m.targetKind, m.target with
      | some helper, some review =>
        match (db.reviews review).filter s.seesReview with
        | none => .error .notFound
        | some r =>
          match record s db review r helper (some m.feedbackText) reviewer closing with
          | .error e => .error e
          | .ok ws => .ok (ws ++ [.setMessage message { m with confirmed := true }])
      | _, _ => .error .badRequest

/-- `confirm_action`. -/
def confirmAction (id : UserIdentity) (db : Tables) (conversation message : ℕ)
    (closing : Closing) : Except HttpError (List Write) :=
  if !reviewDecideGuard id then .error .forbidden
  else dispatchConfirm id.chatSession db conversation message id.email closing

/-! ## Authority -/

/-- The caller may post to the conversation: an MSSP-level role to its own, another to those
that its session sees. -/
def MayUse (id : UserIdentity) (db : Tables) (conversation : ℕ) : Prop :=
  ∃ c, db.conversations conversation = some c ∧ chatGuard id = true ∧
    if id.role.msspLevel then c.createdBy = id.userId else id.chatSession.seesChat c.tenant = true

/-- The confirmation of `m` has the authority of the matching endpoint, the conversation and,
for a tenant's conversation, the tenant. -/
structure Authorized (id : UserIdentity) (db : Tables) (conversation : ℕ) (m : Message)
    (helper : Helper) (review : ℕ) (closing : Closing) : Prop where
  accepted : Py.Returns (reviewEndpoint id db review helper (some m.feedbackText) closing)
  mayUse : MayUse id db conversation
  tenant : ∀ c r, db.conversations conversation = some c → c.scope = .tenant →
    db.reviews review = some r → r.tenant = c.tenant

/-- A confirmation that changes a review or an investigation is authorized. -/
def NoMoreAuthority (id : UserIdentity) (db : Tables) (conversation message : ℕ)
    (closing : Closing) : Prop :=
  ∀ ws, confirmAction id db conversation message closing = .ok ws → (∃ w ∈ ws, w.Decides) →
    ∃ m helper review, db.messages message = some m ∧
      actionDispatch m.action m.targetKind = some helper ∧ m.target = some review ∧
      Authorized id db conversation m helper review closing

/-! ## Who passes the guards -/

variable {id : UserIdentity} {db : Tables}

theorem chatGuard_eq (id : UserIdentity) : chatGuard id = reviewDecideGuard id := by
  unfold chatGuard reviewDecideGuard requirePermissionAny
  cases id.role <;> simp [hasPermission]

/-- An MSSP user of an MSSP-level role, or a tenant's user of another one. -/
theorem level_of_guard (h : reviewDecideGuard id = true) :
    id.role.msspLevel = true ∨
      (id.role.msspLevel = false ∧ id.userType = .tenant ∧ ∃ t, id.effectiveTenant = some t) := by
  unfold reviewDecideGuard requirePermissionAny at h
  cases hrole : id.role <;> simp [hrole, hasPermission] at h <;> simp [Role.msspLevel]
  all_goals
    obtain ⟨htype, htenant⟩ := h
    obtain ⟨t, ht⟩ := Option.isSome_iff_exists.mp htenant
    refine ⟨htype, ?_⟩
    cases hpin : id.currentTenant with
    | none => exact ⟨t, by simp [UserIdentity.effectiveTenant, hpin, ht]⟩
    | some pin => exact ⟨pin, by simp [UserIdentity.effectiveTenant, hpin]⟩

/-! ## When a decision is recorded -/

/-- The row has a tenant and, for a decision, an investigation and a session that may insert the
beat. -/
def Records (s : DbSession) (db : Tables) (r : ReviewRow) (helper : Helper) : Prop :=
  ∃ tenant, r.tenant = some tenant ∧ ∀ decision, helper = .decision decision →
    (db.investigations r.investigation).isSome = true ∧ s.insertsBeat tenant = true

theorem returns_record_iff (s : DbSession) (db : Tables) (review : ℕ) (r : ReviewRow)
    (helper : Helper) (feedback : Option String) (reviewer : String) (closing : Closing) :
    Py.Returns (record s db review r helper feedback reviewer closing) ↔
      Records s db r helper := by
  cases helper with
  | expired =>
    cases ht : r.tenant <;> simp [record, recordHumanReviewExpired, Records, ht]
  | decision decision =>
    cases ht : r.tenant with
    | none => simp [record, recordHumanDecisionReceived, Records, ht]
    | some tenant =>
      cases hi : db.investigations r.investigation with
      | none => simp [record, recordHumanDecisionReceived, Records, ht, hi]
      | some i =>
        cases hbeat : s.insertsBeat tenant <;>
          simp [record, recordHumanDecisionReceived, Records, ht, hi, hbeat]

/-- What is recorded of a row that the session sees changes the review. -/
theorem decides_of_record {s : DbSession} {review : ℕ} {r : ReviewRow} {helper : Helper}
    {feedback : Option String} {reviewer : String} {closing : Closing} {ws : List Write}
    (hsees : s.seesReview r = true)
    (h : record s db review r helper feedback reviewer closing = .ok ws) :
    ∃ w ∈ ws, w.Decides := by
  cases helper with
  | expired =>
    cases ht : r.tenant with
    | none => simp [record, recordHumanReviewExpired, ht] at h
    | some tenant =>
      simp only [record, recordHumanReviewExpired, ht, hsees, if_true, Except.ok.injEq] at h
      subst h
      exact ⟨_, List.mem_singleton_self _, trivial⟩
  | decision decision =>
    simp only [record, recordHumanDecisionReceived] at h
    split at h
    · split_ifs at h
      all_goals
        cases h
        exact ⟨_, List.mem_append_left _ (List.mem_singleton_self _), trivial⟩
    · cases h

/-! ## What a confirmation checks -/

/-- The confirmation gets to the writes of `helper` on the row `r`. -/
structure Reaches (id : UserIdentity) (db : Tables) (conversation message : ℕ) (m : Message)
    (helper : Helper) (review : ℕ) (r : ReviewRow) : Prop where
  guard : reviewDecideGuard id = true
  stored : db.messages message = some m
  seen : id.chatSession.seesChat m.tenant = true
  isAction : m.isAction = true
  belongs : m.conversation = conversation
  unconfirmed : m.confirmed = false
  dispatch : actionDispatch m.action m.targetKind = some helper
  target : m.target = some review
  row : db.reviews review = some r
  visible : id.chatSession.seesReview r = true
  records : Records id.chatSession db r helper

theorem Reaches.decides {conversation message review : ℕ} {m : Message} {helper : Helper}
    {r : ReviewRow} (h : Reaches id db conversation message m helper review r)
    (closing : Closing) :
    ∃ ws, confirmAction id db conversation message closing = .ok ws ∧ ∃ w ∈ ws, w.Decides := by
  obtain ⟨ws, hws⟩ := (returns_record_iff id.chatSession db review r helper
    (some m.feedbackText) id.email closing).mpr h.records
  obtain ⟨w, hw, hdecides⟩ := decides_of_record h.visible hws
  refine ⟨ws ++ [.setMessage message { m with confirmed := true }], ?_, w, by simp [hw], hdecides⟩
  simp [confirmAction, dispatchConfirm, h.guard, h.stored, h.seen, h.isAction, h.belongs,
    h.unconfirmed, h.dispatch, h.target, h.row, h.visible, hws, Option.filter]

theorem reaches_of_decides {conversation message : ℕ} {closing : Closing} {ws : List Write}
    (h : confirmAction id db conversation message closing = .ok ws)
    (hdecides : ∃ w ∈ ws, w.Decides) :
    ∃ m helper review r, Reaches id db conversation message m helper review r := by
  cases hguard : reviewDecideGuard id with
  | false => simp [confirmAction, hguard] at h
  | true =>
    simp only [confirmAction, hguard, dispatchConfirm, Bool.not_true, Bool.false_eq_true,
      if_false] at h
    cases hm : (db.messages message).filter fun m => id.chatSession.seesChat m.tenant with
    | none => simp [hm] at h
    | some m =>
      obtain ⟨hstored, hseen⟩ := Option.filter_eq_some_iff.mp hm
      simp only [hm] at h
      split_ifs at h with haction hconv hconfirmed
      · cases h
        obtain ⟨w, hw, -⟩ := hdecides
        cases hw
      · cases hhelper : actionDispatch m.action m.targetKind with
        | none => simp [hhelper] at h
        | some helper =>
          cases htarget : m.target with
          | none => simp [hhelper, htarget] at h
          | some review =>
            cases hr : (db.reviews review).filter id.chatSession.seesReview with
            | none => simp [hhelper, htarget, hr] at h
            | some r =>
              obtain ⟨hrow, hvisible⟩ := Option.filter_eq_some_iff.mp hr
              simp only [hhelper, htarget, hr] at h
              cases hrec : record id.chatSession db review r helper (some m.feedbackText)
                  id.email closing with
              | error e => simp [hrec] at h
              | ok ws' =>
                have hrecords := (returns_record_iff id.chatSession db review r helper
                  (some m.feedbackText) id.email closing).mp ⟨ws', hrec⟩
                refine ⟨m, helper, review, r, hguard, hstored, hseen, by simpa using haction,
                  by simpa using hconv, by simpa using hconfirmed, hhelper, htarget, hrow,
                  hvisible, hrecords⟩

/-! ## What the endpoint checks -/

theorem returns_resolvePendingReview_iff {review : ℕ} {r : ReviewRow}
    (hrow : db.reviews review = some r) (a : ReviewRow) :
    resolvePendingReview id db review = .ok a ↔
      a = r ∧ ∃ s, id.reviewSession = .ok s ∧ s.seesReview r = true := by
  rw [resolvePendingReview, Py.bind_eq_ok]
  constructor
  · rintro ⟨s, hs, ha⟩
    simp only [hrow] at ha
    split_ifs at ha with hsees
    cases ha
    exact ⟨rfl, s, hs, hsees⟩
  · rintro ⟨rfl, s, hs, hsees⟩
    exact ⟨s, hs, by simp [hrow, hsees]⟩

/-- The endpoint accepts a pending review that its session sees and that can be recorded. -/
theorem returns_reviewEndpoint_iff {review : ℕ} {r : ReviewRow}
    (hguard : reviewDecideGuard id = true) (hrow : db.reviews review = some r) (helper : Helper) (feedback : Option String)
    (closing : Closing) :
    Py.Returns (reviewEndpoint id db review helper feedback closing) ↔
      (∃ s, id.reviewSession = .ok s ∧ s.seesReview r = true) ∧ r.status = .pending ∧
        Records (id.writeSession r) db r helper := by
  simp only [reviewEndpoint, hguard, Bool.not_true, Bool.false_eq_true, if_false,
    Py.returns_bind_iff]
  constructor
  · rintro ⟨a, ha, hrest⟩
    obtain ⟨rfl, hsession⟩ := (returns_resolvePendingReview_iff hrow a).mp ha
    split_ifs at hrest with hstatus
    · exact absurd hrest (Py.not_returns_error _)
    · exact ⟨hsession, not_not.mp hstatus, (returns_record_iff ..).mp hrest⟩
  · rintro ⟨hsession, hstatus, hrecords⟩
    refine ⟨r, (returns_resolvePendingReview_iff hrow r).mpr ⟨rfl, hsession⟩, ?_⟩
    rw [if_neg (not_not.mpr hstatus)]
    exact (returns_record_iff ..).mpr hrecords

/-! ## The two side by side -/

/-- The session that the endpoint writes in may insert the beat. -/
theorem Records.writeSession {s : DbSession} {r : ReviewRow} {helper : Helper}
    (h : Records s db r helper) : Records (id.writeSession r) db r helper := by
  obtain ⟨tenant, htenant, hdecision⟩ := h
  refine ⟨tenant, htenant, fun decision hd => ⟨(hdecision decision hd).1, ?_⟩⟩
  unfold UserIdentity.writeSession
  split
  · rfl
  · simp [DbSession.insertsBeat, Session.audiencePolicy, htenant]

/-- Where the confirmation sees the row, so does the endpoint, except for an analyst, whom the
chat takes for a fleet role. -/
theorem reviewSession_sees_iff {r : ReviewRow} (hguard : reviewDecideGuard id = true)
    (hvisible : id.chatSession.seesReview r = true) {tenant : ℕ}
    (htenant : r.tenant = some tenant) :
    (∃ s, id.reviewSession = .ok s ∧ s.seesReview r = true) ↔
      (id.role = .analyst → r.tenant = id.effectiveTenant) := by
  cases hfleet : id.role.fleet with
  | true =>
    have hrole : id.role ≠ .analyst := by
      intro h
      simp [h, Role.fleet] at hfleet
    simp [UserIdentity.reviewSession, hfleet, DbSession.seesReview, hrole]
  | false =>
    have hsession : (∃ s, id.reviewSession = .ok s ∧ s.seesReview r = true) ↔
        r.tenant = id.effectiveTenant := by
      cases ht : id.effectiveTenant with
      | none => simp [UserIdentity.reviewSession, hfleet, ht, htenant]
      | some t =>
        simp [UserIdentity.reviewSession, hfleet, ht, DbSession.seesReview,
          Projection.tenant_context]
    rw [hsession]
    rcases level_of_guard hguard with hlevel | ⟨hlevel, htype, -⟩
    · have hrole : id.role = .analyst := by
        cases hr : id.role <;> simp_all [Role.fleet, Role.msspLevel]
      simp [hrole]
    · have hsame : r.tenant = id.effectiveTenant := by
        simpa [UserIdentity.chatSession, hlevel, DbSession.seesReview] using hvisible
      simp [hsame]

/-- The endpoint would have accepted what the confirmation does, provided that the review is
pending and, for an analyst, of its own tenant. -/
theorem Reaches.accepted_iff {conversation message review : ℕ} {m : Message} {helper : Helper}
    {r : ReviewRow} (h : Reaches id db conversation message m helper review r)
    (closing : Closing) :
    Py.Returns (reviewEndpoint id db review helper (some m.feedbackText) closing) ↔
      r.status = .pending ∧ (id.role = .analyst → r.tenant = id.effectiveTenant) := by
  obtain ⟨tenant, htenant, -⟩ := h.records
  have hwrite : Records (id.writeSession r) db r helper := h.records.writeSession
  rw [returns_reviewEndpoint_iff h.guard h.row, reviewSession_sees_iff h.guard h.visible htenant]
  constructor
  · rintro ⟨hanalyst, hstatus, -⟩
    exact ⟨hstatus, hanalyst⟩
  · rintro ⟨hstatus, hanalyst⟩
    exact ⟨hanalyst, hstatus, hwrite⟩

theorem mayUse_iff (hguard : reviewDecideGuard id = true) (db : Tables) (conversation : ℕ) :
    MayUse id db conversation ↔ ∃ c, db.conversations conversation = some c ∧
      if id.role.msspLevel then c.createdBy = id.userId else c.tenant = id.effectiveTenant := by
  unfold MayUse
  simp only [chatGuard_eq, hguard, true_and]
  rcases level_of_guard hguard with hlevel | ⟨hlevel, htype, t, ht⟩
  · simp [hlevel]
  · simp only [hlevel, Bool.false_eq_true, if_false]
    refine exists_congr fun c => and_congr_right fun _ => ?_
    cases hc : c.tenant with
    | none => simp [UserIdentity.chatSession, hlevel, DbSession.seesChat, ht]
    | some tenant =>
      simp [UserIdentity.chatSession, hlevel, DbSession.seesChat, ht, eq_comm]

/-! ## When the confirmation has no more authority -/

/-- The review is pending and, for an analyst, of its own tenant; the conversation is the
caller's and, where it is a tenant's, the review's tenant is its tenant. -/
structure InOrder (id : UserIdentity) (db : Tables) (conversation : ℕ) (r : ReviewRow) : Prop where
  pending : r.status = .pending
  analyst : id.role = .analyst → r.tenant = id.effectiveTenant
  owned : ∃ c, db.conversations conversation = some c ∧
    if id.role.msspLevel then c.createdBy = id.userId else c.tenant = id.effectiveTenant
  tenant : ∀ c, db.conversations conversation = some c → c.scope = .tenant → r.tenant = c.tenant

theorem Reaches.authorized_iff {conversation message review : ℕ} {m : Message} {helper : Helper}
    {r : ReviewRow} (h : Reaches id db conversation message m helper review r)
    (closing : Closing) :
    Authorized id db conversation m helper review closing ↔ InOrder id db conversation r := by
  constructor
  · intro ha
    obtain ⟨hstatus, hanalyst⟩ := (h.accepted_iff closing).mp ha.accepted
    exact ⟨hstatus, hanalyst, (mayUse_iff h.guard db conversation).mp ha.mayUse,
      fun c hc hscope => ha.tenant c r hc hscope h.row⟩
  · intro ho
    refine ⟨(h.accepted_iff closing).mpr ⟨ho.pending, ho.analyst⟩,
      (mayUse_iff h.guard db conversation).mpr ho.owned, ?_⟩
    intro c r' hc hscope hrow
    have hsame : r' = r := Option.some.inj (hrow.symm.trans h.row)
    rw [hsame]
    exact ho.tenant c hc hscope

theorem Reaches.inOrder {conversation message review : ℕ} {m : Message} {helper : Helper}
    {r : ReviewRow} {closing : Closing}
    (h : Reaches id db conversation message m helper review r)
    (hclaim : NoMoreAuthority id db conversation message closing) :
    InOrder id db conversation r := by
  obtain ⟨ws, hws, hdecides⟩ := h.decides closing
  obtain ⟨m', helper', review', hstored, hdispatch, htarget, hauth⟩ := hclaim ws hws hdecides
  have hm : m' = m := Option.some.inj (hstored.symm.trans h.stored)
  subst hm
  have hhelper : helper' = helper := Option.some.inj (hdispatch.symm.trans h.dispatch)
  have hreview : review' = review := Option.some.inj (htarget.symm.trans h.target)
  subst hhelper hreview
  exact (h.authorized_iff closing).mp hauth

/-- The confirmation has no more authority than the endpoints exactly if every action message that
gets to its writes points at a review that is in order. -/
theorem noMoreAuthority_iff (id : UserIdentity) (db : Tables) (conversation message : ℕ)
    (closing : Closing) :
    NoMoreAuthority id db conversation message closing ↔
      ∀ m helper review r, Reaches id db conversation message m helper review r →
        InOrder id db conversation r := by
  constructor
  · intro hclaim m helper review r hreach
    exact hreach.inOrder hclaim
  · intro hall ws hws hdecides
    obtain ⟨m, helper, review, r, hreach⟩ := reaches_of_decides hws hdecides
    exact ⟨m, helper, review, hreach.stored, hreach.dispatch, hreach.target,
      (hreach.authorized_iff closing).mpr (hall m helper review r hreach)⟩

/-! ## An analyst in another tenant -/

def analystOfTwo : UserIdentity :=
  { userId := 7, email := "analyst@mssp.example", userType := .mssp, role := .analyst,
    currentTenant := some 2 }

/-- The analyst's own conversation about tenant 2, with an action on a decided review of
tenant 1. -/
def crossTenant : Tables :=
  { reviews := fun i =>
      if i = 5 then some { tenant := some 1, investigation := 3, status := .approved } else none
    investigations := fun i => if i = 3 then some { tenant := 1 } else none
    conversations := fun i =>
      if i = 8 then some { scope := .tenant, tenant := some 2, createdBy := 7 } else none
    messages := fun i =>
      if i = 9 then
        some { conversation := 8, tenant := some 2, action := "reject_review", target := some 5 }
      else none }

theorem reaches_crossTenant :
    Reaches analystOfTwo crossTenant 8 9
      { conversation := 8, tenant := some 2, action := "reject_review", target := some 5 }
      (.decision .reject) 5 { tenant := some 1, investigation := 3, status := .approved } where
  guard := rfl
  stored := rfl
  seen := rfl
  isAction := rfl
  belongs := rfl
  unconfirmed := rfl
  dispatch := rfl
  target := rfl
  row := rfl
  visible := rfl
  records := ⟨1, rfl, fun _ _ => ⟨rfl, rfl⟩⟩

/-- The review is of another tenant than the analyst's, and decided. -/
theorem not_noMoreAuthority_crossTenant :
    ¬NoMoreAuthority analystOfTwo crossTenant 8 9
      { now := 100, reopenSignature := ⟨[], [], []⟩, reopenUntil := 200 } := by
  intro hclaim
  have horder := reaches_crossTenant.inOrder hclaim
  cases horder.pending

end SocTalk.Reviews.Confirm
