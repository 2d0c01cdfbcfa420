import SocTalk.Reviews.Store

/-! A pending review and the requests that decide it: which of them takes effect, and when
more than one can. -/
namespace SocTalk.Reviews
open ReadCommitted

/-- What a request rules on the review. -/
inductive Ruling where
  | decided (decision : Decision) (feedback : Option String) (reviewer : String)
      (closing : Closing)
  | expired (reason : Option String) (reviewer : String)
  deriving DecidableEq

def Ruling.event : Ruling → EventData
  | .decided decision feedback reviewer _ => .humanDecisionReceived decision feedback reviewer
  | .expired reason reviewer => .humanReviewExpired reason reviewer

/-- Status, reviewer and feedback of the ruling. -/
def Ruling.review (row : PendingReview) : Ruling → PendingReview
  | .decided decision feedback reviewer _ =>
    { row with
      status := decisionToReviewStatus decision, feedback := feedback, reviewer := some reviewer }
  | .expired reason reviewer =>
    { row with
      status := .expired, feedback := reason.or row.feedback, reviewer := some reviewer }

/-- A reject closes the investigation of the review's tenant, nothing else touches it. -/
def Ruling.investigation (tenant : Option String) (row : InvestigationRow) :
    Ruling → InvestigationRow
  | .decided .reject feedback _ closing =>
    if some row.tenant = tenant then row.closedAsFp feedback closing else row
  | _ => row

def Helper.ruling (feedback : String) (caller : Caller) (closing : Closing) : Helper → Ruling
  | .decision d => .decided d (some feedback) caller.email closing
  | .expired => .expired (some feedback) caller.email

/-- The ruling a request asks for; a confirmation asks for what its message proposes. -/
def Request.ruling (t : Tables) : Request → Option Ruling
  | .approve caller feedback => some (.decided .approve feedback caller.email noClosing)
  | .reject caller feedback closing => some (.decided .reject feedback caller.email closing)
  | .requestInfo caller questions =>
    some (.decided .moreInfo (questionsFeedback questions) caller.email noClosing)
  | .expire caller reason => some (.expired reason caller.email)
  | .confirm caller _ id closing =>
    (t.messages id).bind fun m => (actionDispatch m.action m.targetKind).map
      (Helper.ruling m.feedbackText caller closing)

/-- Nothing has been decided since `t₀`. -/
def Undecided (t₀ t : Tables) : Prop :=
  t.review = t₀.review ∧ t.investigation = t₀.investigation ∧ t.events = t₀.events

/-- Review, investigation and event log are as the ruling leaves them, with its one event. -/
structure Ruled (t₀ : Tables) (ruling : Ruling) (t : Tables) : Prop where
  review : t.review = ruling.review t₀.review
  investigation : t.investigation = ruling.investigation t₀.review.tenant t₀.investigation
  events : t.events = t₀.events ++ [⟨t₀.maxVersion + 1, ruling.event⟩]

/-- The request took effect, and no other did. -/
def DecidedBy (t₀ : Tables) (req : Request) (t : Tables) : Prop :=
  ∃ ruling, req.ruling t₀ = some ruling ∧ Ruled t₀ ruling t

/-- At most one request has taken effect. -/
def DecidedOnce (t₀ t : Tables) : Prop := Undecided t₀ t ∨ ∃ req, DecidedBy t₀ req t

/-- The condition: the review is still pending when a request reads the version its event
will follow. -/
def StillPending : Stmt → View Tables Resource → Prop
  | .readVersion, v => v.db.review.status = .pending
  | .plain, _ => True

/-! ## The invariant -/

def ChatMessage.unconfirmed (m : ChatMessage) : ChatMessage := { m with confirmed := false }

/-- The messages propose what they proposed. -/
def SameMessages (t₀ t : Tables) : Prop :=
  ∀ id, (t.messages id).map ChatMessage.unconfirmed =
    (t₀.messages id).map ChatMessage.unconfirmed

section

variable {t₀ t : Tables}

theorem Ruling.status_ne_pending (ruling : Ruling) (row : PendingReview) :
    (ruling.review row).status ≠ .pending := by
  cases ruling with
  | decided decision feedback reviewer closing => cases decision <;> exact nofun
  | expired reason reviewer => exact nofun

theorem Ruling.tenant_review (ruling : Ruling) (row : PendingReview) :
    (ruling.review row).tenant = row.tenant := by
  cases ruling with
  | decided decision feedback reviewer closing => rfl
  | expired reason reviewer => rfl

theorem DecidedOnce.undecided_of_pending (h : DecidedOnce t₀ t)
    (hpending : t.review.status = .pending) : Undecided t₀ t := by
  rcases h with hun | ⟨req, ruling, -, hruled⟩
  · exact hun
  · rw [hruled.review] at hpending
    exact absurd hpending (ruling.status_ne_pending t₀.review)

/-- A decision takes the version that follows those of `t₀`. -/
theorem DecidedOnce.undecided_of_free (h : DecidedOnce t₀ t)
    (hfree : t.hasVersion (t₀.maxVersion + 1) = false) : Undecided t₀ t := by
  rcases h with hun | ⟨req, ruling, -, hruled⟩
  · exact hun
  · have htaken : t.hasVersion (t₀.maxVersion + 1) = true := by
      unfold Tables.hasVersion
      rw [hruled.events]
      simp
    rw [htaken] at hfree
    cases hfree

theorem DecidedOnce.tenant (h : DecidedOnce t₀ t) : t.review.tenant = t₀.review.tenant := by
  rcases h with hun | ⟨req, ruling, -, hruled⟩
  · rw [hun.1]
  · rw [hruled.review]
    exact ruling.tenant_review t₀.review

/-- A message found now proposes what it proposed. -/
theorem SameMessages.message {id : MessageId} {m : ChatMessage} (h : SameMessages t₀ t)
    (hm : t.messages id = some m) :
    ∃ m₀, t₀.messages id = some m₀ ∧ m₀.unconfirmed = m.unconfirmed := by
  have hid := h id
  rw [hm] at hid
  cases hm₀ : t₀.messages id with
  | none =>
    rw [hm₀] at hid
    cases hid
  | some m₀ =>
    rw [hm₀] at hid
    exact ⟨m₀, rfl, (Option.some.inj hid).symm⟩

theorem SameMessages.ruling_confirm {id : MessageId} {m : ChatMessage} (h : SameMessages t₀ t)
    (hm : t.messages id = some m) {helper : Helper}
    (hhelper : actionDispatch m.action m.targetKind = some helper) (caller : Caller)
    (conversation : String) (closing : Closing) :
    (Request.confirm caller conversation id closing).ruling t₀ =
      some (helper.ruling m.feedbackText caller closing) := by
  obtain ⟨m₀, hm₀, hsame⟩ := h.message hm
  have haction : m₀.unconfirmed.action = m.unconfirmed.action := by rw [hsame]
  have hkind : m₀.unconfirmed.targetKind = m.unconfirmed.targetKind := by rw [hsame]
  have hfeedback : m₀.unconfirmed.feedback = m.unconfirmed.feedback := by rw [hsame]
  simp only [ChatMessage.unconfirmed] at haction hkind hfeedback
  have htext : m₀.feedbackText = m.feedbackText := by
    unfold ChatMessage.feedbackText
    rw [hfeedback]
  simp [Request.ruling, hm₀, haction, hkind, hhelper, htext]

end

/-- What is proved of the requests on one review. -/
def outline (t₀ : Tables) : Outline Tables Unit Request where
  inv _ sh := DecidedOnce t₀ sh.db ∧ SameMessages t₀ sh.db
  rely _ _ _ := True
  commits _ req sh sh' := sh'.db = sh.db ∨ Undecided t₀ sh.db ∧ DecidedBy t₀ req sh'.db
  calls _ _ _ _ := False
  inv_open _ _ h := h
  rely_refl _ _ := trivial
  rely_trans _ _ _ _ _ _ := trivial

/-! ## A request that holds the version -/

section Carries

variable {t₀ : Tables} {i : ℕ} {ws : List Write} {sh sh' : Shared Tables Unit}
  {P : Tables → Prop}

/-- The session holds the next version, which is not in the committed log, and makes `P` of
undecided tables. -/
structure Carries (t₀ : Tables) (ws : List Write) (P : Tables → Prop)
    (sh : Shared Tables Unit) : Prop where
  holds : .version (t₀.maxVersion + 1) ∈ store.held ws
  free : sh.db.hasVersion (t₀.maxVersion + 1) = false
  pends : ∀ t, Undecided t₀ t → SameMessages t₀ t → P (store.applyAll ws t)

theorem Carries.stable (h : Carries t₀ ws P sh) (hr : RelyOn (outline t₀) store i ws sh sh') :
    Carries t₀ ws P sh' :=
  ⟨h.holds, (hr.2 _ h.holds).trans h.free, h.pends⟩

theorem Carries.undecided (h : Carries t₀ ws P sh) {n : ℕ} (hinv : (outline t₀).inv n sh) :
    Undecided t₀ sh.db :=
  hinv.1.undecided_of_free h.free

/-- One more statement of a session that holds the version. -/
theorem Carries.stmt (h : Carries t₀ ws P sh) (P' : Tables → Prop) {req : Request}
    {writes : View Tables Resource → List Write} {next : View Tables Resource → Program}
    (hwrites : ∀ v, P v.db → ∀ t, P t → P' (store.applyAll (writes v) t))
    (hnext : ∀ v ws' sh', P v.db → Carries t₀ ws' P' sh' →
      Safe (outline t₀) store StillPending i req (next v) ws' sh') :
    Safe (outline t₀) store StillPending i req (.stmt .plain writes next) ws sh := by
  intro n sh₁ locked _ hinv hr _
  have h₁ := h.stable hr
  have hview := h.pends sh₁.db (h₁.undecided hinv) hinv.2
  apply hnext _ _ _ hview
  refine ⟨?_, h₁.free, ?_⟩
  · rw [store.held_append]
    exact List.mem_append_left _ h.holds
  · intro t hun hsame
    rw [store.applyAll_append]
    exact hwrites _ hview _ (h.pends t hun hsame)

end Carries

section Shape

variable {t₀ t : Tables} {review : PendingReview} {investigation : InvestigationRow}
  {data : EventData}

/-- Rows and event log as the pending writes leave them. -/
structure Shape (t₀ : Tables) (review : PendingReview) (investigation : InvestigationRow)
    (data : EventData) (t : Tables) : Prop where
  review : t.review = review
  investigation : t.investigation = investigation
  events : t.events = t₀.events ++ [⟨t₀.maxVersion + 1, data⟩]
  messages : SameMessages t₀ t

theorem shape_insertEvent (hun : Undecided t₀ t) (hsame : SameMessages t₀ t) (data : EventData) :
    Shape t₀ t₀.review t₀.investigation data
      (store.applyAll [.insertEvent ⟨t₀.maxVersion + 1, data⟩] t) := by
  obtain ⟨hreview, hinvestigation, hevents⟩ := hun
  refine ⟨hreview, hinvestigation, ?_, hsame⟩
  show t.events ++ [_] = _
  rw [hevents]

theorem Shape.setReview (h : Shape t₀ review investigation data t) (row : PendingReview) :
    Shape t₀ row investigation data (store.applyAll [.setReview row] t) :=
  ⟨rfl, h.investigation, h.events, h.messages⟩

theorem Shape.setInvestigation (h : Shape t₀ review investigation data t)
    (row : InvestigationRow) :
    Shape t₀ review row data (store.applyAll [.setInvestigation row] t) :=
  ⟨h.review, rfl, h.events, h.messages⟩

theorem Shape.insertBeat (h : Shape t₀ review investigation data t) (decision : Decision) :
    Shape t₀ review investigation data (store.applyAll [.insertBeat decision] t) :=
  ⟨h.review, h.investigation, h.events, h.messages⟩

theorem Shape.setMessage (h : Shape t₀ review investigation data t) {id : MessageId}
    {m m₀ : ChatMessage} (hm₀ : t₀.messages id = some m₀) (hm : m.unconfirmed = m₀.unconfirmed) :
    Shape t₀ review investigation data (store.applyAll [.setMessage id m] t) := by
  refine ⟨h.review, h.investigation, h.events, ?_⟩
  intro id'
  show (Function.update t.messages id (some m) id').map _ = _
  by_cases hid : id' = id
  · subst hid
    rw [Function.update_self, hm₀]
    exact congrArg some hm
  · rw [Function.update_of_ne hid]
    exact h.messages id'

end Shape

section Safety

variable {t₀ : Tables} {i : ℕ} {req : Request} {ruling : Ruling} {sh : Shared Tables Unit}

/-- The rows a ruling leaves. -/
abbrev Final (t₀ : Tables) (ruling : Ruling) : Tables → Prop :=
  Shape t₀ (ruling.review t₀.review) (ruling.investigation t₀.review.tenant t₀.investigation)
    ruling.event

/-- The program ends a request whose ruling is pending. -/
def Ends (t₀ : Tables) (i : ℕ) (req : Request) (ruling : Ruling) (next : Program) : Prop :=
  ∀ ws sh, Carries t₀ ws (Final t₀ ruling) sh →
    Safe (outline t₀) store StillPending i req next ws sh

theorem ends_commit (hruling : req.ruling t₀ = some ruling) :
    Ends t₀ i req ruling (.commit .plain) := by
  intro ws sh h n sh' locked _ hinv hr _
  have hun := (h.stable hr).undecided hinv
  have hfinal := h.pends sh'.db hun hinv.2
  have hdecided : DecidedBy t₀ req (store.applyAll ws sh'.db) :=
    ⟨ruling, hruling, hfinal.review, hfinal.investigation, hfinal.events⟩
  exact ⟨⟨⟨Or.inr ⟨req, hdecided⟩, hfinal.messages⟩, fun _ _ => trivial⟩, Or.inr ⟨hun, hdecided⟩⟩

theorem ends_markConfirmed (hruling : req.ruling t₀ = some ruling) {id : MessageId}
    {m m₀ : ChatMessage} (hm₀ : t₀.messages id = some m₀) (hm : m₀.unconfirmed = m.unconfirmed) :
    Ends t₀ i req ruling (markConfirmed id m) := by
  intro ws sh h
  apply h.stmt (Final t₀ ruling)
  · intro _ _ t hfinal
    exact hfinal.setMessage hm₀ hm.symm
  · intro _ ws' sh' _ h'
    exact ends_commit hruling ws' sh' h'

/-- The version is read off a pending review and taken only if it is still free. -/
theorem safe_appendEventV1 {data : EventData} {next : Program}
    (hnext : ∀ ws sh, Carries t₀ ws (Shape t₀ t₀.review t₀.investigation data) sh →
      Safe (outline t₀) store StillPending i req next ws sh) :
    Safe (outline t₀) store StillPending i req (appendEventV1 data next) [] sh := by
  intro n sh₁ locked₁ _ hinv₁ _ hpending
  have hun := hinv₁.1.undecided_of_pending hpending
  have hmax : sh₁.db.maxVersion = t₀.maxVersion := by
    unfold Tables.maxVersion
    rw [hun.2.2]
  intro n sh₂ locked₂ _ _ _ _
  show Safe _ _ _ _ _ (if sh₂.db.hasVersion (sh₁.db.maxVersion + 1) then .rollback else next)
    (if sh₂.db.hasVersion (sh₁.db.maxVersion + 1) then []
      else [.insertEvent ⟨sh₁.db.maxVersion + 1, data⟩]) sh₂
  rw [hmax]
  by_cases htaken : sh₂.db.hasVersion (t₀.maxVersion + 1) = true
  · rw [if_pos htaken]
    trivial
  · rw [if_neg htaken, if_neg htaken]
    apply hnext
    refine ⟨?_, by simpa using htaken, ?_⟩
    · simp [store, Write.locks, Store.held]
    · intro t hun hsame
      exact shape_insertEvent hun hsame data

theorem safe_recordHumanDecisionReceived {decision : Decision} {feedback : Option String}
    {reviewer : String} {closing : Closing} {next : Program}
    (hnext : Ends t₀ i req (.decided decision feedback reviewer closing) next) :
    Safe (outline t₀) store StillPending i req
      (recordHumanDecisionReceived t₀.review.tenant decision feedback reviewer closing next)
      [] sh := by
  unfold recordHumanDecisionReceived
  cases htenant : t₀.review.tenant with
  | none => trivial
  | some tenant =>
    apply safe_appendEventV1
    intro ws₁ sh₁ h₁
    apply h₁.stmt (Shape t₀ t₀.review t₀.investigation
      (.humanDecisionReceived decision feedback reviewer))
    · intro v _ t hshape
      split
      · exact hshape
      · exact hshape.insertBeat decision
    intro v₁ ws₂ sh₂ _ h₂
    apply h₂.stmt (Shape t₀ ((Ruling.decided decision feedback reviewer closing).review
      t₀.review) t₀.investigation (.humanDecisionReceived decision feedback reviewer))
    · intro v hv t hshape
      rw [hv.review]
      exact hshape.setReview _
    intro v₂ ws₃ sh₃ _ h₃
    by_cases hreject : decision = .reject
    · subst hreject
      rw [if_pos rfl]
      apply h₃.stmt (Final t₀ (.decided .reject feedback reviewer closing))
      · intro v hv t hshape
        rw [hv.investigation]
        show Shape t₀ _ (if some t₀.investigation.tenant = t₀.review.tenant then
          t₀.investigation.closedAsFp feedback closing else t₀.investigation) _ _
        rw [htenant]
        by_cases hsame : t₀.investigation.tenant = tenant
        · rw [if_pos hsame, if_pos (congrArg some hsame)]
          exact hshape.setInvestigation _
        · rw [if_neg hsame, if_neg (mt Option.some.inj hsame)]
          exact hshape
      · intro _ ws₄ sh₄ _ h₄
        exact hnext ws₄ sh₄ h₄
    · rw [if_neg hreject]
      have hkept : (Ruling.decided decision feedback reviewer closing).investigation
          t₀.review.tenant t₀.investigation = t₀.investigation := by
        cases decision with
        | approve => rfl
        | reject => exact absurd rfl hreject
        | moreInfo => rfl
      apply hnext ws₃ sh₃
      unfold Final
      rw [hkept]
      exact h₃

theorem safe_recordHumanReviewExpired {reason : Option String} {reviewer : String}
    {next : Program} (hnext : Ends t₀ i req (.expired reason reviewer) next) :
    Safe (outline t₀) store StillPending i req
      (recordHumanReviewExpired t₀.review.tenant reason reviewer next) [] sh := by
  unfold recordHumanReviewExpired
  cases htenant : t₀.review.tenant with
  | none => trivial
  | some tenant =>
    apply safe_appendEventV1
    intro ws₁ sh₁ h₁
    apply h₁.stmt (Final t₀ (.expired reason reviewer))
    · intro v hv t hshape
      rw [hv.review, if_pos htenant]
      exact hshape.setReview _
    · intro _ ws₂ sh₂ _ h₂
      exact hnext ws₂ sh₂ h₂

/-- A read keeps nothing, whatever comes next is safe from then on. -/
theorem safe_read {next : View Tables Resource → Program}
    (hnext : ∀ v sh', DecidedOnce t₀ v.db → SameMessages t₀ v.db →
      Safe (outline t₀) store StillPending i req (next v) [] sh') :
    Safe (outline t₀) store StillPending i req (.stmt .plain (fun _ => []) next) [] sh := by
  intro n sh' locked _ hinv _ _
  exact hnext _ sh' hinv.1 hinv.2

theorem safe_resolvePendingReview {caller : Caller} {next : Option String → Program}
    (hnext : ∀ sh', Safe (outline t₀) store StillPending i req (next t₀.review.tenant) [] sh') :
    Safe (outline t₀) store StillPending i req (resolvePendingReview caller next) [] sh := by
  apply safe_read
  intro v sh' honce _
  rw [honce.tenant]
  split
  · trivial
  · split
    · trivial
    · exact hnext sh'

theorem safe_dispatchConfirm (caller : Caller) (conversation : String) (id : MessageId)
    (closing : Closing) :
    Safe (outline t₀) store StillPending i (.confirm caller conversation id closing)
      (dispatchConfirm caller conversation id closing) [] sh := by
  apply safe_read
  intro v sh₁ _ hsame
  cases hm : v.db.messages id with
  | none => trivial
  | some m =>
    obtain ⟨m₀, hm₀, hunconfirmed⟩ := hsame.message hm
    dsimp only
    split
    · trivial
    split
    · -- Confirmed before: nothing is written.
      intro n sh₂ locked _ hinv _ _
      exact ⟨⟨hinv, fun _ _ => trivial⟩, Or.inl rfl⟩
    cases hhelper : actionDispatch m.action m.targetKind with
    | none => trivial
    | some helper =>
      have hruling := hsame.ruling_confirm hm hhelper caller conversation closing
      apply safe_read
      intro v₂ sh₂ honce _
      rw [honce.tenant]
      split
      · trivial
      cases helper with
      | decision decision =>
        apply safe_recordHumanDecisionReceived
        exact ends_markConfirmed hruling hm₀ hunconfirmed
      | expired =>
        apply safe_recordHumanReviewExpired
        exact ends_markConfirmed hruling hm₀ hunconfirmed

theorem safe_serve (n : ℕ) (req : Request) (sh : Shared Tables Unit) :
    Safe (outline t₀) store StillPending n req (serve n req) [] sh := by
  cases req with
  | approve caller feedback =>
    unfold serve reviewApprove
    apply safe_resolvePendingReview
    intro sh'
    exact safe_recordHumanDecisionReceived (ends_commit rfl)
  | reject caller feedback closing =>
    unfold serve reviewReject
    apply safe_resolvePendingReview
    intro sh'
    exact safe_recordHumanDecisionReceived (ends_commit rfl)
  | requestInfo caller questions =>
    unfold serve reviewRequestInfo
    apply safe_resolvePendingReview
    intro sh'
    exact safe_recordHumanDecisionReceived (ends_commit rfl)
  | expire caller reason =>
    unfold serve reviewExpire
    apply safe_resolvePendingReview
    intro sh'
    exact safe_recordHumanReviewExpired (ends_commit rfl)
  | confirm caller conversation message closing =>
    exact safe_dispatchConfirm caller conversation message closing

end Safety

/-! ## Runs -/

theorem outline_start (t₀ : Tables) : (outline t₀).inv 0 ⟨t₀, []⟩ :=
  ⟨Or.inl ⟨rfl, rfl, rfl⟩, fun _ => rfl⟩

/-- Where every request reads its version off a pending review, at most one takes effect, and
what is committed is what that request ruled. -/
theorem decided_once {t₀ : Tables} {sys : Sys Tables Write Unit Stmt Resource Request}
    (hrun : Run store serve StillPending (start ⟨t₀, []⟩) sys) :
    DecidedOnce t₀ sys.shared.db ∧
      ∀ e sys', Admits store StillPending sys e → step store serve sys e = some sys' →
        sys'.shared.db = sys.shared.db ∨
          ∃ i s, e = .advance i ∧ sys.session i = some s ∧ Undecided t₀ sys.shared.db ∧
            DecidedBy t₀ s.req sys'.shared.db := by
  have hserve : ∀ n req sh, (outline t₀).inv n sh →
      Safe (outline t₀) store StillPending n req (serve n req) [] sh :=
    fun n req sh _ => safe_serve n req sh
  have hconsistent := (consistent_start (outline_start t₀)).run hserve hrun
  refine ⟨hconsistent.inv.1, ?_⟩
  intro e sys' hadm hstep
  rcases hconsistent.commit_step hadm hstep with hsame | ⟨i, s, lab, he, hs, -, hcommit⟩
  · exact Or.inl hsame
  · rcases hcommit with hsame | ⟨hun, hdecided⟩
    · exact Or.inl hsame
    · exact Or.inr ⟨i, s, he, hs, hun, hdecided⟩

instance : (lab : Stmt) → (v : View Tables Resource) → Decidable (StillPending lab v)
  | .readVersion, v => inferInstanceAs (Decidable (v.db.review.status = .pending))
  | .plain, _ => inferInstanceAs (Decidable True)

/-- An escalated investigation under review, with a chat message that proposes a reject. -/
def underReview : Tables where
  review := { tenant := some "t" }
  investigation := { tenant := "t" }
  messages id := if id = "m" then some ⟨"c", true, "reject_review", "pending_review", none, false⟩
    else none

def closingNow : Closing := ⟨1, ⟨[], ["host"], ["5710"]⟩, 2⟩

/-- Two endpoints read the pending review and the same version; the second insert fails. -/
def approveBesideReject : List (Event Request) :=
  [.begin (.approve ⟨"ann", true⟩ none), .begin (.reject ⟨"bob", true⟩ none closingNow),
    .advance 0, .advance 1, .advance 0, .advance 1, .advance 0, .advance 0, .advance 0,
    .advance 0, .advance 1, .advance 1]

theorem decided_once_approveBesideReject : ∃ sys,
    runEvents store serve StillPending (start ⟨underReview, []⟩) approveBesideReject = some sys ∧
    sys.shared.db.review.reviewer = some "ann" ∧ sys.shared.db.investigation.status = .active ∧
    DecidedOnce underReview sys.shared.db := by
  have hlast : (runEvents store serve StillPending (start ⟨underReview, []⟩)
      approveBesideReject).map (fun sys =>
        (sys.shared.db.review.reviewer, sys.shared.db.investigation.status)) =
      some (some "ann", .active) := by decide +kernel
  obtain ⟨sys, hsys, heq⟩ := Option.map_eq_some_iff.mp hlast
  obtain ⟨hreviewer, hstatus⟩ := Prod.mk.inj heq
  exact ⟨sys, hsys, hreviewer, hstatus, (decided_once (Run.of_runEvents hsys)).1⟩

/-- The confirmation of the chat message, which looks at no status, after an approval. -/
def approveThenConfirm : List (Event Request) :=
  [.begin (.approve ⟨"ann", true⟩ none), .advance 0, .advance 0, .advance 0, .advance 0,
    .advance 0, .advance 0, .begin (.confirm ⟨"bob", true⟩ "c" "m" closingNow), .advance 1,
    .advance 1, .advance 1, .advance 1, .advance 1, .advance 1, .advance 1, .advance 1, .advance 1]

theorem decided_twice_approveThenConfirm :
    ¬∀ (t₀ : Tables) (es : List (Event Request))
      (sys : Sys Tables Write Unit Stmt Resource Request), t₀.review.status = .pending →
      runEvents store serve (fun _ _ => True) (start ⟨t₀, []⟩) es = some sys →
      DecidedOnce t₀ sys.shared.db := by
  intro h
  have hlast : (runEvents store serve (fun _ _ => True) (start ⟨underReview, []⟩)
      approveThenConfirm).map (fun sys => sys.shared.db.events.length) = some 2 := by
    decide +kernel
  obtain ⟨sys, hsys, hlength⟩ := Option.map_eq_some_iff.mp hlast
  rcases h underReview approveThenConfirm sys rfl hsys with hun | ⟨req, ruling, -, hruled⟩
  · rw [hun.2.2] at hlength
    cases hlength
  · rw [hruled.events] at hlength
    cases hlength

end SocTalk.Reviews
