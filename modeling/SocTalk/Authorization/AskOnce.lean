import SocTalk.Authorization.Question

/-! The fact store, the endpoint that answers an authorization question, and what an answer does to
the questions asked after it. -/
namespace SocTalk.Authorization
open Py

/-! ## The store -/

inductive FactReviewStatus where
  | pending
  | approved
  | rejected
  deriving DecidableEq

/-- A row of `authorization_facts`; `(tenant, fact.base.id)` is its key. -/
structure FactRow where
  tenant : String
  fact : AuthorizationFact
  reviewStatus : FactReviewStatus := .approved
  revoked : Bool := false

abbrev FactStore := List FactRow

def FactRow.keyed (row : FactRow) (tenant factId : String) : Bool :=
  row.tenant == tenant && row.fact.base.id == factId

/-- Inserts, or replaces the row of the same key; a submission un-revokes. -/
def storeFact (tenant : String) (fact : AuthorizationFact) (reviewStatus : FactReviewStatus)
    (store : FactStore) : FactStore :=
  let row : FactRow := { tenant, fact, reviewStatus }
  if store.any (·.keyed tenant fact.base.id) then
    store.map fun r => if r.keyed tenant fact.base.id then row else r
  else store ++ [row]

def revokeFact (tenant factId : String) (store : FactStore) : FactStore :=
  store.map fun r => if r.keyed tenant factId && !r.revoked then { r with revoked := true } else r

/-- Only a pending fact can be reviewed. -/
def setReviewStatus (tenant factId : String) (status : FactReviewStatus) (store : FactStore) :
    FactStore :=
  store.map fun r =>
    if r.keyed tenant factId && r.reviewStatus == .pending && !r.revoked then
      { r with reviewStatus := status }
    else r

/-- The facts the engine may use. -/
def listCurrentFacts (tenant : String) (store : FactStore) : List AuthorizationFact :=
  (store.filter fun r => r.tenant == tenant && !r.revoked && r.fact.base.supersededBy.isNone &&
    r.reviewStatus == .approved).map (·.fact)

/-- A change of the store. -/
inductive StoreOp where
  | store (tenant : String) (fact : AuthorizationFact) (reviewStatus : FactReviewStatus)
  | revoke (tenant factId : String)
  | review (tenant factId : String) (status : FactReviewStatus)

def StoreOp.apply : StoreOp → FactStore → FactStore
  | .store tenant fact reviewStatus, s => storeFact tenant fact reviewStatus s
  | .revoke tenant factId, s => revokeFact tenant factId s
  | .review tenant factId status, s => setReviewStatus tenant factId status s

/-- The operation neither revokes nor replaces the fact. -/
def StoreOp.Spares (tenant factId : String) : StoreOp → Prop
  | .store tenant' fact _ => ¬(tenant' = tenant ∧ fact.base.id = factId)
  | .revoke tenant' factId' => ¬(tenant' = tenant ∧ factId' = factId)
  | .review _ _ _ => True

/-! ## The answer -/

/-- The review that carries the question; `question` is its activity as the schema library reads
it, with `some none` where it cannot. -/
structure PendingReview where
  status : String
  tenantId : Option String
  investigationId : String
  question : Option (Option AuthorizationActivity)

/-- The endpoint's refusals, by status code. -/
structure Refused where
  code : ℕ
  deriving DecidableEq

structure AnswerRequest where
  investigationId : String
  validUntil : DateTime

/-- The affirmative answer: checks the review and stores the grant of the asked activity. -/
def answerAuthorization (tenant : String) (payload : AnswerRequest) (review : PendingReview)
    (factId : String) (store : FactStore) : Except Refused FactStore :=
  if review.status != "pending" then .error ⟨409⟩
  else if review.tenantId.any fun t => t != "" && t != tenant then .error ⟨403⟩
  else if review.investigationId != payload.investigationId then .error ⟨400⟩
  else match review.question with
    | none => .error ⟨400⟩
    | some none => .error ⟨400⟩
    | some (some activity) =>
      if payload.validUntil.le activity.time then .error ⟨400⟩
      else .ok (storeFact tenant (.grant (minted activity payload.validUntil factId (some tenant)))
        .approved store)

section

variable {tenant factId : String} {activity : AuthorizationActivity} {validUntil : DateTime}

/-- The answer's grant is on file, live and approved. -/
def Granted (tenant factId : String) (activity : AuthorizationActivity) (validUntil : DateTime)
    (store : FactStore) : Prop :=
  ∃ r ∈ store, r.tenant = tenant ∧
    r.fact = .grant (minted activity validUntil factId (some tenant)) ∧
    r.reviewStatus = .approved ∧ r.revoked = false

theorem granted_storeFact (store : FactStore) : Granted tenant factId activity validUntil
    (storeFact tenant (.grant (minted activity validUntil factId (some tenant))) .approved store) := by
  unfold storeFact
  dsimp only
  split
  · rename_i hany
    obtain ⟨r, hr, hkey⟩ := List.any_eq_true.mp hany
    refine ⟨_, List.mem_map.mpr ⟨r, hr, if_pos hkey⟩, rfl, rfl, rfl, rfl⟩
  · exact ⟨_, List.mem_append_right _ (List.mem_singleton.mpr rfl), rfl, rfl, rfl, rfl⟩

/-- A row that a change leaves alone is still there. -/
theorem granted_map {f : FactRow → FactRow} {store : FactStore}
    (h : Granted tenant factId activity validUntil store)
    (hf : ∀ r : FactRow, r.tenant = tenant → r.fact.base.id = factId → r.reviewStatus = .approved →
      f r = r) : Granted tenant factId activity validUntil (store.map f) := by
  obtain ⟨r, hr, htenant, hfact, hstatus, hlive⟩ := h
  have hid : r.fact.base.id = factId := by
    rw [hfact]
    rfl
  refine ⟨r, List.mem_map.mpr ⟨r, hr, hf r htenant hid hstatus⟩, htenant, hfact, hstatus, hlive⟩

theorem Granted.apply {store : FactStore} (h : Granted tenant factId activity validUntil store)
    {op : StoreOp} (hspare : op.Spares tenant factId) :
    Granted tenant factId activity validUntil (op.apply store) := by
  cases op with
  | store tenant' fact reviewStatus =>
    unfold StoreOp.apply storeFact
    dsimp only
    split
    · refine granted_map h fun r htenant hid _ => if_neg fun hkey => hspare ?_
      unfold FactRow.keyed at hkey
      rw [Bool.and_eq_true, beq_iff_eq, beq_iff_eq, htenant, hid] at hkey
      exact ⟨hkey.1.symm, hkey.2.symm⟩
    · obtain ⟨r, hr, hrest⟩ := h
      exact ⟨r, List.mem_append_left _ hr, hrest⟩
  | revoke tenant' factId' =>
    refine granted_map h fun r htenant hid _ => if_neg fun hkey => hspare ?_
    unfold FactRow.keyed at hkey
    simp only [Bool.and_eq_true, beq_iff_eq, htenant, hid] at hkey
    exact ⟨hkey.1.1.symm, hkey.1.2.symm⟩
  | review tenant' factId' status =>
    refine granted_map h fun r _ _ hstatus => if_neg fun hkey => ?_
    simp [hstatus] at hkey

theorem Granted.run {store : FactStore} (h : Granted tenant factId activity validUntil store)
    {ops : List StoreOp} (hspare : ∀ op ∈ ops, op.Spares tenant factId) :
    Granted tenant factId activity validUntil (ops.foldl (fun s op => op.apply s) store) := by
  induction ops generalizing store with
  | nil => exact h
  | cons op ops ih =>
    exact ih (h.apply (hspare op (by simp))) fun op' hop' => hspare op' (by simp [hop'])

theorem Granted.listed {store : FactStore} (h : Granted tenant factId activity validUntil store) :
    .grant (minted activity validUntil factId (some tenant)) ∈ listCurrentFacts tenant store := by
  obtain ⟨r, hr, htenant, hfact, hstatus, hlive⟩ := h
  refine List.mem_map.mpr ⟨r, List.mem_filter.mpr ⟨hr, ?_⟩, hfact⟩
  rw [htenant, hfact, hstatus, hlive]
  simp [AuthorizationFact.base, minted, grantFromActivity]

/-- An answer that is accepted stores the grant of the activity that was asked about. -/
theorem granted_of_answer {payload : AnswerRequest} {review : PendingReview}
    {store store' : FactStore} (hq : review.question = some (some activity))
    (h : answerAuthorization tenant payload review factId store = .ok store') :
    Granted tenant factId activity payload.validUntil store' := by
  unfold answerAuthorization at h
  simp only [hq] at h
  split at h
  · cases h
  split at h
  · cases h
  split at h
  · cases h
  split at h
  · cases h
  · cases h
    exact granted_storeFact store

end

/-! ## What is asked -/

section

variable {validate : Value → Option AuthorizationContext} {investigation : Value}
  {disposition : String} {q : AuthorizationQuestion} {ctx : AuthorizationContext}
  {comps : Option AuthorizationComponents}

theorem asked_spec (h : authorizationQuestionFor validate investigation disposition = .ok (some q)) :
    ∃ ctx comps, parseAuthorizationContext validate investigation = .ok (some ctx) ∧
      hasMaliciousSignal investigation = .ok false ∧
      deriveAuthzClass (some ctx) = .ok (.absent, comps) ∧
      (comps.map (·.actorGenuine)).getD true = true := by
  unfold authorizationQuestionFor at h
  split at h
  · cases h
  obtain ⟨parsed, hparsed, h⟩ := (bind_eq_ok _ _ _).mp h
  cases parsed with
  | none => cases h
  | some ctx =>
    obtain ⟨malicious, hmalicious, h⟩ := (bind_eq_ok _ _ _).mp h
    dsimp only at h
    split at h
    · cases h
    rename_i hclean
    obtain ⟨⟨authzClass, comps⟩, hclass, h⟩ := (bind_eq_ok _ _ _).mp h
    dsimp only at h
    split at h
    · cases h
    rename_i habsent
    split at h
    · cases h
    rename_i hgenuine
    have habsent : authzClass = .absent := by simpa using habsent
    have hclean : malicious = false := by simpa using hclean
    refine ⟨ctx, comps, hparsed, by rw [hmalicious, hclean], by rw [hclass, habsent], ?_⟩
    simpa using hgenuine

/-- What an absent class was read off: no fact at all, or components and no grant. -/
theorem absent_spec (h : deriveAuthzClass (some ctx) = .ok (.absent, comps)) :
    (select ctx.facts ctx.activity.track ctx.tenant = [] ∧ comps = none) ∨
    ∃ c, comps = some c ∧ evaluateAuthorization ctx.activity ctx.facts ctx.tenant = .ok c ∧
      (select ctx.facts ctx.activity.track ctx.tenant).any AuthorizationFact.isGrant = false := by
  unfold deriveAuthzClass at h
  dsimp only at h
  split at h
  · rename_i hempty
    cases h
    exact Or.inl ⟨List.isEmpty_iff.mp hempty, rfl⟩
  obtain ⟨c, hc, h⟩ := (bind_eq_ok _ _ _).mp h
  split at h
  · cases h
  split at h
  · cases h
  split at h
  · cases h
  · rename_i hgrants
    cases h
    exact Or.inr ⟨c, rfl, hc, by simpa [selectFacts] using hgrants⟩

/-- Any grant on file makes the class something else than absent. -/
theorem not_grant_of_absent (h : deriveAuthzClass (some ctx) = .ok (.absent, comps)) {g : GrantFact} :
    g ∉ grants (select ctx.facts ctx.activity.track ctx.tenant) := by
  intro hg
  have hmem := mem_grants.mp hg
  rcases absent_spec h with ⟨hnil, -⟩ | ⟨c, -, -, hnone⟩
  · rw [hnil] at hmem
    cases hmem
  · have := List.any_eq_false.mp hnone _ hmem
    simp [AuthorizationFact.isGrant] at this

/-- Without facts there is nothing against the actor. -/
theorem genuine_of_no_facts {a : AuthorizationActivity} {facts : List AuthorizationFact}
    {tenant : Option String} {c : AuthorizationComponents} (hnil : select facts a.track tenant = [])
    (h : evaluateAuthorization a facts tenant = .ok c) : c.actorGenuine = true := by
  unfold evaluateAuthorization at h
  cases htrack : a.track with
  | account =>
    rw [htrack] at h hnil
    rw [hnil] at h
    rw [(acctComponents_spec h).2.2.1]
    rfl
  | fim =>
    rw [htrack] at h hnil
    rw [hnil] at h
    obtain ⟨-, -, -, -, hgenuine, -⟩ := fimComponents_spec h
    rw [hgenuine]
    rfl

end

/-- An affirmative answer on file ends the questions about its activity: whatever happens to the
other facts, a context that is read from the store afterwards raises none. And a question is raised
only on an absent class, without malicious signal and for an actor that is genuine. -/
theorem authorization_ask_once (validate : Value → Option AuthorizationContext) :
    (∀ tenant payload review factId asked store store',
      review.question = some (some asked) →
      answerAuthorization tenant payload review factId store = .ok store' →
      ∀ ops : List StoreOp, (∀ op ∈ ops, op.Spares tenant factId) →
      ∀ investigation ctx disposition q,
        parseAuthorizationContext validate investigation = .ok (some ctx) →
        (∀ f ∈ listCurrentFacts tenant (ops.foldl (fun s op => op.apply s) store'), f ∈ ctx.facts) →
        (ctx.tenant = none ∨ ctx.tenant = some tenant) → ctx.activity.track = asked.track →
        authorizationQuestionFor validate investigation disposition ≠ .ok (some q)) ∧
    (∀ investigation disposition q,
      authorizationQuestionFor validate investigation disposition = .ok (some q) →
      ¬Malicious investigation ∧ ∃ ctx comps,
        parseAuthorizationContext validate investigation = .ok (some ctx) ∧
        deriveAuthzClass (some ctx) = .ok (.absent, comps) ∧
        ∀ c, evaluateAuthorization ctx.activity ctx.facts ctx.tenant = .ok c →
          c.actorGenuine = true) := by
  constructor
  · intro tenant payload review factId asked store store' hq hanswer ops hspare investigation ctx
      disposition q hparse hfacts htenant htrack hasked
    have hgrant := hfacts _ ((granted_of_answer hq hanswer).run hspare).listed
    obtain ⟨ctx', comps, hparse', -, habsent, -⟩ := asked_spec hasked
    obtain rfl : ctx = ctx' := by simpa using hparse.symm.trans hparse'
    refine not_grant_of_absent habsent (mem_grants_select.mpr ⟨hgrant, htrack.symm, ?_, rfl⟩)
    exact htenant.imp id Eq.symm
  · intro investigation disposition q hasked
    obtain ⟨ctx, comps, hparse, hclean, habsent, hgenuine⟩ := asked_spec hasked
    refine ⟨fun hm => by simpa using (hasMaliciousSignal_eq hclean).mpr hm, ctx, comps, hparse,
      habsent, fun c hc => ?_⟩
    rcases absent_spec habsent with ⟨hnil, -⟩ | ⟨c', rfl, hc', -⟩
    · exact genuine_of_no_facts hnil hc
    · obtain rfl : c' = c := by simpa using hc'.symm.trans hc
      exact hgenuine

/-- A case that carries an authorization context, and the review of the question about it. -/
def backupCase : Value := .dict [("authorization_context", .dict [])]

def backupReview : PendingReview := ⟨"pending", some "t1", "i1", some (some backup)⟩

/-- The backup is asked about, the answer is stored, and it is not asked about again. -/
theorem authorization_ask_once_backup : ∃ store q,
    authorizationQuestionFor (fun _ => some ⟨some "t1", backup, []⟩) backupCase "needs_more_info" =
      .ok (some q) ∧ ¬Malicious backupCase ∧
    answerAuthorization "t1" ⟨"i1", ⟨1, 0⟩⟩ backupReview "analyst:1" [] = .ok store ∧
    ∀ q', authorizationQuestionFor
        (fun _ => some ⟨some "t1", backup, listCurrentFacts "t1" store⟩) backupCase
        "needs_more_info" ≠ .ok (some q') := by
  have hasked : ∃ q, authorizationQuestionFor (fun _ => some ⟨some "t1", backup, []⟩) backupCase
      "needs_more_info" = .ok (some q) := ⟨_, rfl⟩
  obtain ⟨q, hq⟩ := hasked
  refine ⟨_, q, hq, ((authorization_ask_once _).2 _ _ _ hq).1, rfl, fun q' => ?_⟩
  exact (authorization_ask_once _).1 "t1" ⟨"i1", ⟨1, 0⟩⟩ backupReview "analyst:1" backup [] _ rfl rfl
    [] (fun _ hop => absurd hop List.not_mem_nil) _ _ _ q' rfl (fun _ hf => hf) (Or.inr rfl) rfl

end SocTalk.Authorization
