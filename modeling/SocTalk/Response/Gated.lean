import SocTalk.Lib.Embed
import SocTalk.Lib.Sessions
import SocTalk.Response.Executor

/-! A gated action is performed under an approval that no recorded execution has used. -/
namespace SocTalk.Response.Gated
open ReadCommitted
open Proposals (ProposalId ProposalStatus OutboxId Time)
open Outbox (Mark)

/-! ## What the statements write -/

/-- Only an approved proposal is claimed, only `approve` approves, and a proposal is inserted as
proposed, under a key that is free. -/
def Lawful (t : Tables) : Write → Prop
  | .claim id => ∃ row, t.proposal id = some row ∧ row.status = .approved
  | .setStatus _ status => status ≠ .approved
  | .insert _ row => row.status = .proposed ∧ t.taken row.key = false
  | _ => True

/-- The shape of every statement. -/
def lawfulShape : Unit → View Tables Resource → List Write → Prop :=
  fun _ v ws => store.Each Lawful v.db ws

abbrev LawfulProg (prog : Program) : Prop := Shaped lawfulShape prog

theorem each_outbox {ws : List Write} (h : ∀ w ∈ ws, ∃ o, w = .outbox o) (t : Tables) :
    store.Each Lawful t ws := by
  refine Store.Each.of_forall (fun w hw t => ?_) t
  obtain ⟨o, rfl⟩ := h w hw
  trivial

theorem updateOutbox_outbox (id : OutboxId)
    (f : Outbox.OutboxRow Payload → Outbox.OutboxRow Payload) (v : View Tables Resource) :
    ∀ w ∈ updateOutbox id f v, ∃ o, w = .outbox o := by
  intro w hw
  obtain ⟨o, -, rfl⟩ := List.mem_map.mp hw
  exact ⟨o, rfl⟩

theorem lawful_run {writes : View Tables Resource → List Write} {next : Program}
    (hw : ∀ v, store.Each Lawful v.db (writes v)) (hn : LawfulProg next) :
    LawfulProg (run writes next) := fun v => ⟨hw v, hn⟩

theorem lawful_setStatus {p : ProposalId} {status : ProposalStatus} {next : Program}
    (hs : status ≠ .approved) (hn : LawfulProg next) :
    LawfulProg (run (fun _ => [.setStatus p status]) next) := lawful_run (fun _ => ⟨hs, trivial⟩) hn

theorem lawful_markAndCommit (id : OutboxId) (now : Time) (mark : Mark) :
    LawfulProg (markAndCommit id now mark) :=
  lawful_run (fun v => each_outbox (updateOutbox_outbox id _ v) v.db) trivial

theorem lawful_createProposal (session : ℕ) {row : ProposalRow} {next : Program}
    (hrow : row.status = .proposed) (hn : LawfulProg next) :
    LawfulProg (createProposal session row next) := by
  refine fun v => ⟨?_, ?_⟩
  · dsimp only [lawfulShape]
    split
    · trivial
    · rename_i hfree
      rw [not_or] at hfree
      exact ⟨⟨hrow, by simpa using hfree.2⟩, trivial⟩
  · dsimp only
    split
    · trivial
    · exact hn

theorem lawful_handleResponseAction (session : ℕ) (id : OutboxId) (now : Time)
    (tenant investigation : String) (action : Action) (env : Env) :
    LawfulProg (handleResponseAction session id now tenant investigation action env) := by
  unfold handleResponseAction
  split
  · exact lawful_markAndCommit id now .failed
  · split
    · exact lawful_markAndCommit id now .failed
    · split
      · exact lawful_createProposal session rfl (lawful_markAndCommit id now .succeeded)
      · exact lawful_markAndCommit id now _

theorem lawful_handleResponseProposal (id : OutboxId) (now : Time) (tenant : String)
    (p : ProposalId) (actionType : String) (env : Env) :
    LawfulProg (handleResponseProposal id now tenant p actionType env) := by
  refine fun v => ⟨?_, ?_⟩
  · dsimp only [lawfulShape]
    split
    · rename_i hsome
      refine ⟨?_, trivial⟩
      unfold claimable at hsome
      split at hsome
      · rename_i row hrow
        split at hsome
        · rename_i hc
          exact ⟨row, hrow, hc.2.2⟩
        · cases hsome
      · cases hsome
    · trivial
  · dsimp only
    split
    · exact lawful_markAndCommit id now .succeeded
    · split
      · exact lawful_setStatus (by decide) (lawful_markAndCommit id now .failed)
      · change LawfulProg (if env.returns then _ else _)
        split
        · exact lawful_setStatus (by decide) (lawful_markAndCommit id now .succeeded)
        · exact lawful_setStatus (by decide) (lawful_markAndCommit id now .failed)

theorem lawful_handleToolProposal (id : OutboxId) (now : Time) (p : ProposalId)
    (actionType : String) (env : Env) :
    LawfulProg (handleToolProposal id now p actionType env) := by
  have hfailed : LawfulProg (run (fun _ => [.setStatus p .failed]) (markAndCommit id now .failed)) :=
    lawful_setStatus (by decide) (lawful_markAndCommit id now .failed)
  refine fun v => ⟨trivial, ?_⟩
  dsimp only
  split
  · exact lawful_markAndCommit id now .failed
  · refine lawful_setStatus (by decide) ?_
    split
    · change LawfulProg (if env.returns then _ else _)
      split
      · exact lawful_setStatus (by decide) (lawful_markAndCommit id now .succeeded)
      · exact hfailed
    · exact hfailed

theorem lawful_handle (session : ℕ) (id : OutboxId) (now : Time) (env : Env) (payload : Payload) :
    LawfulProg (handle session id now env payload) := by
  cases payload with
  | responseAction tenant investigation action =>
    exact lawful_handleResponseAction session id now tenant investigation action env
  | executeProposal tenant p actionType =>
    change LawfulProg (if (capabilityOf actionType).isSome then _ else _)
    split
    · exact lawful_handleResponseProposal id now tenant p actionType env
    · exact lawful_handleToolProposal id now p actionType env

theorem lawful_executeOne (session : ℕ) (now : Time) (env : Env) :
    LawfulProg (executeOne session now env) := by
  refine fun v => ⟨each_outbox (fun w hw => ?_) v.db, ?_⟩
  · obtain ⟨id, -, rfl⟩ := List.mem_map.mp hw
    exact ⟨_, rfl⟩
  · dsimp only
    split
    · trivial
    · rename_i id _
      refine lawful_run (fun v => each_outbox (updateOutbox_outbox id _ v) v.db) fun v' => ⟨trivial, ?_⟩
      dsimp only
      split
      · trivial
      · exact lawful_handle session id now env _

theorem lawful_enqueue (session : ℕ) (now : Time) (idempotencyKey : String) (payload : Payload) :
    LawfulProg (enqueue session now idempotencyKey payload) := by
  refine fun v => ⟨each_outbox (fun w hw => ?_) v.db, ?_⟩
  · dsimp only at hw
    split at hw
    · cases hw
    · exact ⟨_, List.mem_singleton.mp hw⟩
  · dsimp only
    split <;> trivial

theorem lawful_serve (session : ℕ) (req : Request) : LawfulProg (serve session req) := by
  cases req with
  | dispatch now tenant investigation action => exact lawful_enqueue session now _ _
  | propose tenant investigation actionType params =>
    exact lawful_createProposal session rfl trivial
  | execute now env => exact lawful_executeOne session now env
  | approve p now =>
    refine fun v => ⟨trivial, ?_⟩
    dsimp only
    split
    · trivial
    · split
      · trivial
      · exact lawful_run (fun _ => ⟨trivial, trivial⟩) (lawful_enqueue session now _ _)
  | reject p =>
    refine fun v => ⟨trivial, ?_⟩
    dsimp only
    split
    · trivial
    · split
      · trivial
      · exact lawful_setStatus (by decide) trivial

/-! ## Approvals and recorded executions -/

/-- An approved proposal has an approval that no recorded execution has used. -/
def Budgeted (p : ProposalId) (t : Tables) : Prop :=
  t.executions p ≤ t.approvals p ∧
    ∀ row ∈ t.proposal p, row.status = .approved → t.executions p < t.approvals p

theorem budgeted_withStatus {p : ProposalId} {t : Tables} (h : Budgeted p t) (id : ProposalId)
    {status : ProposalStatus} (hs : status ≠ .approved) : Budgeted p (t.withStatus id status) := by
  refine ⟨h.1, fun row hrow happroved => ?_⟩
  rw [proposal_withStatus] at hrow
  split at hrow
  · obtain ⟨old, -, rfl⟩ := Option.map_eq_some_iff.mp hrow
    exact absurd happroved hs
  · exact h.2 row hrow happroved

theorem budgeted_apply {p : ProposalId} (t : Tables) (w : Write) (h : Budgeted p t)
    (hw : Lawful t w) : Budgeted p (store.apply w t) := by
  change Budgeted p (w.apply t)
  cases w with
  | outbox w => exact h
  | setStatus id status => exact budgeted_withStatus h id hw
  | insert id row =>
    refine ⟨h.1, fun r hr happroved => ?_⟩
    rw [proposal_insert] at hr
    rcases Option.or_eq_some_iff.mp hr with hold | ⟨-, hnew⟩
    · exact h.2 r hold happroved
    · split at hnew
      · obtain rfl := Option.some.inj hnew
        rw [hw.1] at happroved
        cases happroved
      · cases hnew
  | approve id =>
    have hle := h.1
    by_cases hp : p = id
    · subst hp
      have happrovals : ((Write.approve p).apply t).approvals p = t.approvals p + 1 :=
        Function.update_self _ _ _
      have hexecutions : ((Write.approve p).apply t).executions p = t.executions p := rfl
      refine ⟨by omega, fun _ _ _ => by omega⟩
    · have happrovals : ((Write.approve id).apply t).approvals p = t.approvals p :=
        Function.update_of_ne hp _ _
      have hrow : ((Write.approve id).apply t).proposal p = t.proposal p :=
        (proposal_withStatus t id .approved p).trans (if_neg hp)
      unfold Budgeted
      rw [happrovals, hrow]
      exact h
  | claim id =>
    by_cases hp : p = id
    · subst hp
      obtain ⟨row, hrow, happroved⟩ := hw
      have hlt := h.2 row hrow happroved
      have hexecutions : ((Write.claim p).apply t).executions p = t.executions p + 1 :=
        Function.update_self _ _ _
      have happrovals : ((Write.claim p).apply t).approvals p = t.approvals p := rfl
      refine ⟨by omega, fun r hr happroved' => ?_⟩
      have hmap : ((Write.claim p).apply t).proposal p = _ :=
        (proposal_withStatus t p .executing p).trans (if_pos rfl)
      rw [hmap] at hr
      obtain ⟨old, -, rfl⟩ := Option.map_eq_some_iff.mp hr
      cases happroved'
    · have hexecutions : ((Write.claim id).apply t).executions p = t.executions p :=
        Function.update_of_ne hp _ _
      have hrow : ((Write.claim id).apply t).proposal p = t.proposal p :=
        (proposal_withStatus t id .executing p).trans (if_neg hp)
      unfold Budgeted
      rw [hexecutions, hrow]
      exact h

/-! ## Keys -/

/-- One proposal at most has the key. -/
def OneHolder (key : ProposalKey) (t : Tables) : Prop :=
  ∀ p q, holds t key p = true → holds t key q = true → p = q

theorem not_holds_of_not_taken {t : Tables} {key : ProposalKey} (h : t.taken key = false)
    (p : ProposalId) : holds t key p = false := by
  unfold Tables.taken at h
  unfold holds
  rw [List.any_eq_false] at h ⊢
  intro e he
  simp [h e he]

theorem oneHolder_apply {key : ProposalKey} (t : Tables) (w : Write) (h : OneHolder key t)
    (hw : Lawful t w) : OneHolder key (store.apply w t) := by
  have hstatus : ∀ id status, OneHolder key (t.withStatus id status) := by
    intro id status p q hp hq
    rw [holds_withStatus] at hp hq
    exact h p q hp hq
  change OneHolder key (w.apply t)
  cases w with
  | outbox w => exact h
  | setStatus id status => exact hstatus id status
  | approve id => exact hstatus id .approved
  | claim id => exact hstatus id .executing
  | insert id row =>
    intro p q hp hq
    rw [holds_insert] at hp hq
    by_cases hkey : row.key = key
    · subst hkey
      rw [not_holds_of_not_taken hw.2] at hp hq
      have hidp : id = p := by simpa using hp
      have hidq : id = q := by simpa using hq
      exact hidp.symm.trans hidq
    · have hne : (row.key == key) = false := beq_eq_false_iff_ne.mpr hkey
      rw [hne, Bool.and_false, Bool.or_false] at hp hq
      exact h p q hp hq

/-! ## What every run keeps -/

theorem row_proposal_congr (p : ProposalId) (w : Write) (t t' : Tables)
    (h : store.row (.proposal p) t = store.row (.proposal p) t') :
    store.row (.proposal p) (store.apply w t) = store.row (.proposal p) (store.apply w t') := by
  obtain ⟨hrow, happrovals, hexecutions⟩ : t.proposal p = t'.proposal p ∧
      t.approvals p = t'.approvals p ∧ t.executions p = t'.executions p := by
    simpa [store, rowOf] using h
  have hstatus : ∀ id s, (t.withStatus id s).proposal p = (t'.withStatus id s).proposal p := by
    intro id s
    rw [proposal_withStatus, proposal_withStatus, hrow]
  have hcount : ∀ (f g : ProposalId → ℕ) (id : ProposalId), f p = g p →
      Function.update f id (f id + 1) p = Function.update g id (g id + 1) p := by
    intro f g id hfg
    by_cases hp : p = id
    · subst hp
      simp [hfg]
    · simp [Function.update_of_ne hp, hfg]
  change rowOf (.proposal p) (w.apply t) = rowOf (.proposal p) (w.apply t')
  cases w with
  | outbox w => exact h
  | insert id row =>
    simp only [rowOf, proposal_insert, hrow]
    simp [Write.apply, happrovals, hexecutions]
  | setStatus id status =>
    simp only [rowOf, Write.apply, hstatus]
    simp [Tables.withStatus, happrovals, hexecutions]
  | approve id =>
    have hrow' : ((Write.approve id).apply t).proposal p = ((Write.approve id).apply t').proposal p :=
      hstatus id .approved
    simp only [rowOf, hrow']
    simp [Write.apply, Tables.withStatus, hcount t.approvals t'.approvals id happrovals, hexecutions]
  | claim id =>
    have hrow' : ((Write.claim id).apply t).proposal p = ((Write.claim id).apply t').proposal p :=
      hstatus id .executing
    simp only [rowOf, hrow']
    simp [Write.apply, Tables.withStatus, hcount t.executions t'.executions id hexecutions, happrovals]

theorem row_key_congr (key : ProposalKey) (w : Write) (t t' : Tables)
    (h : store.row (.proposalKey key) t = store.row (.proposalKey key) t') :
    store.row (.proposalKey key) (store.apply w t) =
      store.row (.proposalKey key) (store.apply w t') := by
  have hholds : holds t key = holds t' key := by simpa [store, rowOf] using h
  change rowOf (.proposalKey key) (w.apply t) = rowOf (.proposalKey key) (w.apply t')
  have hall : holds (w.apply t) key = holds (w.apply t') key := by
    cases w with
    | outbox w => exact hholds
    | insert id row =>
      funext p
      rw [holds_insert, holds_insert, hholds]
    | setStatus id status =>
      exact (holds_withStatus t id status key).trans
        (hholds.trans (holds_withStatus t' id status key).symm)
    | approve id =>
      exact (holds_withStatus t id .approved key).trans
        (hholds.trans (holds_withStatus t' id .approved key).symm)
    | claim id =>
      exact (holds_withStatus t id .executing key).trans
        (hholds.trans (holds_withStatus t' id .executing key).symm)
  simp only [rowOf, hall]

theorem keeps_budgeted (p : ProposalId) (session : ℕ) (req : Request) :
    Keeps store always (Budgeted p) (serve session req) fun ws _ => ws = [] := by
  refine Keeps.of_row (.proposal p) (lawful_serve session req) ?_ (row_proposal_congr p) ?_
  · intro t t' hrow h
    obtain ⟨hrow, happrovals, hexecutions⟩ : t.proposal p = t'.proposal p ∧
        t.approvals p = t'.approvals p ∧ t.executions p = t'.executions p := by
      simpa [store, rowOf] using hrow
    unfold Budgeted at h ⊢
    rwa [← hrow, ← happrovals, ← hexecutions]
  · intro lab t locked ws h _ hshape
    exact hshape.keeps budgeted_apply h

theorem keeps_oneHolder (key : ProposalKey) (session : ℕ) (req : Request) :
    Keeps store always (OneHolder key) (serve session req) fun ws _ => ws = [] := by
  refine Keeps.of_row (.proposalKey key) (lawful_serve session req) ?_ (row_key_congr key) ?_
  · intro t t' hrow h
    have hholds : holds t key = holds t' key := by simpa [store, rowOf] using hrow
    unfold OneHolder at h ⊢
    rwa [← hholds]
  · intro lab t locked ws h _ hshape
    exact hshape.keeps oneHolder_apply h

/-! ## What is called -/

/-- What holds of the committed rows when an action is performed. -/
def CallOk (t : Tables) : Call → Prop
  | .autonomous capability _ =>
    ∃ spec, capabilityOf capability = some spec ∧ spec.approval = .autonomous
  | .approved p action => ∃ row, t.proposal p = some row ∧ row.status = .approved ∧
      row.params = action
  | .tool _ name => capabilityOf name = none

def Asserted : Program → List Write → Tables → Prop
  | .call call _, _, t => CallOk t call
  | _, _, _ => True

abbrev Sound (prog : Program) (ws : List Write) (t : Tables) : Prop :=
  Upholds store always (fun _ => True) Asserted prog ws t

/-- A program that performs nothing. -/
def Silent : Program → Prop
  | .stmt _ _ next => ∀ v, Silent (next v)
  | .call _ _ => False
  | .commit _ => True
  | .rollback => True

theorem silent_commit : Silent (.commit ()) := trivial

theorem Silent.sound {prog : Program} (h : Silent prog) (ws : List Write) (t : Tables) :
    Sound prog ws t := by
  induction prog generalizing ws t with
  | rollback => exact fun _ _ => trivial
  | commit lab => exact fun _ _ => ⟨trivial, fun _ _ => trivial⟩
  | call x next => exact h.elim
  | stmt lab writes next ih => exact fun _ _ => ⟨trivial, fun _ _ => ih _ (h _) _ _⟩

theorem sound_stmt {writes : View Tables Resource → List Write}
    {next : View Tables Resource → Program} {ws : List Write} {t : Tables}
    (h : ∀ t' locked, Agree store (fun _ => True) ws t t' →
      Sound (next ⟨store.applyAll ws t', locked⟩)
        (ws ++ writes ⟨store.applyAll ws t', locked⟩) t') :
    Sound (.stmt () writes next) ws t := fun t' ha => ⟨trivial, fun locked _ => h t' locked ha⟩

theorem sound_call {call : Call} {next : Program} {ws : List Write} {t : Tables}
    (h : ∀ t', Agree store (fun _ => True) ws t t' → CallOk t' call) (hn : Silent next) :
    Sound (.call call next) ws t := fun t' ha => ⟨h t' ha, hn.sound ws t'⟩

theorem silent_markAndCommit (id : OutboxId) (now : Time) (mark : Mark) :
    Silent (markAndCommit id now mark) := fun _ => trivial

theorem silent_setStatus (p : ProposalId) (status : ProposalStatus) {next : Program}
    (h : Silent next) : Silent (run (fun _ => [.setStatus p status]) next) := fun _ => h

theorem silent_createProposal (session : ℕ) (row : ProposalRow) {next : Program}
    (h : Silent next) : Silent (createProposal session row next) := by
  intro v
  dsimp only
  split
  · trivial
  · exact h

theorem silent_enqueue (session : ℕ) (now : Time) (idempotencyKey : String) (payload : Payload) :
    Silent (enqueue session now idempotencyKey payload) := by
  intro v
  dsimp only
  split <;> trivial

/-- Writes on the outbox leave the proposals as they are. -/
theorem proposal_applyAll_outbox {ws : List Write} (h : ∀ w ∈ ws, ∃ o, w = .outbox o) (t : Tables)
    (p : ProposalId) : (store.applyAll ws t).proposal p = t.proposal p := by
  induction ws generalizing t with
  | nil => rfl
  | cons w ws ih =>
    obtain ⟨o, rfl⟩ := h w List.mem_cons_self
    rw [Store.applyAll_cons, ih fun w hw => h w (List.mem_cons_of_mem _ hw)]
    rfl

theorem sound_handleResponseAction (session : ℕ) (id : OutboxId) (now : Time)
    (tenant investigation : String) (action : Action) (env : Env) (ws : List Write) (t : Tables) :
    Sound (handleResponseAction session id now tenant investigation action env) ws t := by
  unfold handleResponseAction
  split
  · exact (silent_markAndCommit id now .failed).sound ws t
  · split
    · exact (silent_markAndCommit id now .failed).sound ws t
    · rename_i spec hspec
      split
      · exact (silent_createProposal session _ (silent_markAndCommit id now _)).sound ws t
      · rename_i hautonomous
        exact sound_call (fun _ _ => ⟨spec, hspec, not_not.mp hautonomous⟩)
          (silent_markAndCommit id now _)

/-- The guarded update holds the proposal as approved until the session ends. -/
theorem sound_handleResponseProposal (id : OutboxId) (now : Time) (tenant : String)
    (p : ProposalId) (actionType : String) (env : Env) {ws : List Write}
    (hws : ∀ w ∈ ws, ∃ o, w = .outbox o) (t : Tables) :
    Sound (handleResponseProposal id now tenant p actionType env) ws t := by
  unfold handleResponseProposal
  refine sound_stmt fun t1 locked _ => ?_
  dsimp only
  cases hclaim : claimable (store.applyAll ws t1) p tenant actionType with
  | none => exact (silent_markAndCommit id now .succeeded).sound _ t1
  | some row =>
    dsimp only
    split
    · exact (silent_setStatus p .failed (silent_markAndCommit id now .failed)).sound _ t1
    · refine sound_call (fun t2 ha => ?_) ?_
      · have hrow : t1.proposal p = some row ∧ row.status = .approved := by
          unfold claimable at hclaim
          rw [proposal_applyAll_outbox hws] at hclaim
          split at hclaim
          · rename_i found hfound
            split at hclaim
            · rename_i hc
              obtain rfl := Option.some.inj hclaim
              exact ⟨hfound, hc.2.2⟩
            · cases hclaim
          · cases hclaim
        have hheld : Resource.proposal p ∈ store.held (ws ++
            if (some row).isSome then [Write.claim p] else []) := by
          rw [Store.held_append]
          exact List.mem_append_right _ (by simp [store, Write.locks])
        have hsame : t2.proposal p = t1.proposal p := congrArg Value.proposal (ha.2 _ hheld)
        exact ⟨row, hsame.trans hrow.1, hrow.2, rfl⟩
      · change Silent (if env.returns then _ else _)
        split
        · exact silent_setStatus p .executed (silent_markAndCommit id now .succeeded)
        · exact silent_setStatus p .failed (silent_markAndCommit id now .failed)

theorem sound_handleToolProposal (id : OutboxId) (now : Time) (p : ProposalId)
    {actionType : String} (htool : capabilityOf actionType = none) (env : Env) (ws : List Write)
    (t : Tables) : Sound (handleToolProposal id now p actionType env) ws t := by
  have hfailed : Silent (run (fun _ => [.setStatus p .failed]) (markAndCommit id now .failed)) :=
    silent_setStatus p .failed (silent_markAndCommit id now .failed)
  unfold handleToolProposal
  refine sound_stmt fun t1 locked _ => ?_
  dsimp only
  split
  · exact (silent_markAndCommit id now .failed).sound _ t1
  · refine sound_stmt fun t2 locked2 _ => ?_
    split
    · refine sound_call (fun _ _ => htool) ?_
      change Silent (if env.returns then _ else _)
      split
      · exact silent_setStatus p .executed (silent_markAndCommit id now .succeeded)
      · exact hfailed
    · exact hfailed.sound _ t2

theorem sound_executeOne (session : ℕ) (now : Time) (env : Env) (t : Tables) :
    Sound (executeOne session now env) [] t := by
  unfold executeOne
  refine sound_stmt fun t1 locked _ => ?_
  dsimp only
  split
  · exact silent_commit.sound _ t1
  · rename_i id hchoice
    refine sound_stmt fun t2 locked2 _ => sound_stmt fun t3 locked3 _ => ?_
    dsimp only
    split
    · exact silent_commit.sound _ t3
    · rename_i row hrow
      have hws : ∀ w ∈ ([] ++ (Outbox.claimChoice (outboxView ⟨store.applyAll [] t1, locked⟩) now
          (some responseKinds)).toList.map (fun id => Write.outbox (.lock (.row id))) ++
          updateOutbox id (fun row => row.claimed now) ⟨store.applyAll ([] ++
            (Outbox.claimChoice (outboxView ⟨store.applyAll [] t1, locked⟩) now
              (some responseKinds)).toList.map (fun id => Write.outbox (.lock (.row id)))) t2,
            locked2⟩ ++ []), ∃ o, w = .outbox o := by
        intro w hw
        rw [List.append_nil, List.nil_append] at hw
        rcases List.mem_append.mp hw with hw | hw
        · obtain ⟨id, -, rfl⟩ := List.mem_map.mp hw
          exact ⟨_, rfl⟩
        · exact updateOutbox_outbox id _ _ w hw
      cases hpayload : row.payload with
      | responseAction tenant investigation action =>
        exact sound_handleResponseAction session id now tenant investigation action env _ t3
      | executeProposal tenant p actionType =>
        change Sound (if (capabilityOf actionType).isSome then _ else _) _ t3
        split
        · exact sound_handleResponseProposal id now tenant p actionType env hws t3
        · rename_i htool
          exact sound_handleToolProposal id now p (by simpa using htool) env _ t3

theorem sound_serve (session : ℕ) (req : Request) (t : Tables) : Sound (serve session req) [] t := by
  cases req with
  | dispatch now tenant investigation action =>
    exact (silent_enqueue session now _ _).sound [] t
  | propose tenant investigation actionType params =>
    exact (silent_createProposal session _ silent_commit).sound [] t
  | execute now env => exact sound_executeOne session now env t
  | approve p now =>
    have hsilent : Silent (approveProposal session p now) := by
      intro v
      dsimp only
      split
      · trivial
      · split
        · trivial
        · exact fun _ => silent_enqueue session now _ _
    exact hsilent.sound [] t
  | reject p =>
    have hsilent : Silent (rejectProposal p) := by
      intro v
      dsimp only
      split
      · trivial
      · split
        · trivial
        · exact fun _ => silent_commit
    exact hsilent.sound [] t

/-! ## Every run -/

/-- Only a session that stands before a call performs one. -/
theorem call_of_world {sys sys' : System} {i : ℕ} {call : Call}
    (hstep : step store serve sys (.advance i) = some sys')
    (hworld : sys'.shared.world = sys.shared.world ++ [call]) :
    ∃ s next, sys.session i = some s ∧ s.prog = .call call next := by
  have hne : sys.shared.world ≠ sys.shared.world ++ [call] := by
    intro heq
    have hlen := congrArg List.length heq
    simp at hlen
  unfold ReadCommitted.step at hstep
  cases hs : sys.session i with
  | none => simp [hs] at hstep
  | some s =>
    simp only [hs] at hstep
    cases hp : s.prog with
    | call x next =>
      simp only [hp] at hstep
      obtain rfl := Option.some.inj hstep
      obtain rfl : x = call := by simpa using hworld
      exact ⟨s, next, rfl, hp⟩
    | rollback =>
      simp only [hp] at hstep
      obtain rfl := Option.some.inj hstep
      exact absurd hworld hne
    | commit lab =>
      simp only [hp] at hstep
      obtain rfl := Option.some.inj hstep
      exact absurd hworld hne
    | stmt lab writes next =>
      simp only [hp] at hstep
      split at hstep
      · obtain rfl := Option.some.inj hstep
        exact absurd hworld hne
      · cases hstep

/-- In every run: the autonomous path performs only actions of autonomous capabilities; an action
under a proposal is performed while the proposal is committed as approved, as it was proposed, and
under an approval that no recorded execution has used; no proposal has more recorded executions
than approvals; and no two proposals share investigation, capability and payload. -/
theorem gated_actions {sys : System} (h : Run store serve always init sys) :
    (∀ i sys' call, step store serve sys (.advance i) = some sys' →
      sys'.shared.world = sys.shared.world ++ [call] →
      match call with
      | .autonomous capability _ =>
        ∃ spec, capabilityOf capability = some spec ∧ spec.approval = .autonomous
      | .approved p action => ∃ row, sys.shared.db.proposal p = some row ∧
        row.status = .approved ∧ row.params = action ∧
        sys.shared.db.executions p < sys.shared.db.approvals p
      | .tool _ name => capabilityOf name = none) ∧
    (∀ p, sys.shared.db.executions p ≤ sys.shared.db.approvals p) ∧
    (∀ p q row row', sys.shared.db.proposal p = some row → sys.shared.db.proposal q = some row' →
      row.key = row'.key → p = q) := by
  have hbudget : ∀ p, Budgeted p sys.shared.db := fun p =>
    Run.keeps (keeps_budgeted p) h ⟨le_refl _, fun _ hrow => by cases hrow⟩
  have hkey : ∀ key, OneHolder key sys.shared.db := fun key =>
    Run.keeps (keeps_oneHolder key) h fun _ _ hp => by cases hp
  have hup : Upheld store always (fun _ => True) Asserted sys :=
    Run.upheld (fun n req t _ => sound_serve n req t) h trivial
  refine ⟨?_, fun p => (hbudget p).1, ?_⟩
  · intro i sys' call hstep hworld
    obtain ⟨s, next, hs, hp⟩ := call_of_world hstep hworld
    have hok : Asserted s.prog s.pending sys.shared.db := (hup.2 i s hs).here hup.1
    rw [hp] at hok
    cases call with
    | autonomous capability action => exact hok
    | tool p name => exact hok
    | approved p action =>
      obtain ⟨row, hrow, happroved, hparams⟩ := hok
      exact ⟨row, hrow, happroved, hparams, (hbudget p).2 row hrow happroved⟩
  · intro p q row row' hrow hrow' heq
    have hholds := holds_of_proposal hrow'
    rw [← heq] at hholds
    exact hkey row.key p q (holds_of_proposal hrow) hholds

/-- A request run to its end with nothing in between. -/
def alone (session : ℕ) (req : Request) (steps : ℕ) : List (Event Request) :=
  .begin req :: List.replicate steps (.advance session)

def isolateHost : Action := ⟨"t", "c", "external_action", "response:r:p@1:0", "isolate_host"⟩

/-- A gated action is dispatched and drained into a proposal, and the proposal approved. -/
def drainedAndApproved : List (Event Request) :=
  alone 0 (.dispatch 0 "t" "c" isolateHost) 2 ++ alone 1 (.execute 1 ⟨true, true⟩) 6 ++
    alone 2 (.approve 1 2) 4

theorem gated_actions_approved : ∃ sys,
    runEvents store serve always init
      (drainedAndApproved ++ alone 3 (.execute 3 ⟨true, true⟩) 8) = some sys ∧
    sys.shared.world = [.approved 1 isolateHost] ∧ sys.shared.db.approvals 1 = 1 ∧
    sys.shared.db.executions 1 ≤ 1 := by
  have hlast : (runEvents store serve always init
      (drainedAndApproved ++ alone 3 (.execute 3 ⟨true, true⟩) 8)).map (fun sys =>
        (sys.shared.world, sys.shared.db.approvals 1)) =
      some ([.approved 1 isolateHost], 1) := by decide +kernel
  obtain ⟨sys, hsys, heq⟩ := Option.map_eq_some_iff.mp hlast
  obtain ⟨hworld, happrovals⟩ := Prod.mk.inj heq
  have hle := (gated_actions (Run.of_runEvents hsys)).2.1 1
  exact ⟨sys, hsys, hworld, happrovals, hle.trans_eq happrovals⟩

/-- The executor dies between the action and its commit, and the row is executed again. -/
def diesBeforeCommit : List (Event Request) :=
  drainedAndApproved ++ alone 3 (.execute 3 ⟨true, true⟩) 5 ++ [.crash 3] ++
    alone 4 (.execute 4 ⟨true, true⟩) 8

/-- One approval, and the action is performed twice. -/
theorem performed_twice_of_crash : ∃ sys,
    runEvents store serve always init diesBeforeCommit = some sys ∧
    sys.shared.world = [.approved 1 isolateHost, .approved 1 isolateHost] ∧
    sys.shared.db.approvals 1 = 1 := by
  have hlast : (runEvents store serve always init diesBeforeCommit).map (fun sys =>
        (sys.shared.world, sys.shared.db.approvals 1)) =
      some ([.approved 1 isolateHost, .approved 1 isolateHost], 1) := by decide +kernel
  obtain ⟨sys, hsys, heq⟩ := Option.map_eq_some_iff.mp hlast
  obtain ⟨hworld, happrovals⟩ := Prod.mk.inj heq
  exact ⟨sys, hsys, hworld, happrovals⟩

end SocTalk.Response.Gated
