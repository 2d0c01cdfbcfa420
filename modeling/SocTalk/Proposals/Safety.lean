import SocTalk.Proposals.Decisions

/-! One decision wins, and a rejected proposal is never executed. -/
namespace SocTalk.Proposals
open ReadCommitted

def EventKind.isDecision : EventKind → Bool
  | .proposalApproved => true
  | .proposalRejected => true
  | _ => false

/-- The decisions on a proposal that have taken effect, in commit order. -/
def decisions (events : List ProposalEvent) (p : ProposalId) : List ProposalEvent :=
  events.filter fun e => e.proposal == p && e.kind.isDecision

theorem decisions_append (events events' : List ProposalEvent) (p : ProposalId) :
    decisions (events ++ events') p = decisions events p ++ decisions events' p :=
  List.filter_append events events'

def HasStatus (t : Tables) (p : ProposalId) (ok : ProposalStatus → Bool) : Prop :=
  ∃ row, t.proposals p = some row ∧ ok row.status = true

theorem HasStatus.unique {t : Tables} {p : ProposalId} {ok ok' : ProposalStatus → Bool}
    (h : HasStatus t p ok) (h' : HasStatus t p ok') : ∃ s, ok s = true ∧ ok' s = true := by
  obtain ⟨row, hrow, hok⟩ := h
  obtain ⟨row', hrow', hok'⟩ := h'
  obtain rfl := Option.some.inj (hrow.symm.trans hrow')
  exact ⟨row.status, hok, hok'⟩

/-- At most one decision per proposal, and the status keeps to it: rejected stays rejected,
and only an approved proposal is queued or executed. -/
structure DecisionInv (sh : Shared Tables ProposalId) : Prop where
  once : ∀ p, (decisions sh.db.events p).length ≤ 1
  rejected : ∀ p, ⟨p, .proposalRejected⟩ ∈ sh.db.events → HasStatus sh.db p (· == .rejected)
  approved : ∀ p, ⟨p, .proposalApproved⟩ ∈ sh.db.events → HasStatus sh.db p (·.pastApproval)
  queued : ∀ id row, sh.db.outbox id = some row → ⟨row.proposal, .proposalApproved⟩ ∈ sh.db.events
  executed : ∀ p ∈ sh.world, ⟨p, .proposalApproved⟩ ∈ sh.db.events

theorem DecisionInv.not_both {sh : Shared Tables ProposalId} (h : DecisionInv sh)
    {p : ProposalId} (hr : ⟨p, .proposalRejected⟩ ∈ sh.db.events)
    (ha : ⟨p, .proposalApproved⟩ ∈ sh.db.events) : False := by
  obtain ⟨s, hs, hs'⟩ := (h.rejected p hr).unique (h.approved p ha)
  cases s <;> simp_all [ProposalStatus.pastApproval]

/-- A proposal still open has no decision. -/
theorem DecisionInv.undecided {sh : Shared Tables ProposalId} (h : DecisionInv sh)
    {p : ProposalId} (hopen : HasStatus sh.db p (· == .proposed)) :
    decisions sh.db.events p = [] := by
  unfold decisions
  rw [List.filter_eq_nil_iff]
  rintro ⟨q, kind⟩ he hdec
  obtain ⟨hq, hkind⟩ : q = p ∧ kind.isDecision = true := by simpa using hdec
  subst hq
  cases kind with
  | proposalApproved =>
    obtain ⟨s, hs, hs'⟩ := (h.approved q he).unique hopen
    cases s <;> simp_all [ProposalStatus.pastApproval]
  | proposalRejected =>
    obtain ⟨s, hs, hs'⟩ := (h.rejected q he).unique hopen
    cases s <;> simp_all
  | _ => cases hkind

def decisionOutline : Outline Tables ProposalId Request where
  inv _ sh := DecisionInv sh
  rely _ sh sh' := ∀ e ∈ sh.db.events, e ∈ sh'.db.events
  commits _ _ _ _ := True
  calls _ _ _ _ := True
  inv_open _ _ h := h
  rely_refl _ _ _ h := h
  rely_trans _ _ _ _ h h' e he := h' e (h e he)

/-- Runs in which every decision's update finds the proposal still open. -/
def decisionsInTime : Stmt → View Tables Resource → Prop
  | .decisionUpdate p, v => HasStatus v.db p (· == .proposed)
  | .plain, _ => True

/-! ## Commits -/

/-- A commit that leaves every other proposal's row as it is, adds events of proposal `p`
only, and queues and keeps what the events of `p` allow. -/
theorem DecisionInv.commit {i n : ℕ} {req : Request} {sh : Shared Tables ProposalId}
    {ws : List Write} {p : ProposalId} (hinv : DecisionInv sh)
    (hother : ∀ q, q ≠ p → (store.applyAll ws sh.db).proposals q = sh.db.proposals q)
    (hevents : ∀ e ∈ ws.filterMap Write.event?, e.proposal = p)
    (honce : (decisions sh.db.events p ++ decisions (ws.filterMap Write.event?) p).length ≤ 1)
    (hrej : ⟨p, .proposalRejected⟩ ∈ sh.db.events ++ ws.filterMap Write.event? →
      HasStatus (store.applyAll ws sh.db) p (· == .rejected))
    (happ : ⟨p, .proposalApproved⟩ ∈ sh.db.events ++ ws.filterMap Write.event? →
      HasStatus (store.applyAll ws sh.db) p (·.pastApproval))
    (hqueued : ∀ w ∈ ws, ∀ id row, w.outboxRow? id = some row →
      ⟨row.proposal, .proposalApproved⟩ ∈ sh.db.events ++ ws.filterMap Write.event?) :
    Guarantees decisionOutline i n sh { sh with db := store.applyAll ws sh.db } ∧
      decisionOutline.commits i req sh { sh with db := store.applyAll ws sh.db } := by
  have hev := events_applyAll ws sh.db
  have hgrow : ∀ e ∈ sh.db.events, e ∈ (store.applyAll ws sh.db).events := by
    intro e he
    rw [hev]
    exact List.mem_append_left _ he
  -- An event of another proposal is an old one, and that proposal's row is unchanged.
  have hold : ∀ q kind, q ≠ p → ⟨q, kind⟩ ∈ (store.applyAll ws sh.db).events →
      ⟨q, kind⟩ ∈ sh.db.events := by
    intro q kind hq he
    rw [hev] at he
    rcases List.mem_append.mp he with he | he
    · exact he
    · exact absurd (hevents _ he) hq
  have hstatus : ∀ q ok, q ≠ p → HasStatus sh.db q ok →
      HasStatus (store.applyAll ws sh.db) q ok := by
    rintro q ok hq ⟨row, hrow, hok⟩
    exact ⟨row, (hother q hq).trans hrow, hok⟩
  refine ⟨⟨⟨?_, ?_, ?_, ?_, ?_⟩, fun _ _ => hgrow⟩, trivial⟩
  · intro q
    show (decisions (store.applyAll ws sh.db).events q).length ≤ 1
    rw [hev, decisions_append]
    by_cases hq : q = p
    · rw [hq]
      exact honce
    · have hnone : decisions (ws.filterMap Write.event?) q = [] := by
        unfold decisions
        rw [List.filter_eq_nil_iff]
        intro e he hdec
        have heq : e.proposal = q := by
          simp only [Bool.and_eq_true, beq_iff_eq] at hdec
          exact hdec.1
        exact hq (heq.symm.trans (hevents e he))
      rw [hnone, List.append_nil]
      exact hinv.once q
  · intro q hq
    by_cases hqp : q = p
    · subst hqp
      exact hrej (hev ▸ hq)
    · exact hstatus q _ hqp (hinv.rejected q (hold q _ hqp hq))
  · intro q hq
    by_cases hqp : q = p
    · subst hqp
      exact happ (hev ▸ hq)
    · exact hstatus q _ hqp (hinv.approved q (hold q _ hqp hq))
  · intro id row hrow
    show _ ∈ (store.applyAll ws sh.db).events
    rcases outbox_applyAll ws sh.db id with ⟨w, hw, row', hrow', heq⟩ | ⟨-, heq⟩
    · obtain rfl := Option.some.inj (heq.symm.trans hrow)
      rw [hev]
      exact hqueued w hw id row' hrow'
    · exact hgrow _ (hinv.queued id row (heq ▸ hrow))
  · exact fun q hq => hgrow _ (hinv.executed q hq)

/-! ## The executor -/

/-- What the executor writes once it has claimed the outbox row of an approved proposal. -/
def ExecWrite (p : ProposalId) (t : Tables) : Write → Prop
  | .setProposal q row => q = p ∧ (t.proposals p).isSome = true ∧ row.status.pastApproval = true
  | .setOutbox id row => ∃ old, t.outbox id = some old ∧ row.proposal = old.proposal
  | .insertEvent e => e.proposal = p ∧ e.kind.isDecision = false
  | .lock _ => True
  | _ => False

/-- Such writes only, judged by what each statement sees, and no other proposal's action. -/
def ExecProg (p : ProposalId) : Program → Prop
  | .stmt _ writes next => ∀ v : View Tables Resource,
      (∀ w ∈ writes v, ExecWrite p v.db w) ∧ ExecProg p (next v)
  | .call q next => q = p ∧ ExecProg p next
  | .commit _ => True
  | .rollback => True

section

variable {p : ProposalId} {t : Tables} {ws : List Write}

theorem ExecWrite.outbox (hws : ∀ w ∈ ws, ExecWrite p t w) {id : OutboxId} {row : OutboxRow}
    (hrow : (store.applyAll ws t).outbox id = some row) :
    ∃ old, t.outbox id = some old ∧ row.proposal = old.proposal := by
  rcases outbox_applyAll ws t id with ⟨w, hw, row', hrow', heq⟩ | ⟨-, heq⟩
  · obtain rfl := Option.some.inj (heq.symm.trans hrow)
    have hq := hws w hw
    cases w with
    | setOutbox id' r =>
      obtain ⟨rfl, rfl⟩ : id' = id ∧ r = row' := by simpa [Write.outboxRow?] using hrow'
      exact hq
    | insertOutbox id' r => exact hq.elim
    | _ => cases hrow'
  · exact ⟨row, heq ▸ hrow, rfl⟩

theorem ExecWrite.proposals (hws : ∀ w ∈ ws, ExecWrite p t w) {q : ProposalId}
    {row : ProposalRow} (hrow : (store.applyAll ws t).proposals q = some row) :
    t.proposals q = some row ∨ q = p ∧ row.status.pastApproval = true := by
  rcases proposals_applyAll ws t q with ⟨w, hw, row', hrow', heq⟩ | ⟨-, heq⟩
  · obtain rfl := Option.some.inj (heq.symm.trans hrow)
    have hq := hws w hw
    cases w with
    | setProposal q' r =>
      obtain ⟨rfl, rfl⟩ : q' = q ∧ r = row' := by simpa [Write.proposalRow?] using hrow'
      exact Or.inr ⟨hq.1, hq.2.2⟩
    | insertProposal q' r => exact hq.elim
    | _ => cases hrow'
  · exact Or.inl (heq ▸ hrow)

theorem ExecWrite.isSome (hws : ∀ w ∈ ws, ExecWrite p t w)
    (h : ((store.applyAll ws t).proposals p).isSome = true) : (t.proposals p).isSome = true := by
  rcases proposals_applyAll ws t p with ⟨w, hw, row', hrow', -⟩ | ⟨-, heq⟩
  · have hq := hws w hw
    cases w with
    | setProposal q' r => exact hq.2.1
    | insertProposal q' r => exact hq.elim
    | _ => cases hrow'
  · rwa [heq] at h

theorem ExecWrite.of_view {w : Write} (hws : ∀ w ∈ ws, ExecWrite p t w)
    (h : ExecWrite p (store.applyAll ws t) w) : ExecWrite p t w := by
  cases w with
  | setProposal q row => exact ⟨h.1, ExecWrite.isSome hws h.2.1, h.2.2⟩
  | setOutbox id row =>
    obtain ⟨seen, hseen, hrow⟩ := h
    obtain ⟨old, hold, hsame⟩ := ExecWrite.outbox hws hseen
    exact ⟨old, hold, hrow.trans hsame⟩
  | insertEvent e => exact h
  | lock r => trivial
  | insertProposal q row => exact h.elim
  | insertOutbox id row => exact h.elim

theorem proposals_of_relyOn {o : Outline Tables ProposalId Request} {i : ℕ}
    {sh sh' : Shared Tables ProposalId} {q : ProposalId} (h : RelyOn o store i ws sh sh')
    (hw : Resource.proposal q ∈ store.held ws) : sh'.db.proposals q = sh.db.proposals q :=
  congrArg Prod.fst (h.2 _ hw)

theorem outbox_of_relyOn {o : Outline Tables ProposalId Request} {i : ℕ}
    {sh sh' : Shared Tables ProposalId} {id : OutboxId} (h : RelyOn o store i ws sh sh')
    (hw : Resource.outbox id ∈ store.held ws) : sh'.db.outbox id = sh.db.outbox id :=
  congrArg Prod.snd (h.2 _ hw)

theorem ExecWrite.stable {i : ℕ} {sh sh' : Shared Tables ProposalId} {w : Write}
    (h : ExecWrite p sh.db w) (hw : w ∈ ws) (hr : RelyOn decisionOutline store i ws sh sh') :
    ExecWrite p sh'.db w := by
  have hheld : ∀ r ∈ w.locks, r ∈ store.held ws := fun r hr => List.mem_flatMap.mpr ⟨w, hw, hr⟩
  cases w with
  | setProposal q row =>
    obtain ⟨rfl, hsome, hpast⟩ := h
    rw [← proposals_of_relyOn hr (hheld (.proposal q) List.mem_cons_self)] at hsome
    exact ⟨rfl, hsome, hpast⟩
  | setOutbox id row =>
    obtain ⟨old, hold, hrow⟩ := h
    exact ⟨old, (outbox_of_relyOn hr (hheld (.outbox id) List.mem_cons_self)).trans hold, hrow⟩
  | insertEvent e => exact h
  | lock r => trivial
  | insertProposal q row => exact h.elim
  | insertOutbox id row => exact h.elim

/-- The executor's commit on an approved proposal. -/
theorem exec_commit {i n : ℕ} {req : Request} {sh : Shared Tables ProposalId}
    (hinv : DecisionInv sh) (happ : ⟨p, .proposalApproved⟩ ∈ sh.db.events)
    (hws : ∀ w ∈ ws, ExecWrite p sh.db w) :
    Guarantees decisionOutline i n sh { sh with db := store.applyAll ws sh.db } ∧
      decisionOutline.commits i req sh { sh with db := store.applyAll ws sh.db } := by
  have hevents : ∀ e ∈ ws.filterMap Write.event?, e.proposal = p ∧ e.kind.isDecision = false := by
    intro e he
    obtain ⟨w, hw, hwe⟩ := List.mem_filterMap.mp he
    have hq := hws w hw
    cases w with
    | insertEvent e' =>
      obtain rfl := Option.some.inj hwe
      exact hq
    | _ => cases hwe
  have hnone : decisions (ws.filterMap Write.event?) p = [] := by
    unfold decisions
    rw [List.filter_eq_nil_iff]
    intro e he hdec
    simp [(hevents e he).2] at hdec
  have hpast : HasStatus (store.applyAll ws sh.db) p (·.pastApproval) := by
    obtain ⟨row, hrow, hok⟩ := hinv.approved p happ
    rcases proposals_applyAll ws sh.db p with ⟨w, -, row', -, heq⟩ | ⟨-, heq⟩
    · rcases ExecWrite.proposals hws heq with hold | ⟨-, hok'⟩
      · obtain rfl := Option.some.inj (hrow.symm.trans hold)
        exact ⟨row, heq, hok⟩
      · exact ⟨row', heq, hok'⟩
    · exact ⟨row, heq.trans hrow, hok⟩
  refine hinv.commit (p := p) ?_ ?_ ?_ ?_ ?_ ?_
  · intro q hq
    cases hrow : (store.applyAll ws sh.db).proposals q with
    | some row =>
      rcases ExecWrite.proposals hws hrow with hold | ⟨hqp, -⟩
      · exact hold.symm
      · exact absurd hqp hq
    | none =>
      rcases proposals_applyAll ws sh.db q with ⟨w, -, row', -, heq⟩ | ⟨-, heq⟩
      · rw [hrow] at heq
        cases heq
      · exact hrow.symm.trans heq
  · exact fun e he => (hevents e he).1
  · rw [hnone, List.append_nil]
    exact hinv.once p
  · intro hrej
    rcases List.mem_append.mp hrej with hrej | hrej
    · exact (hinv.not_both hrej happ).elim
    · cases (hevents _ hrej).2
  · exact fun _ => hpast
  · intro w hw id row hrow
    have hq := hws w hw
    cases w with
    | setOutbox id' r =>
      obtain ⟨rfl, rfl⟩ : id' = id ∧ r = row := by simpa [Write.outboxRow?] using hrow
      obtain ⟨old, hold, hsame⟩ := hq
      rw [hsame]
      exact List.mem_append_left _ (hinv.queued id' old hold)
    | insertOutbox id' r => exact hq.elim
    | _ => cases hrow

theorem safe_of_exec {i : ℕ} {req : Request} {sh : Shared Tables ProposalId} {prog : Program}
    (hprog : ExecProg p prog) (happ : ⟨p, .proposalApproved⟩ ∈ sh.db.events)
    (hws : ∀ w ∈ ws, ExecWrite p sh.db w) :
    Safe decisionOutline store decisionsInTime i req prog ws sh := by
  induction prog generalizing ws sh with
  | rollback => trivial
  | call q next ih =>
    intro n sh' _ hinv hr
    obtain ⟨rfl, hnext⟩ := hprog
    have happ' : ⟨q, .proposalApproved⟩ ∈ sh'.db.events := hr.1 _ happ
    have hws' : ∀ w ∈ ws, ExecWrite q sh'.db w := fun w hw => (hws w hw).stable hw hr
    refine ⟨⟨⟨hinv.once, hinv.rejected, hinv.approved, hinv.queued, ?_⟩, fun _ _ _ he => he⟩,
      trivial, ih hnext happ' hws'⟩
    intro q' hq'
    rcases List.mem_append.mp hq' with hq' | hq'
    · exact hinv.executed q' hq'
    · rw [List.mem_singleton.mp hq']
      exact happ'
  | commit lab =>
    intro n sh' locked _ hinv hr _
    exact exec_commit hinv (hr.1 _ happ) fun w hw => (hws w hw).stable hw hr
  | stmt lab writes next ih =>
    intro n sh' locked _ _ hr _
    have hws' : ∀ w ∈ ws, ExecWrite p sh'.db w := fun w hw => (hws w hw).stable hw hr
    obtain ⟨hwrites, hnext⟩ := hprog ⟨store.applyAll ws sh'.db, locked⟩
    refine ih _ hnext (hr.1 _ happ) ?_
    intro w hw
    rcases List.mem_append.mp hw with hw | hw
    · exact hws' w hw
    · exact (hwrites w hw).of_view hws'

variable (p)

theorem exec_setStatus {status : ProposalStatus} (hpast : status.pastApproval = true)
    (v : View Tables Resource) : ∀ w ∈ setStatus p status v, ExecWrite p v.db w := by
  intro w hw
  obtain ⟨row, hrow, rfl⟩ := List.mem_map.mp hw
  rw [Option.mem_toList] at hrow
  exact ⟨rfl, by rw [hrow]; rfl, hpast⟩

theorem exec_updateOutbox (id : OutboxId) {f : OutboxRow → OutboxRow}
    (hf : ∀ row, (f row).proposal = row.proposal) (v : View Tables Resource) :
    ∀ w ∈ updateOutbox id f v, ExecWrite p v.db w := by
  intro w hw
  obtain ⟨row, hrow, rfl⟩ := List.mem_map.mp hw
  exact ⟨row, Option.mem_toList.mp hrow, hf row⟩

theorem exec_appendEvent {kind : EventKind} (hkind : kind.isDecision = false) {next : Program}
    (hnext : ExecProg p next) : ExecProg p (appendEvent p kind next) := by
  refine fun v => ⟨fun w hw => ?_, hnext⟩
  obtain rfl := List.mem_singleton.mp hw
  exact ⟨rfl, hkind⟩

theorem exec_markOutboxSucceeded (id : OutboxId) : ExecProg p (markOutboxSucceeded id) := by
  have hsame : ∀ row : OutboxRow, { row with status := .succeeded }.proposal = row.proposal :=
    fun _ => rfl
  exact fun v => ⟨exec_updateOutbox p id hsame v, trivial⟩

theorem afterFailure_proposal (row : OutboxRow) (now : Time) :
    (row.afterFailure now).proposal = row.proposal := by
  unfold OutboxRow.afterFailure
  split <;> rfl

theorem exec_markOutboxFailed (id : OutboxId) (now : Time) :
    ExecProg p (markOutboxFailed id now) :=
  fun v => ⟨exec_updateOutbox p id (fun row => afterFailure_proposal row now) v, trivial⟩

theorem exec_recordOutcome (id : OutboxId) (now : Time) (returned : Bool) :
    ExecProg p (recordOutcome id p now returned) := by
  unfold recordOutcome
  split
  · exact fun v => ⟨exec_setStatus p rfl v,
      exec_appendEvent p rfl (exec_markOutboxSucceeded p id)⟩
  · exact fun v => ⟨exec_setStatus p rfl v,
      exec_appendEvent p rfl (exec_markOutboxFailed p id now)⟩

theorem exec_executeTool (id : OutboxId) (row : OutboxRow) (now : Time) (reply : Bool) :
    ExecProg row.proposal (executeToolProposal id row now reply) := by
  unfold executeToolProposal
  refine fun v => ⟨by simp, ?_⟩
  dsimp only
  split
  · exact exec_markOutboxFailed row.proposal id now
  · refine fun v' => ⟨exec_setStatus row.proposal rfl v', ?_⟩
    dsimp only
    split
    · exact ⟨rfl, exec_recordOutcome row.proposal id now reply⟩
    · exact exec_recordOutcome row.proposal id now false

theorem exec_executeResponse (id : OutboxId) (row : OutboxRow) (now : Time) (reply : Bool) :
    ExecProg row.proposal (executeResponseProposal id row now reply) := by
  unfold executeResponseProposal
  refine fun v => ⟨fun w hw => ?_, ?_⟩
  · obtain ⟨prow, hprow, rfl⟩ := List.mem_map.mp hw
    rw [Option.mem_toList] at hprow
    refine ⟨rfl, ?_, rfl⟩
    unfold claimedProposal at hprow
    cases hrow : v.db.proposals row.proposal with
    | none => simp [hrow] at hprow
    | some prow' => rfl
  · dsimp only
    split
    · exact exec_markOutboxSucceeded row.proposal id
    · split
      · exact fun v' => ⟨exec_setStatus row.proposal rfl v',
          exec_markOutboxFailed row.proposal id now⟩
      · exact ⟨rfl, exec_recordOutcome row.proposal id now reply⟩

theorem exec_executeProposal (id : OutboxId) (row : OutboxRow) (now : Time) (reply : Bool) :
    ExecProg row.proposal (executeProposal id row now reply) := by
  unfold executeProposal
  split
  · exact exec_executeResponse id row now reply
  · exact exec_executeTool id row now reply

end

/-- Locks and updates of outbox rows, which decide nothing. -/
def IdleWrite (t : Tables) : Write → Prop
  | .setOutbox id row => ∃ old, t.outbox id = some old ∧ row.proposal = old.proposal
  | .lock _ => True
  | _ => False

theorem IdleWrite.exec {t : Tables} {w : Write} (h : IdleWrite t w) (p : ProposalId) :
    ExecWrite p t w := by
  cases w with
  | setOutbox id row => exact h
  | lock r => trivial
  | setProposal q row => exact h.elim
  | insertProposal q row => exact h.elim
  | insertOutbox id row => exact h.elim
  | insertEvent e => exact h.elim

theorem IdleWrite.of_exec {p : ProposalId} {t t' : Tables} {w : Write} (h : IdleWrite t w)
    (he : ExecWrite p t' w) : IdleWrite t' w := by
  cases w with
  | setOutbox id row => exact he
  | lock r => trivial
  | setProposal q row => exact h.elim
  | insertProposal q row => exact h.elim
  | insertOutbox id row => exact h.elim
  | insertEvent e => exact h.elim

section

variable {i : ℕ} {req : Request} {sh : Shared Tables ProposalId} {ws : List Write}

theorem IdleWrite.stable {sh' : Shared Tables ProposalId} {w : Write} (h : IdleWrite sh.db w)
    (hw : w ∈ ws) (hr : RelyOn decisionOutline store i ws sh sh') : IdleWrite sh'.db w :=
  h.of_exec ((h.exec 0).stable hw hr)

theorem safe_idle {lab : Stmt} (hws : ∀ w ∈ ws, IdleWrite sh.db w) :
    Safe decisionOutline store decisionsInTime i req (.commit lab) ws sh := by
  intro n sh' locked _ hinv hr _
  have hws' : ∀ w ∈ ws, IdleWrite sh'.db w := fun w hw => (hws w hw).stable hw hr
  have hnone : ws.filterMap Write.event? = [] := by
    rw [List.filterMap_eq_nil_iff]
    intro w hw
    have hq := hws' w hw
    cases w with
    | insertEvent e => exact hq.elim
    | _ => rfl
  have hsame : ∀ q, (store.applyAll ws sh'.db).proposals q = sh'.db.proposals q := by
    intro q
    rcases proposals_applyAll ws sh'.db q with ⟨w, hw, row, hrow, -⟩ | ⟨-, heq⟩
    · have hq := hws' w hw
      cases w with
      | setProposal q' r => exact hq.elim
      | insertProposal q' r => exact hq.elim
      | _ => cases hrow
    · exact heq
  have hkeep : ∀ q ok, HasStatus sh'.db q ok → HasStatus (store.applyAll ws sh'.db) q ok := by
    rintro q ok ⟨row, hrow, hok⟩
    exact ⟨row, (hsame q).trans hrow, hok⟩
  refine hinv.commit (p := 0) (fun q _ => hsame q) ?_ ?_ ?_ ?_ ?_
  · simp [hnone]
  · simpa [hnone, decisions] using hinv.once 0
  · rw [hnone, List.append_nil]
    exact fun h => hkeep 0 _ (hinv.rejected 0 h)
  · rw [hnone, List.append_nil]
    exact fun h => hkeep 0 _ (hinv.approved 0 h)
  · intro w hw id row hrow
    have hq := hws' w hw
    cases w with
    | setOutbox id' r =>
      obtain ⟨rfl, rfl⟩ : id' = id ∧ r = row := by simpa [Write.outboxRow?] using hrow
      obtain ⟨old, hold, hp⟩ := hq
      rw [hp]
      exact List.mem_append_left _ (hinv.queued id' old hold)
    | insertOutbox id' r => exact hq.elim
    | _ => cases hrow

theorem safe_execute (now : Time) (reply : Bool) :
    Safe decisionOutline store decisionsInTime i (.execute now reply) (executeOne now reply) []
      sh := by
  unfold executeOne
  intro n1 sh1 locked1 _ _ _ _
  dsimp only
  cases hchoice : claimChoice ⟨store.applyAll [] sh1.db, locked1⟩ now with
  | none => exact safe_idle (by simp)
  | some id =>
    intro n2 sh2 locked2 _ _ _ _
    have hclaim : ∀ w ∈ [] ++ ((some id).toList.map fun id => Write.lock (.outbox id)) ++
        updateOutbox id (fun row => { row with status := .inFlight, claimedAt := some now })
          ⟨store.applyAll ([] ++ [.lock (.outbox id)]) sh2.db, locked2⟩, IdleWrite sh2.db w := by
      intro w hw
      rcases List.mem_append.mp hw with hw | hw
      · obtain rfl : w = .lock (.outbox id) := by simpa using hw
        trivial
      · obtain ⟨row, hrow, rfl⟩ := List.mem_map.mp hw
        exact ⟨row, Option.mem_toList.mp hrow, rfl⟩
    intro n3 sh3 locked3 _ hinv3 hr3 _
    have hidle : ∀ w ∈ _, IdleWrite sh3.db w := fun w hw => (hclaim w hw).stable hw hr3
    dsimp only
    rw [List.append_nil]
    split
    · exact safe_idle hidle
    · rename_i row hrow
      -- The outbox row was queued by an approval, whatever the claim did to it.
      obtain ⟨old, hold, hsame⟩ :=
        ExecWrite.outbox (p := 0) (fun w hw => (hidle w hw).exec 0) hrow
      have happ : ⟨row.proposal, .proposalApproved⟩ ∈ sh3.db.events := by
        rw [hsame]
        exact hinv3.queued id old hold
      exact safe_of_exec (exec_executeProposal id row now reply) happ
        fun w hw => (hidle w hw).exec row.proposal

end

/-! ## The decisions -/

section

variable {i : ℕ} {req : Request} {sh : Shared Tables ProposalId} {p : ProposalId}

/-- What a decision on `p` has pending: its new status, its event, and for an approval the
outbox row. -/
structure DecisionWrites (p : ProposalId) (status : ProposalStatus) (kind : EventKind)
    (ws : List Write) : Prop where
  set : ∃ row, .setProposal p row ∈ ws
  rows : ∀ w ∈ ws, ∀ q row, w.proposalRow? q = some row → q = p ∧ row.status = status
  events : ws.filterMap Write.event? = [⟨p, kind⟩]
  outbox : ∀ w ∈ ws, ∀ id row, w.outboxRow? id = some row →
    row.proposal = p ∧ kind = .proposalApproved

theorem decision_commit {n : ℕ} {status : ProposalStatus} {kind : EventKind} {ws : List Write}
    (hinv : DecisionInv sh) (hopen : HasStatus sh.db p (· == .proposed))
    (hws : DecisionWrites p status kind ws)
    (hkind : (status = .approved ∧ kind = .proposalApproved) ∨
      (status = .rejected ∧ kind = .proposalRejected)) :
    Guarantees decisionOutline i n sh { sh with db := store.applyAll ws sh.db } ∧
      decisionOutline.commits i req sh { sh with db := store.applyAll ws sh.db } := by
  have hnew : ∃ row, (store.applyAll ws sh.db).proposals p = some row ∧ row.status = status := by
    obtain ⟨row, hrow⟩ := hws.set
    rcases proposals_applyAll ws sh.db p with ⟨w, hw, row', hrow', heq⟩ | ⟨hno, -⟩
    · exact ⟨row', heq, (hws.rows w hw p row' hrow').2⟩
    · have hnone := hno _ hrow
      simp [Write.proposalRow?] at hnone
  have hundecided := hinv.undecided hopen
  have hnoold : ∀ kind', kind'.isDecision = true → ⟨p, kind'⟩ ∉ sh.db.events := by
    intro kind' hdec hmem
    have hin : (⟨p, kind'⟩ : ProposalEvent) ∈ decisions sh.db.events p := by
      simp [decisions, hmem, hdec]
    rw [hundecided] at hin
    cases hin
  obtain ⟨row, hrow, hst⟩ := hnew
  refine hinv.commit (p := p) ?_ ?_ ?_ ?_ ?_ ?_
  · intro q hq
    rcases proposals_applyAll ws sh.db q with ⟨w, hw, row', hrow', -⟩ | ⟨-, heq⟩
    · exact absurd (hws.rows w hw q row' hrow').1 hq
    · exact heq
  · simp [hws.events]
  · rw [hundecided, hws.events]
    exact List.length_filter_le _ _
  · intro hrej
    rw [hws.events] at hrej
    rcases List.mem_append.mp hrej with hrej | hrej
    · exact absurd hrej (hnoold _ rfl)
    · rcases hkind with ⟨-, rfl⟩ | ⟨rfl, -⟩
      · simp at hrej
      · exact ⟨row, hrow, by simp [hst]⟩
  · intro happ
    rw [hws.events] at happ
    rcases List.mem_append.mp happ with happ | happ
    · exact absurd happ (hnoold _ rfl)
    · rcases hkind with ⟨rfl, -⟩ | ⟨-, rfl⟩
      · exact ⟨row, hrow, by simp [hst, ProposalStatus.pastApproval]⟩
      · simp at happ
  · intro w hw id row' hrow'
    obtain ⟨hp, hk⟩ := hws.outbox w hw id row' hrow'
    rw [hws.events, hp, hk]
    simp

/-- A decision that has written its status commits safely: the row is held until then. -/
theorem safe_transitionAndCommit {status : ProposalStatus} {kind : EventKind} {ws : List Write}
    (run : Option ℕ) (runMoves : Bool) (hopen : HasStatus sh.db p (· == .proposed))
    (hws : DecisionWrites p status kind ws)
    (hkind : (status = .approved ∧ kind = .proposalApproved) ∨
      (status = .rejected ∧ kind = .proposalRejected)) :
    Safe decisionOutline store decisionsInTime i req (transitionAndCommit run runMoves) ws sh := by
  unfold transitionAndCommit
  split
  · trivial
  · intro n sh' locked _ hinv hr _
    have hheld : Resource.proposal p ∈ store.held ws := by
      obtain ⟨row, hrow⟩ := hws.set
      exact List.mem_flatMap.mpr ⟨_, hrow, List.mem_cons_self⟩
    obtain ⟨row, hrow, hst⟩ := hopen
    have hopen' : HasStatus sh'.db p (· == .proposed) :=
      ⟨row, (proposals_of_relyOn hr hheld).trans hrow, hst⟩
    exact decision_commit hinv hopen' hws hkind

theorem HasStatus.of_held {ws : List Write} {sh' : Shared Tables ProposalId}
    {ok : ProposalStatus → Bool} (h : HasStatus sh.db p ok)
    (hr : RelyOn decisionOutline store i ws sh sh') (hw : Resource.proposal p ∈ store.held ws) :
    HasStatus sh'.db p ok := by
  obtain ⟨row, hrow, hok⟩ := h
  exact ⟨row, (proposals_of_relyOn hr hw).trans hrow, hok⟩

theorem decisionWrites_of {status : ProposalStatus} {kind : EventKind} (row : ProposalRow)
    {new : List Write} (hst : row.status = status)
    (hnew : new = [] ∨ kind = .proposalApproved ∧
      ∃ id out, new = [.insertOutbox id out] ∧ out.proposal = p) :
    DecisionWrites p status kind ([.setProposal p row] ++ new ++ [.insertEvent ⟨p, kind⟩]) := by
  have hmem : ∀ w ∈ [Write.setProposal p row] ++ new ++ [.insertEvent ⟨p, kind⟩],
      w = .setProposal p row ∨ w ∈ new ∨ w = .insertEvent ⟨p, kind⟩ := by
    intro w hw
    simpa [or_assoc] using hw
  refine ⟨⟨row, by simp⟩, ?_, ?_, ?_⟩
  · intro w hw q r hr
    rcases hmem w hw with rfl | hw | rfl
    · obtain ⟨rfl, rfl⟩ : p = q ∧ row = r := by simpa [Write.proposalRow?] using hr
      exact ⟨rfl, hst⟩
    · rcases hnew with rfl | ⟨-, id, out, rfl, -⟩
      · cases hw
      · obtain rfl := List.mem_singleton.mp hw
        cases hr
    · cases hr
  · rcases hnew with rfl | ⟨-, id, out, rfl, -⟩ <;> rfl
  · intro w hw id r hr
    rcases hmem w hw with rfl | hw | rfl
    · cases hr
    · rcases hnew with rfl | ⟨hkind, id', out, rfl, hout⟩
      · cases hw
      · obtain rfl := List.mem_singleton.mp hw
        obtain ⟨rfl, rfl⟩ : id' = id ∧ out = r := by simpa [Write.outboxRow?] using hr
        exact ⟨hout, hkind⟩
    · cases hr

theorem setStatus_of {v : View Tables Resource} {status : ProposalStatus} {row : ProposalRow}
    (h : v.db.proposals p = some row) :
    setStatus p status v = [.setProposal p { row with status := status }] := by
  unfold setStatus
  rw [h]
  rfl

theorem safe_reject (p : ProposalId) (runMoves : Bool) :
    Safe decisionOutline store decisionsInTime i (.reject p runMoves) (rejectProposal p runMoves)
      [] sh := by
  unfold rejectProposal
  intro n1 sh1 locked1 _ _ _ _
  dsimp only
  cases hread : (store.applyAll [] sh1.db).proposals p with
  | none => trivial
  | some row =>
    dsimp only
    split
    · trivial
    · intro n2 sh2 locked2 _ _ _ hopen
      obtain ⟨seen, hseen, hst⟩ := hopen
      have hopen2 : HasStatus sh2.db p (· == .proposed) := ⟨seen, hseen, hst⟩
      dsimp only
      rw [setStatus_of hseen]
      intro n3 sh3 locked3 _ _ hr3 _
      have hopen3 := hopen2.of_held hr3 (by simp [store, Write.locks])
      have hws : DecisionWrites p .rejected .proposalRejected _ :=
        decisionWrites_of { seen with status := .rejected } rfl (Or.inl rfl)
      exact safe_transitionAndCommit row.run runMoves hopen3 hws (Or.inr ⟨rfl, rfl⟩)

theorem safe_approve (p : ProposalId) (now : Time) (runMoves : Bool) :
    Safe decisionOutline store decisionsInTime i (.approve p now runMoves)
      (approveProposal i p now runMoves) [] sh := by
  unfold approveProposal
  intro n1 sh1 locked1 _ _ _ _
  dsimp only
  cases hread : (store.applyAll [] sh1.db).proposals p with
  | none => trivial
  | some row =>
    dsimp only
    split
    · trivial
    · intro n2 sh2 locked2 _ _ _ hopen
      obtain ⟨seen, hseen, hst⟩ := hopen
      have hopen2 : HasStatus sh2.db p (· == .proposed) := ⟨seen, hseen, hst⟩
      dsimp only
      rw [setStatus_of hseen]
      intro n3 sh3 locked3 _ _ hr3 _
      have hopen3 := hopen2.of_held hr3 (by simp [store, Write.locks])
      -- The outbox row is inserted unless the key is taken.
      have hgo : ∀ new : List Write,
          (new = [] ∨ EventKind.proposalApproved = .proposalApproved ∧
            ∃ id out, new = [.insertOutbox id out] ∧ out.proposal = p) →
          Safe decisionOutline store decisionsInTime i (.approve p now runMoves)
            (appendEvent p .proposalApproved (transitionAndCommit row.run runMoves))
            ([.setProposal p { seen with status := .approved }] ++ new) sh3 := by
        intro new hnew n4 sh4 locked4 _ _ hr4 _
        have hopen4 := hopen3.of_held hr4 (by simp [store, Write.locks])
        have hws : DecisionWrites p .approved .proposalApproved _ :=
          decisionWrites_of { seen with status := .approved } rfl hnew
        exact safe_transitionAndCommit row.run runMoves hopen4 hws (Or.inl ⟨rfl, rfl⟩)
      dsimp only
      split
      · trivial
      · split
        · exact hgo [] (Or.inl rfl)
        · exact hgo [_] (Or.inr ⟨rfl, _, _, rfl, rfl⟩)

/-- A fresh proposal has no decision yet. -/
theorem create_commit {n : ℕ} {row : ProposalRow} (hinv : DecisionInv sh)
    (hfree : sh.db.proposals i = none) :
    let all : List Write := [.insertProposal i row, .insertEvent ⟨i, .proposalCreated⟩]
    Guarantees decisionOutline i n sh { sh with db := store.applyAll all sh.db } ∧
      decisionOutline.commits i req sh { sh with db := store.applyAll all sh.db } := by
  intro all
  have hevents : all.filterMap Write.event? = [⟨i, .proposalCreated⟩] := rfl
  have hnone : ∀ ok, ¬ HasStatus sh.db i ok := by
    rintro ok ⟨old, hold, -⟩
    rw [hfree] at hold
    cases hold
  have hold : ∀ kind, kind.isDecision = true →
      ⟨i, kind⟩ ∉ sh.db.events ++ all.filterMap Write.event? := by
    intro kind hdec hmem
    rw [hevents] at hmem
    rcases List.mem_append.mp hmem with hmem | hmem
    · cases kind with
      | proposalApproved => exact hnone _ (hinv.approved i hmem)
      | proposalRejected => exact hnone _ (hinv.rejected i hmem)
      | _ => cases hdec
    · obtain rfl : kind = .proposalCreated := by simpa using hmem
      cases hdec
  refine hinv.commit (p := i) ?_ ?_ ?_ ?_ ?_ ?_
  · exact fun q hq => Function.update_of_ne hq _ _
  · simp [hevents]
  · simpa [hevents, decisions, EventKind.isDecision] using hinv.once i
  · exact fun h => absurd h (hold _ rfl)
  · exact fun h => absurd h (hold _ rfl)
  · intro w hw id r hr
    simp only [all, List.mem_cons, List.not_mem_nil, or_false] at hw
    rcases hw with rfl | rfl <;> cases hr

theorem safe_create (row : ProposalRow) (runMoves : Bool) :
    Safe decisionOutline store decisionsInTime i req (createProposal i row runMoves) [] sh := by
  unfold createProposal
  intro n1 sh1 locked1 _ _ _ _
  dsimp only
  by_cases hid : ((store.applyAll [] sh1.db).proposals i).isSome = true
  · rw [if_pos hid]
    trivial
  · rw [if_neg hid]
    have hfree1 : sh1.db.proposals i = none := Option.not_isSome_iff_eq_none.mp hid
    by_cases hdup : (duplicateOf (store.applyAll [] sh1.db) row.investigation row.actionType
        row.params).isSome = true
    · rw [if_pos hdup, if_pos (Or.inr hdup)]
      exact safe_idle (by simp)
    · rw [if_neg hdup, if_neg (not_or.mpr ⟨hid, hdup⟩)]
      intro n2 sh2 locked2 _ _ hr2 _
      have hfree2 : sh2.db.proposals i = none := by
        rw [proposals_of_relyOn hr2 (by simp [store, Write.locks])]
        exact hfree1
      unfold transitionAndCommit
      split
      · trivial
      · intro n3 sh3 locked3 _ hinv3 hr3 _
        have hfree3 : sh3.db.proposals i = none := by
          rw [proposals_of_relyOn hr3 (by simp [store, Write.locks])]
          exact hfree2
        exact create_commit hinv3 hfree3

end

theorem safe_serve (n : ℕ) (req : Request) (sh : Shared Tables ProposalId)
    (_hinv : decisionOutline.inv n sh) :
    Safe decisionOutline store decisionsInTime n req (serve n req) [] sh := by
  cases req with
  | create tenant investigation run actionType params runMoves => exact safe_create _ runMoves
  | approve p now runMoves => exact safe_approve p now runMoves
  | reject p runMoves => exact safe_reject p runMoves
  | execute now reply => exact safe_execute now reply

/-! ## Every run -/

/-- At most one decision has taken effect on each proposal, and a rejected one is still
rejected and has never been executed. -/
structure Decided (sh : Shared Tables ProposalId) : Prop where
  once : ∀ p, (decisions sh.db.events p).length ≤ 1
  rejected : ∀ p, ⟨p, .proposalRejected⟩ ∈ sh.db.events →
    p ∉ sh.world ∧ HasStatus sh.db p (· == .rejected)

theorem decisionInv_empty : DecisionInv ⟨Tables.empty, []⟩ where
  once _ := Nat.zero_le _
  rejected _ h := by cases h
  approved _ h := by cases h
  queued _ _ h := by cases h
  executed _ h := by cases h

/-- While every decision's update finds the proposal open, one decision wins. -/
theorem decided_of_inTime {sys : System} (hrun : Run store serve decisionsInTime init sys) :
    Decided sys.shared := by
  have hstart : decisionOutline.inv 0 ⟨Tables.empty, []⟩ := decisionInv_empty
  have hinv : DecisionInv sys.shared := Run.inv safe_serve hstart hrun
  refine ⟨hinv.once, fun p hp => ⟨fun hexec => ?_, hinv.rejected p hp⟩⟩
  exact hinv.not_both hp (hinv.executed p hexec)

instance (t : Tables) (p : ProposalId) (ok : ProposalStatus → Bool) :
    Decidable (HasStatus t p ok) :=
  match h : t.proposals p with
  | none => isFalse fun ⟨row, hrow, _⟩ => by rw [h] at hrow; cases hrow
  | some row => decidable_of_iff (ok row.status = true)
      ⟨fun hok => ⟨row, h, hok⟩,
        fun ⟨row', hrow', hok⟩ => Option.some.inj (h.symm.trans hrow') ▸ hok⟩

instance decidableDecisionsInTime : ∀ lab v, Decidable (decisionsInTime lab v)
  | .decisionUpdate p, v => inferInstanceAs (Decidable (HasStatus v.db p (· == .proposed)))
  | .plain, _ => isTrue trivial

/-- Runs with no condition on their steps. -/
def always : Stmt → View Tables Resource → Prop := fun _ _ => True

instance (lab : Stmt) (v : View Tables Resource) : Decidable (always lab v) := isTrue trivial

/-- An action outside the response capabilities, proposed by session 0. -/
def proposeListing : List (Event Request) :=
  [.begin (.create "t" "c" none "investigation.list_iocs" ⟨"t", "c", ""⟩ true),
   .advance 0, .advance 0, .advance 0]

/-- The proposal is rejected, and an approval that comes later is refused. -/
def rejectThenApprove : List (Event Request) := proposeListing ++
  [.begin (.reject 0 true), .advance 1, .advance 1, .advance 1, .advance 1,
   .begin (.approve 0 0 true), .advance 2, .advance 2,
   .begin (.execute 1 true), .advance 3, .advance 3]

theorem decided_rejectThenApprove : ∃ sys,
    runEvents store serve decisionsInTime init rejectThenApprove = some sys ∧
    sys.shared.db.events = [⟨0, .proposalCreated⟩, ⟨0, .proposalRejected⟩] ∧
    Decided sys.shared := by
  have hev : (runEvents store serve decisionsInTime init rejectThenApprove).map
      (·.shared.db.events) = some [⟨0, .proposalCreated⟩, ⟨0, .proposalRejected⟩] := by
    decide +kernel
  obtain ⟨sys, hsys, heq⟩ := Option.map_eq_some_iff.mp hev
  exact ⟨sys, hsys, heq, decided_of_inTime (Run.of_runEvents hsys)⟩

/-- Both decisions read the open proposal before either updates it. -/
def decisionsCrossed : List (Event Request) := proposeListing ++
  [.begin (.reject 0 true), .begin (.approve 0 0 true), .advance 1, .advance 2,
   .advance 1, .advance 1, .advance 1,
   .advance 2, .advance 2, .advance 2, .advance 2,
   .begin (.execute 1 true), .advance 3, .advance 3, .advance 3, .advance 3, .advance 3,
   .advance 3, .advance 3, .advance 3, .advance 3, .advance 3]

theorem rejected_executed_decisionsCrossed : ∃ sys,
    runEvents store serve always init decisionsCrossed = some sys ∧
    sys.shared.db.events = [⟨0, .proposalCreated⟩, ⟨0, .proposalRejected⟩,
      ⟨0, .proposalApproved⟩, ⟨0, .proposalExecuted⟩] ∧
    sys.shared.world = [0] ∧ HasStatus sys.shared.db 0 (· == .executed) ∧
    ¬ Decided sys.shared := by
  have hlast : (runEvents store serve always init decisionsCrossed).map
      (fun sys => (sys.shared.db.events, sys.shared.world,
        decide (HasStatus sys.shared.db 0 (· == .executed)))) =
      some ([⟨0, .proposalCreated⟩, ⟨0, .proposalRejected⟩, ⟨0, .proposalApproved⟩,
        ⟨0, .proposalExecuted⟩], [0], true) := by decide +kernel
  obtain ⟨sys, hsys, heq⟩ := Option.map_eq_some_iff.mp hlast
  obtain ⟨hev, hrest⟩ := Prod.mk.inj heq
  obtain ⟨hworld, hstatus⟩ := Prod.mk.inj hrest
  refine ⟨sys, hsys, hev, hworld, of_decide_eq_true hstatus, fun h => ?_⟩
  have hnot := (h.rejected 0 (by rw [hev]; decide)).1
  rw [hworld] at hnot
  exact hnot List.mem_cons_self

end SocTalk.Proposals
