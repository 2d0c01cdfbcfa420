import Mathlib.Data.List.Chain
import SocTalk.Runs.StatusMachine

/-! Every run's history follows the documented transitions, as long as the calls of
`transition_run` come in time. -/
namespace SocTalk.Runs.StatusMachine
open ReadCommitted Proposals TriagePolicy

/-! ## What the statements write -/

/-- A row written where none was is active; one that is replaced keeps its status or takes a
documented transition. -/
def Lawful (t : Runs.Tables) (w : Runs.Write) : Prop :=
  ∀ id row, w.runRow? = some (id, row) →
    match t.runs id with
    | none => row.status = .active
    | some old => old.status = row.status ∨ row.status ∈ documented old.status

abbrev EachLawful (t : Runs.Tables) (ws : List Runs.Write) : Prop := Runs.store.Each Lawful t ws

theorem lawful_of_noRun {w : Runs.Write} (h : w.runRow? = none) (t : Runs.Tables) : Lawful t w := by
  intro id row hrow
  rw [h] at hrow
  cases hrow

theorem eachLawful_of_noRun {ws : List Runs.Write} (h : ∀ w ∈ ws, w.runRow? = none)
    (t : Runs.Tables) : EachLawful t ws :=
  Store.Each.of_forall (fun w hw => lawful_of_noRun (h w hw)) t

theorem lawful_setRun {t : Runs.Tables} {id : RunId} {old row : RunRow} (hold : t.runs id = some old)
    (h : old.status = row.status ∨ row.status ∈ documented old.status) :
    Lawful t (.setRun id row) := by
  intro id' row' hrow
  obtain ⟨rfl, rfl⟩ : id = id' ∧ row = row' := by simpa [Runs.Write.runRow?] using hrow
  rw [hold]
  exact h

/-- An update of one run's row, with writes outside the runs after it. -/
theorem eachLawful_setRun {t : Runs.Tables} {id : RunId} {old row : RunRow} {ws : List Runs.Write}
    (hold : t.runs id = some old)
    (h : old.status = row.status ∨ row.status ∈ documented old.status)
    (hws : ∀ w ∈ ws, w.runRow? = none) : EachLawful t (.setRun id row :: ws) :=
  ⟨lawful_setRun hold h, eachLawful_of_noRun hws _⟩

theorem eachLawful_insertRun {t : Runs.Tables} {id : RunId} {c : InvestigationId}
    {now notBefore : Time} {ws : List Runs.Write} (h : insertable t id c = true)
    (hws : ∀ w ∈ ws, w.runRow? = none) :
    EachLawful t (.insertRun id (newRun c now notBefore) :: ws) := by
  refine ⟨?_, eachLawful_of_noRun hws _⟩
  intro id' row' hrow
  obtain ⟨rfl, rfl⟩ : id = id' ∧ newRun c now notBefore = row' := by
    simpa [Runs.Write.runRow?] using hrow
  have hnone : t.runs id = none := by
    simp only [insertable, Bool.and_eq_true, Option.isNone_iff_eq_none] at h
    exact h.1
  rw [hnone]
  rfl

/-- The shape of the statements on runs. -/
def lawfulShape : Runs.Stmt → View Runs.Tables Runs.Resource → List Runs.Write → Prop :=
  fun _ v ws => EachLawful v.db ws

abbrev LawfulProg (prog : Runs.Program) : Prop := Shaped lawfulShape prog

theorem lawful_recordSpendDelta {run : RunId} {usage : Usage} {k : Option Totals → Runs.Program}
    (h : ∀ read, LawfulProg (k read)) : LawfulProg (recordSpendDelta run usage k) := by
  intro v
  refine ⟨trivial, ?_⟩
  dsimp only
  cases readTotals v.db run with
  | none => exact h none
  | some prev =>
    refine fun v' => ⟨eachLawful_of_noRun (fun w hw => ?_) _, h _⟩
    obtain ⟨row, -, rfl⟩ := List.mem_map.mp hw
    rfl

/-- A report's update of the run under its lease, which is active. -/
theorem eachLawful_heldRow {t : Runs.Tables} {run : RunId} {lease : LeaseId}
    {f : RunRow → List Runs.Write}
    (h : ∀ row, t.runs run = some row → row.status = .active → EachLawful t (f row)) :
    EachLawful t ((heldRow t run lease).toList.flatMap f) := by
  cases hheld : heldRow t run lease with
  | none => trivial
  | some row =>
    obtain ⟨hrow, -, hactive⟩ := heldRow_eq_some.mp hheld
    simpa using h row hrow hactive

theorem lawful_heartbeatRun (run : RunId) (lease : LeaseId) (wall : Time) (usage : Usage) :
    LawfulProg (heartbeatRun run lease wall usage) := by
  refine lawful_recordSpendDelta fun read v => ⟨eachLawful_heldRow fun row hrow _ => ?_, ?_⟩
  · exact eachLawful_setRun hrow (Or.inl rfl) (by simp)
  · dsimp only
    split <;> trivial

theorem lawful_releaseRun (run : RunId) (lease : LeaseId) (now : Time) (usage : Usage) :
    LawfulProg (releaseRun run lease now usage) := by
  refine lawful_recordSpendDelta fun read v => ⟨eachLawful_heldRow fun row hrow hactive => ?_, ?_⟩
  · refine eachLawful_setRun hrow ?_ (by simp)
    rw [hactive]
    unfold RunRow.released
    dsimp only
    split
    · exact Or.inr (by decide)
    · exact Or.inl rfl
  · dsimp only
    split
    · trivial
    · split <;> trivial

theorem lawful_followUpRun (session : ℕ) (run : RunId) (lease : LeaseId) (now : Time)
    (c : InvestigationId) : LawfulProg (followUpRun session run lease now c) := by
  unfold followUpRun
  refine fun v => ⟨trivial, ?_⟩
  dsimp only
  split
  · refine fun v' => ⟨eachLawful_of_noRun (fun w hw => ?_) _, fun v'' => ⟨?_, ?_⟩⟩
    · obtain ⟨row, -, rfl⟩ := List.mem_map.mp hw
      rfl
    · dsimp only [lawfulShape]
      split
      · rename_i hins
        exact eachLawful_insertRun hins (by simp [Runs.Write.runRow?])
      · trivial
    · dsimp only
      split <;> trivial
  · trivial

section

variable (session : ℕ) (run : RunId) (lease : LeaseId) (now : Time) (c : InvestigationId)
variable (payload : CompletePayload) (reads : CompleteReads)

theorem lawful_afterDisposition (d : Option Disposition) (changed : Bool) :
    LawfulProg (afterDisposition session run lease now c payload reads d changed) := by
  unfold afterDisposition
  refine fun v => ⟨eachLawful_of_noRun (fun w hw => ?_) _, fun v' =>
    ⟨eachLawful_of_noRun (fun w hw => ?_) _, lawful_followUpRun session run lease now c⟩⟩
  · split at hw
    · obtain rfl := List.mem_singleton.mp hw
      rfl
    · cases hw
  · split at hw
    · obtain rfl := List.mem_singleton.mp hw
      rfl
    · cases hw

theorem lawful_applyDisposition :
    LawfulProg (applyDisposition session run lease now c payload reads) := by
  unfold applyDisposition
  split
  · refine fun v => ⟨eachLawful_of_noRun (fun w hw => ?_) _,
      lawful_afterDisposition session run lease now c payload reads _ _⟩
    dsimp only at hw
    split at hw
    · obtain ⟨row, -, hw⟩ := List.mem_flatMap.mp hw
      rcases List.mem_cons.mp hw with rfl | hw
      · rfl
      · obtain rfl := List.mem_singleton.mp hw
        rfl
    · cases hw
  · refine fun v => ⟨eachLawful_of_noRun (fun w hw => ?_) _,
      lawful_afterDisposition session run lease now c payload reads _ _⟩
    rcases List.mem_append.mp hw with hw | hw
    · split at hw
      · obtain ⟨row, -, rfl⟩ := List.mem_map.mp hw
        rfl
      · cases hw
    · obtain rfl := List.mem_singleton.mp hw
      rfl
  · exact lawful_afterDisposition session run lease now c payload reads _ _

theorem lawful_completeRun : LawfulProg (completeRun session run lease now payload reads) := by
  refine lawful_recordSpendDelta fun read v => ⟨eachLawful_heldRow fun row hrow hactive => ?_, ?_⟩
  · refine eachLawful_setRun hrow (Or.inr ?_) (by simp [Runs.Write.runRow?])
    rw [hactive]
    change payload.status.runStatus ∈ documented .active
    cases payload.status <;> decide
  · dsimp only
    split
    · trivial
    · split
      · exact lawful_applyDisposition session run lease now _ payload reads
      · trivial
      · trivial

end

theorem lawful_claimRun (session : ℕ) (now wall : Time) (capOk : Bool) :
    LawfulProg (claimRun session now wall capOk) := by
  unfold claimRun
  refine fun v => ⟨eachLawful_of_noRun (by simp [Runs.Write.runRow?]) _, ?_⟩
  split
  · trivial
  · refine fun v' => ⟨eachLawful_of_noRun (fun w hw => ?_) _, ?_⟩
    · obtain ⟨id, -, rfl⟩ := List.mem_map.mp hw
      rfl
    · dsimp only
      split
      · trivial
      · rename_i id _
        refine fun v'' => ⟨?_, trivial⟩
        dsimp only [lawfulShape]
        cases hrow : v''.db.runs id with
        | none => trivial
        | some row => exact eachLawful_setRun hrow (Or.inl rfl) (by simp)

theorem lawful_reapRows (now : Time) (ids : List RunId) : LawfulProg (reapRows now ids) := by
  induction ids with
  | nil => trivial
  | cons id ids ih =>
    refine fun v => ⟨?_, ih⟩
    dsimp only [lawfulShape]
    split
    · rename_i row hrow
      split
      · exact eachLawful_setRun hrow (Or.inl rfl) (by simp)
      · trivial
    · trivial

theorem lawful_reapExpiredLeases (now : Time) : LawfulProg (reapExpiredLeases now) :=
  fun _ => ⟨trivial, lawful_reapRows now _⟩

theorem lawful_unlockRun (run : RunId) (now : Time) (tokens : Option ℕ) (dollars : Option ℚ) :
    LawfulProg (unlockRun run now tokens dollars) := by
  unfold unlockRun
  refine fun v => ⟨eachLawful_of_noRun (fun w hw => ?_) _, ?_⟩
  · obtain ⟨row, -, hw⟩ := List.mem_flatMap.mp hw
    have hlock : w = .lock (.run run) ∨ w = .lock (.investigation row.investigation) := by
      simpa using hw
    rcases hlock with rfl | rfl <;> rfl
  · dsimp only
    split
    · trivial
    · split
      · trivial
      · split
        · trivial
        · refine fun v' => ⟨?_, trivial⟩
          dsimp only [lawfulShape]
          split
          · rename_i row hrow
            split
            · rename_i hhalted
              refine eachLawful_setRun hrow (Or.inr ?_) (by simp)
              rw [hhalted]
              exact List.mem_cons_self
            · trivial
          · trivial

theorem lawful_attachEvidence (c : InvestigationId) : LawfulProg (attachEvidence c) := by
  unfold attachEvidence
  refine fun v => ⟨trivial, ?_⟩
  dsimp only
  split
  · trivial
  · refine fun v' => ⟨eachLawful_of_noRun (fun w hw => ?_) _, trivial⟩
    obtain ⟨row, -, rfl⟩ := List.mem_map.mp hw
    rfl

theorem lawful_promoteAlert (session severity : ℕ) (now notBefore : Time) :
    LawfulProg (promoteAlert session severity now notBefore) := by
  unfold promoteAlert
  refine fun v => ⟨eachLawful_of_noRun (fun w hw => ?_) _, ?_⟩
  · dsimp only at hw
    split at hw
    · obtain rfl := List.mem_singleton.mp hw
      rfl
    · cases hw
  · dsimp only
    split
    · trivial
    · refine fun v' => ⟨?_, ?_⟩
      · dsimp only [lawfulShape]
        split
        · rename_i hins
          exact eachLawful_insertRun hins (by simp)
        · trivial
      · dsimp only
        split <;> trivial

/-! ## The larger tables -/

/-- A write that the history may take. -/
def Within (t : Tables) : Write → Prop
  | .base w => Lawful t.base w
  | _ => True

theorem each_base {ws : List Runs.Write} {t : Tables} (h : EachLawful t.base ws) :
    store.Each Within t (ws.map .base) := by
  induction ws generalizing t with
  | nil => trivial
  | cons w ws ih => exact ⟨h.1, ih h.2⟩

/-- What the statement of `transition_run` writes. -/
def transitionWrites (t : Runs.Tables) (run : RunId) (newStatus : RunStatus) : List Write :=
  match t.runs run with
  | some row =>
    if refused t run row newStatus then []
    else [.base (.lock (.liveSlot row.investigation)),
      .base (.setRun run { row with status := newStatus })]
  | none => []

def shape : Stmt → View Tables Resource → List Write → Prop
  | .plain, v, ws => store.Each Within v.db ws
  | .transition run newStatus, v, ws => ws = transitionWrites v.db.base run newStatus

theorem shaped_embed {prog : Runs.Program} (h : LawfulProg prog) :
    Shaped shape (prog.embed embedding) :=
  Shaped.embed (fun _ v _ hws => each_base (t := v.db) hws) h

theorem shaped_transitionRun (run : RunId) (newStatus : RunStatus) :
    Shaped shape (transitionRun run newStatus) := by
  refine fun v => ⟨rfl, ?_⟩
  dsimp only
  split
  · split <;> trivial
  · trivial

theorem shaped_transitionIfRaised (run : Option RunId) (newStatus : RunStatus) :
    Shaped shape (transitionIfRaised run newStatus) := by
  cases run with
  | none => trivial
  | some run => exact shaped_transitionRun run newStatus

theorem shaped_createProposal (session : ℕ) (row : ProposalRow) :
    Shaped shape (createProposal session row) := by
  refine fun v => ⟨?_, ?_⟩
  · dsimp only [shape]
    split
    · trivial
    · exact ⟨trivial, trivial⟩
  · dsimp only
    split
    · trivial
    · split
      · trivial
      · exact shaped_transitionIfRaised row.run .waitingOnGate

theorem shaped_decideProposal (p : ProposalId) (decision : ProposalStatus) :
    Shaped shape (decideProposal p decision) := by
  refine fun v => ⟨trivial, ?_⟩
  dsimp only
  split
  · trivial
  · split
    · trivial
    · rename_i row _ _
      refine fun v' => ⟨Store.Each.of_forall (fun w hw t => ?_) _, shaped_transitionIfRaised row.run _⟩
      obtain ⟨row', -, rfl⟩ := List.mem_map.mp hw
      trivial

theorem shaped_failRows (c : Runs.InvestigationId) (ids : List RunId) :
    Shaped shape (failRows c ids) := by
  induction ids with
  | nil => trivial
  | cons id ids ih =>
    refine fun v => ⟨?_, ih⟩
    dsimp only [shape]
    split
    · rename_i row hrow
      split
      · rename_i hlive
        refine ⟨lawful_setRun hrow (Or.inr ?_), trivial⟩
        have hstatus := hlive.2
        dsimp only
        cases hs : row.status with
        | completed => simp [hs, RunStatus.live] at hstatus
        | failed => simp [hs, RunStatus.live] at hstatus
        | _ => decide
      · trivial
    · trivial

theorem shaped_failLiveRuns (c : Runs.InvestigationId) : Shaped shape (failLiveRuns c) :=
  fun _ => ⟨trivial, shaped_failRows c _⟩

theorem each_setInvestigationStatus (c : Runs.InvestigationId) (status : InvestigationStatus)
    (v : View Tables Resource) : store.Each Within v.db (setInvestigationStatus c status v) := by
  refine Store.Each.of_forall (fun w hw t => ?_) _
  obtain ⟨row, -, rfl⟩ := List.mem_map.mp hw
  exact lawful_of_noRun rfl _

theorem shaped_cancelInvestigation (c : Runs.InvestigationId) :
    Shaped shape (cancelInvestigation c) := by
  refine fun v => ⟨trivial, ?_⟩
  dsimp only
  split
  · exact fun v' => ⟨each_setInvestigationStatus c .cancelled v', shaped_failLiveRuns c⟩
  · trivial

theorem shaped_startRun (session : ℕ) (c : Runs.InvestigationId) (now notBefore : Time) :
    Shaped shape (startRun session c now notBefore) := by
  refine fun v => ⟨?_, ?_⟩
  · dsimp only [shape]
    split
    · rename_i hins
      have heach : EachLawful v.db.base [.insertRun session (newRun c now notBefore)] :=
        eachLawful_insertRun hins.2 (by simp)
      exact each_base heach
    · trivial
  · dsimp only
    split <;> trivial

theorem shaped_serve (session : ℕ) (req : Request) : Shaped shape (serve session req) := by
  cases req with
  | runs req =>
    cases req with
    | transition run resume => exact shaped_transitionRun run _
    | claim now wall capOk => exact shaped_embed (lawful_claimRun session now wall capOk)
    | heartbeat run lease wall usage =>
      exact shaped_embed (lawful_heartbeatRun run lease wall usage)
    | release run lease now usage => exact shaped_embed (lawful_releaseRun run lease now usage)
    | complete run lease now payload reads =>
      exact shaped_embed (lawful_completeRun session run lease now payload reads)
    | reap now => exact shaped_embed (lawful_reapExpiredLeases now)
    | unlock run now tokens dollars =>
      exact shaped_embed (lawful_unlockRun run now tokens dollars)
    | attach c => exact shaped_embed (lawful_attachEvidence c)
    | promote severity now notBefore =>
      exact shaped_embed (lawful_promoteAlert session severity now notBefore)
  | start c now notBefore => exact shaped_startRun session c now notBefore
  | pause run => exact shaped_transitionRun run .paused
  | resume run => exact shaped_transitionRun run .active
  | propose c run actionType params => exact shaped_createProposal session _
  | approve p => exact shaped_decideProposal p .approved
  | reject p => exact shaped_decideProposal p .rejected
  | cancel c => exact shaped_cancelInvestigation c
  | merge other =>
    exact fun v => ⟨each_setInvestigationStatus other .closed v, shaped_failLiveRuns other⟩

/-! ## What the history says -/

/-- A run starts active, takes documented transitions, and is where its last one led. -/
structure History (statuses : List RunStatus) (now : Option RunStatus) : Prop where
  starts : ∀ s ∈ statuses.head?, s = .active
  follows : statuses.IsChain fun s s' => s' ∈ documented s
  ends : statuses.getLast? = now

theorem History.snoc {statuses : List RunStatus} {s s' : RunStatus}
    (h : History statuses (some s)) (hs : s' ∈ documented s) :
    History (statuses ++ [s']) (some s') where
  starts := by
    cases statuses with
    | nil => cases h.ends
    | cons t ts => exact h.starts
  follows := by
    refine h.follows.append (List.isChain_singleton s') ?_
    intro last hlast first hfirst
    obtain rfl := Option.some.inj (h.ends.symm.trans hlast)
    obtain rfl := Option.some.inj hfirst
    exact hs
  ends := List.getLast?_concat

theorem history_first : History [.active] (some .active) :=
  ⟨fun _ hs => (Option.some.inj hs).symm, List.isChain_singleton _, rfl⟩

/-- No history goes on after a run has ended. -/
theorem History.ended_last {statuses : List RunStatus} {now : Option RunStatus}
    (h : History statuses now) {pre post : List RunStatus} {s : RunStatus}
    (heq : statuses = pre ++ s :: post) (hs : s.live = false) : post = [] := by
  cases post with
  | nil => rfl
  | cons s' post =>
    have hfollows := h.follows
    rw [heq] at hfollows
    have htail := (List.isChain_append.mp hfollows).2.1
    have hnext : s' ∈ documented s := (List.isChain_cons_cons.mp htail).1
    cases s <;> simp [RunStatus.live, documented] at hs hnext

/-- The run's history so far. -/
def Recorded (run : RunId) (t : Tables) : Prop :=
  History (t.history run) ((t.base.runs run).map (·.status))

theorem recorded_apply {run : RunId} {t : Tables} {w : Write} (h : Recorded run t)
    (hw : Within t w) : Recorded run (store.apply w t) := by
  cases w with
  | setProposal id row => exact h
  | insertProposal id row => exact h
  | base w =>
    have hruns := runs_apply run w t.base
    have hhist := history_record t w run
    unfold Recorded at h ⊢
    change History (record t w run) (((Runs.store.apply w t.base).runs run).map (·.status))
    rw [hruns, hhist]
    cases hu : under run w.runRow? with
    | none => exact h
    | some row =>
      have hlaw := hw run row (under_eq_some.mp hu)
      simp only [Option.some_or, Option.map_some]
      cases hold : t.base.runs run with
      | none =>
        simp only [hold] at hlaw
        rw [hold] at h
        have hempty : t.history run = [] := List.getLast?_eq_none_iff.mp h.ends
        simp only [Option.map_none, hempty, hlaw]
        exact history_first
      | some old =>
        simp only [hold] at hlaw
        rw [hold] at h
        simp only [Option.map_some, Option.some.injEq]
        split
        · rename_i hsame
          exact hsame ▸ h
        · rename_i hne
          exact h.snoc (hlaw.resolve_left hne)

/-- A call in time takes a documented transition, or none. -/
theorem each_transitionWrites {v : View Tables Resource} {run : RunId} {newStatus : RunStatus}
    (h : inTime (.transition run newStatus) v) :
    store.Each Within v.db (transitionWrites v.db.base run newStatus) := by
  unfold transitionWrites
  split
  · rename_i row hrow
    split
    · trivial
    · rename_i hrefused
      have hcall := h row hrow (Bool.eq_false_iff.mpr hrefused)
      refine ⟨lawful_of_noRun rfl _, lawful_setRun hrow ?_, trivial⟩
      revert hcall
      dsimp only
      cases newStatus <;> cases row.status <;> decide
  · trivial

/-! ## Every run -/

theorem row_run_congr (run : RunId) (w : Write) (t t' : Tables)
    (h : store.row (.base (.run run)) t = store.row (.base (.run run)) t') :
    store.row (.base (.run run)) (store.apply w t) =
      store.row (.base (.run run)) (store.apply w t') := by
  obtain ⟨hrow, hhist⟩ : t.base.runs run = t'.base.runs run ∧ t.history run = t'.history run := by
    simpa [store, rowOf] using h
  cases w with
  | base w =>
    have hruns : ∀ t : Tables, ((Write.base w).apply t).base.runs run =
        (under run w.runRow?).or (t.base.runs run) := fun t => runs_apply run w t.base
    have hrec : ∀ t : Tables, ((Write.base w).apply t).history run = record t w run :=
      fun _ => rfl
    simp only [store, rowOf, hruns, hrec, history_record, hrow, hhist]
  | setProposal id row => exact h
  | insertProposal id row => exact h

theorem keeps_recorded (run : RunId) (session : ℕ) (req : Request) :
    Keeps store inTime (Recorded run) (serve session req) fun ws _ => ws = [] := by
  refine Keeps.of_row (.base (.run run)) (shaped_serve session req) ?_ (row_run_congr run) ?_
  · intro t t' hrow h
    obtain ⟨hruns, hhist⟩ : t.base.runs run = t'.base.runs run ∧
        t.history run = t'.history run := by simpa [store, rowOf] using hrow
    unfold Recorded at h ⊢
    rwa [← hruns, ← hhist]
  · intro lab t locked ws h hc hshape
    have heach : store.Each Within t ws := by
      cases lab with
      | plain => exact hshape
      | transition run' newStatus =>
        obtain rfl : ws = transitionWrites t.base run' newStatus := hshape
        exact each_transitionWrites hc
    exact heach.keeps (fun _ _ hI hw => recorded_apply hI hw) h

/-- In every run in which each call of `transition_run` comes in time, each change of a run's
status is documented, and a run that has completed or failed stays so. -/
theorem statuses_documented {sys : System} (h : Run store serve inTime init sys) (run : RunId) :
    History (sys.shared.db.history run) ((sys.shared.db.base.runs run).map (·.status)) ∧
      ∀ pre post s, sys.shared.db.history run = pre ++ s :: post → s.live = false → post = [] := by
  have hrec : Recorded run sys.shared.db :=
    Run.keeps (keeps_recorded run) h ⟨fun _ hs => (by cases hs), List.isChain_nil, rfl⟩
  exact ⟨hrec, fun _ _ _ heq hs => hrec.ended_last heq hs⟩

/-- A request run to its end with nothing in between. -/
def alone (session : ℕ) (req : Request) (steps : ℕ) : List (Event Request) :=
  .begin req :: List.replicate steps (.advance session)

/-- A run is promoted and a proposal raised from it. -/
def promotedAndGated : List (Event Request) :=
  alone 0 (.runs (.promote 7 0 0)) 3 ++ alone 1 (.propose 0 (some 0) "external_action" "{}") 3

/-- The proposal is approved, and the run claimed and completed. -/
def approvedAndCompleted : List (Event Request) :=
  promotedAndGated ++ alone 2 (.approve 1) 4 ++ alone 3 (.runs (.claim 1 1 true)) 4 ++
    alone 4 (.runs (.complete 0 3 2 ⟨.completed, { tokens := 10 }, none, none⟩ {})) 7

theorem statuses_documented_completed : ∃ sys,
    runEvents store serve inTime init approvedAndCompleted = some sys ∧
    sys.shared.db.history 0 = [.active, .waitingOnGate, .active, .completed] ∧
    History [.active, .waitingOnGate, .active, .completed] (some .completed) := by
  have hlast : (runEvents store serve inTime init approvedAndCompleted).map (fun sys =>
      (sys.shared.db.history 0, (sys.shared.db.base.runs 0).map (·.status))) =
      some ([.active, .waitingOnGate, .active, .completed], some .completed) := by decide +kernel
  obtain ⟨sys, hsys, heq⟩ := Option.map_eq_some_iff.mp hlast
  obtain ⟨hhist, hstatus⟩ := Prod.mk.inj heq
  have hall := (statuses_documented (Run.of_runEvents hsys) 0).1
  rw [hhist, hstatus] at hall
  exact ⟨sys, hsys, hhist, hall⟩

/-- The investigation is cancelled while the proposal waits, and the proposal approved after. -/
def cancelledThenApproved : List (Event Request) :=
  promotedAndGated ++ alone 2 (.cancel 0) 5 ++ alone 3 (.approve 1) 4

/-- The approval makes a failed run active. -/
theorem approved_after_failed : ∃ sys,
    runEvents store serve always init cancelledThenApproved = some sys ∧
    sys.shared.db.history 0 = [.active, .waitingOnGate, .failed, .active] ∧
    ¬ (sys.shared.db.history 0).IsChain fun s s' => s' ∈ documented s := by
  have hlast : (runEvents store serve always init cancelledThenApproved).map (fun sys =>
      sys.shared.db.history 0) = some [.active, .waitingOnGate, .failed, .active] := by
    decide +kernel
  obtain ⟨sys, hsys, heq⟩ := Option.map_eq_some_iff.mp hlast
  refine ⟨sys, hsys, heq, ?_⟩
  rw [heq]
  intro hchain
  have hbad := (List.isChain_cons_cons.mp (List.isChain_cons_cons.mp hchain).2).2
  exact absurd (List.isChain_cons_cons.mp hbad).1 (by decide)

end SocTalk.Runs.StatusMachine
