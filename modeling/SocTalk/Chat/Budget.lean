import Mathlib.Algebra.BigOperators.Group.Finset.Basic
import Mathlib.Tactic.Linarith
import SocTalk.Chat.Conversation
import SocTalk.Chat.Spend

/-! One turn at a time, and a budget exceeded by one response at most, where no message is
accepted beside a turn that is under way. -/
namespace SocTalk.Chat
open Transition

/-! ## Turns and spend -/

def ConversationRow.enforceable (c : ConversationRow) : ℚ := c.totalDollars - c.dollarsUnpriced

/-- The enforceable spend of the conversation: what is committed and what is in flight. -/
def Sys.spent (sys : Sys) : ℚ :=
  sys.db.conversation.enforceable + ∑ i ∈ Finset.range sys.opened, (sys.posts i).inFlight

/-- Not over the budget by more than one of the responses. -/
def Within (budget : ℚ) (received : List Response) (spent : ℚ) : Prop :=
  spent ≤ budget ∨ ∃ r ∈ received, spent ≤ budget + r.usage.enforceable

def Sys.OneTurn (sys : Sys) : Prop :=
  ∀ i j, (sys.posts i).running = true → (sys.posts j).running = true → i = j

def Sys.WithinBudget (sys : Sys) : Prop :=
  sys.costTracking = true → Within sys.db.conversation.budgetDollars sys.received sys.spent

/-- A message that finds the row unlocked finds no turn of the conversation under way. -/
def quietPosts (sys : Sys) : Op → Prop
  | .post _ => sys.free sys.opened .forUpdate = true → sys.db.conversation.status = .active →
      ∀ j < sys.opened, (sys.posts j).underWay = false
  | _ => True

instance (sys : Sys) : DecidablePred (quietPosts sys)
  | .post _ => inferInstanceAs (Decidable (_ → _ → ∀ j < _, _))
  | .refuse _ | .accept _ | .start _ | .hear _ _ | .act _ _ | .persist _ _ | .commit _
  | .drop _ | .close => isTrue trivial

theorem Within.mono {budget : ℚ} {rs : List Response} {x : ℚ} (h : Within budget rs x)
    (rs' : List Response) : Within budget (rs ++ rs') x := by
  rcases h with h | ⟨r, hr, h⟩
  · exact Or.inl h
  · exact Or.inr ⟨r, List.mem_append_left _ hr, h⟩

/-! ## The invariant -/

/-- What a post knows and has spent, beside the committed row. -/
def PhaseOk (c : ConversationRow) (tracking : Bool) (rs : List Response) : Phase → Prop
  | .prelude row _ => row.context tracking = c.context tracking
  | .accepted ctx => ctx = c.context tracking
  | .hearing ctx _ _ s => ctx = c.context tracking ∧ s.Counted ∧
      (tracking = true → c.enforceable + s.enforceable < c.budgetDollars)
  | .acting ctx _ _ s _ => ctx = c.context tracking ∧ s.Counted ∧
      (tracking = true → Within c.budgetDollars rs (c.enforceable + s.enforceable))
  | .closing _ _ s => s.Counted ∧
      (tracking = true → Within c.budgetDollars rs (c.enforceable + s.enforceable))
  | .committing s => (s.writes.map Write.totalled).sum.2.1 - (s.writes.map Write.totalled).sum.2.2 =
      s.enforceable ∧
      (tracking = true → Within c.budgetDollars rs (c.enforceable + s.enforceable))
  | .failing _ s => (s.writes.map Write.totalled).sum = 0 ∧
      (tracking = true → Within c.budgetDollars rs (c.enforceable + s.enforceable))
  | .ended => True

/-- At most one post has not ended; the committed row and that post are as they should be. -/
structure Inv (sys : Sys) : Prop where
  unopened : ∀ i, sys.opened ≤ i → sys.posts i = .ended
  one : ∀ i j, sys.posts i ≠ .ended → sys.posts j ≠ .ended → i = j
  row : sys.costTracking = true →
    Within sys.db.conversation.budgetDollars sys.received sys.db.conversation.enforceable
  post : ∀ i, PhaseOk sys.db.conversation sys.costTracking sys.received (sys.posts i)

section

variable {sys : Sys}

theorem Inv.others (h : Inv sys) {i : ℕ} (hi : sys.posts i ≠ .ended) (j : ℕ) (hj : j ≠ i) :
    sys.posts j = .ended := by
  by_contra hne
  exact hj (h.one j i hne hi)

/-- A step of the only post that has not ended. -/
theorem Inv.move {sys' : Sys} {i : ℕ} {p : Phase}
    (hothers : ∀ j, j ≠ i → sys.posts j = .ended)
    (hposts : sys'.posts = Function.update sys.posts i p) (hopen : p = .ended ∨ i < sys'.opened)
    (hrow : sys'.costTracking = true → Within sys'.db.conversation.budgetDollars sys'.received
      sys'.db.conversation.enforceable)
    (hp : PhaseOk sys'.db.conversation sys'.costTracking sys'.received p) : Inv sys' := by
  have hother : ∀ j, j ≠ i → sys'.posts j = .ended := by
    intro j hj
    rw [hposts, Function.update_of_ne hj]
    exact hothers j hj
  have hself : sys'.posts i = p := by rw [hposts, Function.update_self]
  constructor
  · intro k hk
    by_cases hki : k = i
    · subst hki
      rcases hopen with hended | hlt
      · exact hself.trans hended
      · omega
    · exact hother k hki
  · intro a b ha hb
    have hai : a = i := by
      by_contra hne
      exact ha (hother a hne)
    have hbi : b = i := by
      by_contra hne
      exact hb (hother b hne)
    rw [hai, hbi]
  · exact hrow
  · intro k
    by_cases hki : k = i
    · subst hki
      rwa [hself]
    · rw [hother k hki]
      trivial

theorem Inv.lt_opened (h : Inv sys) {i : ℕ} (hi : sys.posts i ≠ .ended) : i < sys.opened := by
  by_contra hle
  exact hi (h.unopened i (by omega))

end

/-! ## What each part of a turn keeps -/

section

variable {c : ConversationRow} {tracking : Bool} {rs : List Response}

theorem lt_budget_of_not_exhausted {x : ℚ} (h : (c.context tracking).exhaustedBy x = false)
    (ht : tracking = true) : c.enforceable + x < c.budgetDollars := by
  subst ht
  have hlt : ¬c.budgetDollars ≤ c.totalDollars - c.dollarsUnpriced + x := by
    simpa [TurnContext.exhaustedBy, ConversationRow.context] using h
  exact not_le.mp hlt

theorem enforceable_hear {s : Loop} (h : s.Counted) (r : Round) :
    (s.hear r).state.enforceable =
      s.enforceable + (r.responses.map fun r => r.usage.enforceable).sum := by
  rw [(h.hear r).enforceable, (s.hear_spec r).2.1, h.enforceable, List.map_append,
    List.sum_append]

/-- Below the budget before it, a response takes the spend over it by its own cost at most. -/
theorem Within.hear {s : Loop} (h : s.Counted) (r : Round)
    (hlt : c.enforceable + s.enforceable < c.budgetDollars) :
    Within c.budgetDollars (rs ++ r.responses) (c.enforceable + (s.hear r).state.enforceable) := by
  rw [enforceable_hear h]
  have hone : r.responses = [] ∨ ∃ x, r.responses = [x] := by
    unfold Round.responses
    split
    · exact Or.inl rfl
    · cases r.reply with
      | error leave => exact Or.inl rfl
      | ok x => exact Or.inr ⟨x, rfl⟩
  rcases hone with hnil | ⟨x, hx⟩
  · rw [hnil]
    left
    simp only [List.map_nil, List.sum_nil, add_zero]
    exact hlt.le
  · rw [hx]
    refine Or.inr ⟨x, by simp, ?_⟩
    simp only [List.map_cons, List.map_nil, List.sum_cons, List.sum_nil, add_zero]
    linarith

theorem enforceable_act {s : Loop} (h : s.Counted) (ctx : TurnContext) (r : Round)
    (hs : (s.act ctx r).state.received = s.received) :
    (s.act ctx r).state.enforceable = s.enforceable := by
  rw [(h.act ctx r).enforceable, hs, h.enforceable]

theorem received_act (s : Loop) (ctx : TurnContext) (r : Round) :
    (s.act ctx r).state.received = s.received := by
  have hcalls := (s.calls_spec r.calls).2.1
  unfold Loop.act
  split
  · rfl
  · split
    · rename_i s' hs'
      rw [hs'] at hcalls
      split
      · exact hcalls
      · split <;> exact hcalls
    · exact hcalls

/-- The loop goes on only below the budget. -/
theorem not_exhausted_of_act {s s' : Loop} {ctx : TurnContext} {r : Round}
    (h : s.act ctx r = .next s') : ctx.exhaustedBy s'.enforceable = false := by
  unfold Loop.act at h
  split at h
  · cases h
  · split at h
    · rename_i s1 _
      split at h
      · cases h
      · split at h
        · cases h
        · rename_i hnot
          cases h
          simpa using hnot
    · rename_i hflow
      exact absurd h (hflow s')

theorem PhaseOk.leave {s : Loop} (focused : Bool) (leave : Leave)
    (hwrites : leave = .dropped ∨ (s.writes.map Write.totalled).sum = 0)
    (hwithin : tracking = true → Within c.budgetDollars rs (c.enforceable + s.enforceable)) :
    PhaseOk c tracking rs (Phase.leave focused s leave) := by
  unfold Phase.leave
  split
  · rcases hwrites with hdrop | hzero
    · cases hdrop
    · exact ⟨hzero, hwithin⟩
  · trivial

theorem Loop.Counted.sum_totalled {s : Loop} (h : s.Counted) :
    (s.writes.map Write.totalled).sum = 0 :=
  sum_map_eq_zero fun w hw => (h.free w hw).2

theorem PhaseOk.follow {ctx : TurnContext} {focused : Bool} {next : Loop → Phase} {flow : Flow}
    (hcounted : flow.state.Counted)
    (hwithin : tracking = true → Within c.budgetDollars rs (c.enforceable + flow.state.enforceable))
    (hnext : ∀ s, flow = .next s → PhaseOk c tracking rs (next s)) :
    PhaseOk c tracking rs (Phase.follow ctx focused next flow) := by
  cases flow with
  | next s => exact hnext s rfl
  | finished s => exact ⟨hcounted, hwithin⟩
  | left leave s => exact PhaseOk.leave focused leave (Or.inr hcounted.sum_totalled) hwithin

/-- The spend in flight, beside the committed row. -/
theorem PhaseOk.within {p : Phase} (h : PhaseOk c tracking rs p) (ht : tracking = true)
    (hrow : Within c.budgetDollars rs c.enforceable) :
    Within c.budgetDollars rs (c.enforceable + p.inFlight) := by
  cases p with
  | prelude row text => simpa [Phase.inFlight] using hrow
  | accepted ctx => simpa [Phase.inFlight] using hrow
  | hearing ctx n focused s => exact Or.inl (h.2.2 ht).le
  | acting ctx n focused s r => exact h.2.2 ht
  | closing ctx focused s => exact h.2 ht
  | committing s => exact h.2 ht
  | failing focused s => exact h.2 ht
  | ended => simpa [Phase.inFlight] using hrow

end

theorem enforceable_applyAll (ws : List Write) (db : Tables) :
    (applyAll ws db).conversation.enforceable = db.conversation.enforceable +
      ((ws.map Write.totalled).sum.2.1 - (ws.map Write.totalled).sum.2.2) := by
  have hspend := (applyAll_spec ws db).1
  have hdollars := congrArg (fun x : Spend => x.2.1) hspend
  have hunpriced := congrArg (fun x : Spend => x.2.2) hspend
  simp only [ConversationRow.spend, Prod.snd_add, Prod.fst_add] at hdollars hunpriced
  unfold ConversationRow.enforceable
  rw [hdollars, hunpriced]
  ring

theorem budgetDollars_applyAll (ws : List Write) (db : Tables) :
    (applyAll ws db).conversation.budgetDollars = db.conversation.budgetDollars := by
  induction ws generalizing db with
  | nil => rfl
  | cons w ws ih =>
    have hcons : applyAll (w :: ws) db = applyAll ws (w.apply db) := rfl
    rw [hcons, ih]
    cases w <;> rfl

/-! ## The steps -/

section

variable {sys : Sys}

theorem Inv.read (h : Inv sys) (text : String) (hquiet : quietPosts sys (.post text)) :
    Inv (sys.step (.post text)) := by
  rw [Sys.step, Sys.read]
  split
  · rename_i hfree
    have hended : ∀ j, sys.posts j = .ended := by
      intro j
      by_cases hj : j < sys.opened
      · have hway := hquiet hfree.1 hfree.2 j hj
        have hlock := List.all_eq_true.mp hfree.1 j (List.mem_range.mpr hj)
        have hne : j ≠ sys.opened := by omega
        cases hp : sys.posts j with
        | prelude row text =>
          rw [hp] at hlock
          simp [hne, Phase.lock, Lock.conflicts] at hlock
        | ended => rfl
        | _ =>
          rw [hp] at hway
          cases hway
      · exact h.unopened j (by omega)
    exact Inv.move (fun j _ => hended j) rfl (Or.inr (by simp)) h.row rfl
  · exact h

theorem Inv.step (h : Inv sys) (op : Op) (hquiet : quietPosts sys op) : Inv (sys.step op) := by
  cases op with
  | post text => exact h.read text hquiet
  | refuse i =>
    rw [Sys.step]
    cases hp : sys.posts i with
    | prelude row text =>
      have hne : sys.posts i ≠ .ended := by rw [hp]; simp
      exact Inv.move (h.others hne) rfl (Or.inl rfl) h.row trivial
    | _ => simpa [hp] using h
  | accept i =>
    have hpost := h.post i
    rw [Sys.step]
    cases hp : sys.posts i with
    | prelude row text =>
      have hne : sys.posts i ≠ .ended := by rw [hp]; simp
      rw [hp] at hpost
      exact Inv.move (h.others hne) rfl (Or.inr (h.lt_opened hne)) h.row hpost
    | _ => simpa [hp] using h
  | start i =>
    have hpost := h.post i
    rw [Sys.step]
    cases hp : sys.posts i with
    | accepted ctx =>
      have hne : sys.posts i ≠ .ended := by rw [hp]; simp
      rw [hp] at hpost
      dsimp only
      split
      · exact Inv.move (h.others hne) rfl (Or.inl rfl) h.row trivial
      · rename_i hnot
        have hctx : ctx = sys.db.conversation.context sys.costTracking := hpost
        rw [hctx, Bool.not_eq_true] at hnot
        exact Inv.move (h.others hne) rfl (Or.inr (h.lt_opened hne)) h.row
          ⟨hctx, Loop.Counted.start, lt_budget_of_not_exhausted hnot⟩
    | _ => simpa [hp] using h
  | hear i r =>
    have hpost := h.post i
    rw [Sys.step]
    cases hp : sys.posts i with
    | hearing ctx n focused s =>
      have hne : sys.posts i ≠ .ended := by rw [hp]; simp
      rw [hp] at hpost
      obtain ⟨hctx, hcounted, hlt⟩ := hpost
      have hwithin : sys.costTracking = true → Within sys.db.conversation.budgetDollars
          (sys.received ++ r.responses)
          (sys.db.conversation.enforceable + (s.hear r).state.enforceable) :=
        fun ht => Within.hear hcounted r (hlt ht)
      have hcounted' := hcounted.hear r
      refine Inv.move (h.others hne) rfl (Or.inr (h.lt_opened hne))
        (fun ht => (h.row ht).mono r.responses) ?_
      apply PhaseOk.follow hcounted' hwithin
      intro s' hs'
      rw [hs'] at hcounted' hwithin
      exact ⟨hctx, hcounted', hwithin⟩
    | _ => simpa [hp] using h
  | act i focus =>
    have hpost := h.post i
    rw [Sys.step]
    cases hp : sys.posts i with
    | acting ctx n focused s r =>
      have hne : sys.posts i ≠ .ended := by rw [hp]; simp
      rw [hp] at hpost
      obtain ⟨hctx, hcounted, hwithin⟩ := hpost
      dsimp only
      split
      · have hcounted' := hcounted.act ctx r
        have henf := enforceable_act hcounted ctx r (received_act s ctx r)
        refine Inv.move (h.others hne) rfl (Or.inr (h.lt_opened hne)) h.row ?_
        apply PhaseOk.follow hcounted' (fun ht => by rw [henf]; exact hwithin ht)
        intro s' hs'
        have hlt := not_exhausted_of_act hs'
        rw [hs'] at hcounted' henf
        rw [hctx] at hlt
        have henf' : s'.enforceable = s.enforceable := henf
        unfold Phase.again
        split
        · exact ⟨hctx, hcounted', lt_budget_of_not_exhausted hlt⟩
        · exact ⟨hcounted', fun ht => by rw [henf']; exact hwithin ht⟩
      · exact h
    | _ => simpa [hp] using h
  | persist i closing =>
    have hpost := h.post i
    rw [Sys.step]
    cases hp : sys.posts i with
    | closing ctx focused s =>
      have hne : sys.posts i ≠ .ended := by rw [hp]; simp
      rw [hp] at hpost
      obtain ⟨hcounted, hwithin⟩ := hpost
      dsimp only
      split
      · refine Inv.move (h.others hne) rfl (Or.inr (h.lt_opened hne)) h.row ?_
        rcases s.persist_cases ctx sys.db.conversation closing with
          ⟨-, s', heq, -, henf, hwrites⟩ | ⟨-, leave, s', heq, -, henf, hwrites⟩
        · rw [heq]
          refine ⟨?_, fun ht => by rw [Flow.state_finished, henf]; exact hwithin ht⟩
          rw [Flow.state_finished, hwrites, sum_map_concat,
            sum_map_eq_zero (hcounted.totalled ctx), zero_add, henf]
          exact sub_sub_cancel _ _
        · rw [heq]
          refine PhaseOk.leave focused leave ?_ (fun ht => by rw [henf]; exact hwithin ht)
          rcases hwrites with hdrop | hwrites
          · exact Or.inl hdrop
          · exact Or.inr (sum_map_eq_zero fun w hw => hcounted.totalled ctx w (hwrites w hw))
      · exact h
    | _ => simpa [hp] using h
  | commit i =>
    have hpost := h.post i
    rw [Sys.step]
    cases hp : sys.posts i with
    | committing s =>
      have hne : sys.posts i ≠ .ended := by rw [hp]; simp
      rw [hp] at hpost
      refine Inv.move (h.others hne) rfl (Or.inl rfl) ?_ trivial
      intro ht
      rw [budgetDollars_applyAll, enforceable_applyAll, hpost.1]
      exact hpost.2 ht
    | failing focused s =>
      have hne : sys.posts i ≠ .ended := by rw [hp]; simp
      rw [hp] at hpost
      refine Inv.move (h.others hne) rfl (Or.inl rfl) ?_ trivial
      intro ht
      have hzero : (0 : Spend).2.1 - (0 : Spend).2.2 = 0 := sub_self 0
      rw [budgetDollars_applyAll, enforceable_applyAll, hpost.1, hzero, add_zero]
      exact h.row ht
    | _ => simpa [hp] using h
  | drop i =>
    rw [Sys.step]
    by_cases hi : sys.posts i = .ended
    · have hsame : sys.set i .ended = sys := by
        unfold Sys.set
        rw [← hi, Function.update_eq_self]
      rw [hsame]
      exact h
    · exact Inv.move (h.others hi) rfl (Or.inl rfl) h.row trivial
  | close =>
    rw [Sys.step]
    split
    · exact ⟨h.unopened, h.one, h.row, h.post⟩
    · exact h

end

theorem Inv.create (modelName : String) {budget : ℚ} (hbudget : 0 < budget)
    (costTracking : Bool) : Inv (Sys.create modelName budget costTracking) := by
  refine ⟨fun _ _ => rfl, fun _ _ h => absurd rfl h, fun _ => Or.inl ?_, fun _ => trivial⟩
  simpa [Sys.create, ConversationRow.enforceable] using hbudget.le

theorem Phase.ne_ended {p : Phase} (h : p.running = true) : p ≠ .ended := by
  rintro rfl
  cases h

theorem Inv.oneTurn {sys : Sys} (h : Inv sys) : sys.OneTurn :=
  fun i j hi hj => h.one i j (Phase.ne_ended hi) (Phase.ne_ended hj)

theorem Inv.withinBudget {sys : Sys} (h : Inv sys) : sys.WithinBudget := by
  intro ht
  unfold Sys.spent
  by_cases hex : ∃ i, sys.posts i ≠ .ended
  · obtain ⟨i, hi⟩ := hex
    have hzero : ∀ j ∈ Finset.range sys.opened, j ≠ i → (sys.posts j).inFlight = 0 := by
      intro j _ hj
      rw [h.others hi j hj]
      rfl
    have hmem : i ∉ Finset.range sys.opened → (sys.posts i).inFlight = 0 :=
      fun hnot => absurd (Finset.mem_range.mpr (h.lt_opened hi)) hnot
    rw [Finset.sum_eq_single i hzero hmem]
    exact (h.post i).within ht (h.row ht)
  · have hzero : ∀ j ∈ Finset.range sys.opened, (sys.posts j).inFlight = 0 := by
      intro j _
      rw [not_not.mp fun hne => hex ⟨j, hne⟩]
      rfl
    rw [Finset.sum_eq_zero hzero, add_zero]
    exact h.row ht

/-- Where every message that finds the row unlocked finds no turn under way, there is one turn
at a time, and the budget is exceeded by one response at most. -/
theorem oneTurn_withinBudget (modelName : String) (budget : ℚ) (hbudget : 0 < budget)
    (costTracking : Bool) (sys : Sys)
    (hrun : Run Sys.step quietPosts (Sys.create modelName budget costTracking) sys) :
    sys.OneTurn ∧ sys.WithinBudget := by
  have hinv : Inv sys :=
    Run.inv (fun _ op h hquiet => h.step op hquiet) (Inv.create modelName hbudget costTracking)
      hrun
  exact ⟨hinv.oneTurn, hinv.withinBudget⟩

/-- A response of $1.50 that calls no tool. -/
def dearRound : Round where
  reply := .ok ⟨⟨100, 20, 3 / 2, false⟩, .text "Looking."⟩

/-- A second message comes while the first turn hears the model. -/
def overlapping : List Op :=
  [.post "a", .accept 0, .start 0, .post "b", .accept 1, .start 1, .hear 0 dearRound,
    .hear 1 dearRound]

/-- A second message comes after the first turn. -/
def inTurn : List Op :=
  [.post "a", .accept 0, .start 0, .hear 0 dearRound, .act 0 false, .persist 0 {}, .commit 0,
    .post "b", .accept 1, .start 1]

theorem oneTurn_withinBudget_inTurn :
    ∃ sys, Run Sys.step quietPosts (Sys.create "claude-sonnet-4-6" 1 true) sys ∧
      sys.db.conversation.enforceable = 3 / 2 ∧ sys.OneTurn ∧ sys.WithinBudget := by
  have hsome : ((runOps Sys.step quietPosts (Sys.create "claude-sonnet-4-6" 1 true) inTurn).any
      fun sys => decide (sys.db.conversation.enforceable = 3 / 2)) = true := by
    decide +kernel
  obtain ⟨sys, hsys, henf⟩ := (Option.any_eq_true _ _).mp hsome
  have hrun := Run.of_runOps hsys
  exact ⟨sys, hrun, of_decide_eq_true henf,
    oneTurn_withinBudget "claude-sonnet-4-6" 1 (by decide) true sys hrun⟩

/-- Two turns of one conversation run side by side, and $3 are spent of a budget of $1 by
responses of $1.50. -/
theorem not_oneTurn_overlapping :
    ∃ sys, Run Sys.step (fun _ _ => True) (Sys.create "claude-sonnet-4-6" 1 true) sys ∧
      ¬sys.OneTurn ∧ ¬sys.WithinBudget := by
  have hsome : ((runOps Sys.step (fun _ _ => True) (Sys.create "claude-sonnet-4-6" 1 true)
      overlapping).any fun sys => (sys.posts 0).running && (sys.posts 1).running &&
        sys.costTracking && decide (sys.db.conversation.budgetDollars = 1) &&
        decide (sys.spent = 3) &&
        decide (∀ r ∈ sys.received, r.usage.enforceable = 3 / 2)) = true := by
    decide +kernel
  obtain ⟨sys, hsys, hbad⟩ := (Option.any_eq_true _ _).mp hsome
  simp only [Bool.and_eq_true, decide_eq_true_eq] at hbad
  obtain ⟨⟨⟨⟨⟨hzero, hone⟩, htracking⟩, hbudget⟩, hspent⟩, hcost⟩ := hbad
  refine ⟨sys, Run.of_runOps hsys, ?_, ?_⟩
  · intro h
    cases h 0 1 hzero hone
  · intro h
    have hwithin := h htracking
    rw [hbudget, hspent] at hwithin
    rcases hwithin with hle | ⟨r, hr, hle⟩
    · norm_num at hle
    · rw [hcost r hr] at hle
      norm_num at hle

end SocTalk.Chat
