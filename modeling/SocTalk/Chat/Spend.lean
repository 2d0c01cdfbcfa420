import SocTalk.Chat.Turn
import Mathlib.Algebra.Group.Prod

/-! What the commit of a turn records of the responses it received. -/
namespace SocTalk.Chat

/-! ## The invariant of the loop -/

/-- Tokens, dollars and, kept apart, the dollars of unknown price. -/
abbrev Spend := ℤ × ℚ × ℚ

def Usage.spend (u : Usage) : Spend :=
  (u.tokensIn + u.tokensOut, u.dollars, u.dollars - u.enforceable)

def MessageRow.spend (m : MessageRow) : Spend :=
  (m.tokensIn + m.tokensOut, m.dollars, m.dollarsUnpriced)

def ConversationRow.spend (c : ConversationRow) : Spend :=
  (c.totalTokens, c.totalDollars, c.dollarsUnpriced)

def spentOn (rs : List Response) : Spend := (rs.map fun r => r.usage.spend).sum

/-- With a price, everything is enforceable. -/
theorem Usage.unpriced_eq (u : Usage) (h : 0 ≤ u.dollars) :
    u.dollars - u.enforceable = if u.unknown then u.dollars else 0 := by
  cases hu : u.unknown <;> simp [Usage.enforceable, hu, h]

/-- What a write adds to the spend of the message rows. -/
def Write.recorded : Write → Spend
  | .insertMessage row => row.spend
  | .addTotals _ _ _ _ => 0

/-- What it adds to the totals of the conversation. -/
def Write.totalled : Write → Spend
  | .insertMessage _ => 0
  | .addTotals tokens dollars unpriced _ => (tokens, dollars, unpriced)

/-- A write without spend. -/
def Write.Free (w : Write) : Prop := w.recorded = 0 ∧ w.totalled = 0

/-- The accumulators are the sums over the responses, and nothing of them is written yet. -/
structure Loop.Counted (s : Loop) : Prop where
  tokensIn : s.tokensIn = (s.received.map fun r => r.usage.tokensIn).sum
  tokensOut : s.tokensOut = (s.received.map fun r => r.usage.tokensOut).sum
  dollars : s.dollars = (s.received.map fun r => r.usage.dollars).sum
  enforceable : s.enforceable = (s.received.map fun r => r.usage.enforceable).sum
  silent : s.assistantText = "" ↔ ∀ r ∈ s.received, r.displayText = ""
  free : ∀ w ∈ s.writes, w.Free

@[simp] theorem Flow.state_next (s : Loop) : (Flow.next s).state = s := rfl
@[simp] theorem Flow.state_finished (s : Loop) : (Flow.finished s).state = s := rfl
@[simp] theorem Flow.state_left (leave : Leave) (s : Loop) : (Flow.left leave s).state = s := rfl

theorem Loop.Counted.start : Loop.Counted {} := by
  constructor <;> simp

section

variable {s : Loop}

theorem Loop.Counted.emit (h : s.Counted) (f : Frame) : (s.emit f).Counted :=
  ⟨h.tokensIn, h.tokensOut, h.dollars, h.enforceable, h.silent, h.free⟩

theorem Loop.Counted.stop (h : s.Counted) (reason : StopReason) :
    Loop.Counted { s with stopReason := reason } :=
  ⟨h.tokensIn, h.tokensOut, h.dollars, h.enforceable, h.silent, h.free⟩

theorem Loop.Counted.propose (h : s.Counted) (payload : Option Py.Value) :
    Loop.Counted { s with actionPayload := payload } :=
  ⟨h.tokensIn, h.tokensOut, h.dollars, h.enforceable, h.silent, h.free⟩

theorem Loop.Counted.write (h : s.Counted) {w : Write} (hw : w.Free) : (s.write w).Counted := by
  refine ⟨h.tokensIn, h.tokensOut, h.dollars, h.enforceable, h.silent, ?_⟩
  intro w' hw'
  rcases List.mem_append.mp hw' with hw' | hw'
  · exact h.free w' hw'
  · rwa [List.mem_singleton.mp hw']

/-- A response with its text. -/
theorem Loop.Counted.receive (h : s.Counted) (r : Response) :
    ((s.receive r).speak r.displayText).Counted := by
  have hspoken : ∀ text,
      s.assistantText ++ text = "" ↔ s.assistantText = "" ∧ text = "" := by simp
  unfold Loop.speak Loop.receive
  split
  · rename_i htext
    constructor
    · simp [h.tokensIn]
    · simp [h.tokensOut]
    · simp [h.dollars]
    · simp [h.enforceable]
    · simp [h.silent, or_imp, forall_and, htext]
    · exact h.free
  · rename_i htext
    constructor
    · simp [Loop.emit, h.tokensIn]
    · simp [Loop.emit, h.tokensOut]
    · simp [Loop.emit, h.dollars]
    · simp [Loop.emit, h.enforceable]
    · simp [Loop.emit, or_imp, forall_and, htext]
    · exact h.free

theorem toolMessage_free (id name : String) (args : Py.Value) (result : ToolResult) :
    (Write.insertMessage (toolMessage id name args result)).Free := ⟨rfl, rfl⟩

theorem actionMessage_free (payload : Py.Value) :
    (Write.insertMessage (actionMessage payload)).Free := ⟨rfl, rfl⟩

theorem Loop.Counted.call (h : s.Counted) (c : Call) : (s.call c).state.Counted := by
  unfold Loop.call
  split
  · exact h.stop _
  · split
    · exact h
    · split <;> exact (h.propose _).emit _
    · split
      · exact h.emit _
      · split
        · exact h.emit _
        · split
          · exact (h.emit _).emit _
          · split
            · exact (h.emit _).emit _
            · exact ((h.emit _).emit _).write (toolMessage_free _ _ _ _)

theorem Loop.Counted.calls (h : s.Counted) (cs : List Call) : (s.calls cs).state.Counted := by
  induction cs generalizing s with
  | nil => exact h
  | cons c cs ih =>
    have hc := h.call c
    unfold Loop.calls
    cases hf : s.call c with
    | next s' =>
      rw [hf] at hc
      exact ih hc
    | finished s' => rwa [hf] at hc
    | left leave s' => rwa [hf] at hc

theorem Loop.Counted.act (h : s.Counted) (ctx : TurnContext) (r : Round) :
    (s.act ctx r).state.Counted := by
  have hcalls := h.calls r.calls
  unfold Loop.act
  split
  · exact h
  · split
    · rename_i s' hs'
      rw [hs'] at hcalls
      split
      · exact hcalls.stop _
      · split
        · exact hcalls.stop _
        · exact hcalls
    · exact hcalls

theorem Loop.Counted.hear (h : s.Counted) (r : Round) : (s.hear r).state.Counted := by
  unfold Loop.hear
  split
  · exact h.stop _
  · split
    · exact h
    · rename_i response _
      have hrec := h.receive response
      dsimp only
      split
      · rw [Flow.state_left]
        exact hrec
      · rw [Flow.state_next]
        exact hrec

theorem Loop.Counted.round (h : s.Counted) (ctx : TurnContext) (r : Round) :
    (s.round ctx r).state.Counted := by
  have hhear := h.hear r
  unfold Loop.round
  split
  · rename_i s' hs'
    rw [hs'] at hhear
    exact Loop.Counted.act hhear ctx r
  · exact hhear

theorem Loop.Counted.loop (t : Turn) (left i : ℕ) (h : s.Counted) :
    (t.loop left i s).state.Counted := by
  induction left generalizing i s with
  | zero => exact h
  | succ left ih =>
    have hround := h.round t.ctx (t.rounds i)
    unfold Turn.loop
    split
    · rename_i s' hs'
      rw [hs'] at hround
      exact ih (i + 1) hround
    · exact hround

end

/-! ## How a turn stops, read off what it meets -/

inductive Exit where
  | endTurn
  | disconnected
  | budget
  | left
  deriving DecidableEq

/-- Where the loop is, once it is over or left. -/
def Flow.exit : Flow → Option Exit
  | .next _ => none
  | .finished s =>
    match s.stopReason with
    | .disconnected => some .disconnected
    | .budgetExhausted => some .budget
    | .endTurn => some .endTurn
  | .left _ _ => some .left

/-- The way a call stops the turn, if it does. -/
def Call.stops (c : Call) : Option Exit :=
  if c.gone then some .disconnected
  else
    match c.kind with
    | .propose none => none
    | .propose (some _) => if c.callDropped then some .left else none
    | .tool _ _ (.error _) => some .left
    | .tool _ _ (.ok _) =>
      if c.callDropped ∨ c.resultDropped ∨ c.insert.isSome then some .left else none

/-- The way the calls of an iteration stop the turn, if they do; without calls it ends. -/
def Round.callsStop (r : Round) : Option Exit :=
  if r.calls.isEmpty then some .endTurn
  else (r.calls.findSome? Call.stops).or (if r.goneAfter then some .disconnected else none)

/-- The way an iteration stops the turn before its calls, if it does. -/
def Round.replyStops (r : Round) : Option Exit :=
  if r.gone then some .disconnected
  else
    match r.reply with
    | .error _ => some .left
    | .ok response => if response.displayText ≠ "" ∧ r.deltaDropped then some .left else none

/-- The way an iteration stops the turn before the budget is looked at, if it does. -/
def Round.stops (r : Round) : Option Exit := r.replyStops.or r.callsStop

/-- The responses of the first `n` iterations. -/
def Turn.responses (t : Turn) (n : ℕ) : List Response :=
  (List.range n).flatMap fun i => (t.rounds i).responses

def Turn.enforceable (t : Turn) (n : ℕ) : ℚ :=
  ((t.responses n).map fun r => r.usage.enforceable).sum

/-- How many iterations are begun, and how the last one stops, from the `i`-th on with `left`
of them left. -/
def Turn.exitFrom (t : Turn) : ℕ → ℕ → ℕ × Exit
  | 0, i => (i, .endTurn)
  | left + 1, i =>
    match (t.rounds i).stops with
    | some e => (i + 1, e)
    | none =>
      if t.ctx.exhaustedBy (t.enforceable (i + 1)) then (i + 1, .budget)
      else t.exitFrom left (i + 1)

theorem Turn.responses_succ (t : Turn) (n : ℕ) :
    t.responses (n + 1) = t.responses n ++ (t.rounds n).responses := by
  simp [Turn.responses, List.range_succ, List.flatMap_append]

section

variable {s : Loop}

@[simp] theorem Flow.exit_next : (Flow.next s).exit = none := rfl
@[simp] theorem Flow.exit_left (leave : Leave) : (Flow.left leave s).exit = some .left := rfl

theorem Flow.exit_finished (s : Loop) : ∃ e, (Flow.finished s).exit = some e := by
  cases h : s.stopReason <;> simp [Flow.exit, h]

theorem Loop.call_spec (s : Loop) (c : Call) :
    (s.call c).exit = c.stops ∧ (s.call c).state.received = s.received ∧
      (s.call c).state.enforceable = s.enforceable ∧
      ((s.call c).exit = none → (s.call c).state.stopReason = s.stopReason) := by
  unfold Loop.call Call.stops
  split
  · simp [Flow.exit]
  · cases hk : c.kind with
    | propose payload =>
      cases payload with
      | none => simp
      | some payload => cases hc : c.callDropped <;> simp [Loop.emit]
    | tool name args dispatch =>
      cases dispatch with
      | error leave => cases hc : c.callDropped <;> simp [Loop.emit]
      | ok result =>
        cases hc : c.callDropped <;> cases hr : c.resultDropped <;> cases hi : c.insert <;>
          simp [Loop.emit, Loop.write]

theorem Loop.calls_spec (s : Loop) (cs : List Call) :
    (s.calls cs).exit = cs.findSome? Call.stops ∧ (s.calls cs).state.received = s.received ∧
      (s.calls cs).state.enforceable = s.enforceable ∧
      ((s.calls cs).exit = none → (s.calls cs).state.stopReason = s.stopReason) := by
  induction cs generalizing s with
  | nil => simp [Loop.calls]
  | cons c cs ih =>
    have hcall := s.call_spec c
    unfold Loop.calls
    cases hf : s.call c with
    | next s' =>
      rw [hf] at hcall
      obtain ⟨hexit, hrec, henf, hstop⟩ := hcall
      obtain ⟨hexit', hrec', henf', hstop'⟩ := ih s'
      have hnone : c.stops = none := hexit.symm
      rw [List.findSome?_cons, hnone]
      refine ⟨hexit', hrec'.trans hrec, henf'.trans henf, ?_⟩
      intro h
      exact (hstop' h).trans (hstop rfl)
    | finished s' =>
      rw [hf] at hcall
      obtain ⟨e, he⟩ := Flow.exit_finished s'
      have hstops : c.stops = some e := hcall.1.symm.trans he
      rw [List.findSome?_cons, hstops]
      exact ⟨he, hcall.2.1, hcall.2.2.1, fun h => by rw [he] at h; cases h⟩
    | left leave s' =>
      rw [hf] at hcall
      have hstops : c.stops = some .left := hcall.1.symm
      rw [List.findSome?_cons, hstops]
      exact ⟨rfl, hcall.2.1, hcall.2.2.1, fun h => by cases h⟩

theorem Loop.speak_spec (s : Loop) (text : String) :
    (s.speak text).received = s.received ∧ (s.speak text).enforceable = s.enforceable ∧
      (s.speak text).stopReason = s.stopReason ∧
      (s.speak text).actionPayload = s.actionPayload ∧ (s.speak text).writes = s.writes := by
  unfold Loop.speak
  split <;> exact ⟨rfl, rfl, rfl, rfl, rfl⟩

theorem Loop.act_spec (hs : s.stopReason = .endTurn) (ctx : TurnContext) (r : Round) :
    (s.act ctx r).exit = (r.callsStop.or
      (if ctx.exhaustedBy (s.act ctx r).state.enforceable then some .budget else none)) ∧
      (s.act ctx r).state.received = s.received ∧
      ((s.act ctx r).exit = none → (s.act ctx r).state.stopReason = .endTurn) := by
  obtain ⟨hexit, hrec, -, hstop⟩ := s.calls_spec r.calls
  unfold Loop.act Round.callsStop
  split
  · have hend : (Flow.finished s).exit = some .endTurn := by simp [Flow.exit, hs]
    rw [hend]
    exact ⟨rfl, rfl, fun h => by cases h⟩
  · cases hf : s.calls r.calls with
    | next s' =>
      rw [hf] at hexit hrec hstop
      have hend : s'.stopReason = .endTurn := (hstop rfl).trans hs
      rw [← hexit, Flow.exit_next, Option.none_or]
      dsimp only
      split
      · exact ⟨rfl, hrec, fun h => by cases h⟩
      · rw [Option.none_or]
        split
        · rename_i hbudget
          exact ⟨(if_pos hbudget).symm, hrec, fun h => by cases h⟩
        · rename_i hbudget
          exact ⟨(if_neg hbudget).symm, hrec, fun _ => hend⟩
    | finished s' =>
      obtain ⟨e, he⟩ := Flow.exit_finished s'
      rw [hf] at hexit hrec
      rw [← hexit]
      dsimp only
      rw [he]
      exact ⟨rfl, hrec, fun h => by cases h⟩
    | left leave s' =>
      rw [hf] at hexit hrec
      rw [← hexit]
      exact ⟨rfl, hrec, fun h => by cases h⟩

theorem Loop.hear_spec (s : Loop) (r : Round) :
    (s.hear r).exit = r.replyStops ∧ (s.hear r).state.received = s.received ++ r.responses ∧
      ((s.hear r).exit = none → (s.hear r).state.stopReason = s.stopReason ∧
        (s.hear r).state.actionPayload = s.actionPayload ∧
        (s.hear r).state.writes = s.writes) := by
  unfold Loop.hear Round.replyStops Round.responses
  split
  · simp [Flow.exit]
  · cases hreply : r.reply with
    | error leave => simp [Except.toOption]
    | ok response =>
      have hspeak := (s.receive response).speak_spec response.displayText
      have hrec : ((s.receive response).speak response.displayText).received =
          s.received ++ [response] := hspeak.1
      dsimp only
      split
      · rw [Flow.state_left, Flow.exit_left]
        exact ⟨rfl, hrec, fun h => by cases h⟩
      · rw [Flow.state_next, Flow.exit_next]
        exact ⟨rfl, hrec, fun _ => ⟨hspeak.2.2.1, hspeak.2.2.2.1, hspeak.2.2.2.2⟩⟩

/-- An iteration stops as it is read off what it meets, or by the budget. -/
theorem Loop.round_spec (hs : s.stopReason = .endTurn) (ctx : TurnContext) (r : Round) :
    (s.round ctx r).exit = (r.stops.or
      (if ctx.exhaustedBy (s.round ctx r).state.enforceable then some .budget else none)) ∧
      (s.round ctx r).state.received = s.received ++ r.responses ∧
      ((s.round ctx r).exit = none → (s.round ctx r).state.stopReason = .endTurn) := by
  obtain ⟨hexit, hrec, hkeep⟩ := s.hear_spec r
  unfold Loop.round Round.stops
  cases hf : s.hear r with
  | next s' =>
    rw [hf] at hexit hrec hkeep
    obtain ⟨hexit', hrec', hstop⟩ := Loop.act_spec ((hkeep rfl).1.trans hs) ctx r
    rw [← hexit, Flow.exit_next, Option.none_or]
    exact ⟨hexit', hrec'.trans hrec, hstop⟩
  | finished s' =>
    obtain ⟨e, he⟩ := Flow.exit_finished s'
    rw [hf] at hexit hrec
    rw [← hexit]
    dsimp only
    rw [he]
    exact ⟨rfl, hrec, fun h => by cases h⟩
  | left leave s' =>
    rw [hf] at hexit hrec
    rw [← hexit]
    exact ⟨rfl, hrec, fun h => by cases h⟩

/-- What the loop has counted before its `i`-th iteration. -/
structure Loop.At (t : Turn) (i : ℕ) (s : Loop) : Prop where
  counted : s.Counted
  stopReason : s.stopReason = .endTurn
  received : s.received = t.responses i

theorem Loop.At.round {t : Turn} {i : ℕ} (h : s.At t i) :
    (s.round t.ctx (t.rounds i)).state.Counted ∧
      (s.round t.ctx (t.rounds i)).state.received = t.responses (i + 1) := by
  have hrec := (Loop.round_spec h.stopReason t.ctx (t.rounds i)).2.1
  rw [h.received, ← t.responses_succ] at hrec
  exact ⟨h.counted.round t.ctx (t.rounds i), hrec⟩

/-- An iteration goes on to the next, or its stop is that of the loop. -/
theorem Turn.loop_cases (t : Turn) (left i : ℕ) (h : s.At t i) :
    (∃ s', s.round t.ctx (t.rounds i) = .next s' ∧ s'.At t (i + 1) ∧
      t.loop (left + 1) i s = t.loop left (i + 1) s' ∧
      t.exitFrom (left + 1) i = t.exitFrom left (i + 1)) ∨
    (t.loop (left + 1) i s = s.round t.ctx (t.rounds i) ∧
      (t.exitFrom (left + 1) i).1 = i + 1 ∧
      (s.round t.ctx (t.rounds i)).exit = some (t.exitFrom (left + 1) i).2) := by
  obtain ⟨hexit, -, hstop⟩ := Loop.round_spec h.stopReason t.ctx (t.rounds i)
  obtain ⟨hcounted, hrec⟩ := h.round
  have henf : (s.round t.ctx (t.rounds i)).state.enforceable = t.enforceable (i + 1) := by
    rw [hcounted.enforceable, hrec]
    rfl
  rw [henf] at hexit
  have hfrom : t.exitFrom (left + 1) i =
      match (s.round t.ctx (t.rounds i)).exit with
      | some e => (i + 1, e)
      | none => t.exitFrom left (i + 1) := by
    rw [hexit, Turn.exitFrom]
    cases (t.rounds i).stops with
    | some e => rfl
    | none =>
      dsimp only
      split <;> rfl
  cases hf : s.round t.ctx (t.rounds i) with
  | next s' =>
    rw [hf] at hcounted hrec hstop hfrom
    refine Or.inl ⟨s', rfl, ⟨hcounted, hstop rfl, hrec⟩, ?_, hfrom⟩
    rw [Turn.loop, hf]
  | finished s' =>
    obtain ⟨e, he⟩ := Flow.exit_finished s'
    rw [hf, he] at hfrom
    refine Or.inr ⟨?_, by rw [hfrom], by rw [hfrom, he]⟩
    rw [Turn.loop, hf]
  | left leave s' =>
    rw [hf] at hfrom
    refine Or.inr ⟨?_, by rw [hfrom]; rfl, by rw [hfrom]; rfl⟩
    rw [Turn.loop, hf]

/-- The loop stops as it is read off what it meets, with the responses of the iterations it
began. -/
theorem Turn.loop_spec (t : Turn) (left i : ℕ) (h : s.At t i) :
    (t.loop left i s).exit = some (t.exitFrom left i).2 ∧
      (t.loop left i s).state.received = t.responses (t.exitFrom left i).1 := by
  induction left generalizing i s with
  | zero => exact ⟨by simp [Turn.loop, Turn.exitFrom, Flow.exit, h.stopReason], h.received⟩
  | succ left ih =>
    rcases t.loop_cases left i h with ⟨s', -, hat, hloop, hfrom⟩ | ⟨hloop, hn, he⟩
    · rw [hloop, hfrom]
      exact ih (i + 1) hat
    · rw [hloop, hn]
      exact ⟨he, h.round.2⟩

end

/-! ## Proposals -/

def Call.proposes (c : Call) : Bool :=
  match c.kind with
  | .propose payload => payload.isSome
  | .tool _ _ _ => false

/-- A proposal is surfaced in the first `n` iterations. -/
def Turn.proposes (t : Turn) (n : ℕ) : Bool :=
  (List.range n).any fun i => (t.rounds i).calls.any Call.proposes

/-- The turn runs to its end with the client there. -/
def Exit.Attended (e : Exit) : Prop := e = .endTurn ∨ e = .budget

section

variable {s : Loop}

theorem Call.not_attended {c : Call} {e : Exit} (h : c.stops = some e) : ¬e.Attended := by
  have hcases : e = .disconnected ∨ e = .left := by
    unfold Call.stops at h
    split at h
    · exact Or.inl (Option.some.inj h).symm
    · split at h
      · cases h
      · split at h
        · exact Or.inr (Option.some.inj h).symm
        · cases h
      · exact Or.inr (Option.some.inj h).symm
      · split at h
        · exact Or.inr (Option.some.inj h).symm
        · cases h
  rcases hcases with rfl | rfl <;> simp [Exit.Attended]

theorem Loop.call_payload (s : Loop) (c : Call) (h : (s.call c).exit = none) :
    (s.call c).state.actionPayload.isSome = (s.actionPayload.isSome || c.proposes) := by
  unfold Loop.call at h ⊢
  unfold Call.proposes
  split at h
  · simp [Flow.exit] at h
  · rename_i hgone
    rw [if_neg hgone]
    cases hk : c.kind with
    | propose payload =>
      rw [hk] at h
      cases payload with
      | none => simp
      | some payload => cases hc : c.callDropped <;> simp [Loop.emit]
    | tool name args dispatch =>
      cases dispatch with
      | error leave => cases hc : c.callDropped <;> simp [Loop.emit]
      | ok result =>
        cases hc : c.callDropped <;> cases hr : c.resultDropped <;> cases hi : c.insert <;>
          simp [Loop.emit, Loop.write]

theorem Loop.calls_payload (s : Loop) (cs : List Call) (h : (s.calls cs).exit = none) :
    (s.calls cs).state.actionPayload.isSome =
      (s.actionPayload.isSome || cs.any Call.proposes) := by
  induction cs generalizing s with
  | nil => simp [Loop.calls]
  | cons c cs ih =>
    have hcall := s.call_payload c
    unfold Loop.calls at h ⊢
    cases hf : s.call c with
    | next s' =>
      rw [hf] at h hcall
      rw [ih s' h, List.any_cons, ← Bool.or_assoc]
      exact congrArg (· || cs.any Call.proposes) (hcall rfl)
    | finished s' =>
      rw [hf] at h
      obtain ⟨e, he⟩ := Flow.exit_finished s'
      exact absurd (he.symm.trans h) (by simp)
    | left leave s' => rw [hf] at h; cases h

theorem Loop.act_payload (s : Loop) (ctx : TurnContext) (r : Round)
    (h : ∀ e, (s.act ctx r).exit = some e → e.Attended) :
    (s.act ctx r).state.actionPayload.isSome =
      (s.actionPayload.isSome || r.calls.any Call.proposes) := by
  have hcalls := s.calls_spec r.calls
  have hpayload := s.calls_payload r.calls
  unfold Loop.act at h ⊢
  by_cases hempty : r.calls.isEmpty
  · rw [if_pos hempty, List.isEmpty_iff.mp hempty]
    simp
  · rw [if_neg hempty] at h ⊢
    cases hf : s.calls r.calls with
    | next s' =>
      rw [hf] at hpayload
      dsimp only
      split
      · exact hpayload rfl
      · split <;> exact hpayload rfl
    | finished s' =>
      rw [hf] at h hcalls
      obtain ⟨e, he⟩ := Flow.exit_finished s'
      obtain ⟨c, -, hc⟩ := List.exists_of_findSome?_eq_some (hcalls.1.symm.trans he)
      exact absurd (h e he) (Call.not_attended hc)
    | left leave s' =>
      rw [hf] at h
      exact absurd (h .left rfl) (by simp [Exit.Attended])

theorem Round.not_attended {r : Round} {e : Exit} (h : r.replyStops = some e) :
    ¬e.Attended := by
  have hcases : e = .disconnected ∨ e = .left := by
    unfold Round.replyStops at h
    split at h
    · exact Or.inl (Option.some.inj h).symm
    · split at h
      · exact Or.inr (Option.some.inj h).symm
      · split at h
        · exact Or.inr (Option.some.inj h).symm
        · cases h
  rcases hcases with rfl | rfl <;> simp [Exit.Attended]

theorem Loop.round_payload (s : Loop) (ctx : TurnContext) (r : Round)
    (h : ∀ e, (s.round ctx r).exit = some e → e.Attended) :
    (s.round ctx r).state.actionPayload.isSome =
      (s.actionPayload.isSome || r.calls.any Call.proposes) := by
  obtain ⟨hexit, -, hkeep⟩ := s.hear_spec r
  unfold Loop.round at h ⊢
  cases hf : s.hear r with
  | next s' =>
    rw [hf] at h hkeep
    have hpayload : s'.actionPayload = s.actionPayload := (hkeep rfl).2.1
    rw [← hpayload]
    exact s'.act_payload ctx r h
  | finished s' =>
    obtain ⟨e, he⟩ := Flow.exit_finished s'
    rw [hf] at h hexit
    exact absurd (h e he) (Round.not_attended (hexit.symm.trans he))
  | left leave s' =>
    rw [hf] at h
    exact absurd (h .left rfl) (by simp [Exit.Attended])

theorem Turn.proposes_succ (t : Turn) (n : ℕ) :
    t.proposes (n + 1) = (t.proposes n || (t.rounds n).calls.any Call.proposes) := by
  simp [Turn.proposes, List.range_succ]

theorem Turn.loop_payload (t : Turn) (left i : ℕ) (h : s.At t i)
    (hpayload : s.actionPayload.isSome = t.proposes i)
    (hexit : (t.exitFrom left i).2.Attended) :
    (t.loop left i s).state.actionPayload.isSome = t.proposes (t.exitFrom left i).1 := by
  induction left generalizing i s with
  | zero => exact hpayload
  | succ left ih =>
    have hround := s.round_payload t.ctx (t.rounds i)
    rw [hpayload, ← t.proposes_succ] at hround
    rcases t.loop_cases left i h with ⟨s', hs', hat, hloop, hfrom⟩ | ⟨hloop, hn, he⟩
    · rw [hloop, hfrom]
      rw [hs'] at hround
      rw [hfrom] at hexit
      exact ih (i + 1) hat (hround fun e he => by cases he) hexit
    · rw [hloop, hn]
      apply hround
      intro e he'
      rw [he] at he'
      cases he'
      exact hexit

end

/-! ## The writes of the end -/

/-- The rows inserted after the loop. -/
def Loop.closingRows (ctx : TurnContext) (s : Loop) : List Write :=
  ((s.assistantRow ctx).toList ++ s.actionRow.toList).map .insertMessage

def Loop.totals (s : Loop) : Write :=
  .addTotals (s.tokensIn + s.tokensOut) s.dollars (s.dollars - s.enforceable)
    s.stopReason.newStatus

/-- Nothing keeps the turn from its end: the inserts it makes, the update and the frames. -/
def Loop.Passes (ctx : TurnContext) (s : Loop) (closing : Closing) : Prop :=
  ((s.assistantRow ctx).isSome → closing.assistant = none) ∧
    (s.actionRow.isSome → closing.action = none) ∧ closing.totals = none ∧
    closing.usageDropped = false ∧ closing.doneDropped = false

theorem Flow.outcome_left (closing : Closing) (leave : Leave) (s : Loop) :
    ((Flow.left leave s).outcome closing).received = s.received ∧
      ∀ w ∈ ((Flow.left leave s).outcome closing).writes, w ∈ s.writes := by
  cases leave with
  | dropped => exact ⟨rfl, fun w hw => by cases hw⟩
  | raised category aborted =>
    unfold Flow.outcome Loop.fail
    dsimp only
    split
    · exact ⟨rfl, fun w hw => by cases hw⟩
    · refine ⟨rfl, ?_⟩
      intro w hw
      dsimp only at hw
      split at hw
      · cases hw
      · exact hw

def Loop.writeAll (s : Loop) (ws : List Write) : Loop := { s with writes := s.writes ++ ws }

theorem Loop.insert_spec (s : Loop) (row : Option MessageRow) (outcome : Option Leave) :
    ((row.isSome → outcome = none) ∧
      s.insert row outcome = .next (s.writeAll (row.toList.map .insertMessage))) ∨
    (¬(row.isSome → outcome = none) ∧ ∃ leave, s.insert row outcome = .left leave s) := by
  cases row with
  | none =>
    refine Or.inl ⟨(fun h => by cases h), ?_⟩
    simp [Loop.insert, Loop.writeAll]
  | some row =>
    cases outcome with
    | none => exact Or.inl ⟨fun _ => rfl, rfl⟩
    | some leave => exact Or.inr ⟨by simp, leave, rfl⟩

theorem Loop.finish_spec (s : Loop) (c : ConversationRow) (closing : Closing) :
    ((closing.totals = none ∧ closing.usageDropped = false ∧ closing.doneDropped = false) ∧
      ∃ s', s.finish c closing = .finished s' ∧ s'.received = s.received ∧
        s'.enforceable = s.enforceable ∧ s'.writes = s.writes ++ [s.totals]) ∨
    (¬(closing.totals = none ∧ closing.usageDropped = false ∧ closing.doneDropped = false) ∧
      ∃ leave s', s.finish c closing = .left leave s' ∧ s'.received = s.received ∧
        s'.enforceable = s.enforceable ∧ (leave = .dropped ∨ s'.writes = s.writes)) := by
  unfold Loop.finish
  cases htotals : closing.totals with
  | some leave => exact Or.inr ⟨by simp, leave, s, rfl, rfl, rfl, Or.inr rfl⟩
  | none =>
    cases husage : closing.usageDropped with
    | true => exact Or.inr ⟨by simp, .dropped, _, rfl, rfl, rfl, Or.inl rfl⟩
    | false =>
      cases hdone : closing.doneDropped with
      | true => exact Or.inr ⟨by simp, .dropped, _, rfl, rfl, rfl, Or.inl rfl⟩
      | false => exact Or.inl ⟨by simp, _, rfl, rfl, rfl, rfl⟩

/-- Seen through, the end writes its rows and the totals; else a stream that may still commit
has written at most the rows. -/
theorem Loop.persist_cases (ctx : TurnContext) (s : Loop) (c : ConversationRow)
    (closing : Closing) :
    (s.Passes ctx closing ∧ ∃ s', s.persist ctx c closing = .finished s' ∧
      s'.received = s.received ∧ s'.enforceable = s.enforceable ∧
      s'.writes = s.writes ++ s.closingRows ctx ++ [s.totals]) ∨
    (¬s.Passes ctx closing ∧ ∃ leave s', s.persist ctx c closing = .left leave s' ∧
      s'.received = s.received ∧ s'.enforceable = s.enforceable ∧
      (leave = .dropped ∨ ∀ w ∈ s'.writes, w ∈ s.writes ++ s.closingRows ctx)) := by
  have hrows : s.closingRows ctx = (s.assistantRow ctx).toList.map .insertMessage ++
      s.actionRow.toList.map .insertMessage := List.map_append
  unfold Loop.persist
  rcases s.insert_spec (s.assistantRow ctx) closing.assistant with ⟨hok, heq⟩ | ⟨hbad, leave, heq⟩
  · rw [heq]
    dsimp only
    -- The inserted row changes neither the payload nor the stop reason.
    have haction : (s.writeAll ((s.assistantRow ctx).toList.map .insertMessage)).actionRow =
        s.actionRow := rfl
    rw [haction]
    rcases Loop.insert_spec (s.writeAll ((s.assistantRow ctx).toList.map .insertMessage))
      s.actionRow closing.action with ⟨hok', heq'⟩ | ⟨hbad', leave, heq'⟩
    · rw [heq']
      dsimp only
      rcases Loop.finish_spec ((s.writeAll ((s.assistantRow ctx).toList.map .insertMessage)).writeAll
        (s.actionRow.toList.map .insertMessage)) c closing with
        ⟨hfin, s', heq'', hrec, henf, hwrites⟩ | ⟨hfin, leave, s', heq'', hrec, henf, hwrites⟩
      · refine Or.inl ⟨⟨hok, hok', hfin⟩, s', heq'', hrec, henf, ?_⟩
        rw [hrows, ← List.append_assoc]
        exact hwrites
      · refine Or.inr ⟨fun h => hfin h.2.2, leave, s', heq'', hrec, henf, ?_⟩
        rcases hwrites with rfl | hwrites
        · exact Or.inl rfl
        · right
          rw [hwrites, hrows, ← List.append_assoc]
          exact fun w hw => hw
    · rw [heq']
      refine Or.inr ⟨fun h => hbad' h.2.1, leave, _, rfl, rfl, rfl, Or.inr ?_⟩
      intro w hw
      rw [hrows, ← List.append_assoc]
      exact List.mem_append_left _ hw
  · rw [heq]
    exact Or.inr ⟨fun h => hbad h.1, leave, s, rfl, rfl, rfl,
      Or.inr fun w hw => List.mem_append_left _ hw⟩

/-- What of it is committed. -/
theorem Loop.persist_spec (ctx : TurnContext) (s : Loop) (c : ConversationRow)
    (closing : Closing) :
    ((s.persist ctx c closing).outcome closing).received = s.received ∧
      (s.Passes ctx closing → ((s.persist ctx c closing).outcome closing).writes =
        s.writes ++ s.closingRows ctx ++ [s.totals]) ∧
      (¬s.Passes ctx closing → ∀ w ∈ ((s.persist ctx c closing).outcome closing).writes,
        w ∈ s.writes ++ s.closingRows ctx) := by
  rcases s.persist_cases ctx c closing with
    ⟨hpass, s', heq, hrec, -, hwrites⟩ | ⟨hfail, leave, s', heq, hrec, -, hwrites⟩
  · rw [heq]
    exact ⟨hrec, fun _ => hwrites, fun h => absurd hpass h⟩
  · rw [heq]
    obtain ⟨hrec', hsub⟩ := Flow.outcome_left closing leave s'
    refine ⟨hrec'.trans hrec, fun h => absurd h hfail, fun _ w hw => ?_⟩
    rcases hwrites with rfl | hwrites
    · cases hw
    · exact hwrites w (hsub w hw)

/-! ## The condition -/

/-- How many iterations a turn begins, and how it stops. -/
def Turn.exit (t : Turn) : ℕ × Exit :=
  if t.ctx.exhaustedBy 0 then (0, .budget)
  else if t.setup.isSome then (0, .left)
  else t.exitFrom maxToolIterations 0

/-- The responses have no usage to speak of. -/
def Turn.Unbilled (t : Turn) : Prop := spentOn (t.responses t.exit.1) = 0

def Turn.Speaks (t : Turn) : Prop := ∃ r ∈ t.responses t.exit.1, r.displayText ≠ ""

/-- Nothing fails or is dropped on the way, to the commit. -/
def Turn.SeenThrough (t : Turn) : Prop :=
  t.exit.2 ≠ .left ∧ t.closing.assistant = none ∧
    (t.exit.2.Attended → t.proposes t.exit.1 → t.closing.action = none) ∧
    t.closing.totals = none ∧ t.closing.usageDropped = false ∧
    t.closing.doneDropped = false ∧ t.closing.commits = true

/-- The turns whose spend is recorded: nothing was spent, or the turn is seen through and either
says something or is stopped by the client or the budget. -/
def Turn.Metered (t : Turn) : Prop :=
  t.Unbilled ∨ t.SeenThrough ∧ (t.exit.2 = .endTurn → t.Speaks)

/-- What the commit adds to the totals, and the spend of the message rows it adds, are both the
spend on the responses received. -/
def Turn.SpendRecorded (t : Turn) (db : Tables) : Prop :=
  (t.stream db).conversation.spend - db.conversation.spend =
      spentOn (t.run db.conversation).received ∧
    (((t.stream db).messages.drop db.messages.length).map MessageRow.spend).sum =
      spentOn (t.run db.conversation).received

/-- The writes that the stream commits. -/
def Turn.committed (t : Turn) (c : ConversationRow) : List Write :=
  if t.closing.commits then (t.run c).writes else []

theorem applyAll_spec (ws : List Write) (db : Tables) :
    (applyAll ws db).conversation.spend = db.conversation.spend + (ws.map Write.totalled).sum ∧
      ∃ rows, (applyAll ws db).messages = db.messages ++ rows ∧
        (rows.map MessageRow.spend).sum = (ws.map Write.recorded).sum := by
  induction ws generalizing db with
  | nil => exact ⟨by simp [applyAll], [], by simp [applyAll], rfl⟩
  | cons w ws ih =>
    obtain ⟨hconv, rows, hrows, hsum⟩ := ih (w.apply db)
    have hcons : applyAll (w :: ws) db = applyAll ws (w.apply db) := rfl
    rw [hcons, hconv, hrows, List.map_cons, List.sum_cons, List.map_cons, List.sum_cons]
    cases w with
    | insertMessage row =>
      refine ⟨by simp [Write.apply, Write.totalled], row :: rows, ?_, ?_⟩
      · simp [Write.apply]
      · rw [List.map_cons, List.sum_cons, hsum]
        rfl
    | addTotals tokens dollars unpriced status =>
      refine ⟨?_, rows, rfl, by simp [hsum, Write.recorded]⟩
      rw [← add_assoc]
      rfl

theorem Turn.spendRecorded_iff_committed (t : Turn) (db : Tables) :
    t.SpendRecorded db ↔
      ((t.committed db.conversation).map Write.totalled).sum =
          spentOn (t.run db.conversation).received ∧
        ((t.committed db.conversation).map Write.recorded).sum =
          spentOn (t.run db.conversation).received := by
  have hstream : t.stream db = applyAll (t.committed db.conversation) db := by
    unfold Turn.stream Turn.committed
    split <;> rfl
  obtain ⟨hconv, rows, hrows, hsum⟩ := applyAll_spec (t.committed db.conversation) db
  unfold Turn.SpendRecorded
  rw [hstream, hconv, hrows, List.drop_left, hsum, add_sub_cancel_left]

/-- What a turn that stops by itself hands to the commit, and what any turn does. -/
theorem Turn.run_spec (t : Turn) (c : ConversationRow) :
    (t.run c).received = t.responses t.exit.1 ∧
      (((∀ w ∈ (t.run c).writes, w.Free) ∧ (t.exit.1 = 0 ∨ t.exit.2 = .left)) ∨
        ∃ s : Loop, s.Counted ∧ (Flow.finished s).exit = some t.exit.2 ∧
          s.received = t.responses t.exit.1 ∧
          (t.exit.2.Attended → s.actionPayload.isSome = t.proposes t.exit.1) ∧
          t.run c = (s.persist t.ctx c t.closing).outcome t.closing) := by
  have hstart : Loop.At t 0 {} := ⟨Loop.Counted.start, rfl, rfl⟩
  unfold Turn.run Turn.exit
  split
  · exact ⟨rfl, Or.inl ⟨(fun w hw => by cases hw), Or.inl rfl⟩⟩
  · split
    · exact ⟨rfl, Or.inl ⟨(fun w hw => by cases hw), Or.inl rfl⟩⟩
    · obtain ⟨hexit, hrec⟩ := t.loop_spec maxToolIterations 0 hstart
      have hcounted := Loop.Counted.start.loop t maxToolIterations 0
      have hpayload := t.loop_payload maxToolIterations 0 hstart rfl
      unfold Turn.body
      cases hf : t.loop maxToolIterations 0 {} with
      | next s => rw [hf] at hexit; cases hexit
      | finished s =>
        rw [hf] at hexit hrec hcounted hpayload
        exact ⟨((s.persist_spec t.ctx c t.closing).1).trans hrec,
          Or.inr ⟨s, hcounted, hexit, hrec, hpayload, rfl⟩⟩
      | left leave s =>
        rw [hf] at hexit hrec hcounted
        obtain ⟨hrec', hsub⟩ := Flow.outcome_left t.closing leave s
        exact ⟨hrec'.trans hrec, Or.inl ⟨fun w hw => hcounted.free w (hsub w hw),
          Or.inr (Option.some.inj hexit).symm⟩⟩

theorem spentOn_eq (rs : List Response) :
    spentOn rs = ((rs.map fun r => r.usage.tokensIn).sum + (rs.map fun r => r.usage.tokensOut).sum,
      (rs.map fun r => r.usage.dollars).sum,
      (rs.map fun r => r.usage.dollars).sum - (rs.map fun r => r.usage.enforceable).sum) := by
  induction rs with
  | nil =>
    simp only [spentOn, List.map_nil, List.sum_nil, add_zero, sub_zero]
    rfl
  | cons r rs ih =>
    have hcons : spentOn (r :: rs) = r.usage.spend + spentOn rs := by simp [spentOn]
    rw [hcons, ih]
    simp only [Usage.spend, List.map_cons, List.sum_cons, Prod.mk_add_mk, Prod.mk.injEq]
    exact ⟨by omega, trivial, sub_add_sub_comm _ _ _ _⟩

section

variable {s : Loop}

theorem Loop.Counted.assistant (h : s.Counted) (ctx : TurnContext) :
    (assistantMessage ctx s).spend = spentOn s.received := by
  rw [spentOn_eq, ← h.tokensIn, ← h.tokensOut, ← h.dollars, ← h.enforceable]
  rfl

theorem Loop.Counted.totals (h : s.Counted) : s.totals.totalled = spentOn s.received :=
  h.assistant ⟨"", 0, 0, 0, true⟩

/-- The end writes nothing to the totals but their update. -/
theorem Loop.Counted.totalled (h : s.Counted) (ctx : TurnContext) :
    ∀ w ∈ s.writes ++ s.closingRows ctx, w.totalled = 0 := by
  intro w hw
  rcases List.mem_append.mp hw with hw | hw
  · exact (h.free w hw).2
  · obtain ⟨row, -, rfl⟩ := List.mem_map.mp hw
    rfl

theorem Loop.Counted.recorded (h : s.Counted) (ctx : TurnContext) :
    ∀ w ∈ s.writes ++ s.closingRows ctx, w.recorded = 0 ∨
      w.recorded = spentOn s.received ∧ (s.assistantRow ctx).isSome := by
  intro w hw
  rcases List.mem_append.mp hw with hw | hw
  · exact Or.inl (h.free w hw).1
  · obtain ⟨row, hrow, rfl⟩ := List.mem_map.mp hw
    rcases List.mem_append.mp hrow with hrow | hrow
    · rw [Option.mem_toList] at hrow
      refine Or.inr ⟨?_, Option.isSome_of_mem hrow⟩
      unfold Loop.assistantRow at hrow
      split at hrow
      · obtain rfl := Option.some.inj hrow
        exact h.assistant ctx
      · cases hrow
    · rw [Option.mem_toList, Loop.actionRow] at hrow
      left
      split at hrow
      · obtain ⟨payload, -, rfl⟩ := Option.map_eq_some_iff.mp hrow
        rfl
      · cases hrow

theorem sum_map_eq_zero {ws : List Write} {f : Write → Spend} (h : ∀ w ∈ ws, f w = 0) :
    (ws.map f).sum = 0 := by
  apply List.sum_eq_zero
  intro x hx
  obtain ⟨w, hw, rfl⟩ := List.mem_map.mp hx
  exact h w hw

theorem sum_map_concat (ws : List Write) (w : Write) (f : Write → Spend) :
    ((ws ++ [w]).map f).sum = (ws.map f).sum + f w := by simp

/-- With its row, the end records the spend once. -/
theorem Loop.Counted.sum_recorded (h : s.Counted) (ctx : TurnContext)
    (hrow : (s.assistantRow ctx).isSome) :
    ((s.writes ++ s.closingRows ctx).map Write.recorded).sum = spentOn s.received := by
  obtain ⟨row, hsome⟩ := Option.isSome_iff_exists.mp hrow
  have hspend : row.spend = spentOn s.received := by
    unfold Loop.assistantRow at hsome
    split at hsome
    · obtain rfl := Option.some.inj hsome
      exact h.assistant ctx
    · cases hsome
  have hfree : (s.writes.map Write.recorded).sum = 0 :=
    sum_map_eq_zero fun w hw => (h.free w hw).1
  have haction : ((s.actionRow.toList.map Write.insertMessage).map Write.recorded).sum = 0 := by
    apply sum_map_eq_zero
    intro w hw
    obtain ⟨row, hrow, rfl⟩ := List.mem_map.mp hw
    rw [Option.mem_toList, Loop.actionRow] at hrow
    split at hrow
    · obtain ⟨payload, -, rfl⟩ := Option.map_eq_some_iff.mp hrow
      rfl
    · cases hrow
  unfold Loop.closingRows
  rw [hsome]
  simp only [List.map_append, List.sum_append, hfree, haction, zero_add, add_zero]
  simpa [Write.recorded] using hspend

/-- The stop reason behind an exit. -/
theorem Loop.stopReason_of_exit {e : Exit} (h : (Flow.finished s).exit = some e) :
    e ≠ .left ∧ (s.stopReason = .endTurn ↔ e = .endTurn) ∧
      (s.stopReason ≠ .disconnected ↔ e.Attended) := by
  unfold Flow.exit at h
  cases hs : s.stopReason with
  | endTurn => simp only [hs, Option.some.injEq] at h; subst h; simp [Exit.Attended]
  | disconnected => simp only [hs, Option.some.injEq] at h; subst h; simp [Exit.Attended]
  | budgetExhausted => simp only [hs, Option.some.injEq] at h; subst h; simp [Exit.Attended]

end

/-- There is an assistant row unless the turn ends by itself without a word. -/
theorem Loop.Counted.assistantRow_isSome {t : Turn} {s : Loop} (h : s.Counted)
    (hexit : (Flow.finished s).exit = some t.exit.2) (hrec : s.received = t.responses t.exit.1) :
    (s.assistantRow t.ctx).isSome ↔ (t.exit.2 = .endTurn → t.Speaks) := by
  have hend := (Loop.stopReason_of_exit hexit).2.1
  have hspeaks : s.assistantText ≠ "" ↔ t.Speaks := by
    rw [Ne, h.silent, hrec]
    simp [Turn.Speaks]
  have hrow : (s.assistantRow t.ctx).isSome ↔
      s.assistantText ≠ "" ∨ s.stopReason ≠ .endTurn := by
    unfold Loop.assistantRow
    split <;> simp_all
  rw [hrow, hspeaks, Ne, hend, or_comm, imp_iff_not_or]

/-- With such a row, a turn is seen through where its end passes and the commit is made. -/
theorem Turn.seenThrough_iff {t : Turn} {s : Loop} (hexit : (Flow.finished s).exit = some t.exit.2)
    (hpayload : t.exit.2.Attended → s.actionPayload.isSome = t.proposes t.exit.1)
    (hrow : (s.assistantRow t.ctx).isSome) :
    t.SeenThrough ↔ s.Passes t.ctx t.closing ∧ t.closing.commits = true := by
  obtain ⟨hleft, -, hattended⟩ := Loop.stopReason_of_exit hexit
  have haction : s.actionRow.isSome ↔ t.exit.2.Attended ∧ t.proposes t.exit.1 = true := by
    unfold Loop.actionRow
    by_cases hs : s.stopReason ≠ .disconnected
    · rw [if_pos hs, Option.isSome_map, hpayload (hattended.mp hs)]
      simp [hattended.mp hs]
    · rw [if_neg hs]
      simp [mt hattended.mpr hs]
  unfold Turn.SeenThrough Loop.Passes
  rw [haction]
  simp only [hrow, true_imp_iff, and_imp]
  constructor
  · intro h
    exact ⟨⟨h.2.1, h.2.2.1, h.2.2.2.1, h.2.2.2.2.1, h.2.2.2.2.2.1⟩, h.2.2.2.2.2.2⟩
  · intro h
    exact ⟨hleft, h.1.1, h.1.2.1, h.1.2.2.1, h.1.2.2.2.1, h.1.2.2.2.2, h.2⟩

/-- One response with usage, blank text and no tool call. -/
def silentTurn : Turn where
  ctx := ⟨"claude-sonnet-4-6", 1, 0, 0, true⟩
  rounds := fun _ => { reply := .ok { usage := ⟨10, 5, 1 / 1000, false⟩ } }

/-- A response with a tool call, then an error of the provider. -/
def failedTurn : Turn where
  ctx := ⟨"claude-sonnet-4-6", 1, 0, 0, true⟩
  rounds := fun i =>
    if i = 0 then
      { reply := .ok { usage := ⟨10, 5, 1 / 1000, false⟩ }
        calls := [{ kind := .tool "tenant_stats" (.dict []) (.ok ⟨.dict [], false, none⟩) }] }
    else { reply := .error (.raised "rate_limit" false) }

end SocTalk.Chat
