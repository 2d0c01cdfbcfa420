import Mathlib.Algebra.BigOperators.Group.List.Basic
import SocTalk.Graph.Accounting
import SocTalk.Llm.Inference

/-! What a request is charged with. Its calls follow from the request alone, and with them how it
takes the replies that come; the budget counts every reply whose accounting gets through, the result
only those that it was made from. -/
namespace SocTalk.Llm.Inference
open Py
open Graph (TrackEnv TrackState tokensUsed)

/-! ## What replies used -/

/-- The totals that a reply's accounting reads; a reply that it cannot read has none. -/
def totals (r : Reply) : UsageDelta :=
  match r.raw with
  | none => ⟨0, 0⟩
  | some raw =>
    match Graph.readUsage raw with
    | .ok u => ⟨u.inputTokens, u.outputTokens⟩
    | .error _ => ⟨0, 0⟩

def UsageDelta.total (u : UsageDelta) : ℤ := u.inputTokens + u.outputTokens

def used (rs : List Reply) : UsageDelta :=
  ⟨(rs.map fun r => (totals r).inputTokens).sum, (rs.map fun r => (totals r).outputTokens).sum⟩

@[simp] theorem add_inputTokens (a b : UsageDelta) :
    (a + b).inputTokens = a.inputTokens + b.inputTokens := rfl

@[simp] theorem add_outputTokens (a b : UsageDelta) :
    (a + b).outputTokens = a.outputTokens + b.outputTokens := rfl

@[simp] theorem used_nil : used [] = ⟨0, 0⟩ := rfl

@[simp] theorem used_cons (r : Reply) (rs : List Reply) : used (r :: rs) = totals r + used rs := by
  ext <;> simp [used]

@[simp] theorem used_append (rs ts : List Reply) : used (rs ++ ts) = used rs + used ts := by
  ext <;> simp [used]

variable (round : ℚ → FloatVal) (env : TrackEnv)

/-- The accounting of a reply gets through. -/
def tracked (s : TrackState) (r : Reply) : Bool :=
  match r.raw with
  | none => true
  | some raw => (Graph.track round env s raw).isOk

/-- Only the canonical reading finds the tokens that a reply reports. -/
def hidden (r : Reply) : Bool :=
  match usageOf r with
  | .ok u => u = ⟨0, 0⟩
  | .error _ => false

/-! ## The calls of a request -/

inductive Calls where
  /-- The request raises before its first call. -/
  | refused
  | one (parses : Bool)
  | structured (turns : ℕ)
  | reasoned (turns : ℕ)
  deriving DecidableEq

/-- The calls that `_invoke_structured` may make. -/
def structuredTurns (req : InferenceRequest) (resolved : ResolvedModel) (mode : DecodingMode) : ℕ :=
  if mode = .jsonObject ∧ resolved.provider = .anthropic then 0
  else req.retrySchemaValidation.toNat + 1

def callsOf (req : InferenceRequest) (resolved : ResolvedModel) (mode : DecodingMode) : Calls :=
  if mode.guided then
    if (guidedReady req resolved mode).isOk then .one (mode = .guidedJson && req.hasSchema)
    else .refused
  else if (createChatModel resolved.llmConfig).isOk then
    if req.extractionPolicy = .reasonThenExtract ∧ req.hasSchema then
      .reasoned (structuredTurns req resolved mode)
    else if mode = .none ∨ req.hasSchema = false then .one false
    else .structured (structuredTurns req resolved mode)
  else .refused

def requestCalls (T : Url.Tables) (cfg : LLMConfig) (req : InferenceRequest) : Calls :=
  match prepare T cfg req with
  | .ok (rb, mode) => callsOf req rb.resolved mode
  | .error _ => .refused

/-- The replies that a request takes: that of the reasoning call, those that came to nothing, and
the one that the request ends well with. -/
structure Exchange where
  first : List Reply := []
  failed : List Reply := []
  final : Option Reply := none

def Exchange.heard (x : Exchange) : List Reply := x.first ++ x.failed ++ x.final.toList

/-- The replies that the result is made from. -/
def Exchange.returned (x : Exchange) : List Reply := x.first ++ x.final.toList

/-- The turns of a structured call. -/
def attempts (s : TrackState) : ℕ → List Reply → Exchange
  | 0, _ | _ + 1, [] => {}
  | n + 1, r :: rest =>
    if tracked round env s r then
      if r.conforms then { final := some r }
      else if r.feedback.isOk then
        { attempts s n rest with failed := r :: (attempts s n rest).failed }
      else { failed := [r] }
    else { failed := [r] }

def exchange (s : TrackState) : Calls → List Reply → Exchange
  | .refused, _ | .one _, [] | .reasoned _, [] => {}
  | .one parses, r :: _ =>
    if tracked round env s r ∧ (parses → r.conforms) then { final := some r } else { failed := [r] }
  | .structured turns, replies => attempts round env s turns replies
  | .reasoned turns, r :: rest =>
    if tracked round env s r then { attempts round env s turns rest with first := [r] }
    else { failed := [r] }

/-! ## One call -/

/-- The state after a call that brought a reply. -/
def World.hear (w : World) (r : Reply) : World :=
  { replies := w.replies.tail, received := w.received ++ [r]
    budget :=
      match r.raw with
      | none => w.budget
      | some raw => Graph.afterTrack round env w.budget raw }

theorem isOk_iff {ε α : Type} {x : Except ε α} : x.isOk = true ↔ Returns x := by
  cases x with
  | ok a => simp [Except.isOk, Except.toBool]
  | error e => simp [Except.isOk, Except.toBool]

/-- Whether an accounting gets through depends on the prices alone. -/
theorem tracked_congr {s t : TrackState} (h : s.priceSnapshot = t.priceSnapshot) (r : Reply) :
    tracked round env s r = tracked round env t r := by
  unfold tracked Graph.track Graph.account
  rw [h]
  cases r.raw with
  | none => rfl
  | some raw =>
    simp only []
    cases Graph.readUsage raw with
    | error e => rfl
    | ok u =>
      simp only [bind, Except.bind]
      cases Graph.callPrice round env t.priceSnapshot (Graph.modelName raw) u with
      | error e => rfl
      | ok price => cases Graph.callLabel t.priceSnapshot (Graph.modelName raw) u <;> rfl

variable {round env} {w : World} {r : Reply} {rest : List Reply}

/-- The accounting counts the totals of the reply that it reads. -/
theorem track_spec {s s' : TrackState} {raw : Graph.Response} (hraw : r.raw = some raw)
    (h : Graph.track round env s raw = .ok s') :
    tokensUsed s' = tokensUsed s + (totals r).total ∧ s'.priceSnapshot = s.priceSnapshot := by
  obtain ⟨u, -, -, hu, -, htokens, -, -, hprices⟩ := Graph.track_eq h
  have htotals : totals r = ⟨u.inputTokens, u.outputTokens⟩ := by
    unfold totals
    rw [hraw]
    simp only [hu]
  rw [htotals]
  exact ⟨htokens, hprices⟩

/-- An accounting that raises leaves the counts as they are. -/
theorem afterTrack_of_raises {s : TrackState} {raw : Graph.Response}
    (h : ¬Returns (Graph.track round env s raw)) :
    tokensUsed (Graph.afterTrack round env s raw) = tokensUsed s ∧
      (Graph.afterTrack round env s raw).priceSnapshot = s.priceSnapshot := by
  unfold Graph.afterTrack
  cases hs : Graph.track round env s raw with
  | ok s' => exact absurd ⟨s', hs⟩ h
  | error e => exact ⟨rfl, rfl⟩

theorem hear_spec (w : World) (r : Reply) :
    tokensUsed (w.hear round env r).budget = tokensUsed w.budget +
        (if tracked round env w.budget r then (totals r).total else 0) ∧
      (w.hear round env r).budget.priceSnapshot = w.budget.priceSnapshot := by
  unfold World.hear tracked
  cases hraw : r.raw with
  | none => simp [totals, hraw, UsageDelta.total]
  | some raw =>
    simp only []
    by_cases h : Returns (Graph.track round env w.budget raw)
    · rw [if_pos (isOk_iff.mpr h)]
      obtain ⟨s', hs'⟩ := h
      have hafter : Graph.afterTrack round env w.budget raw = s' := by
        simp only [Graph.afterTrack, hs']
      rw [hafter]
      exact track_spec hraw hs'
    · rw [if_neg fun hok => h (isOk_iff.mp hok), add_zero]
      exact afterTrack_of_raises h

theorem ask_nil (h : w.replies = []) : ask round env w = (.error .backend, w) := by
  simp only [ask, bind, invoke, h]

theorem ask_of_tracked (h : w.replies = r :: rest) (htracked : tracked round env w.budget r) :
    ask round env w = (.ok r, w.hear round env r) := by
  unfold tracked at htracked
  simp only [ask, bind, invoke, h, track, World.hear, Graph.afterTrack, pure]
  cases hraw : r.raw with
  | none => rfl
  | some raw =>
    rw [hraw] at htracked
    obtain ⟨s', hs'⟩ := isOk_iff.mp htracked
    simp only [hs', List.tail_cons]

theorem ask_of_untracked (h : w.replies = r :: rest) (htracked : ¬tracked round env w.budget r) :
    ∃ e, ask round env w = (.error (.raised e), w.hear round env r) := by
  unfold tracked at htracked
  cases hraw : r.raw with
  | none => simp [hraw] at htracked
  | some raw =>
    rw [hraw] at htracked
    cases hs' : Graph.track round env w.budget raw with
    | ok s' => simp [hs', Except.isOk, Except.toBool] at htracked
    | error e =>
      exact ⟨e, by simp [ask, bind, invoke, h, track, World.hear, hraw, hs', Graph.afterTrack]⟩

/-- The two readings of a reply that could be accounted. -/
theorem usageOf_of_tracked {s : TrackState} (h : tracked round env s r) :
    ∃ u, usageOf r = .ok u ∧ (if hidden r then u = ⟨0, 0⟩ else totals r = u) := by
  unfold tracked at h
  unfold hidden usageOf totals
  cases hraw : r.raw with
  | none => exact ⟨⟨0, 0⟩, rfl, by simp⟩
  | some raw =>
    rw [hraw] at h
    obtain ⟨s', hs'⟩ := isOk_iff.mp h
    unfold Graph.track at hs'
    rw [bind_eq_ok] at hs'
    obtain ⟨u, hu, -⟩ := hs'
    simp only [hu]
    unfold Graph.readUsage at hu
    rw [bind_eq_ok] at hu
    obtain ⟨c, -, hu⟩ := hu
    rw [bind_eq_ok] at hu
    obtain ⟨extracted, hextracted, hu⟩ := hu
    rw [bind_eq_ok] at hu
    obtain ⟨details, -, hu⟩ := hu
    cases hu
    refine ⟨⟨extracted.1, extracted.2⟩, by rw [hextracted]; rfl, ?_⟩
    rw [hextracted]
    by_cases hzero : extracted.1 = 0 ∧ extracted.2 = 0
    · simp [hzero, bind, Except.bind, pure, Except.pure]
    · simp [Graph.CanonicalUsage.totals, hzero, bind, Except.bind, pure, Except.pure]

/-! ## A whole request -/

/-- The tokens that the budget counts for replies. -/
def counted (round : ℚ → FloatVal) (env : TrackEnv) (s : TrackState) (rs : List Reply) : ℤ :=
  (used (rs.filter (tracked round env s))).total

theorem counted_congr {s t : TrackState} (h : s.priceSnapshot = t.priceSnapshot) (rs : List Reply) :
    counted round env s rs = counted round env t rs := by
  have htracked : tracked round env s = tracked round env t := by
    funext r
    exact tracked_congr round env h r
  unfold counted
  rw [htracked]

/-- From one world to another the request heard these replies. -/
structure Heard (round : ℚ → FloatVal) (env : TrackEnv) (w : World) (rs : List Reply) (w' : World) :
    Prop where
  replies : w.replies = rs ++ w'.replies
  received : w'.received = w.received ++ rs
  prices : w'.budget.priceSnapshot = w.budget.priceSnapshot
  tokens : tokensUsed w'.budget = tokensUsed w.budget + counted round env w.budget rs

theorem Heard.refl (w : World) : Heard round env w [] w :=
  ⟨rfl, (List.append_nil _).symm, rfl, (add_zero _).symm⟩

theorem Heard.trans {w' w'' : World} {rs ts : List Reply} (h : Heard round env w rs w')
    (h' : Heard round env w' ts w'') : Heard round env w (rs ++ ts) w'' where
  replies := by rw [h.replies, h'.replies, List.append_assoc]
  received := by rw [h'.received, h.received, List.append_assoc]
  prices := h'.prices.trans h.prices
  tokens := by
    rw [h'.tokens, h.tokens, counted_congr h.prices]
    simp only [counted, List.filter_append, used_append, UsageDelta.total, add_inputTokens,
      add_outputTokens]
    ring

theorem Heard.hear (h : w.replies = r :: rest) : Heard round env w [r] (w.hear round env r) where
  replies := by simp [h, World.hear]
  received := rfl
  prices := (hear_spec w r).2
  tokens := by
    rw [(hear_spec w r).1]
    by_cases htracked : tracked round env w.budget r
    · simp [counted, htracked, UsageDelta.total]
    · simp [counted, htracked, UsageDelta.total]

/-- The request took the replies as the exchange has them, and ended as it says. -/
structure Follows {α : Type} (round : ℚ → FloatVal) (env : TrackEnv) (w : World) (x : Exchange)
    (good : α → Reply → Prop) (out : Except Failure α × World) : Prop where
  heard : Heard round env w x.heard out.2
  final : ∀ r, x.final = some r → ∃ a, out.1 = .ok a ∧ good a r
  failed : x.final = none → ∃ f, out.1 = .error f

theorem Follows.raised {α : Type} {good : α → Reply → Prop} {x : Exchange}
    {out : Except Failure α × World} (hheard : Heard round env w x.heard out.2)
    (hfinal : x.final = none) (h : ∃ f, out.1 = .error f) : Follows round env w x good out := by
  refine ⟨hheard, ?_, fun _ => h⟩
  intro r hr
  rw [hfinal] at hr
  cases hr

theorem Follows.returned {α : Type} {good : α → Reply → Prop} {x : Exchange} {a : α}
    {out : Except Failure α × World} (hheard : Heard round env w x.heard out.2)
    (hfinal : x.final = some r) (hout : out.1 = .ok a) (hgood : good a r) :
    Follows round env w x good out := by
  refine ⟨hheard, ?_, ?_⟩
  · intro r' hr'
    obtain rfl : r = r' := by simpa [hfinal] using hr'
    exact ⟨a, hout, hgood⟩
  · intro hnone
    rw [hfinal] at hnone
    cases hnone

theorem attempts_first (s : TrackState) (n : ℕ) (rs : List Reply) :
    (attempts round env s n rs).first = [] := by
  induction n generalizing rs with
  | zero => rfl
  | succ n ih =>
    cases rs with
    | nil => rfl
    | cons r rest =>
      simp only [attempts]
      split_ifs
      · rfl
      · exact ih rest
      · rfl
      · rfl

theorem attempts_congr {s t : TrackState} (h : s.priceSnapshot = t.priceSnapshot) (n : ℕ)
    (rs : List Reply) : attempts round env s n rs = attempts round env t n rs := by
  induction n generalizing rs with
  | zero => rfl
  | succ n ih =>
    cases rs with
    | nil => rfl
    | cons r rest => simp only [attempts, tracked_congr round env h, ih]

/-- A turn of a structured call, and those that may follow it. -/
def turn (round : ℚ → FloatVal) (env : TrackEnv) (n attempts : ℕ) : Call (Reply × ℕ) := do
  let r ← ask round env
  if r.conforms then return (r, attempts + 1)
  else retry round env n r (attempts + 1)

theorem retry_of_raises {n k : ℕ} (h : ¬r.feedback.isOk) :
    ∃ f, retry round env n r k w = (.error f, w) := by
  cases n with
  | zero => exact ⟨_, rfl⟩
  | succ n =>
    cases hfeedback : r.feedback with
    | ok u => simp [hfeedback, Except.isOk, Except.toBool] at h
    | error e => exact ⟨.raised e, Call.bind_error (Call.lift_error hfeedback w)⟩

theorem turn_follows_of {n : ℕ}
    (hretry : ∀ (r : Reply) (k : ℕ) (w : World), r.feedback.isOk →
      Follows round env w (attempts round env w.budget n w.replies) (fun a r => a.1 = r)
        (retry round env n r k w)) (k : ℕ) (w : World) :
    Follows round env w (attempts round env w.budget (n + 1) w.replies) (fun a r => a.1 = r)
      (turn round env n k w) := by
  cases hreplies : w.replies with
  | nil =>
    have hturn : turn round env n k w = (.error .backend, w) := Call.bind_error (ask_nil hreplies)
    rw [hturn]
    exact Follows.raised (Heard.refl w) rfl ⟨_, rfl⟩
  | cons r rest =>
    have hheard : Heard round env w [r] (w.hear round env r) := Heard.hear hreplies
    by_cases htracked : tracked round env w.budget r
    · have hask := ask_of_tracked hreplies htracked
      by_cases hconforms : r.conforms
      · have hturn : turn round env n k w = (.ok (r, k + 1), w.hear round env r) := by
          unfold turn
          rw [Call.bind_ok hask, if_pos hconforms]
          rfl
        rw [hturn]
        simp only [attempts, htracked, hconforms, if_true]
        exact Follows.returned hheard rfl rfl rfl
      · have hturn : turn round env n k w = retry round env n r (k + 1) (w.hear round env r) := by
          unfold turn
          rw [Call.bind_ok hask, if_neg hconforms]
        rw [hturn]
        by_cases hfeedback : r.feedback.isOk
        · have hrest := hretry r (k + 1) (w.hear round env r) hfeedback
          rw [attempts_congr hheard.prices] at hrest
          have hreplies' : (w.hear round env r).replies = rest := by simp [World.hear, hreplies]
          rw [hreplies'] at hrest
          simp only [attempts, htracked, hconforms, hfeedback, Bool.false_eq_true, if_true, if_false]
          refine ⟨?_, hrest.final, hrest.failed⟩
          have hjoin := hheard.trans hrest.heard
          simpa [Exchange.heard, attempts_first] using hjoin
        · obtain ⟨f, hf⟩ : ∃ f, retry round env n r (k + 1) (w.hear round env r) =
              (.error f, w.hear round env r) := retry_of_raises hfeedback
          rw [hf]
          simp only [attempts, htracked, hconforms, hfeedback, Bool.false_eq_true, if_true, if_false]
          exact Follows.raised hheard rfl ⟨f, rfl⟩
    · obtain ⟨e, hask⟩ := ask_of_untracked hreplies htracked
      have hturn : turn round env n k w = (.error (.raised e), w.hear round env r) :=
        Call.bind_error hask
      rw [hturn]
      simp only [attempts, htracked, Bool.false_eq_true, if_false]
      exact Follows.raised hheard rfl ⟨_, rfl⟩

theorem retry_follows (n : ℕ) (r : Reply) (k : ℕ) (w : World) (h : r.feedback.isOk) :
    Follows round env w (attempts round env w.budget n w.replies) (fun a r => a.1 = r)
      (retry round env n r k w) := by
  induction n generalizing r k w with
  | zero => exact Follows.raised (Heard.refl w) rfl ⟨_, rfl⟩
  | succ n ih =>
    obtain ⟨u, hu⟩ := isOk_iff.mp h
    have hretry : retry round env (n + 1) r k w = turn round env n k w :=
      Call.bind_ok (Call.lift_ok hu w)
    rw [hretry]
    exact turn_follows_of (fun r k w hr => ih r k w hr) k w

theorem invokeStructured_follows (req : InferenceRequest) (resolved : ResolvedModel)
    (mode : DecodingMode) (w : World) :
    Follows round env w (attempts round env w.budget (structuredTurns req resolved mode) w.replies)
      (fun a r => a.1 = r) (invokeStructured round env req resolved mode w) := by
  unfold structuredTurns invokeStructured
  split
  · exact Follows.raised (Heard.refl w) rfl ⟨_, rfl⟩
  · exact turn_follows_of (fun r k w hr => retry_follows _ r k w hr) 0 w

/-- The result counts the replies that it was made from, each as the older extractors read it. -/
def CountsReturned (x : Exchange) (usage : UsageDelta) : Prop :=
  used (x.returned.filter fun r => !hidden r) = usage

theorem attempts_tracked {s : TrackState} {n : ℕ} {rs : List Reply}
    (h : (attempts round env s n rs).final = some r) : tracked round env s r := by
  induction n generalizing rs with
  | zero => cases h
  | succ n ih =>
    cases rs with
    | nil => cases h
    | cons r' rest =>
      simp only [attempts] at h
      split_ifs at h with htracked
      · cases h
        exact htracked
      · exact ih h

/-- What a result counts for a reply that it was made from. -/
theorem used_visible {s : TrackState} {u : UsageDelta} (h : tracked round env s r)
    (hu : usageOf r = .ok u) : used ([r].filter fun r => !hidden r) = u := by
  obtain ⟨u', hu', hread⟩ := usageOf_of_tracked h
  obtain rfl : u = u' := by simpa [hu] using hu'
  cases hhidden : hidden r with
  | true => simpa [hhidden, eq_comm] using hread
  | false =>
    have htotals : totals r = u := by simpa [hhidden] using hread
    ext <;> simp [hhidden, htotals]

/-- The call that a request without a structured one comes down to. -/
theorem one_follows (parses : Bool) (mk : UsageDelta → InferenceResult)
    (hmk : ∀ u, (mk u).usage = u) (w : World) :
    let x := exchange round env w.budget (.one parses) w.replies
    Follows round env w x (fun result _ => CountsReturned x result.usage)
      ((do
        let r ← ask round env
        if parses && !r.conforms then Call.fail .schemaValidation
        else do
          let usage ← Call.lift (usageOf r)
          return mk usage : Call InferenceResult) w) := by
  intro x
  cases hreplies : w.replies with
  | nil =>
    have hx : x = {} := by simp only [x, hreplies, exchange]
    rw [Call.bind_error (ask_nil hreplies), hx]
    exact Follows.raised (Heard.refl w) rfl ⟨_, rfl⟩
  | cons r rest =>
    have hheard : Heard round env w [r] (w.hear round env r) := Heard.hear hreplies
    by_cases htracked : tracked round env w.budget r
    · rw [Call.bind_ok (ask_of_tracked hreplies htracked)]
      by_cases hparses : (parses && !r.conforms) = true
      · have hx : x = { failed := [r] } := by
          simp only [x, hreplies, exchange]
          refine if_neg ?_
          simp only [Bool.and_eq_true, Bool.not_eq_true'] at hparses
          simp [hparses]
        rw [if_pos hparses, hx]
        exact Follows.raised hheard rfl ⟨_, rfl⟩
      · have hx : x = { final := some r } := by
          simp only [x, hreplies, exchange]
          refine if_pos ⟨htracked, ?_⟩
          intro hp
          simpa [hp] using hparses
        obtain ⟨u, hu, -⟩ := usageOf_of_tracked htracked
        rw [if_neg hparses, Call.bind_ok (Call.lift_ok hu _), hx]
        refine Follows.returned hheard rfl rfl ?_
        unfold CountsReturned
        rw [hmk]
        exact used_visible htracked hu
    · obtain ⟨e, hask⟩ := ask_of_untracked hreplies htracked
      have hx : x = { failed := [r] } := by
        simp only [x, hreplies, exchange]
        refine if_neg ?_
        simp [htracked]
      rw [Call.bind_error hask, hx]
      exact Follows.raised hheard rfl ⟨_, rfl⟩

variable (round env) (req : InferenceRequest) (resolved : ResolvedModel) (mode : DecodingMode)

/-- How a structured call ends, and where. -/
theorem invokeStructured_cases (w : World) :
    let x := attempts round env w.budget (structuredTurns req resolved mode) w.replies
    ∃ w', Heard round env w x.heard w' ∧
      ((x.final = none ∧ ∃ f, invokeStructured round env req resolved mode w = (.error f, w')) ∨
        ∃ r k, x.final = some r ∧ tracked round env w.budget r ∧
          invokeStructured round env req resolved mode w = (.ok (r, k), w')) := by
  intro x
  have h : Follows round env w x _ _ := invokeStructured_follows req resolved mode w
  refine ⟨_, h.heard, ?_⟩
  cases hfinal : x.final with
  | none =>
    obtain ⟨f, hf⟩ := h.failed hfinal
    exact Or.inl ⟨rfl, f, Prod.ext hf rfl⟩
  | some r =>
    obtain ⟨a, ha, rfl⟩ := h.final r hfinal
    exact Or.inr ⟨a.1, a.2, rfl, attempts_tracked hfinal, Prod.ext ha rfl⟩

theorem structured_follows (mk : ℕ → UsageDelta → InferenceResult)
    (hmk : ∀ k u, (mk k u).usage = u) (w : World) :
    let x := exchange round env w.budget (.structured (structuredTurns req resolved mode)) w.replies
    Follows round env w x (fun result _ => CountsReturned x result.usage)
      ((do
        let structured ← invokeStructured round env req resolved mode
        let usage ← Call.lift (usageOf structured.1)
        return mk structured.2 usage : Call InferenceResult) w) := by
  intro x
  obtain ⟨w', hheard, h⟩ := invokeStructured_cases round env req resolved mode w
  rcases h with ⟨hfinal, f, hf⟩ | ⟨r, k, hfinal, htracked, hr⟩
  · rw [Call.bind_error hf]
    exact Follows.raised hheard hfinal ⟨f, rfl⟩
  · obtain ⟨u, hu, -⟩ := usageOf_of_tracked htracked
    rw [Call.bind_ok hr, Call.bind_ok (Call.lift_ok hu _)]
    refine Follows.returned hheard hfinal rfl ?_
    have hfirst : x.first = [] := attempts_first _ _ _
    have hreturned : x.returned = [r] := by
      have hx : x.final = some r := hfinal
      simp [Exchange.returned, hfirst, hx]
    unfold CountsReturned
    rw [hmk, hreturned]
    exact used_visible htracked hu

theorem reasoned_follows (mk : ℕ → UsageDelta → InferenceResult)
    (hmk : ∀ k u, (mk k u).usage = u) (w : World) :
    let x := exchange round env w.budget (.reasoned (structuredTurns req resolved mode)) w.replies
    Follows round env w x (fun result _ => CountsReturned x result.usage)
      ((do
        let reasoning ← ask round env
        let extracted ← invokeStructured round env req resolved mode
        let ru ← Call.lift (usageOf reasoning)
        let eu ← Call.lift (usageOf extracted.1)
        return mk extracted.2 (ru + eu) : Call InferenceResult) w) := by
  intro x
  cases hreplies : w.replies with
  | nil =>
    have hx : x = {} := by simp only [x, hreplies, exchange]
    rw [Call.bind_error (ask_nil hreplies), hx]
    exact Follows.raised (Heard.refl w) rfl ⟨_, rfl⟩
  | cons r₀ rest =>
    have hhear : Heard round env w [r₀] (w.hear round env r₀) := Heard.hear hreplies
    by_cases htracked₀ : tracked round env w.budget r₀
    · rw [Call.bind_ok (ask_of_tracked hreplies htracked₀)]
      obtain ⟨w', hheard, h⟩ :=
        invokeStructured_cases round env req resolved mode (w.hear round env r₀)
      have hrest : (w.hear round env r₀).replies = rest := by simp [World.hear, hreplies]
      rw [attempts_congr hhear.prices, hrest] at hheard h
      have hx : x = { attempts round env w.budget (structuredTurns req resolved mode) rest with
          first := [r₀] } := by simp only [x, hreplies, exchange, htracked₀, if_true]
      have hjoin : Heard round env w x.heard w' := by
        have hboth := hhear.trans hheard
        rw [hx]
        simpa [Exchange.heard, attempts_first] using hboth
      rcases h with ⟨hfinal, f, hf⟩ | ⟨r, k, hfinal, htracked, hr⟩
      · rw [Call.bind_error hf]
        refine Follows.raised hjoin ?_ ⟨f, rfl⟩
        rw [hx]
        exact hfinal
      · obtain ⟨ru, hru, -⟩ := usageOf_of_tracked htracked₀
        obtain ⟨eu, heu, -⟩ := usageOf_of_tracked htracked
        rw [Call.bind_ok hr, Call.bind_ok (Call.lift_ok hru _), Call.bind_ok (Call.lift_ok heu _)]
        refine Follows.returned hjoin (by rw [hx]; exact hfinal) rfl ?_
        have hreturned : x.returned = [r₀] ++ [r] := by
          rw [hx]
          simp [Exchange.returned, hfinal]
        unfold CountsReturned
        rw [hmk, hreturned, List.filter_append, used_append, used_visible htracked₀ hru,
          used_visible htracked heu]
    · obtain ⟨e, hask⟩ := ask_of_untracked hreplies htracked₀
      have hx : x = { failed := [r₀] } := by
        simp only [x, hreplies, exchange]
        exact if_neg htracked₀
      rw [Call.bind_error hask, hx]
      exact Follows.raised hhear rfl ⟨_, rfl⟩

theorem dispatch_follows (w : World) :
    let x := exchange round env w.budget (callsOf req resolved mode) w.replies
    Follows round env w x (fun result _ => CountsReturned x result.usage)
      (dispatch round env req resolved mode w) := by
  intro x
  by_cases hguided : mode.guided = true
  · cases hready : guidedReady req resolved mode with
    | error e =>
      have hx : x = {} := by
        simp only [x, callsOf]
        rw [if_pos hguided, hready]
        rfl
      have hout : dispatch round env req resolved mode w = (.error (.raised e), w) := by
        unfold dispatch
        rw [if_pos hguided]
        exact Call.bind_error (Call.lift_error hready w)
      rw [hout, hx]
      exact Follows.raised (Heard.refl w) rfl ⟨_, rfl⟩
    | ok u =>
      have hcalls : callsOf req resolved mode = .one (mode = .guidedJson && req.hasSchema) := by
        unfold callsOf
        rw [if_pos hguided, hready]
        rfl
      have hout : dispatch round env req resolved mode w = _ :=
        (congrFun (if_pos hguided) w).trans (Call.bind_ok (Call.lift_ok hready w))
      rw [hout]
      simp only [x, hcalls]
      exact one_follows (mode = .guidedJson && req.hasSchema)
        (fun usage => ⟨mode = .guidedJson && req.hasSchema, usage, mode, 1⟩) (fun _ => rfl) w
  · cases hmodel : createChatModel resolved.llmConfig with
    | error e =>
      have hx : x = {} := by
        simp only [x, callsOf]
        rw [if_neg hguided, hmodel]
        rfl
      have hout : dispatch round env req resolved mode w = (.error (.raised e), w) := by
        unfold dispatch
        rw [if_neg hguided]
        exact Call.bind_error (Call.lift_error hmodel w)
      rw [hout, hx]
      exact Follows.raised (Heard.refl w) rfl ⟨_, rfl⟩
    | ok u =>
      have hout : dispatch round env req resolved mode w = _ :=
        (congrFun (if_neg hguided) w).trans (Call.bind_ok (Call.lift_ok hmodel w))
      rw [hout]
      have hok : (createChatModel resolved.llmConfig).isOk = true := isOk_iff.mpr ⟨u, hmodel⟩
      by_cases hreason : req.extractionPolicy = .reasonThenExtract ∧ req.hasSchema = true
      · have hcalls : callsOf req resolved mode =
            .reasoned (structuredTurns req resolved mode) := by
          unfold callsOf
          rw [if_neg hguided, if_pos hok, if_pos hreason]
        rw [if_pos hreason]
        simp only [x, hcalls]
        exact reasoned_follows round env req resolved mode
          (fun attempts usage => ⟨true, usage, mode, attempts + 1⟩) (fun _ _ => rfl) w
      · by_cases hplain : mode = .none ∨ req.hasSchema = false
        · have hcalls : callsOf req resolved mode = .one false := by
            unfold callsOf
            rw [if_neg hguided, if_pos hok, if_neg hreason, if_pos hplain]
          rw [if_neg hreason, if_pos hplain]
          simp only [x, hcalls]
          exact one_follows false (fun usage => ⟨false, usage, mode, 1⟩) (fun _ => rfl) w
        · have hcalls : callsOf req resolved mode =
              .structured (structuredTurns req resolved mode) := by
            unfold callsOf
            rw [if_neg hguided, if_pos hok, if_neg hreason, if_neg hplain]
          rw [if_neg hreason, if_neg hplain]
          simp only [x, hcalls]
          exact structured_follows round env req resolved mode
            (fun attempts usage => ⟨true, usage, mode, attempts⟩) (fun _ _ => rfl) w

/-! ## What is counted -/

section
variable {s : TrackState} {rs : List Reply} {x : Exchange}

/-- The budget counts these replies in full exactly if none of those that it missed used tokens. -/
def Covers (round : ℚ → FloatVal) (env : TrackEnv) (s : TrackState) (rs : List Reply) : Prop :=
  counted round env s rs = (used rs).total ↔
    ∀ r ∈ rs, ¬tracked round env s r → (totals r).total = 0

theorem covers_nil : Covers round env s [] := by
  simp [Covers, counted, UsageDelta.total]

theorem covers_single (r : Reply) : Covers round env s [r] := by
  by_cases htracked : tracked round env s r
  · simp [Covers, counted, htracked]
  · simp only [Covers, counted, UsageDelta.total]
    simpa [htracked] using eq_comm

theorem Covers.cons (htracked : tracked round env s r) (h : Covers round env s rs) :
    Covers round env s (r :: rs) := by
  have hcounted : counted round env s (r :: rs) =
      (totals r).total + counted round env s rs := by
    unfold counted
    rw [List.filter_cons_of_pos htracked]
    simp only [used_cons, UsageDelta.total, add_inputTokens, add_outputTokens]
    ring
  have hused : (used (r :: rs)).total = (totals r).total + (used rs).total := by
    simp only [used_cons, UsageDelta.total, add_inputTokens, add_outputTokens]
    ring
  unfold Covers at h ⊢
  rw [hcounted, hused, add_right_inj, h]
  simp [htracked]

theorem covers_attempts (n : ℕ) (rs : List Reply) :
    Covers round env s (attempts round env s n rs).heard := by
  induction n generalizing rs with
  | zero => exact covers_nil round env
  | succ n ih =>
    cases rs with
    | nil => exact covers_nil round env
    | cons r rest =>
      have hrest := ih rest
      simp only [Exchange.heard, attempts_first, List.nil_append] at hrest
      simp only [attempts]
      split_ifs with htracked hconforms hfeedback
      · exact covers_single round env r
      · simpa [Exchange.heard, attempts_first] using hrest.cons round env htracked
      · exact covers_single round env r
      · exact covers_single round env r

theorem covers_exchange (calls : Calls) (rs : List Reply) :
    Covers round env s (exchange round env s calls rs).heard := by
  cases calls with
  | refused => exact covers_nil round env
  | structured turns => exact covers_attempts round env turns rs
  | one parses =>
    cases rs with
    | nil => exact covers_nil round env
    | cons r rest =>
      simp only [exchange]
      split_ifs
      · exact covers_single round env r
      · exact covers_single round env r
  | reasoned turns =>
    cases rs with
    | nil => exact covers_nil round env
    | cons r rest =>
      simp only [exchange]
      split_ifs with htracked
      · have hrest := covers_attempts round env (s := s) turns rest
        have hcons := hrest.cons round env htracked
        simpa [Exchange.heard, attempts_first] using hcons
      · exact covers_single round env r

/-- The condition under which a request is accounted in full. -/
structure Exchange.Complete (round : ℚ → FloatVal) (env : TrackEnv) (s : TrackState)
    (x : Exchange) : Prop where
  raising : ∀ r ∈ x.heard, ¬tracked round env s r → (totals r).total = 0
  dropped : x.final.isSome → used (x.failed ++ x.returned.filter hidden) = ⟨0, 0⟩

theorem used_filter (p : Reply → Bool) (rs : List Reply) :
    used rs = used (rs.filter p) + used (rs.filter fun r => !p r) := by
  induction rs with
  | nil => rfl
  | cons r rs ih =>
    rw [used_cons, ih]
    cases hp : p r with
    | true => ext <;> simp [hp, add_assoc]
    | false => ext <;> simp [hp, add_left_comm]

/-- What the result leaves out is what failed and what only the canonical reading finds. -/
theorem countsReturned_iff {usage : UsageDelta} (h : CountsReturned x usage) :
    usage = used x.heard ↔ used (x.failed ++ x.returned.filter hidden) = ⟨0, 0⟩ := by
  have hheard : used x.heard = used x.failed + used x.returned := by
    unfold Exchange.heard Exchange.returned
    ext <;> simp <;> ring
  have hreturned := used_filter hidden x.returned
  have hcounts : used (x.returned.filter fun r => !hidden r) = usage := h
  rw [hcounts] at hreturned
  rw [hheard, hreturned, used_append]
  simp only [UsageDelta.ext_iff, add_inputTokens, add_outputTokens]
  omega

end

/-- A request's accounting: the budget's tokens, and what a result says of them. -/
structure Accounted (before : TrackState) (out : Outcome × World) : Prop where
  budget : tokensUsed out.2.budget = tokensUsed before + (used out.2.received).total
  returned : ∀ result record, out.1 = .returned result record →
    result.usage = used out.2.received ∧
      record.inputTokens = (used out.2.received).inputTokens ∧
      record.outputTokens = (used out.2.received).outputTokens

variable (T : Url.Tables) (probe : Probe) (describe : Failure → ClientError) (cfg : LLMConfig)

/-- How a request runs: it takes the replies as its calls have it. -/
theorem ainvokeRequest_follows (w : World) :
    let x := exchange round env w.budget (requestCalls T cfg req) w.replies
    let out := ainvokeRequest round env T probe describe cfg req w
    Heard round env w x.heard out.2 ∧
      (∀ result record, out.1 = .returned result record → x.final.isSome ∧
        CountsReturned x result.usage ∧ record.inputTokens = result.usage.inputTokens ∧
        record.outputTokens = result.usage.outputTokens) ∧
      (x.final.isSome → ∃ result record, out.1 = .returned result record) := by
  intro x out
  cases hprepare : prepare T cfg req with
  | error e =>
    have hx : x = {} := by
      simp only [x, requestCalls, hprepare]
      rfl
    have hout : out = (.raised e, w) := by simp only [out, ainvokeRequest, hprepare]
    rw [hx, hout]
    refine ⟨Heard.refl w, ?_, fun hsome => absurd hsome (by simp)⟩
    intro result record heq
    cases heq
  | ok prepared =>
    have hcalls : requestCalls T cfg req = callsOf req prepared.1.resolved prepared.2 := by
      simp only [requestCalls, hprepare]
    obtain ⟨ended, w', hdispatch⟩ : ∃ ended w',
        dispatch round env req prepared.1.resolved prepared.2 w = (ended, w') := ⟨_, _, rfl⟩
    have h := dispatch_follows round env req prepared.1.resolved prepared.2 w
    rw [← hcalls, hdispatch] at h
    cases ended with
    | ok result =>
      have hout : out = (.returned result (usageRecord result prepared.1.profile), w') := by
        simp only [out, ainvokeRequest, hprepare, hdispatch]
      have hfinal : ∃ r, x.final = some r := by
        refine Option.ne_none_iff_exists'.mp ?_
        intro hnone
        obtain ⟨f, hf⟩ := h.failed hnone
        cases hf
      obtain ⟨r, hr⟩ := hfinal
      obtain ⟨result', hresult', hcounts⟩ := h.final r hr
      cases hresult'
      rw [hout]
      refine ⟨h.heard, ?_, fun _ => ⟨_, _, rfl⟩⟩
      intro result' record' heq
      cases heq
      exact ⟨by rw [hr]; rfl, hcounts, rfl, rfl⟩
    | error f =>
      have hnone : ¬x.final.isSome := by
        intro hsome
        obtain ⟨r, hr⟩ := Option.isSome_iff_exists.mp hsome
        obtain ⟨result, hresult, -⟩ := h.final r hr
        cases hresult
      cases hhandle : handle T prepared.1 probe (describe f) with
      | ok r =>
        have hout : out = (.reraised f r, w') := by
          simp only [out, ainvokeRequest, hprepare, hdispatch, hhandle]
        rw [hout]
        refine ⟨h.heard, ?_, fun hsome => absurd hsome hnone⟩
        intro result record heq
        cases heq
      | error e =>
        have hout : out = (.raised e, w') := by
          simp only [out, ainvokeRequest, hprepare, hdispatch, hhandle]
        rw [hout]
        refine ⟨h.heard, ?_, fun hsome => absurd hsome hnone⟩
        intro result record heq
        cases heq

/-- A request counts every reply once exactly if its exchange is complete. -/
theorem accounted_iff (w : World) (hw : w.received = []) :
    Accounted w.budget (ainvokeRequest round env T probe describe cfg req w) ↔
      (exchange round env w.budget (requestCalls T cfg req) w.replies).Complete round env
        w.budget := by
  obtain ⟨hheard, hreturned, hfinal⟩ :=
    ainvokeRequest_follows round env req T probe describe cfg w
  have hreceived := hheard.received
  rw [hw, List.nil_append] at hreceived
  have hcovers := covers_exchange round env (s := w.budget) (requestCalls T cfg req) w.replies
  constructor
  · intro h
    refine ⟨hcovers.mp ?_, ?_⟩
    · have hbudget := h.budget
      rw [hreceived, hheard.tokens, add_right_inj] at hbudget
      exact hbudget
    · intro hsome
      obtain ⟨result, record, hout⟩ := hfinal hsome
      have husage := (h.returned result record hout).1
      rw [hreceived] at husage
      exact (countsReturned_iff (hreturned result record hout).2.1).mp husage
  · intro h
    constructor
    · rw [hreceived, hheard.tokens, hcovers.mpr h.raising]
    · intro result record hout
      obtain ⟨hsome, hcounts, hin, hrecord⟩ := hreturned result record hout
      have husage := (countsReturned_iff hcounts).mpr (h.dropped hsome)
      rw [hreceived, ← husage]
      exact ⟨rfl, hin, hrecord⟩

def reply (inputTokens outputTokens : ℤ) (conforms : Bool) : Reply where
  raw := some (.message
    (.dict [("input_tokens", .int inputTokens), ("output_tokens", .int outputTokens)]) .none)
  conforms := conforms

/-- The first reply violates the schema, the second conforms to it. -/
def retriedReplies : List Reply := [reply 100 20 false, reply 50 10 true]

def structuredRequest : InferenceRequest := { tier := .router, hasSchema := true }

def retriedRun : Outcome × World :=
  ainvokeRequest FloatVal.ofRat {} asciiTables ⟨none, .failed⟩ (fun _ => ⟨.none, .none, ""⟩)
    runpodConfig structuredRequest ⟨retriedReplies, [], {}⟩

def Outcome.usage : Outcome → Option UsageDelta
  | .returned result _ => some result.usage
  | .raised _ | .reraised _ _ => none

end SocTalk.Llm.Inference
