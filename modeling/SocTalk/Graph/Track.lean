import SocTalk.Graph.Pricing

/-! What `track` does to the state once a response has been read: the cost of the call, the label of
the price it was computed with, and the running totals. -/
namespace SocTalk.Graph
open Py

/-- What was read off a response; the details may exceed the totals. -/
structure CallUsage where
  inputTokens : ℤ := 0
  outputTokens : ℤ := 0
  cacheRead : ℤ := 0
  cacheCreation : ℤ := 0
  reasoning : ℤ := 0
  /-- What the provider says that it charged. -/
  actualCost : Option FloatVal := none

/-- The tokens of a call by what they cost. -/
structure TokenSplit where
  uncachedInput : ℤ
  cacheRead : ℤ
  cacheCreation : ℤ
  plainOutput : ℤ
  reasoning : ℤ

/-- Details are cut to the totals they are a part of. -/
def CallUsage.split (u : CallUsage) : TokenSplit :=
  let cacheRead := min (max u.cacheRead 0) u.inputTokens
  let cacheCreation := min (max u.cacheCreation 0) (u.inputTokens - cacheRead)
  let reasoning := min (max u.reasoning 0) u.outputTokens
  { uncachedInput := u.inputTokens - cacheRead - cacheCreation
    cacheRead, cacheCreation
    plainOutput := u.outputTokens - reasoning
    reasoning }

/-- The counts that enter the price. -/
def TokenSplit.counts (s : TokenSplit) : List ℤ :=
  [s.uncachedInput, s.cacheRead, s.cacheCreation, s.plainOutput, s.reasoning]

variable (round : ℚ → FloatVal)

/-- `(n / 1_000_000.0) * rate`. -/
def portion (n : ℤ) (rate : FloatVal) : M FloatVal := do
  match ← FloatVal.ofInt round n with
  | .fin q => return FloatVal.mul round (round (q / 1000000)) rate
  | x => return FloatVal.mul round x rate

/-- The rates of the five parts; what a price leaves open follows from its input or output rate. -/
def Rates.parts (r : Rates) : List FloatVal :=
  [r.input, r.cacheRead.getD (FloatVal.mul round r.input (round (1 / 10))),
    r.cacheWrite.getD (FloatVal.mul round r.input (.fin (5 / 4))), r.output,
    r.reasoning.getD r.output]

def costDollars (u : CallUsage) (price : Rates) : M FloatVal := do
  let portions ← (u.split.counts.zip (price.parts round)).mapM fun p => portion round p.1 p.2
  return portions.tail.foldl (FloatVal.add round) (portions.headD (.fin 0))

/-- The state that `track` reads and writes, beside the budget's own keys. -/
structure TrackState extends BudgetState where
  costBasis : Option String := none
  priceSource : Value := .none
  cacheReadTokens : ℤ := 0
  cacheCreationTokens : ℤ := 0

/-- The environment: the budgets' defaults and `SOCTALK_UNKNOWN_MODEL_COST`. -/
structure TrackEnv extends BudgetEnv where
  unknownModelCost : Option String := none

/-- The cost of a call with the origin of the rates that it was computed with. -/
def callPrice (env : TrackEnv) (snapshot : Option Dict) (model : Option String) (u : CallUsage) :
    M (Origin × FloatVal) :=
  match u.actualCost with
  | some cost => return (.source (.str "provider"), cost)
  | none => do
    let (origin, price) ← selectPrice env.unknownModelCost snapshot model
    let cost ← costDollars round u price
    return (origin, cost)

def callLabel (snapshot : Option Dict) (model : Option String) (u : CallUsage) : M Value :=
  match u.actualCost with
  | some _ => return .str "provider"
  | none => priceLabel snapshot model

/-- `track` after the response has been read. -/
def account (env : TrackEnv) (s : TrackState) (model : Option String) (u : CallUsage) :
    M TrackState := do
  let b := ensure env.toBudgetEnv s.toBudgetState
  let (_, cost) ← callPrice round env s.priceSnapshot model u
  let label ← callLabel s.priceSnapshot model u
  return { b with
    tokensUsed := some (b.tokensUsed.getD 0 + (u.inputTokens + u.outputTokens))
    dollarsUsed := some (FloatVal.add round (b.dollarsUsed.getD (.fin 0)) cost)
    -- Spend that nobody has priced is counted apart; it stays in the total.
    dollarsUnpriced :=
      if isUnknown label then
        some (FloatVal.add round (b.dollarsUnpriced.getD (.fin 0)) cost)
      else b.dollarsUnpriced
    costBasis := some (if u.actualCost.isSome then "provider_reported" else "estimated")
    priceSource := label
    cacheReadTokens := s.cacheReadTokens + u.cacheRead
    cacheCreationTokens := s.cacheCreationTokens + u.cacheCreation }

end SocTalk.Graph
