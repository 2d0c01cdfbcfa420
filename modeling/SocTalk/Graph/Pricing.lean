import SocTalk.Graph.Budget
import SocTalk.Lib.FloatArith
import SocTalk.Lib.Json
import SocTalk.Llm.Config

/-! What a call costs: the rates of the run's price snapshot, of the shipped table or of the
unknown-model fallback, and the label that names where they came from. -/
namespace SocTalk.Graph
open Py
open Llm (baseModelId)

/-! ## Rates -/

/-- Dollars for a million tokens. -/
structure Rates where
  input : FloatVal
  output : FloatVal
  cacheRead : Option FloatVal := none
  cacheWrite : Option FloatVal := none
  reasoning : Option FloatVal := none
  deriving DecidableEq

def eqRate : Option FloatVal → Option FloatVal → Bool
  | some x, some y => x.eq y
  | none, none => true
  | _, _ => false

/-- `a == b` of two price dictionaries. -/
def Rates.eq (a b : Rates) : Bool :=
  a.input.eq b.input && a.output.eq b.output && eqRate a.cacheRead b.cacheRead &&
    eqRate a.cacheWrite b.cacheWrite && eqRate a.reasoning b.reasoning

def listed (input output : ℚ) : Rates := ⟨.ofRat input, .ofRat output, none, none, none⟩

/-- `_MODEL_PRICES_PER_MTOK`. -/
def modelPricesPerMtok : List (String × Rates) :=
  [("claude-opus-4", listed 15 75), ("claude-opus-3", listed 15 75),
    ("claude-sonnet-4", listed 3 15), ("claude-3-5-sonnet", listed 3 15),
    ("claude-3-7-sonnet", listed 3 15), ("claude-haiku-4", listed 1 5),
    ("claude-haiku-4-5", listed 1 5), ("claude-3-5-haiku", listed (4 / 5) 4),
    ("claude-sonnet-4-6", listed 3 15), ("claude-opus-4-1", listed 15 75),
    ("gpt-4o-mini", listed (3 / 20) (3 / 5)), ("gpt-4o", listed (5 / 2) 10),
    ("gpt-4-turbo", listed 10 30), ("gpt-4", listed 30 60), ("o1-mini", listed 3 12),
    ("o1", listed 15 60)]

def unknownModelFallback : Rates := ⟨.fin 15, .fin 75, none, none, none⟩
def zeroCost : Rates := ⟨.fin 0, .fin 0, none, none, none⟩

/-- The dictionary of `SOCTALK_UNKNOWN_MODEL_COST`, where it has both prices. -/
def explicitCost (raw : String) : M Rates :=
  match Json.loads raw with
  | some (.dict d) =>
    match d.lookup "input", d.lookup "output" with
    | some input, some output => do
      let input ← input.toFloat
      let output ← output.toFloat
      return ⟨input, output, none, none, none⟩
    | _, _ => .error .valueError
  | _ => .error .valueError

/-- The price of a model nobody has priced, `SOCTALK_UNKNOWN_MODEL_COST` or the expensive default. -/
def unknownModelCost (env : Option String) : M Rates :=
  let raw := strip (env.getD "")
  if raw = "" then .ok unknownModelFallback
  else if ["0", "zero", "free"].contains (lower raw) then .ok zeroCost
  else do
    let rates ← attempt [.valueError, .typeError] (explicitCost raw)
    return rates.getD unknownModelFallback

/-- The key a model is looked up by in the shipped table. -/
def normalizeModel (model : Option String) : String :=
  match model with
  | none => ""
  | some m => if (modelPricesPerMtok.lookup (baseModelId m)).isSome then baseModelId m else m

def tablePrice (model : Option String) : Option Rates :=
  modelPricesPerMtok.lookup (normalizeModel model)

/-! ## The price snapshot -/

def sourceOf (entry : Dict) : Value := Dict.get entry "source"

def isUnknown (source : Value) : Bool := source.eq (.str "unknown")

/-- The entries of a snapshot that are dictionaries, in their order. -/
def snapshotEntries (snapshot : Dict) : M (List Dict) := do
  return (← (Dict.get snapshot "models").values).filterMap Value.dict?

/-- `_snapshot_source` stops at the first entry with this. -/
def names (model : String) (entry : Dict) : Bool :=
  let candidate := ((Dict.get entry "model").orElse (.str "")).toText
  candidate == model || baseModelId candidate == baseModelId model

/-- `_snapshot_rates` collects the entries with this. -/
def matchesModel (model : String) (entry : Dict) : Bool :=
  let candidate := Dict.get entry "model"
  candidate.truthy &&
    (candidate.eq (.str model) || baseModelId candidate.toText == baseModelId model)

/-- An optional rate; one that cannot be read is left out. -/
def optionalRate (entry : Dict) (key : String) : M (Option FloatVal) :=
  match Dict.get entry key with
  | .none => return none
  | v => attempt [.typeError, .valueError] v.toFloat

def requiredRates (entry : Dict) : M (FloatVal × FloatVal) := do
  let input ← (← Dict.item entry "input_per_mtok").toFloat
  let output ← (← Dict.item entry "output_per_mtok").toFloat
  return (input, output)

/-- One entry as rates, or none if it cannot price anything. -/
def ratesFromEntry (entry : Dict) : M (Option Rates) :=
  if isUnknown (sourceOf entry) then return none
  else do
    match ← attempt [.keyError, .typeError, .valueError] (requiredRates entry) with
    | none => return none
    | some (input, output) =>
      let cacheRead ← optionalRate entry "cache_read_per_mtok"
      let cacheWrite ← optionalRate entry "cache_write_per_mtok"
      let reasoning ← optionalRate entry "reasoning_per_mtok"
      return some ⟨input, output, cacheRead, cacheWrite, reasoning⟩

/-- What `_snapshot_rates` answers: nothing, the sentinel for "unknown", or rates. The entry that
has them is carried along. -/
inductive SnapshotPrice where
  | absent
  | unknown
  | rated (entry : Dict) (rates : Rates)

/-- Rates that agree with the first; two roles that do not are ambiguous. -/
def agreedRates : List (Dict × Rates) → SnapshotPrice
  | [] => .absent
  | (entry, first) :: rest =>
    if rest.any fun other => !other.2.eq first then .absent else .rated entry first

def ratesOfMatches (found : List Dict) : M SnapshotPrice :=
  if found.isEmpty then return .absent
  else if found.all fun entry => isUnknown (sourceOf entry) then return .unknown
  else do
    let rated ← found.mapM ratesFromEntry
    return agreedRates ((found.zip rated).filterMap fun (entry, rates) => rates.map (entry, ·))

/-- The snapshot with the model, where there are both. -/
def priceable (snapshot : Option Dict) (model : Option String) : Option (Dict × String) :=
  match snapshot, model with
  | some snapshot, some model => if model = "" then none else some (snapshot, model)
  | _, _ => none

def snapshotRates (snapshot : Option Dict) (model : Option String) : M SnapshotPrice :=
  match priceable snapshot model with
  | none => return .absent
  | some (snapshot, model) => do
    let entries ← snapshotEntries snapshot
    ratesOfMatches (entries.filter (matchesModel model))

def snapshotSource (snapshot : Option Dict) (model : Option String) : M Value :=
  match priceable snapshot model with
  | none => return .none
  | some (snapshot, model) => do
    let entries ← snapshotEntries snapshot
    return ((entries.find? (names model)).map sourceOf).getD .none

/-! ## The price of a call -/

/-- Where rates came from; `source` is what names them. -/
inductive Origin where
  | fallback
  | source (source : Value)

def selectPrice (env : Option String) (snapshot : Option Dict) (model : Option String) :
    M (Origin × Rates) := do
  match ← snapshotRates snapshot model with
  | .rated entry rates => return (.source (sourceOf entry), rates)
  | .unknown => return (.fallback, ← unknownModelCost env)
  | .absent =>
    match tablePrice model with
    | some rates => return (.source (.str "builtin"), rates)
    | none => return (.fallback, ← unknownModelCost env)

/-- The label of a call that was estimated. -/
def priceLabel (snapshot : Option Dict) (model : Option String) : M Value := do
  let source ← snapshotSource snapshot model
  return if source.truthy then source
    else .str (if (tablePrice model).isSome then "builtin" else "unknown")

end SocTalk.Graph
