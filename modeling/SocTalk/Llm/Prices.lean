import SocTalk.Lib.FloatArith
import SocTalk.Llm.Config

/-! The price of each role: the tenant's overrides, the install's catalog, what a new run is stamped
with, and the gate that refuses a configuration with a model nobody has priced. -/
namespace SocTalk.Llm
open Py

/-! ## The catalog -/

/-- A row of `model_prices`. -/
structure ModelPrice where
  providerKind : String
  providerId : Option String
  model : String
  dimensions : Dict

def ProviderKind.value : ProviderKind → String
  | .anthropic => "anthropic"
  | .openai => "openai"
  | .openrouter => "openrouter"
  | .selfHosted => "self_hosted"
  | .openaiCompatible => "openai_compatible"

section

variable (catalog : List ModelPrice) (kind : ProviderKind) (providerId : Option String)

/-- The rows of a kind for a model. -/
def rowsFor (model : String) : List ModelPrice :=
  catalog.filter fun row => row.providerKind = kind.value ∧ row.model = model

/-- The vendor's row, or else the one of no vendor. -/
def vendorRow (model : String) : Option ModelPrice :=
  (providerId.bind fun id => (rowsFor catalog kind model).find? fun row =>
      row.providerId = some id).or
    ((rowsFor catalog kind model).find? fun row => row.providerId = none)

def lookupCandidates : List String → Option ModelPrice
  | [] => none
  | candidate :: candidates =>
    if candidate = "" then lookupCandidates candidates
    else if kind = .openrouter ∧ '/' ∈ candidate.toList then
      -- A namespaced model is priced by the only row for it; two of them are refused.
      match rowsFor catalog kind candidate with
      | [] => lookupCandidates candidates
      | [row] => some row
      | _ => none
    else (vendorRow catalog kind providerId candidate).or (lookupCandidates candidates)

/-- The entry for a model as it is named, or else for its family. -/
def lookup (model : String) : Option ModelPrice :=
  lookupCandidates catalog kind providerId
    (if baseModelId model = model then [model] else [model, baseModelId model])

end

def perMillion : FloatVal → FloatVal
  | .fin q => .ofRat (q / 1000000)
  | x => x

def dollarsPerMtok (dimensions : Dict) (key : String) : M (Option FloatVal) :=
  match Dict.get dimensions key with
  | .none => return none
  | v => return some (perMillion (← v.toFloat))

/-! ## Overrides -/

def overrideKey (kind : ProviderKind) (providerId : Option String) (model : String) : String :=
  kind.value ++ ":" ++ providerId.getD "*" ++ ":" ++ model

/-- The object under the most specific key that has one; without a vendor the first two agree. -/
def overrideEntry (overrides : Dict) (b : RoleBackend) : Option Dict :=
  [overrideKey b.providerKind b.providerId b.model, overrideKey b.providerKind none b.model,
    b.model].findSome? fun key => (Dict.get overrides key).dict?

def overrideRates (entry : Dict) : M (FloatVal × FloatVal) := do
  let input ← (← Dict.item entry "input").toFloat
  let output ← (← Dict.item entry "output").toFloat
  return (input, output)

/-- `_rates_from_override`; a malformed entry is left to the catalog. -/
def ratesFromOverride (overrides : Dict) (b : RoleBackend) : M (Option (FloatVal × FloatVal)) :=
  match overrideEntry overrides b with
  | none => return none
  | some entry => attempt [.keyError, .typeError, .valueError] (overrideRates entry)

/-! ## Resolution -/

inductive PriceSource where
  | tenantOverride
  | catalog
  | unknown
  deriving DecidableEq

structure PriceEntry where
  backend : RoleBackend
  source : PriceSource
  inputPerMtok : Option FloatVal := none
  outputPerMtok : Option FloatVal := none
  cacheReadPerMtok : Option FloatVal := none
  cacheWritePerMtok : Option FloatVal := none
  deriving DecidableEq

/-- What a catalog row prices a backend at. -/
def catalogEntry (b : RoleBackend) (row : ModelPrice) : M PriceEntry := do
  let inputPerMtok ← dollarsPerMtok row.dimensions "input_per_mtok_microusd"
  let outputPerMtok ← dollarsPerMtok row.dimensions "output_per_mtok_microusd"
  let cacheReadPerMtok ← dollarsPerMtok row.dimensions "cache_read_per_mtok_microusd"
  let cacheWritePerMtok ← dollarsPerMtok row.dimensions "cache_write_per_mtok_microusd"
  return ⟨b, .catalog, inputPerMtok, outputPerMtok, cacheReadPerMtok, cacheWritePerMtok⟩

/-- `_resolve_one`. -/
def resolveOne (overrides : Dict) (catalog : List ModelPrice) (b : RoleBackend) : M PriceEntry := do
  match ← ratesFromOverride overrides b with
  | some (input, output) => return ⟨b, .tenantOverride, some input, some output, none, none⟩
  | none =>
    match lookup catalog b.providerKind b.providerId b.model with
    | some row => catalogEntry b row
    | none => return ⟨b, .unknown, none, none, none, none⟩

variable (T : Url.Tables)

/-- The models of `resolve_run_prices`, by role; NULL overrides are no overrides. -/
def resolveRunPrices (overrides : Option Dict) (catalog : List ModelPrice)
    (cfg : IntegrationConfig) : M (List (Role × PriceEntry)) := do
  let roles ← rolesForConfig T cfg none
  roles.mapM fun (role, b) => do return (role, ← resolveOne (overrides.getD []) catalog b)

/-! ## The gate -/

/-- One of the three keys for a model is in the overlay, whatever is stored under it. -/
def hasPriceKey (overlay : Dict) (b : RoleBackend) (name : String) : Bool :=
  [name, overrideKey b.providerKind b.providerId name, overrideKey b.providerKind none name].any
    fun key => (List.lookup key overlay).isSome

/-- The gate has no price for the model of a role; its name is trimmed, and a blank one passes. -/
def unpriced (overlay : Dict) (catalog : List ModelPrice) (b : RoleBackend) : Bool :=
  let name := strip b.model
  !(name = "" || hasPriceKey overlay b name ||
    (lookup catalog b.providerKind b.providerId name).isSome)

/-- `unpriced_config`: each role without a price, with its model. -/
def unpricedConfig (costTracking : Bool) (overlay : Option Dict) (catalog : List ModelPrice)
    (cfg : IntegrationConfig) : M (List (Role × String)) :=
  if !costTracking then return []
  else do
    let roles ← rolesForConfig T cfg none
    return (roles.filter fun e => unpriced (overlay.getD []) catalog e.2).map fun e =>
      (e.1, strip e.2.model)

end SocTalk.Llm
