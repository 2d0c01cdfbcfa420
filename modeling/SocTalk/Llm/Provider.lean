import SocTalk.Lib.Url

/-! Providers, serving engines and the authorities behind base URLs. -/
namespace SocTalk.Llm
open Py

/-- A stored provider; `openai` is also what the worker calls the compatible one. -/
inductive Provider where
  | openai
  | openaiCompatible
  | anthropic
  deriving DecidableEq

inductive Engine where
  | frontier
  | openaiCompatible
  | vllm
  | sglang
  deriving DecidableEq

/-- `SERVED_LLM_ENGINES`. -/
def Engine.served : Engine → Bool
  | .frontier => false
  | .openaiCompatible | .vllm | .sglang => true

/-- `_SELF_HOSTED_ENGINES`. -/
def Engine.selfHosted : Engine → Bool
  | .vllm | .sglang => true
  | .frontier | .openaiCompatible => false

def Engine.value : Engine → String
  | .frontier => "frontier"
  | .openaiCompatible => "openai_compatible"
  | .vllm => "vllm"
  | .sglang => "sglang"

/-- `ProviderEngine(value)`. -/
def Engine.ofValue (value : String) : M Engine :=
  if value = "frontier" then .ok .frontier
  else if value = "openai_compatible" then .ok .openaiCompatible
  else if value = "vllm" then .ok .vllm
  else if value = "sglang" then .ok .sglang
  else .error .valueError

@[simp] theorem Engine.ofValue_value (e : Engine) : Engine.ofValue e.value = .ok e := by
  cases e <;> rfl

inductive ProviderKind where
  | anthropic
  | openai
  | openrouter
  | selfHosted
  | openaiCompatible
  deriving DecidableEq

def openaiSentinelBaseUrl : String := "https://api.openai.com/v1"

def anthropicDefaultBaseUrl : String := "https://api.anthropic.com"

/-! ## Authorities -/

/-- The tables on ASCII, where NFKC changes nothing. -/
def asciiTables : Url.Tables := ⟨id, fun _ => true⟩

variable (T : Url.Tables)

/-- `host.translate(_HTTPX_DOT_FOLD).lower()`. -/
def foldDots (host : String) : List Char :=
  host.toList.map fun c =>
    if c = Char.ofNat 0x3002 ∨ c = Char.ofNat 0xff0e ∨ c = Char.ofNat 0xff61 then '.' else c.toLower

def authorityHostForBaseUrl (baseUrl : String) : M (List Char) := do
  let host ← Url.hostname T baseUrl
  let folded := foldDots (host.getD "")
  .ok (if folded.getLast? = some '.' then folded.dropLast else folded)

def hostMatchesDomain (host : List Char) (domain : String) : Bool :=
  host = domain.toList || ('.' :: domain.toList).isSuffixOf host

/-- `HOSTED_LLM_AUTHORITIES`. -/
def hostedLlmAuthorities : List (String × ProviderKind) :=
  [("openrouter.ai", .openrouter), ("api.openai.com", .openai), ("api.anthropic.com", .anthropic)]

def providerKindFromAuthority (host : List Char) : Option ProviderKind :=
  (hostedLlmAuthorities.find? fun entry => hostMatchesDomain host entry.1).map Prod.snd

def hostedProviderKindForBaseUrl (baseUrl : String) : M (Option ProviderKind) := do
  let host ← authorityHostForBaseUrl T baseUrl
  .ok (providerKindFromAuthority host)

/-- The engine that is rendered, run and priced: a served one is inert at a hosted authority. -/
def effectiveLlmEngine (provider : Provider) (engine : Option Engine) (baseUrl : String) :
    M (Option Engine) :=
  if engine.any Engine.served && provider ≠ .anthropic then do
    let hosted ← hostedProviderKindForBaseUrl T baseUrl
    .ok (if hosted.isSome then none else engine)
  else .ok engine

def hasUsableServedBaseUrl (baseUrl : String) : M Bool :=
  let normalized := strip baseUrl
  if normalized = "" then .ok false
  else do
    let host ← Url.hostname T normalized
    if host.isNone then .ok false
    else do
      let hosted ← hostedProviderKindForBaseUrl T normalized
      .ok hosted.isNone

/-! ## What a backend is priced as -/

/-- `_HOST_VENDORS`. -/
def hostVendors : List (String × String) :=
  [("api.deepseek.com", "deepseek"), ("novarouteai.com", "novaroute"),
    ("api.moonshot.cn", "moonshot"), ("api.mistral.ai", "mistral"),
    ("openrouter.ai", "openrouter"), ("dashscope.aliyuncs.com", "dashscope")]

def providerKindFor (provider : Provider) (baseUrl : String) (engine : Option Engine) :
    M ProviderKind :=
  if provider = .anthropic then .ok .anthropic
  else do
    let host ← authorityHostForBaseUrl T baseUrl
    match providerKindFromAuthority host with
    | some kind => .ok kind
    | none => .ok (if engine.any Engine.selfHosted then .selfHosted else .openaiCompatible)

def providerIdFor (baseUrl : String) : M (Option String) := do
  let host ← authorityHostForBaseUrl T baseUrl
  .ok ((hostVendors.find? fun entry => hostMatchesDomain host entry.1).map Prod.snd)

/-! ## Provider and engine together -/

/-- A served engine speaks the OpenAI protocol. -/
def checkEngineProviderCombo (provider : Provider) (engine : Option Engine) : M Unit :=
  if provider = .anthropic ∧ engine.any Engine.served = true then .error .valueError else .ok ()

def checkPrimaryLlmEngineConfig (provider : Provider) (engine : Option Engine)
    (baseUrl : String) : M Unit := do
  checkEngineProviderCombo provider engine
  if engine.any Engine.served then
    let usable ← hasUsableServedBaseUrl T (strip baseUrl)
    if usable then .ok () else .error .valueError
  else .ok ()

end SocTalk.Llm
