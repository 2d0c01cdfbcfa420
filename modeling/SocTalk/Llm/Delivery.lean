import SocTalk.Llm.Worker

/-! How a resolved tier is delivered: the kind of its backend, by the host of its base URL, and
what follows from the kind. -/
namespace SocTalk.Llm
open Py

inductive BackendKind where
  | frontier
  | openaiCompat
  | modal
  | runpodPod
  | runpodJob
  | ollama
  deriving DecidableEq

def BackendKind.value : BackendKind → String
  | .frontier => "frontier"
  | .openaiCompat => "openai_compat"
  | .modal => "modal"
  | .runpodPod => "runpod_pod"
  | .runpodJob => "runpod_job"
  | .ollama => "ollama"

inductive Readiness where
  | warm
  | scaleToZero
  | localLoad
  deriving DecidableEq

inductive Lifecycle where
  | managed
  | selfDeployed
  | localRun
  deriving DecidableEq

inductive Scaling where
  | provider
  | scaleToZero
  | singleInstance
  deriving DecidableEq

inductive Billing where
  | perToken
  | perGpuSecond
  | free
  deriving DecidableEq

inductive Batching where
  | providerManaged
  | continuousWorker
  deriving DecidableEq

structure CapabilitySet where
  tools : Bool := true
  strictJson : Bool := true
  guidedJson : Bool
  grammar : Bool
  streaming : Bool := true
  promptCache : Bool
  batchApi : Bool

structure DeliveryProfile where
  backendId : String
  kind : BackendKind
  readiness : Readiness
  lifecycle : Lifecycle
  scaling : Scaling
  billing : Billing
  batching : Batching
  capabilities : CapabilitySet

variable (T : Url.Tables)

/-- `_base_url_of`. -/
def ResolvedModel.baseUrl (resolved : ResolvedModel) : String :=
  if resolved.provider = .anthropic then resolved.llmConfig.anthropicBaseUrl.getD ""
  else resolved.llmConfig.openaiBaseUrl.getD ""

/-- `base if "://" in base else f"{scheme}://{base}"`. -/
def withScheme (scheme base : String) : String :=
  if isInfix "://".toList base.toList then base else scheme ++ "://" ++ base

def backendHost (base : String) : M String :=
  if base = "" then return ""
  else do
    let u ← Url.urlsplit T (withScheme "http" base)
    return lower (u.hostname.getD "")

def endsWith (host suffix : String) : Bool := suffix.toList.isSuffixOf host.toList

def backendKind (engine : Engine) (host : String) : BackendKind :=
  let isProviderHost := host = "api.openai.com" ∨ host = "api.anthropic.com"
  let hasCustomBase := host ≠ "" ∧ ¬isProviderHost
  if endsWith host "proxy.runpod.net" then .runpodPod
  else if host = "api.runpod.ai" then .runpodJob
  else if endsWith host ".modal.run" then .modal
  else if host = "localhost" ∨ host = "127.0.0.1" ∨ isInfix "ollama".toList host.toList then .ollama
  else if engine.served = true ∨ hasCustomBase then .openaiCompat
  else .frontier

def BackendKind.readiness : BackendKind → Readiness
  | .frontier | .runpodPod => .warm
  | .ollama => .localLoad
  | .modal | .runpodJob | .openaiCompat => .scaleToZero

def BackendKind.lifecycle : BackendKind → Lifecycle
  | .frontier => .managed
  | .ollama => .localRun
  | .modal | .runpodPod | .runpodJob | .openaiCompat => .selfDeployed

def BackendKind.scaling : BackendKind → Scaling
  | .frontier => .provider
  | .ollama | .runpodPod => .singleInstance
  | .modal | .runpodJob | .openaiCompat => .scaleToZero

def BackendKind.billing : BackendKind → Billing
  | .frontier | .openaiCompat => .perToken
  | .ollama => .free
  | .modal | .runpodPod | .runpodJob => .perGpuSecond

def BackendKind.batching : BackendKind → Batching
  | .frontier => .providerManaged
  | .ollama | .modal | .runpodPod | .runpodJob | .openaiCompat => .continuousWorker

def deliveryProfileFor (resolved : ResolvedModel) : M DeliveryProfile := do
  let host ← backendHost T resolved.baseUrl
  let kind := backendKind resolved.engine host
  return {
    backendId := kind.value ++ ":" ++ resolved.model
    kind
    readiness := kind.readiness
    lifecycle := kind.lifecycle
    scaling := kind.scaling
    billing := kind.billing
    batching := kind.batching
    capabilities := {
      guidedJson := resolved.engine.selfHosted
      grammar := resolved.engine.selfHosted
      promptCache := resolved.provider = .anthropic
      batchApi := kind = .frontier } }

/-- A resolved tier with its own profile. -/
structure ResolvedBackend where
  resolved : ResolvedModel
  profile : DeliveryProfile
  profile_eq : deliveryProfileFor T resolved = .ok profile

theorem profile_spec {resolved : ResolvedModel} {profile : DeliveryProfile}
    (h : deliveryProfileFor T resolved = .ok profile) :
    ∃ host, backendHost T resolved.baseUrl = .ok host ∧
      profile.kind = backendKind resolved.engine host ∧
      profile.readiness = profile.kind.readiness := by
  unfold deliveryProfileFor at h
  obtain ⟨host, hhost, hrest⟩ := (bind_eq_ok _ _ _).mp h
  obtain rfl := Except.ok.inj hrest
  exact ⟨host, hhost, rfl, rfl⟩

/-! ## The serverless endpoint -/

/-- `_runpod_endpoint_id`. -/
def runpodEndpointId (baseUrl : String) : M (Option String) :=
  if baseUrl = "" then return none
  else do
    let url := withScheme "https" baseUrl
    let u ← Url.urlsplit T url
    if lower (u.hostname.getD "") ≠ "api.runpod.ai" then return none
    else
      match ((Url.path url).splitOn '/').filter (· ≠ []) with
      | version :: endpoint :: _ =>
        return if version = ['v', '2'] then some (String.ofList endpoint) else none
      | _ => return none

/-- Whether an authority can be split does not depend on the scheme before it. -/
theorem returns_urlsplit_https {base : String}
    (h : Returns (Url.urlsplit T ("http" ++ "://" ++ base))) :
    Returns (Url.urlsplit T ("https" ++ "://" ++ base)) := by
  have hhttp : (("http" ++ "://" ++ base).toList.dropWhile fun c => c.toNat ≤ 32).filter
      (fun c => !(['\t', '\r', '\n'].contains c)) = ['h', 't', 't', 'p'] ++ ':' :: '/' :: '/' ::
        base.toList.filter (fun c => !(['\t', '\r', '\n'].contains c)) := by
    simp [String.toList_append]
  have hhttps : (("https" ++ "://" ++ base).toList.dropWhile fun c => c.toNat ≤ 32).filter
      (fun c => !(['\t', '\r', '\n'].contains c)) = ['h', 't', 't', 'p', 's'] ++ ':' :: '/' :: '/' ::
        base.toList.filter (fun c => !(['\t', '\r', '\n'].contains c)) := by
    simp [String.toList_append]
  unfold Url.urlsplit at h ⊢
  simp only [hhttp, Url.splitScheme_append (s := ['h', 't', 't', 'p']) (by decide) (by decide)
    (by decide)] at h
  simp only [hhttps, Url.splitScheme_append (s := ['h', 't', 't', 'p', 's']) (by decide)
    (by decide) (by decide)]
  split at h
  · simp at h
  · rename_i hbrackets
    rw [if_neg hbrackets]
    split at h
    · simp at h
    · rename_i haccepted
      rw [if_neg haccepted]
      obtain ⟨u, hcheck, -⟩ := (returns_bind_iff _ _).mp h
      exact (returns_bind_iff _ _).mpr ⟨u, hcheck, returns_ok _⟩

/-- The endpoint is looked up in a URL that the profile was found in. -/
theorem returns_runpodEndpointId {base host : String} (h : backendHost T base = .ok host) :
    Returns (runpodEndpointId T base) := by
  unfold runpodEndpointId
  split
  · exact returns_ok _
  · rename_i hbase
    rw [backendHost, if_neg hbase] at h
    obtain ⟨u, hu, -⟩ := (bind_eq_ok _ _ _).mp h
    have hsplit : Returns (Url.urlsplit T (withScheme "https" base)) := by
      unfold withScheme at hu ⊢
      split
      · rename_i hscheme
        rw [if_pos hscheme] at hu
        exact ⟨u, hu⟩
      · rename_i hscheme
        rw [if_neg hscheme] at hu
        exact returns_urlsplit_https T ⟨u, hu⟩
    obtain ⟨v, hv⟩ := hsplit
    refine (returns_bind_iff _ _).mpr ⟨v, hv, ?_⟩
    split
    · exact returns_ok _
    · split <;> exact returns_ok _

end SocTalk.Llm
