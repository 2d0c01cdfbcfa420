import SocTalk.Lib.Bytes

/-! The signed tokens: session tokens under one key, adapter and runs-worker tokens under another,
each minted and verified by functions of its own. Times are `int(time.time())`. -/
namespace SocTalk.Tokens

open Py

/-! ## Identifiers -/

/-- A `UUID` by its 32 hexadecimal digits. -/
structure UUID where
  digits : List ℕ
  length_eq : digits.length = 32
  lt : ∀ d ∈ digits, d < 16
  deriving DecidableEq

namespace UUID

/-- `str(u)`. -/
def text (u : UUID) : List Char :=
  let ds := u.digits.map Json.hexDigit
  ds.take 8 ++ '-' :: (ds.drop 8).take 4 ++ '-' :: (ds.drop 12).take 4 ++
    '-' :: (ds.drop 16).take 4 ++ '-' :: ds.drop 20

/-- `UUID(s)` for digits with hyphens among them; no mint function writes the other spellings
that the constructor takes. -/
def ofText (s : String) : M UUID :=
  match (s.toList.filter (· ≠ '-')).mapM Json.hexDigit? with
  | some ds =>
    if hlen : ds.length = 32 then
      if hlt : ∀ d ∈ ds, d < 16 then .ok ⟨ds, hlen, hlt⟩ else .error .valueError
    else .error .valueError
  | none => .error .valueError

/-- `UUID(v)`. -/
def ofValue : Value → M UUID
  | .str s => ofText s
  | .enum s => ofText s
  | .none => .error .typeError
  | _ => .error .attributeError

def nil : UUID := ⟨List.replicate 32 0, rfl, by decide⟩

end UUID

/-! ## Signatures -/

/-- `hmac.new(key, payload, hashlib.sha256).hexdigest()`; digests are ASCII text. -/
structure Hmac where
  hexdigest : (key payload : Bytes) → String
  ascii : ∀ key payload, isAscii (hexdigest key payload) = true

structure Keys where
  jwt_signing_key : Bytes
  adapter_signing_key : Bytes

/-- The text of a token over the claims. -/
def sign (H : Hmac) (key : Bytes) (claims : Dict) : String :=
  let payload := encode (Json.dumps (.dict claims))
  String.ofList (hex payload ++ '.' :: (H.hexdigest key payload).toList)

/-- The payload of a token that carries a signature under the key. -/
def authenticate (H : Hmac) (key : Bytes) (token : String) : M (Option Bytes) :=
  match splitOnce '.' token with
  | none => .ok none
  | some (payload_hex, sig) =>
    match fromhex payload_hex.toList with
    | none => .ok none
    | some payload => do
      let same ← compareDigest sig (H.hexdigest key payload)
      return if same then some payload else none

/-! ## Identities -/

/-- What a verifier returns; a claim keeps the type it has in the payload. -/
structure UserIdentity where
  user_id : UUID
  email : Value
  user_type : Value
  role : Value
  tenant_id : Option UUID := none
  current_tenant : Option UUID := none

/-- An identity as the program builds it. -/
structure Principal where
  user_id : UUID
  email : String
  user_type : String
  role : String
  tenant_id : Option UUID := none
  current_tenant : Option UUID := none

def Principal.identity (p : Principal) : UserIdentity where
  user_id := p.user_id
  email := .str p.email
  user_type := .str p.user_type
  role := .str p.role
  tenant_id := p.tenant_id
  current_tenant := p.current_tenant

/-- `claims.get(k, dflt)` of a value that should be a dictionary. -/
def getClaim (claims : Value) (k : String) (dflt : Value) : M Value :=
  match claims with
  | .dict d => .ok (Dict.getOr d k dflt)
  | _ => .error .attributeError

/-- `claims[k]`. -/
def claimItem (claims : Value) (k : String) : M Value :=
  match claims with
  | .dict d => Dict.item d k
  | _ => .error .typeError

/-- `except (KeyError, ValueError): return None`. -/
def orNone {α : Type} (x : M α) : M (Option α) :=
  match x with
  | .ok a => .ok (some a)
  | .error .keyError => .ok none
  | .error .valueError => .ok none
  | .error e => .error e

/-- `claims.get("exp", 0) < int(time.time())`. -/
def expired (claims : Value) (now : ℤ) : M Bool := do
  let exp ← getClaim claims "exp" (.int 0)
  exp.compare .lt (.int now)

/-! ## Adapter and runs-worker tokens -/

/-- The claims of a tenant-bound token. -/
def tenantClaims (sub user_type scope : String) (tenant_id : UUID) (now ttl_seconds : ℤ) : Dict :=
  [("iss", .str "soctalk"), ("sub", .str sub), ("user_type", .str user_type),
    ("tenant_id", .str (String.ofList tenant_id.text)), ("scope", .str scope), ("iat", .int now),
    ("exp", .int (now + ttl_seconds))]

/-- What adapter and runs-worker tokens are checked for once the signature holds. -/
def checkTenantClaims (user_type scope : String) (identity : UUID → UserIdentity) (now : ℤ)
    (claims : Value) : M (Option UserIdentity) := do
  if ← expired claims now then return none
  else if !(← getClaim claims "user_type" .none).eq (.str user_type) then return none
  else if !(← getClaim claims "scope" .none).eq (.str scope) then return none
  else
    let tid ← orNone do UUID.ofValue (← claimItem claims "tenant_id")
    return tid.map identity

def verifyTenantToken (H : Hmac) (key : Bytes) (user_type scope : String)
    (identity : UUID → UserIdentity) (now : ℤ) (token : String) : M (Option UserIdentity) := do
  match ← authenticate H key token with
  | none => return none
  | some payload =>
    match (decode payload).bind Json.loads with
    | none => return none
    | some claims => checkTenantClaims user_type scope identity now claims

def adapterIdentity (tid : UUID) : UserIdentity where
  user_id := .nil
  email := .str "adapter"
  user_type := .str "adapter"
  role := .str "adapter"
  tenant_id := some tid

def mint_adapter_token (H : Hmac) (keys : Keys) (tenant_id : UUID) (now ttl_seconds : ℤ) : String :=
  sign H keys.adapter_signing_key
    (tenantClaims "adapter" "adapter" "adapter" tenant_id now ttl_seconds)

def verify_adapter_token (H : Hmac) (keys : Keys) (now : ℤ) (token : String) :
    M (Option UserIdentity) :=
  verifyTenantToken H keys.adapter_signing_key "adapter" "adapter" adapterIdentity now token

def workerIdentity (tid : UUID) : UserIdentity where
  user_id := .nil
  email := .str "runs-worker"
  user_type := .str "worker"
  role := .str "worker"
  tenant_id := some tid

def mint_worker_token (H : Hmac) (keys : Keys) (tenant_id : UUID) (now ttl_seconds : ℤ) : String :=
  sign H keys.adapter_signing_key
    (tenantClaims "runs-worker" "worker" "runs" tenant_id now ttl_seconds)

def verify_worker_token (H : Hmac) (keys : Keys) (now : ℤ) (token : String) :
    M (Option UserIdentity) :=
  verifyTenantToken H keys.adapter_signing_key "worker" "runs" workerIdentity now token

/-! ## Session tokens -/

def SESSION_TTL_SECONDS : ℤ := 3600

def IMPERSONATION_TTL_SECONDS : ℤ := 1800

/-- `str(tenant) if tenant else None`. -/
def tenantClaim : Option UUID → Value
  | some tid => .str (String.ofList tid.text)
  | none => .none

def sessionClaims (identity : Principal) (now ttl : ℤ) : Dict :=
  [("iss", .str "soctalk"), ("sub", .str (String.ofList identity.user_id.text)),
    ("email", .str identity.email), ("user_type", .str identity.user_type),
    ("role", .str identity.role), ("tenant_id", tenantClaim identity.tenant_id),
    ("current_tenant", tenantClaim identity.current_tenant), ("iat", .int now),
    ("exp", .int (now + ttl))]

def mint_session_token (H : Hmac) (keys : Keys) (identity : Principal) (now ttl : ℤ) : String :=
  sign H keys.jwt_signing_key (sessionClaims identity now ttl)

/-- `UUID(claims[k]) if claims.get(k) else None`. -/
def optionalUUID (claims : Value) (k : String) : M (Option UUID) := do
  if (← getClaim claims k .none).truthy then
    let u ← UUID.ofValue (← claimItem claims k)
    return some u
  else return none

def sessionIdentity (claims : Value) : M UserIdentity := do
  let user_id ← UUID.ofValue (← claimItem claims "sub")
  let email ← claimItem claims "email"
  let user_type ← claimItem claims "user_type"
  let role ← claimItem claims "role"
  let tenant_id ← optionalUUID claims "tenant_id"
  let current_tenant ← optionalUUID claims "current_tenant"
  return { user_id, email, user_type, role, tenant_id, current_tenant }

/-- What a session token is checked for once the signature holds. -/
def checkSessionClaims (now : ℤ) (claims : Value) : M (Option UserIdentity) := do
  if ← expired claims now then return none
  else orNone (sessionIdentity claims)

def verify_session_token (H : Hmac) (keys : Keys) (now : ℤ) (token : String) :
    M (Option UserIdentity) := do
  match ← authenticate H keys.jwt_signing_key token with
  | none => return none
  | some payload =>
    -- The decoding and the parsing stand outside any `try` here.
    match (decode payload).bind Json.loads with
    | none => .error .valueError
    | some claims => checkSessionClaims now claims

/-- The roles that may act as a tenant. -/
def impersonators : List String := ["mssp_admin", "platform_admin", "mssp_manager", "analyst"]

/-- `none` where the request is answered with 403. -/
def mint_impersonation_token (H : Hmac) (keys : Keys) (mssp_user : Principal) (tenant_id : UUID)
    (now : ℤ) : Option String :=
  if mssp_user.role ∈ impersonators then
    some (mint_session_token H keys { mssp_user with current_tenant := some tenant_id } now
      IMPERSONATION_TTL_SECONDS)
  else none

/-- The token that a request presents; the header wins over the cookie. -/
def presented (auth : String) (cookie : Option String) : Option String :=
  if "bearer ".toList.isPrefixOf (auth.toList.map Char.toLower) then
    (splitOnce ' ' auth).map fun parts => Py.strip parts.2
  else cookie.filter (· ≠ "")

def identity_from_cookie_or_bearer (H : Hmac) (keys : Keys) (now : ℤ) (auth : String)
    (cookie : Option String) : M (Option UserIdentity) :=
  if "bearer ".toList.isPrefixOf (auth.toList.map Char.toLower) then
    match splitOnce ' ' auth with
    | some (_, token) => verify_session_token H keys now (Py.strip token)
    | none => .error .indexError
  else
    match cookie.filter (· ≠ "") with
    | some cookie => verify_session_token H keys now cookie
    | none => .ok none

end SocTalk.Tokens
