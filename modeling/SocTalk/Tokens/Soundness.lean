import Mathlib.Data.List.TakeWhile
import SocTalk.Tokens.Token

/-! Which strings the verifiers answer, which they accept, and for whom. -/
namespace SocTalk.Tokens

open Py

/-! ## Identifiers read back -/

theorem ne_hyphen_hexDigit {n : ℕ} (h : n < 16) : Json.hexDigit n ≠ '-' := by
  interval_cases n <;> decide

theorem filter_hexDigits {ds : List ℕ} (h : ∀ d ∈ ds, d < 16) :
    (ds.map Json.hexDigit).filter (· ≠ '-') = ds.map Json.hexDigit := by
  refine List.filter_eq_self.mpr fun c hc => ?_
  obtain ⟨d, hd, rfl⟩ := List.mem_map.mp hc
  simpa using ne_hyphen_hexDigit (h d hd)

theorem mapM_hexDigits {ds : List ℕ} (h : ∀ d ∈ ds, d < 16) :
    (ds.map Json.hexDigit).mapM Json.hexDigit? = some ds := by
  induction ds with
  | nil => rfl
  | cons d ds ih =>
    have hd := Json.hexDigit?_hexDigit (h d (by simp))
    have hds := ih fun x hx => h x (by simp [hx])
    simp [List.mapM_cons, hd, hds]

theorem take_append_slice {α : Type} (cs : List α) (i k : ℕ) :
    (cs.drop i).take k ++ cs.drop (i + k) = cs.drop i := by
  rw [← List.drop_drop, List.take_append_drop]

theorem filter_text (u : UUID) : u.text.filter (· ≠ '-') = u.digits.map Json.hexDigit := by
  rw [← filter_hexDigits u.lt]
  unfold UUID.text
  generalize u.digits.map Json.hexDigit = cs
  have h₁₆ : (cs.drop 16).take 4 ++ cs.drop 20 = cs.drop 16 := take_append_slice cs 16 4
  have h₁₂ : (cs.drop 12).take 4 ++ cs.drop 16 = cs.drop 12 := take_append_slice cs 12 4
  have h₈ : (cs.drop 8).take 4 ++ cs.drop 12 = cs.drop 8 := take_append_slice cs 8 4
  have hall : cs = cs.take 8 ++ ((cs.drop 8).take 4 ++ ((cs.drop 12).take 4 ++
      ((cs.drop 16).take 4 ++ cs.drop 20))) := by
    rw [h₁₆, h₁₂, h₈, List.take_append_drop]
  conv_rhs => rw [hall]
  simp [List.filter_append]

@[simp] theorem ofText_text (u : UUID) : UUID.ofText (String.ofList u.text) = .ok u := by
  have hread : ((String.ofList u.text).toList.filter (· ≠ '-')).mapM Json.hexDigit? =
      some u.digits := by
    rw [String.toList_ofList, filter_text, mapM_hexDigits u.lt]
  unfold UUID.ofText
  rw [hread]
  simp only [u.length_eq, dif_pos, dif_pos u.lt]

/-! ## Claims read back -/

theorem compare_int (a b : ℤ) : (Value.int a).compare .lt (.int b) = .ok (decide (a < b)) := by
  simp [Value.compare, Value.num?, CompareOp.floats, FloatVal.lt]

theorem eq_str (a b : String) : (Value.str a).eq (.str b) = (a == b) := by
  simp [Value.eq, Value.num?, Value.text?]

theorem expired_tenantClaims (sub user_type scope : String) (tid : UUID) (now iat ttl : ℤ) :
    expired (.dict (tenantClaims sub user_type scope tid iat ttl)) now =
      .ok (decide (iat + ttl < now)) :=
  compare_int (iat + ttl) now

theorem expired_sessionClaims (p : Principal) (now iat ttl : ℤ) :
    expired (.dict (sessionClaims p iat ttl)) now = .ok (decide (iat + ttl < now)) :=
  compare_int (iat + ttl) now

/-- The tenant-bound claims pass when they are of the kind and in time. -/
theorem check_tenantClaims (user_type scope sub user_type' scope' : String)
    (identity : UUID → UserIdentity) (tid : UUID) (now iat ttl : ℤ) :
    checkTenantClaims user_type scope identity now
        (.dict (tenantClaims sub user_type' scope' tid iat ttl)) =
      .ok (if iat + ttl < now ∨ user_type' ≠ user_type ∨ scope' ≠ scope then none
        else some (identity tid)) := by
  unfold checkTenantClaims
  rw [expired_tenantClaims]
  have hkind : getClaim (.dict (tenantClaims sub user_type' scope' tid iat ttl)) "user_type" .none =
      .ok (.str user_type') := rfl
  have hscope : getClaim (.dict (tenantClaims sub user_type' scope' tid iat ttl)) "scope" .none =
      .ok (.str scope') := rfl
  have htid : claimItem (.dict (tenantClaims sub user_type' scope' tid iat ttl)) "tenant_id" =
      .ok (.str (String.ofList tid.text)) := rfl
  have huuid : UUID.ofValue (.str (String.ofList tid.text)) = .ok tid := ofText_text tid
  simp only [hkind, hscope, htid, bind, Except.bind, eq_str]
  by_cases hexp : iat + ttl < now
  · simp [hexp]
  · by_cases hu : user_type' = user_type
    · by_cases hs : scope' = scope
      · simp [hexp, hu, hs, huuid, orNone]
      · simp [hexp, hu, hs]
    · simp [hexp, hu]

/-- The claims of a session name no scope. -/
theorem check_sessionClaims_scope (user_type scope : String) (identity : UUID → UserIdentity)
    (p : Principal) (now iat ttl : ℤ) :
    checkTenantClaims user_type scope identity now (.dict (sessionClaims p iat ttl)) =
      .ok none := by
  unfold checkTenantClaims
  rw [expired_sessionClaims]
  have hkind : getClaim (.dict (sessionClaims p iat ttl)) "user_type" .none =
      .ok (.str p.user_type) := rfl
  have hscope : getClaim (.dict (sessionClaims p iat ttl)) "scope" .none = .ok .none := rfl
  have hnone : Value.none.eq (.str scope) = false := rfl
  simp only [hkind, hscope, bind, Except.bind, eq_str, hnone]
  by_cases hexp : iat + ttl < now
  · simp [hexp]
  · by_cases hu : p.user_type = user_type
    · simp [hexp, hu]
    · simp [hexp, hu]

/-- The subject of a tenant-bound token is not an identifier. -/
theorem check_tenantClaims_session (sub user_type scope : String) (tid : UUID) (now iat ttl : ℤ)
    (hsub : UUID.ofText sub = .error .valueError) :
    checkSessionClaims now (.dict (tenantClaims sub user_type scope tid iat ttl)) = .ok none := by
  unfold checkSessionClaims
  rw [expired_tenantClaims]
  have hitem : claimItem (.dict (tenantClaims sub user_type scope tid iat ttl)) "sub" =
      .ok (.str sub) := rfl
  have huuid : UUID.ofValue (.str sub) = .error .valueError := hsub
  simp only [sessionIdentity, hitem, bind, Except.bind, huuid]
  by_cases hexp : iat + ttl < now
  · simp [hexp]
  · simp [hexp, orNone]

theorem optionalUUID_tenantClaim {d : Dict} {k : String} {tid : Option UUID}
    (h : d.lookup k = some (tenantClaim tid)) : optionalUUID (.dict d) k = .ok tid := by
  have hget : getClaim (.dict d) k .none = .ok (tenantClaim tid) := by
    simp [getClaim, Dict.getOr, h]
  have hitem : claimItem (.dict d) k = .ok (tenantClaim tid) := by
    simp [claimItem, Dict.item, h]
  unfold optionalUUID
  rw [hget, hitem]
  cases tid with
  | none => rfl
  | some u =>
    have htruthy : (tenantClaim (some u)).truthy = true := by
      simp [tenantClaim, Value.truthy, UUID.text]
    have huuid : UUID.ofValue (tenantClaim (some u)) = .ok u := ofText_text u
    simp only [bind, Except.bind, htruthy, huuid]
    rfl

theorem check_sessionClaims (p : Principal) (now iat ttl : ℤ) :
    checkSessionClaims now (.dict (sessionClaims p iat ttl)) =
      .ok (if iat + ttl < now then none else some p.identity) := by
  unfold checkSessionClaims
  rw [expired_sessionClaims]
  have hsub : claimItem (.dict (sessionClaims p iat ttl)) "sub" =
      .ok (.str (String.ofList p.user_id.text)) := rfl
  have hemail : claimItem (.dict (sessionClaims p iat ttl)) "email" = .ok (.str p.email) := rfl
  have hkind : claimItem (.dict (sessionClaims p iat ttl)) "user_type" =
      .ok (.str p.user_type) := rfl
  have hrole : claimItem (.dict (sessionClaims p iat ttl)) "role" = .ok (.str p.role) := rfl
  have huuid : UUID.ofValue (.str (String.ofList p.user_id.text)) = .ok p.user_id :=
    ofText_text p.user_id
  have htenant : optionalUUID (.dict (sessionClaims p iat ttl)) "tenant_id" = .ok p.tenant_id :=
    optionalUUID_tenantClaim rfl
  have hpin : optionalUUID (.dict (sessionClaims p iat ttl)) "current_tenant" =
      .ok p.current_tenant := optionalUUID_tenantClaim rfl
  have hidentity : sessionIdentity (.dict (sessionClaims p iat ttl)) = .ok p.identity := by
    unfold sessionIdentity
    simp only [hsub, hemail, hkind, hrole, htenant, hpin, huuid, bind, Except.bind]
    rfl
  simp only [hidentity, bind, Except.bind, orNone]
  by_cases hexp : iat + ttl < now
  · simp [hexp]
  · simp [hexp]

/-! ## The minted tokens -/

/-- One call of a mint function. -/
inductive Minted where
  | session (identity : Principal) (iat ttl : ℤ)
  | adapter (tenant_id : UUID) (iat ttl : ℤ)
  | worker (tenant_id : UUID) (iat ttl : ℤ)

namespace Minted

def key (keys : Keys) : Minted → Bytes
  | session .. => keys.jwt_signing_key
  | adapter .. => keys.adapter_signing_key
  | worker .. => keys.adapter_signing_key

def claims : Minted → Dict
  | session identity iat ttl => sessionClaims identity iat ttl
  | adapter tenant_id iat ttl => tenantClaims "adapter" "adapter" "adapter" tenant_id iat ttl
  | worker tenant_id iat ttl => tenantClaims "runs-worker" "worker" "runs" tenant_id iat ttl

def payload (m : Minted) : Bytes := encode (Json.dumps (.dict m.claims))

/-- The token that the call returned. -/
def token (H : Hmac) (keys : Keys) : Minted → String
  | session identity iat ttl => mint_session_token H keys identity iat ttl
  | adapter tenant_id iat ttl => mint_adapter_token H keys tenant_id iat ttl
  | worker tenant_id iat ttl => mint_worker_token H keys tenant_id iat ttl

theorem token_eq (H : Hmac) (keys : Keys) (m : Minted) :
    m.token H keys = sign H (m.key keys) m.claims := by
  cases m <;> rfl

theorem plain_tenantClaim (tid : Option UUID) : Json.Plain (tenantClaim tid) := by
  cases tid <;> trivial

theorem plain_claims (m : Minted) : Json.Plain (.dict m.claims) := by
  cases m with
  | session p iat ttl =>
    refine ⟨by simp [claims, sessionClaims], trivial, trivial, trivial, trivial, trivial, ?_⟩
    exact ⟨plain_tenantClaim _, plain_tenantClaim _, trivial, trivial, trivial⟩
  | adapter tid iat ttl =>
    refine ⟨by simp [claims, tenantClaims], trivial, trivial, trivial, trivial, trivial, ?_⟩
    exact ⟨trivial, trivial, trivial⟩
  | worker tid iat ttl =>
    refine ⟨by simp [claims, tenantClaims], trivial, trivial, trivial, trivial, trivial, ?_⟩
    exact ⟨trivial, trivial, trivial⟩

/-- A verifier reads the claims that the mint function wrote. -/
theorem loads_payload (m : Minted) : (decode m.payload).bind Json.loads = some (.dict m.claims) := by
  rw [payload, decode_encode, Option.bind_some, Json.loads_dumps m.plain_claims]

end Minted

variable (H : Hmac) (keys : Keys)

theorem splitOnce_sign (key : Bytes) (claims : Dict) :
    splitOnce '.' (sign H key claims) =
      some (String.ofList (hex (encode (Json.dumps (.dict claims)))),
        H.hexdigest key (encode (Json.dumps (.dict claims)))) := by
  have hdots : ∀ c ∈ hex (encode (Json.dumps (.dict claims))), c ≠ '.' :=
    fun c hc => ne_dot_of_mem_hex hc
  have hsplit := splitOnce_append (H.hexdigest key (encode (Json.dumps (.dict claims)))).toList hdots
  rw [String.ofList_toList] at hsplit
  exact hsplit

/-- The string carries the payload and the signature of a minted token. Blanks between the bytes
and capital digits spell the same payload. -/
def Spells (token : String) (m : Minted) : Prop :=
  ∃ payload_hex, splitOnce '.' token = some (payload_hex, H.hexdigest (m.key keys) m.payload) ∧
    fromhex payload_hex.toList = some m.payload

/-- A minted token carries its own payload and signature. -/
theorem spells_token (m : Minted) : Spells H keys (m.token H keys) m := by
  refine ⟨String.ofList (hex m.payload), ?_, ?_⟩
  · rw [m.token_eq]
    exact splitOnce_sign H _ _
  · rw [String.toList_ofList, fromhex_hex]

/-- Whoever presents the string has not forged a signature: what it carries under either key was
signed by a mint function. -/
def Unforged (minted : List Minted) (token : String) : Prop :=
  ∀ payload_hex sig payload key, key = keys.jwt_signing_key ∨ key = keys.adapter_signing_key →
    splitOnce '.' token = some (payload_hex, sig) → fromhex payload_hex.toList = some payload →
    sig = H.hexdigest key payload → ∃ m ∈ minted, m.key keys = key ∧ m.payload = payload

/-- Where the part before the first dot reads as bytes, the part after it is ASCII. -/
def Presentable (token : String) : Prop :=
  ∀ payload_hex sig, splitOnce '.' token = some (payload_hex, sig) →
    (fromhex payload_hex.toList).isSome → isAscii sig

/-- A signature check raises on text that is not ASCII, and only there. -/
theorem returns_authenticate (key : Bytes) (token : String) :
    Returns (authenticate H key token) ↔ Presentable token := by
  unfold authenticate Presentable
  cases hsplit : splitOnce '.' token with
  | none => simp
  | some parts =>
    obtain ⟨payload_hex, sig⟩ := parts
    cases hbytes : fromhex payload_hex.toList with
    | none => simp [hbytes]
    | some payload =>
      have hdigest := H.ascii key payload
      by_cases hsig : isAscii sig = true
      · simp [hbytes, compareDigest, hsig, hdigest, bind, Except.bind]
      · simp [hbytes, compareDigest, hsig, bind, Except.bind]

theorem authenticate_eq_some {token : String} {key payload : Bytes}
    (h : authenticate H key token = .ok (some payload)) :
    ∃ payload_hex, splitOnce '.' token = some (payload_hex, H.hexdigest key payload) ∧
      fromhex payload_hex.toList = some payload := by
  unfold authenticate at h
  split at h
  next => cases h
  next payload_hex sig hsplit =>
    split at h
    next => cases h
    next payload' hbytes =>
      obtain ⟨same, hsame, hret⟩ := (bind_eq_ok _ _ _).mp h
      unfold compareDigest at hsame
      split at hsame
      next =>
        obtain rfl := Except.ok.inj hsame
        by_cases heq : sig = H.hexdigest key payload'
        · obtain rfl : payload' = payload := by simpa [heq] using hret
          exact ⟨payload_hex, by rw [hsplit, heq], hbytes⟩
        · simp [heq] at hret
      next => cases hsame

/-! ## What the verifiers answer -/

/-- The identity that a session token stands for. -/
def Minted.sessionResult (now : ℤ) : Minted → Option UserIdentity
  | session identity iat ttl => if iat + ttl < now then none else some identity.identity
  | _ => none

def Minted.adapterResult (now : ℤ) : Minted → Option UserIdentity
  | adapter tenant_id iat ttl => if iat + ttl < now then none else some (adapterIdentity tenant_id)
  | _ => none

def Minted.workerResult (now : ℤ) : Minted → Option UserIdentity
  | worker tenant_id iat ttl => if iat + ttl < now then none else some (workerIdentity tenant_id)
  | _ => none

theorem checkSession_claims (now : ℤ) (m : Minted) :
    checkSessionClaims now (.dict m.claims) = .ok (m.sessionResult now) := by
  cases m with
  | session p iat ttl => exact check_sessionClaims p now iat ttl
  | adapter tid iat ttl => exact check_tenantClaims_session _ _ _ tid now iat ttl rfl
  | worker tid iat ttl => exact check_tenantClaims_session _ _ _ tid now iat ttl rfl

theorem checkAdapter_claims (now : ℤ) (m : Minted) :
    checkTenantClaims "adapter" "adapter" adapterIdentity now (.dict m.claims) =
      .ok (m.adapterResult now) := by
  cases m with
  | session p iat ttl => exact check_sessionClaims_scope _ _ _ p now iat ttl
  | adapter tid iat ttl =>
    refine (check_tenantClaims _ _ _ _ _ _ tid now iat ttl).trans ?_
    simp [Minted.adapterResult]
  | worker tid iat ttl =>
    refine (check_tenantClaims _ _ _ _ _ _ tid now iat ttl).trans ?_
    simp [Minted.adapterResult]

theorem checkWorker_claims (now : ℤ) (m : Minted) :
    checkTenantClaims "worker" "runs" workerIdentity now (.dict m.claims) =
      .ok (m.workerResult now) := by
  cases m with
  | session p iat ttl => exact check_sessionClaims_scope _ _ _ p now iat ttl
  | adapter tid iat ttl =>
    refine (check_tenantClaims _ _ _ _ _ _ tid now iat ttl).trans ?_
    simp [Minted.workerResult]
  | worker tid iat ttl =>
    refine (check_tenantClaims _ _ _ _ _ _ tid now iat ttl).trans ?_
    simp [Minted.workerResult]

/-- A verifier that authenticates under `key` and then reads the claims with `check`; a payload
that is not JSON is answered by `unread`. -/
def verifyWith (key : Bytes) (check : Value → M (Option UserIdentity))
    (unread : M (Option UserIdentity)) (token : String) : M (Option UserIdentity) := do
  match ← authenticate H key token with
  | none => return none
  | some payload =>
    match (decode payload).bind Json.loads with
    | none => unread
    | some claims => check claims

variable {H keys} {minted : List Minted} {token : String}

/-- Such a verifier answers every presentable string, with an identity only for a token that was
minted under its key. -/
theorem verifyWith_spec (hU : Unforged H keys minted token) {key : Bytes}
    (hkey : key = keys.jwt_signing_key ∨ key = keys.adapter_signing_key)
    {check : Value → M (Option UserIdentity)} {result : Minted → Option UserIdentity}
    (hcheck : ∀ m : Minted, check (.dict m.claims) = .ok (result m))
    (unread : M (Option UserIdentity)) (hp : Presentable token) :
    ∃ r, verifyWith H key check unread token = .ok r ∧
      ∀ identity ∈ r, ∃ m ∈ minted, Spells H keys token m ∧ identity ∈ result m := by
  obtain ⟨auth, hauth⟩ := (returns_authenticate H key token).mpr hp
  unfold verifyWith
  rw [hauth]
  cases auth with
  | none => exact ⟨none, rfl, by simp⟩
  | some payload =>
    obtain ⟨payload_hex, hsplit, hbytes⟩ := authenticate_eq_some H hauth
    obtain ⟨m, hm, hmkey, hmpayload⟩ := hU payload_hex _ payload key hkey hsplit hbytes rfl
    refine ⟨result m, ?_, fun identity hi => ⟨m, hm, ⟨payload_hex, ?_, ?_⟩, hi⟩⟩
    · have hread := m.loads_payload
      rw [hmpayload] at hread
      simp only [bind, Except.bind, hread]
      exact hcheck m
    · rw [hmkey, hmpayload]
      exact hsplit
    · rw [hmpayload]
      exact hbytes

theorem presentable_of_returns {key : Bytes} {check : Value → M (Option UserIdentity)}
    {unread : M (Option UserIdentity)} (h : Returns (verifyWith H key check unread token)) :
    Presentable token := by
  obtain ⟨auth, hauth, -⟩ := (returns_bind_iff _ _).mp h
  exact (returns_authenticate H key token).mp ⟨auth, hauth⟩

/-- The three verifiers answer the string, and each identity is that of a token of the verifier's
own kind that the string carries and that is in time. -/
structure Sound (H : Hmac) (keys : Keys) (minted : List Minted) (now : ℤ) (token : String) :
    Prop where
  session : ∃ r, verify_session_token H keys now token = .ok r ∧ ∀ identity ∈ r,
    ∃ p iat ttl, .session p iat ttl ∈ minted ∧ Spells H keys token (.session p iat ttl) ∧
      now ≤ iat + ttl ∧ identity = p.identity
  adapter : ∃ r, verify_adapter_token H keys now token = .ok r ∧ ∀ identity ∈ r,
    ∃ tid iat ttl, .adapter tid iat ttl ∈ minted ∧ Spells H keys token (.adapter tid iat ttl) ∧
      now ≤ iat + ttl ∧ identity = adapterIdentity tid
  worker : ∃ r, verify_worker_token H keys now token = .ok r ∧ ∀ identity ∈ r,
    ∃ tid iat ttl, .worker tid iat ttl ∈ minted ∧ Spells H keys token (.worker tid iat ttl) ∧
      now ≤ iat + ttl ∧ identity = workerIdentity tid

theorem mem_sessionResult {now : ℤ} {m : Minted} {identity : UserIdentity}
    (h : identity ∈ m.sessionResult now) :
    ∃ p iat ttl, m = .session p iat ttl ∧ now ≤ iat + ttl ∧ identity = p.identity := by
  cases m with
  | session p iat ttl =>
    by_cases hexp : iat + ttl < now
    · simp [Minted.sessionResult, hexp] at h
    · have hid : p.identity = identity := by simpa [Minted.sessionResult, hexp] using h
      exact ⟨p, iat, ttl, rfl, by omega, hid.symm⟩
  | adapter tid iat ttl => cases h
  | worker tid iat ttl => cases h

theorem mem_adapterResult {now : ℤ} {m : Minted} {identity : UserIdentity}
    (h : identity ∈ m.adapterResult now) :
    ∃ tid iat ttl, m = .adapter tid iat ttl ∧ now ≤ iat + ttl ∧ identity = adapterIdentity tid := by
  cases m with
  | session p iat ttl => cases h
  | adapter tid iat ttl =>
    by_cases hexp : iat + ttl < now
    · simp [Minted.adapterResult, hexp] at h
    · have hid : adapterIdentity tid = identity := by simpa [Minted.adapterResult, hexp] using h
      exact ⟨tid, iat, ttl, rfl, by omega, hid.symm⟩
  | worker tid iat ttl => cases h

theorem mem_workerResult {now : ℤ} {m : Minted} {identity : UserIdentity}
    (h : identity ∈ m.workerResult now) :
    ∃ tid iat ttl, m = .worker tid iat ttl ∧ now ≤ iat + ttl ∧ identity = workerIdentity tid := by
  cases m with
  | session p iat ttl => cases h
  | adapter tid iat ttl => cases h
  | worker tid iat ttl =>
    by_cases hexp : iat + ttl < now
    · simp [Minted.workerResult, hexp] at h
    · have hid : workerIdentity tid = identity := by simpa [Minted.workerResult, hexp] using h
      exact ⟨tid, iat, ttl, rfl, by omega, hid.symm⟩

/-- A minted token presented to any verifier is answered with nothing or by the check of its
claims. -/
theorem verifyWith_token (m : Minted) (key : Bytes) {check : Value → M (Option UserIdentity)}
    (hcheck : check (.dict m.claims) = .ok none) (unread : M (Option UserIdentity)) :
    verifyWith H key check unread (m.token H keys) = .ok none := by
  have hp : Presentable (m.token H keys) := by
    intro payload_hex sig hsplit _
    rw [m.token_eq, splitOnce_sign] at hsplit
    obtain ⟨-, rfl⟩ := Prod.mk.inj (Option.some.inj hsplit)
    exact H.ascii _ _
  obtain ⟨auth, hauth⟩ := (returns_authenticate H key _).mpr hp
  unfold verifyWith
  rw [hauth]
  cases auth with
  | none => rfl
  | some payload =>
    obtain ⟨payload_hex, hsplit, hbytes⟩ := authenticate_eq_some H hauth
    rw [m.token_eq, splitOnce_sign] at hsplit
    obtain ⟨rfl, -⟩ := Prod.mk.inj (Option.some.inj hsplit)
    rw [String.toList_ofList, fromhex_hex] at hbytes
    have hread := m.loads_payload
    rw [Minted.payload, Option.some.inj hbytes] at hread
    simp only [bind, Except.bind, hread]
    exact hcheck

theorem authenticate_token (H : Hmac) (keys : Keys) (m : Minted) :
    authenticate H (m.key keys) (m.token H keys) = .ok (some m.payload) := by
  have hsame : compareDigest (H.hexdigest (m.key keys) m.payload)
      (H.hexdigest (m.key keys) m.payload) = .ok true := by
    simp [compareDigest, H.ascii]
  unfold authenticate
  rw [m.token_eq, splitOnce_sign]
  simp only [String.toList_ofList, fromhex_hex]
  change compareDigest (H.hexdigest (m.key keys) m.payload)
    (H.hexdigest (m.key keys) m.payload) >>= _ = _
  rw [hsame]
  rfl

/-- A minted token is answered by the check of its claims. -/
theorem verifyWith_own (H : Hmac) (keys : Keys) (m : Minted)
    (check : Value → M (Option UserIdentity)) (unread : M (Option UserIdentity)) :
    verifyWith H (m.key keys) check unread (m.token H keys) = check (.dict m.claims) := by
  unfold verifyWith
  rw [authenticate_token]
  have hread := m.loads_payload
  simp only [bind, Except.bind, hread]

/-- A session token names its user until it expires. -/
theorem verify_session_own (H : Hmac) (keys : Keys) (p : Principal) (now iat ttl : ℤ) :
    verify_session_token H keys now (mint_session_token H keys p iat ttl) =
      .ok (if iat + ttl < now then none else some p.identity) := by
  have hown := verifyWith_own H keys (.session p iat ttl) (checkSessionClaims now)
    (.error .valueError)
  exact hown.trans (check_sessionClaims p now iat ttl)

/-- No verifier accepts a token of another kind. -/
structure Separate (H : Hmac) (keys : Keys) (now : ℤ) : Prop where
  session_adapter : ∀ tid iat ttl,
    verify_session_token H keys now (mint_adapter_token H keys tid iat ttl) = .ok none
  session_worker : ∀ tid iat ttl,
    verify_session_token H keys now (mint_worker_token H keys tid iat ttl) = .ok none
  adapter_session : ∀ p iat ttl,
    verify_adapter_token H keys now (mint_session_token H keys p iat ttl) = .ok none
  adapter_worker : ∀ tid iat ttl,
    verify_adapter_token H keys now (mint_worker_token H keys tid iat ttl) = .ok none
  worker_session : ∀ p iat ttl,
    verify_worker_token H keys now (mint_session_token H keys p iat ttl) = .ok none
  worker_adapter : ∀ tid iat ttl,
    verify_worker_token H keys now (mint_adapter_token H keys tid iat ttl) = .ok none

theorem separate (H : Hmac) (keys : Keys) (now : ℤ) : Separate H keys now := by
  constructor
  · intro tid iat ttl
    exact verifyWith_token (.adapter tid iat ttl) _ (checkSession_claims now _) _
  · intro tid iat ttl
    exact verifyWith_token (.worker tid iat ttl) _ (checkSession_claims now _) _
  · intro p iat ttl
    exact verifyWith_token (.session p iat ttl) _ (checkAdapter_claims now _) _
  · intro tid iat ttl
    exact verifyWith_token (.worker tid iat ttl) _ (checkAdapter_claims now _) _
  · intro p iat ttl
    exact verifyWith_token (.session p iat ttl) _ (checkWorker_claims now _) _
  · intro tid iat ttl
    exact verifyWith_token (.adapter tid iat ttl) _ (checkWorker_claims now _) _

/-- For strings that carry no forged signature, the verifiers are total and sound exactly on those
whose signature part is ASCII wherever the part before it reads as bytes; and no verifier accepts
a token of another kind. -/
theorem verifiers_sound_iff (now : ℤ) (hU : Unforged H keys minted token) :
    (Sound H keys minted now token ↔ Presentable token) ∧ Separate H keys now := by
  refine ⟨⟨fun h => ?_, fun hp => ?_⟩, separate H keys now⟩
  · obtain ⟨r, hr, -⟩ := h.session
    exact presentable_of_returns ⟨r, hr⟩
  · constructor
    · obtain ⟨r, hr, hall⟩ :=
        verifyWith_spec hU (Or.inl rfl) (checkSession_claims now) (.error .valueError) hp
      refine ⟨r, hr, fun identity hi => ?_⟩
      obtain ⟨m, hm, hspells, hres⟩ := hall identity hi
      obtain ⟨p, iat, ttl, rfl, htime, hid⟩ := mem_sessionResult hres
      exact ⟨p, iat, ttl, hm, hspells, htime, hid⟩
    · obtain ⟨r, hr, hall⟩ :=
        verifyWith_spec hU (Or.inr rfl) (checkAdapter_claims now) (.ok none) hp
      refine ⟨r, hr, fun identity hi => ?_⟩
      obtain ⟨m, hm, hspells, hres⟩ := hall identity hi
      obtain ⟨tid, iat, ttl, rfl, htime, hid⟩ := mem_adapterResult hres
      exact ⟨tid, iat, ttl, hm, hspells, htime, hid⟩
    · obtain ⟨r, hr, hall⟩ :=
        verifyWith_spec hU (Or.inr rfl) (checkWorker_claims now) (.ok none) hp
      refine ⟨r, hr, fun identity hi => ?_⟩
      obtain ⟨m, hm, hspells, hres⟩ := hall identity hi
      obtain ⟨tid, iat, ttl, rfl, htime, hid⟩ := mem_workerResult hres
      exact ⟨tid, iat, ttl, hm, hspells, htime, hid⟩

theorem toLower_eq_space {c : Char} (h : c.toLower = ' ') : c = ' ' := by
  unfold Char.toLower at h
  split at h
  next hupper =>
    have hval : c.val + ('a'.val - 'A'.val) = ' '.val := congrArg Char.val h
    have hlow : 65 ≤ c.val.toNat := hupper.1
    have hhigh : c.val.toNat ≤ 90 := hupper.2
    have hnat : (c.val.toNat + 32) % 4294967296 = 32 := by simpa using congrArg UInt32.toNat hval
    omega
  next => exact h

/-- A header that begins with `bearer` and a blank has a token to split off. -/
theorem isSome_splitOnce_of_bearer {auth : String}
    (h : "bearer ".toList.isPrefixOf (auth.toList.map Char.toLower) = true) :
    (splitOnce ' ' auth).isSome = true := by
  obtain ⟨rest, hrest⟩ := List.isPrefixOf_iff_prefix.mp h
  have hmem : ' ' ∈ auth.toList := by
    have hlower : ' ' ∈ auth.toList.map Char.toLower := by
      rw [← hrest]
      simp
    obtain ⟨c, hc, hlow⟩ := List.mem_map.mp hlower
    exact toLower_eq_space hlow ▸ hc
  unfold splitOnce
  split
  next hnil =>
    have hall := List.dropWhile_eq_nil_iff.mp hnil ' ' hmem
    simp at hall
  next => rfl

/-- A request is answered as the token that it presents. -/
theorem identity_from_cookie_or_bearer_eq (H : Hmac) (keys : Keys) (now : ℤ) (auth : String)
    (cookie : Option String) :
    identity_from_cookie_or_bearer H keys now auth cookie =
      match presented auth cookie with
      | some token => verify_session_token H keys now token
      | none => .ok none := by
  unfold identity_from_cookie_or_bearer presented
  by_cases hb : "bearer ".toList.isPrefixOf (auth.toList.map Char.toLower) = true
  · obtain ⟨parts, hparts⟩ := Option.isSome_iff_exists.mp (isSome_splitOnce_of_bearer hb)
    rw [if_pos hb, if_pos hb]
    simp only [hparts, Option.map_some]
  · cases cookie.filter (· ≠ "") <;> simp only [if_neg hb]

/-! ## Concrete tokens -/

def exampleKeys : Keys where
  jwt_signing_key := encode "session-key"
  adapter_signing_key := encode "adapter-key"

/-- The digest of `adapterToken` below under either key. -/
def exampleDigest (key : Bytes) : String :=
  if key = encode "adapter-key" then
    "43d8d7396e88c835c037b6d5856274bfc9c6fa4e038680b833b8124597b2ef3a"
  else "becf835d9fc2d2a5c495e3c10d1c06ab30534b87f577b6cf12dd4a02450adc48"

def exampleHmac : Hmac where
  hexdigest key _ := exampleDigest key
  ascii key _ := by
    unfold exampleDigest
    split <;> decide +kernel

def adapterToken : Minted := .adapter .nil 0 60

theorem unforged_adapterToken :
    Unforged exampleHmac exampleKeys [adapterToken] (adapterToken.token exampleHmac exampleKeys) := by
  intro payload_hex sig payload key hkey hsplit hbytes hsig
  rw [Minted.token_eq, splitOnce_sign] at hsplit
  obtain ⟨rfl, rfl⟩ := Prod.mk.inj (Option.some.inj hsplit)
  rw [String.toList_ofList, fromhex_hex] at hbytes
  refine ⟨adapterToken, by simp, ?_, Option.some.inj hbytes⟩
  rcases hkey with rfl | rfl
  · have hne : encode "session-key" ≠ encode "adapter-key" := by
      intro heq
      have htext := congrArg decode heq
      simp at htext
    change exampleDigest (encode "adapter-key") = exampleDigest (encode "session-key") at hsig
    rw [exampleDigest, if_pos rfl, exampleDigest, if_neg hne] at hsig
    exact absurd hsig (by decide)
  · rfl

theorem sound_adapterToken :
    (Sound exampleHmac exampleKeys [adapterToken] 30 (adapterToken.token exampleHmac exampleKeys) ↔
      Presentable (adapterToken.token exampleHmac exampleKeys)) ∧
    Separate exampleHmac exampleKeys 30 :=
  verifiers_sound_iff 30 unforged_adapterToken

/-- One byte, and a signature with an accent: the verifiers raise. -/
theorem not_sound_accent : ¬Sound exampleHmac exampleKeys [] 0 "00.é" := by
  intro h
  obtain ⟨r, hr, -⟩ := h.session
  have hp : Presentable "00.é" := presentable_of_returns ⟨r, hr⟩
  have hascii := hp "00" "é" (by decide +kernel) (by decide +kernel)
  revert hascii
  decide +kernel

end SocTalk.Tokens
