import Mathlib.Data.Nat.Notation
import Mathlib.Logic.Function.Basic

/-! The password credential of one account, and the requests that verify a password against it or
write it: each is one transaction at READ COMMITTED, and runs statement by statement beside the
others. Times are in microseconds. -/
namespace SocTalk.Auth

def LOCKOUT_THRESHOLD : ℕ := 10

def LOCKOUT_DURATION : ℕ := 15 * 60 * 1000000

def MIN_PASSWORD_LENGTH : ℕ := 12

def MAX_PASSWORD_LENGTH : ℕ := 4096

def validatePassword (candidate : String) : Bool :=
  MIN_PASSWORD_LENGTH ≤ candidate.length && candidate.length ≤ MAX_PASSWORD_LENGTH

/-- `PasswordHasher`; a hash embeds its salt. -/
structure PasswordHasher where
  hash : (salt : ℕ) → (plain : String) → String
  verify : (storedHash plain : String) → Bool
  needsRehash : (storedHash : String) → Bool

def verifyPassword (hasher : PasswordHasher) (salt : ℕ) (plain storedHash : String) :
    Bool × Option String :=
  if hasher.verify storedHash plain then
    (true, if hasher.needsRehash storedHash then some (hasher.hash salt plain) else none)
  else (false, none)

structure PasswordCredential where
  passwordHash : String
  mustChange : Bool
  updatedAt : ℕ
  lastUsedAt : Option ℕ
  consecutiveFailures : ℕ
  lockedUntil : Option ℕ
  deriving DecidableEq

def PasswordCredential.isLocked (cred : PasswordCredential) (now : ℕ) : Bool :=
  cred.lockedUntil.any (now < ·)

/-- A flush writes the columns that differ from what was loaded, and no other. -/
def PasswordCredential.flush (loaded new current : PasswordCredential) : PasswordCredential where
  passwordHash :=
    if new.passwordHash = loaded.passwordHash then current.passwordHash else new.passwordHash
  mustChange := if new.mustChange = loaded.mustChange then current.mustChange else new.mustChange
  updatedAt := if new.updatedAt = loaded.updatedAt then current.updatedAt else new.updatedAt
  lastUsedAt := if new.lastUsedAt = loaded.lastUsedAt then current.lastUsedAt else new.lastUsedAt
  consecutiveFailures :=
    if new.consecutiveFailures = loaded.consecutiveFailures then current.consecutiveFailures
    else new.consecutiveFailures
  lockedUntil :=
    if new.lockedUntil = loaded.lockedUntil then current.lockedUntil else new.lockedUntil

inductive Write where
  | update (loaded new : PasswordCredential)
  | insert (new : PasswordCredential)

/-- An update of no column is not sent. -/
def Write.locks : Write → Bool
  | .update loaded new => new ≠ loaded
  | .insert _ => true

def Write.apply : Write → Option PasswordCredential → Option PasswordCredential
  | .update loaded new, current => current.map (PasswordCredential.flush loaded new)
  | .insert new, _ => some new

/-! ## The requests -/

inductive Request where
  /-- A sign-in; `slugRefused` says that the page's tenant is unknown or another's. -/
  | authenticate (password : String) (slugRefused : Bool)
  | changePassword (oldPassword newPassword : String)
  | adminResetPassword (newPlain : String)

/-- What a transaction commits. -/
inductive Outcome where
  | failed
  | locked
  | succeeded
  | reset
  deriving DecidableEq

/-- A wrong password, at either endpoint. -/
def wrongPassword (cred : PasswordCredential) (now : ℕ) : PasswordCredential × Outcome :=
  let failures := cred.consecutiveFailures + 1
  if LOCKOUT_THRESHOLD ≤ failures then
    ({ cred with consecutiveFailures := failures, lockedUntil := some (now + LOCKOUT_DURATION) },
      .locked)
  else ({ cred with consecutiveFailures := failures }, .failed)

/-- `authenticate` after the verify, and `login`: a refused tenant rolls back. -/
def authenticate (cred : PasswordCredential) (now : ℕ) (slugRefused : Bool) :
    Bool × Option String → Option (PasswordCredential × Outcome)
  | (false, _) => some (wrongPassword cred now)
  | (true, maybeNewHash) =>
    if slugRefused then none
    else
      some ({ cred with
        passwordHash := maybeNewHash.getD cred.passwordHash
        consecutiveFailures := 0
        lastUsedAt := some now
        lockedUntil := none }, .succeeded)

/-- `change_password` after the verify; a new password that is the old one is refused. -/
def changePassword (hasher : PasswordHasher) (salt : ℕ) (cred : PasswordCredential) (now : ℕ)
    (oldPassword newPassword : String) : Bool → Option (PasswordCredential × Outcome)
  | false => some (wrongPassword cred now)
  | true =>
    if newPassword = oldPassword then none
    else
      some ({ cred with
        passwordHash := hasher.hash salt newPassword
        mustChange := false
        updatedAt := now
        consecutiveFailures := 0
        lockedUntil := none }, .succeeded)

def adminResetPassword (hasher : PasswordHasher) (salt now : ℕ) (newPlain : String) :
    Option PasswordCredential → Write
  | none => .insert ⟨hasher.hash salt newPlain, true, now, none, 0, none⟩
  | some cred =>
    .update cred { cred with
      passwordHash := hasher.hash salt newPlain
      mustChange := true
      updatedAt := now
      consecutiveFailures := 0
      lockedUntil := none }

/-! ## The transactions -/

inductive Phase where
  | begun
  | found
  | loaded (cred : Option PasswordCredential)
  | verified (cred : PasswordCredential) (now : ℕ) (result : Bool × Option String)
  /-- The write is sent, and holds the row until the transaction ends. -/
  | flushed (write : Write) (outcome : Outcome)

structure Session where
  request : Request
  phase : Phase

/-- What has happened, in order; a verify notes whether the account was locked. -/
inductive Entry where
  | verified (matched locked : Bool)
  | committed (outcome : Outcome)
  deriving DecidableEq

structure State where
  clock : ℕ
  active : Bool
  credential : Option PasswordCredential
  opened : ℕ
  session : ℕ → Option Session
  log : List Entry

def State.isLocked (s : State) : Bool := s.credential.any (·.isLocked s.clock)

def State.set (s : State) (i : ℕ) (session : Option Session) : State :=
  { s with session := Function.update s.session i session }

/-- The transaction ends with nothing written. -/
def State.close (s : State) (i : ℕ) : State := s.set i none

def State.enter (s : State) (i : ℕ) (request : Request) (phase : Phase) : State :=
  s.set i (some ⟨request, phase⟩)

/-- Some other transaction holds the row. -/
def State.rowLocked (s : State) (i : ℕ) : Bool :=
  (List.range s.opened).any fun j => j != i &&
    match s.session j with
    | some ⟨_, .flushed write _⟩ => write.locks
    | _ => false

/-- The lookup of the user, or the check of the new password. -/
def lookup (s : State) (i : ℕ) : Request → State
  | .authenticate password slugRefused =>
    if s.active then s.enter i (.authenticate password slugRefused) .found else s.close i
  | .changePassword oldPassword newPassword =>
    if validatePassword newPassword then s.enter i (.changePassword oldPassword newPassword) .found
    else s.close i
  | .adminResetPassword newPlain => s.enter i (.adminResetPassword newPlain) .found

/-- The clock, the lock and the password, with no statement between. -/
def verify (hasher : PasswordHasher) (s : State) (i : ℕ) (request : Request) (plain : String) :
    Option PasswordCredential → State
  | none => s.close i
  | some cred =>
    if cred.isLocked s.clock then s.close i
    else
      let result := verifyPassword hasher i plain cred.passwordHash
      { s.enter i request (.verified cred s.clock result) with
        log := s.log ++ [.verified result.1 s.isLocked] }

/-- The write waits for the row; an insert then finds it taken. -/
def send (s : State) (i : ℕ) (request : Request) (write : Write) (outcome : Outcome) : State :=
  if write.locks && s.rowLocked i then s
  else
    match write, s.credential with
    | .insert _, some _ => s.close i
    | _, _ => s.enter i request (.flushed write outcome)

def answer (hasher : PasswordHasher) (s : State) (i : ℕ) (cred : PasswordCredential) (now : ℕ)
    (result : Bool × Option String) : Request → State
  | .authenticate password slugRefused =>
    match authenticate cred now slugRefused result with
    | some (new, outcome) => send s i (.authenticate password slugRefused) (.update cred new) outcome
    | none => s.close i
  | .changePassword oldPassword newPassword =>
    match changePassword hasher i cred now oldPassword newPassword result.1 with
    | some (new, outcome) =>
      send s i (.changePassword oldPassword newPassword) (.update cred new) outcome
    | none => s.close i
  | .adminResetPassword _ => s

inductive Op where
  | tick (microseconds : ℕ)
  | setActive (active : Bool)
  | begin (request : Request)
  | lookup (i : ℕ)
  | load (i : ℕ)
  | verify (i : ℕ)
  | flush (i : ℕ)
  | commit (i : ℕ)
  /-- The connection is lost, or the commit fails. -/
  | abort (i : ℕ)

def step (hasher : PasswordHasher) (s : State) : Op → State
  | .tick d => { s with clock := s.clock + d }
  | .setActive active => { s with active := active }
  | .begin request =>
    { s.enter s.opened request .begun with opened := s.opened + 1 }
  | .lookup i =>
    match s.session i with
    | some ⟨request, .begun⟩ => Auth.lookup s i request
    | _ => s
  | .load i =>
    match s.session i with
    | some ⟨request, .found⟩ => s.enter i request (.loaded s.credential)
    | _ => s
  | .verify i =>
    match s.session i with
    | some ⟨.authenticate password slugRefused, .loaded cred⟩ =>
      Auth.verify hasher s i (.authenticate password slugRefused) password cred
    | some ⟨.changePassword oldPassword newPassword, .loaded cred⟩ =>
      Auth.verify hasher s i (.changePassword oldPassword newPassword) oldPassword cred
    | _ => s
  | .flush i =>
    match s.session i with
    | some ⟨request, .verified cred now result⟩ => answer hasher s i cred now result request
    | some ⟨.adminResetPassword newPlain, .loaded cred⟩ =>
      send s i (.adminResetPassword newPlain) (adminResetPassword hasher i s.clock newPlain cred)
        .reset
    | _ => s
  | .commit i =>
    match s.session i with
    | some ⟨_, .flushed write outcome⟩ =>
      { s.close i with
        credential := write.apply s.credential
        log := s.log ++ [.committed outcome] }
    | _ => s
  | .abort i => s.close i

end SocTalk.Auth
