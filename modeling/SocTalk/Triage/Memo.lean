import SocTalk.TriagePolicy.Floor
import SocTalk.Worker.Disposition

/-! Verdict memoization: one cached verdict for each alert shape of a tenant, and what a
history of verdicts leaves in it. -/
namespace SocTalk.Triage
open Py TriagePolicy Worker

/-- `os.getenv(name)`. -/
abbrev Environ := String → Option String

def Environ.get (env : Environ) (name default : String) : String := (env name).getD default

def microsPerDay : ℤ := 24 * 60 * 60 * 1000000

/-- The memoization key of an alert; there is none without a template. -/
def shapeKey (source decoder templateHash templateVersion : Option String) : Option String :=
  match templateHash with
  | none => none
  | some hash =>
    if hash = "" then none
    else some (String.intercalate "|"
      [lower (source.getD ""), lower (decoder.getD ""), hash, templateVersion.getD ""])

def reuseConfidenceFloor (env : Environ) : FloatVal :=
  match floatOfText (env.get "SOCTALK_MEMOIZE_CONFIDENCE_FLOOR" "0.9") with
  | .ok floor => floor
  | .error _ => FloatVal.ofRat (9 / 10)

/-- Days after which a cached verdict is stale. -/
def reuseTtlDays (env : Environ) : ℤ :=
  match Py.int (env.get "SOCTALK_MEMOIZE_TTL_DAYS" "30") with
  | .ok days => max 1 days
  | .error _ => 30

inductive Decision where
  | close
  | escalate
  deriving DecidableEq

/-- What one call records: the verdict and the clock it is stamped with. -/
structure Verdict where
  decision : Decision
  confidence : FloatVal
  templateHash : Option String := none
  lastVerdictAt : ℤ
  deriving DecidableEq

/-- A row of `verdict_cache`. -/
structure CachedVerdict extends Verdict where
  hitCount : ℕ
  deriving DecidableEq

abbrev Tenant := ℕ

/-- The table by its primary key: the tenant and the shape. -/
abbrev VerdictCache := Tenant × String → Option CachedVerdict

def recordVerdict (cache : VerdictCache) (key : Tenant × String) (v : Verdict) : VerdictCache :=
  Function.update cache key (some { v with hitCount := ((cache key).map (·.hitCount)).getD 0 })

def bumpHit (cache : VerdictCache) (key : Tenant × String) : VerdictCache :=
  Function.update cache key ((cache key).map fun row => { row with hitCount := row.hitCount + 1 })

/-- A cached close that may be applied again at time `now`. -/
def lookupMemoizedClose (env : Environ) (now : ℤ) (cache : VerdictCache)
    (key : Tenant × String) : Option CachedVerdict :=
  match cache key with
  | none => none
  | some row =>
    if row.lastVerdictAt ≤ now - reuseTtlDays env * microsPerDay then none
    else if row.decision ≠ .close then none
    else if row.confidence.lt (reuseConfidenceFloor env) then none
    else some row

/-! ## What completed runs record -/

/-- The primary alert of a case with its latest source event. -/
structure AlertShape where
  source : Option String
  decoder : Option String
  templateHash : Option String
  templateVersion : Option String
  deriving DecidableEq

/-- What the completion of a run says about its case, after the floor. -/
structure Completion where
  status : RunStatus
  effectiveDisposition : Option Disposition
  verdictConfidence : Option FloatVal
  deriving DecidableEq

/-- The verdict a completion memoizes. -/
def Completion.decision? (c : Completion) : Option (Decision × FloatVal) :=
  if c.status = .completed then
    match c.effectiveDisposition, c.verdictConfidence with
    | some .closeFp, some x => some (.close, x)
    | some .escalate, some x => some (.escalate, x)
    | _, _ => none
  else none

def recordVerdictMemo (cache : VerdictCache) (tenant : Tenant) (row : Option AlertShape)
    (decision : Decision) (confidence : FloatVal) (now : ℤ) : VerdictCache :=
  match row with
  | none => cache
  | some row =>
    match shapeKey row.source row.decoder row.templateHash row.templateVersion with
    | none => cache
    | some key => recordVerdict cache (tenant, key) ⟨decision, confidence, row.templateHash, now⟩

/-! ## Histories -/

/-- What happens to the cache: a recorded verdict, a completed run, a memo that was applied. -/
inductive CacheOp where
  | recordVerdict (key : Tenant × String) (v : Verdict)
  | completeRun (tenant : Tenant) (row : Option AlertShape) (c : Completion) (now : ℤ)
  | bumpHit (key : Tenant × String)

def CacheOp.apply (cache : VerdictCache) : CacheOp → VerdictCache
  | .recordVerdict key v => Triage.recordVerdict cache key v
  | .completeRun tenant row c now =>
    match c.decision? with
    | none => cache
    | some (decision, confidence) => recordVerdictMemo cache tenant row decision confidence now
  | .bumpHit key => Triage.bumpHit cache key

def replay (cache : VerdictCache) (ops : List CacheOp) : VerdictCache := ops.foldl CacheOp.apply cache

/-- The call of `record_verdict` an operation makes, if it makes one. -/
def CacheOp.recorded : CacheOp → Option ((Tenant × String) × Verdict)
  | .recordVerdict key v => some (key, v)
  | .completeRun tenant row c now => do
    let (decision, confidence) ← c.decision?
    let row ← row
    let key ← shapeKey row.source row.decoder row.templateHash row.templateVersion
    return ((tenant, key), ⟨decision, confidence, row.templateHash, now⟩)
  | .bumpHit _ => none

/-- The verdict an operation records for one shape. -/
def CacheOp.verdictFor (key : Tenant × String) (op : CacheOp) : Option Verdict :=
  match op.recorded with
  | some (k, v) => if k = key then some v else none
  | none => none

/-- The verdicts recorded for one shape, oldest first. -/
def verdictsOf (key : Tenant × String) (ops : List CacheOp) : List Verdict :=
  ops.filterMap (CacheOp.verdictFor key)

def verdictIn (cache : VerdictCache) (key : Tenant × String) : Option Verdict :=
  (cache key).map (·.toVerdict)

@[simp] theorem verdictIn_recordVerdict (cache : VerdictCache) (key key' : Tenant × String)
    (v : Verdict) : verdictIn (recordVerdict cache key' v) key =
      if key' = key then some v else verdictIn cache key := by
  unfold verdictIn recordVerdict
  by_cases h : key' = key
  · subst h
    rw [Function.update_self, if_pos rfl]
    rfl
  · rw [Function.update_of_ne (Ne.symm h), if_neg h]

@[simp] theorem verdictIn_bumpHit (cache : VerdictCache) (key key' : Tenant × String) :
    verdictIn (bumpHit cache key') key = verdictIn cache key := by
  unfold verdictIn bumpHit
  by_cases h : key' = key
  · subst h
    rw [Function.update_self]
    cases cache key' <;> rfl
  · rw [Function.update_of_ne (Ne.symm h)]

/-- A completed run writes the cache through its one call, if it makes it. -/
theorem apply_completeRun (cache : VerdictCache) (tenant : Tenant) (row : Option AlertShape)
    (c : Completion) (now : ℤ) :
    CacheOp.apply cache (.completeRun tenant row c now) =
      match CacheOp.recorded (.completeRun tenant row c now) with
      | some (key, v) => recordVerdict cache key v
      | none => cache := by
  simp only [CacheOp.apply, CacheOp.recorded]
  cases c.decision? with
  | none => rfl
  | some d =>
    cases row with
    | none => rfl
    | some row =>
      simp only [recordVerdictMemo, Option.bind_eq_bind, Option.bind_some]
      cases shapeKey row.source row.decoder row.templateHash row.templateVersion <;> rfl

/-- One operation changes a shape's verdict only by recording one for it. -/
theorem verdictIn_apply (cache : VerdictCache) (op : CacheOp) (key : Tenant × String) :
    verdictIn (op.apply cache) key = (op.verdictFor key).or (verdictIn cache key) := by
  unfold CacheOp.verdictFor
  cases op with
  | recordVerdict k v =>
    show verdictIn (recordVerdict cache k v) key = (if k = key then some v else none).or _
    rw [verdictIn_recordVerdict]
    split <;> rfl
  | completeRun tenant row c now =>
    rw [apply_completeRun]
    cases CacheOp.recorded (.completeRun tenant row c now) with
    | none => rfl
    | some call =>
      dsimp only
      rw [verdictIn_recordVerdict]
      split <;> rfl
  | bumpHit k =>
    show verdictIn (bumpHit cache k) key = verdictIn cache key
    exact verdictIn_bumpHit cache key k

/-- The cache holds each shape's last verdict, whatever it was before. -/
theorem verdictIn_replay (cache : VerdictCache) (ops : List CacheOp) (key : Tenant × String) :
    verdictIn (replay cache ops) key =
      ((verdictsOf key ops).getLast?).or (verdictIn cache key) := by
  induction ops using List.reverseRecOn with
  | nil => rfl
  | append_singleton ops op ih =>
    have hstep : replay cache (ops ++ [op]) = op.apply (replay cache ops) := by
      unfold replay
      rw [List.foldl_append]
      rfl
    rw [hstep, verdictIn_apply, ih]
    unfold verdictsOf
    rw [List.filterMap_append]
    cases hv : op.verdictFor key <;> simp [hv]

/-! ## Reuse -/

/-- A close the lookup would hand out while it is fresh. -/
def Verdict.Reusable (env : Environ) (v : Verdict) : Prop :=
  v.decision = .close ∧ v.confidence.lt (reuseConfidenceFloor env) = false

theorem reuseTtlDays_pos (env : Environ) : 0 < reuseTtlDays env := by
  unfold reuseTtlDays
  split <;> omega

/-- The lookup hands out nothing but a reusable verdict of the shape within its days. -/
theorem lookupMemoizedClose_eq_some {env : Environ} {now : ℤ} {cache : VerdictCache}
    {key : Tenant × String} {row : CachedVerdict}
    (h : lookupMemoizedClose env now cache key = some row) :
    cache key = some row ∧ row.toVerdict.Reusable env ∧
      now - reuseTtlDays env * microsPerDay < row.lastVerdictAt := by
  unfold lookupMemoizedClose at h
  split at h
  · cases h
  · rename_i r hr
    split_ifs at h with hage hdec hconf
    obtain rfl := Option.some.inj h
    exact ⟨hr, ⟨not_not.mp hdec, by simpa using hconf⟩, by omega⟩

theorem lookupMemoizedClose_of_reusable {env : Environ} {cache : VerdictCache}
    {key : Tenant × String} {v : Verdict} (hv : verdictIn cache key = some v)
    (hr : v.Reusable env) (now : ℤ) (hage : now - reuseTtlDays env * microsPerDay < v.lastVerdictAt) :
    lookupMemoizedClose env now cache key ≠ none := by
  unfold verdictIn at hv
  obtain ⟨row, hrow, rfl⟩ := Option.map_eq_some_iff.mp hv
  unfold lookupMemoizedClose
  rw [hrow]
  simp [not_le.mpr hage, hr.1, hr.2]

/-- An escalated shape is never closed by reference later in the history. -/
def EscalateSticks (env : Environ) (cache : VerdictCache) (key : Tenant × String)
    (ops : List CacheOp) : Prop :=
  ∀ past later, ops = past ++ later → (∃ v ∈ verdictsOf key past, v.decision = .escalate) →
    ∀ now, lookupMemoizedClose env now (replay cache past) key = none

/-- Some reusable close of the shape is recorded after an escalate of it. -/
def ClosesAfterEscalate (env : Environ) (key : Tenant × String) (ops : List CacheOp) : Prop :=
  ∃ before v after, verdictsOf key ops = before ++ v :: after ∧
    (∃ u ∈ before, u.decision = .escalate) ∧ v.Reusable env

end SocTalk.Triage
