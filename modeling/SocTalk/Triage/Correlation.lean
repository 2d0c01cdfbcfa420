import Mathlib.Data.List.MinMax
import SocTalk.Triage.Store

/-! Entity-overlap correlation: the typed keys of an alert, and the active investigation
that shares one of them. -/
namespace SocTalk.Triage
open Py

/-- The tier of a key type; a type without an entry is weak. -/
def strengthOf : String → Strength
  | "host" => .strong
  | "hash" => .strong
  | "ip" => .conditional
  | "domain" => .conditional
  | _ => .weak

def keyTypes : List String :=
  ["host", "hash", "ip", "domain", "user", "process", "port", "rule"]

/-- How long a key stays attach-eligible. -/
def windowMinutes : String → ℤ
  | "host" => 60
  | "hash" => 24 * 60
  | "ip" => 6 * 60
  | "domain" => 6 * 60
  | "user" => 60
  | "process" => 30
  | "port" => 30
  | "rule" => 15
  | _ => 30

def microsPerMinute : ℤ := 60 * 1000000

/-- A key seen on more alerts than this is a hub. -/
def hubThreshold : ℕ := 200

def Key.same (k k' : Key) : Bool := k.keyType == k'.keyType && k.keyValue == k'.keyValue

def iocFingerprint (ctx : Context) (i : IngestedIOC) : String :=
  ctx.sha256 (i.type ++ "|" ++ i.value)

/-- The first key of a type and value stays; blank values add none. -/
def addKey (ctx : Context) (out : List Key) (keyType value : String) : List Key :=
  let key : Key := ⟨keyType, ctx.normalize value, strengthOf keyType⟩
  if value = "" ∨ key.keyValue = "" ∨ out.any key.same then out else out ++ [key]

def addEntity (ctx : Context) (out : List Key) (e : WireEntity) : List Key :=
  if keyTypes.contains e.type then addKey ctx out e.type e.value else out

def addIoc (ctx : Context) (out : List Key) (i : IngestedIOC) : List Key :=
  if i.type = "" ∨ i.value = "" then out
  else if i.type = "ip" then addKey ctx out "ip" (iocFingerprint ctx i)
  else if "hash".toList.isPrefixOf i.type.toList then addKey ctx out "hash" (iocFingerprint ctx i)
  else if i.type = "domain" ∨ i.type = "fqdn" then addKey ctx out "domain" (iocFingerprint ctx i)
  else out

def extractKeys (ctx : Context) (e : Ingest) : List Key :=
  let out := e.initialIocs.foldl (addIoc ctx) (e.evidence.entities.foldl (addEntity ctx) [])
  match e.ruleId with
  | some rule => addKey ctx out "rule" rule
  | none => out

/-- One turn of `record_keys`: a row of the index, one more sighting of the key. -/
def recordKey (tenant : Tenant) (alert investigation : ℕ) (occurredAt : ℤ) (db : DB) (k : Key) :
    DB :=
  let seen := (db.keyStats (tenant, k.keyType, k.keyValue)).getD 0
  { db with
    entityKeys := db.entityKeys ++ [{ k with
      tenant := tenant, alertId := alert, investigationId := some investigation
      occurredAt := occurredAt
      expiresAt := occurredAt + windowMinutes k.keyType * microsPerMinute }]
    keyStats := Function.update db.keyStats (tenant, k.keyType, k.keyValue) (some (seen + 1)) }

def recordKeys (db : DB) (tenant : Tenant) (alert investigation : ℕ) (keys : List Key)
    (occurredAt : ℤ) : DB :=
  keys.foldl (recordKey tenant alert investigation occurredAt) db

/-! ## The lookup -/

/-- Strong keys bypass the hub check; a key without statistics is no hub. -/
def eligibleKeys (db : DB) (tenant : Tenant) (keys : List Key) : List Key :=
  let candidates := keys.filter fun k => k.strength ≠ .weak
  let strong := keys.filter fun k => k.strength = .strong
  candidates.filter fun k => strong.any k.same ||
    match db.keyStats (tenant, k.keyType, k.keyValue) with
    | none => true
    | some seen => seen ≤ hubThreshold

/-- The active investigations joined with an index row in its window on an eligible key. -/
def correlatedInvestigations (ctx : Context) (db : DB) (tenant : Tenant) (eligible : List Key) :
    List Investigation :=
  db.entityKeys.flatMap fun row =>
    if row.tenant = tenant ∧ ctx.now < row.expiresAt ∧ eligible.any row.toKey.same then
      db.investigations.filter fun i => row.investigationId = some i.id ∧ i.status = .active
    else []

/-- Times are compared as integers. -/
@[reducible] def timeOrder : Preorder ℤ := Int.instLinearOrder.toPreorder

attribute [local instance] timeOrder

/-- The oldest of them. -/
def findCorrelatedInvestigation (ctx : Context) (db : DB) (tenant : Tenant) (keys : List Key) :
    Option ℕ :=
  ((correlatedInvestigations ctx db tenant (eligibleKeys db tenant keys)).argmin
    Investigation.openedAt).map (·.id)

/-! ## What the lookup decides -/

/-- A key attaches: strong, or conditional and not seen too often. -/
def AttachEligible (db : DB) (tenant : Tenant) (k : Key) : Prop :=
  k.strength = .strong ∨ k.strength = .conditional ∧
    ∀ seen, db.keyStats (tenant, k.keyType, k.keyValue) = some seen → seen ≤ hubThreshold

/-- An active investigation has one of the keys, attach-eligible and still in its window. -/
def SharesActive (ctx : Context) (db : DB) (tenant : Tenant) (keys : List Key) : Prop :=
  ∃ k ∈ keys, AttachEligible db tenant k ∧ ∃ row ∈ db.entityKeys,
    row.tenant = tenant ∧ row.keyType = k.keyType ∧ row.keyValue = k.keyValue ∧
      ctx.now < row.expiresAt ∧ ∃ i ∈ db.investigations,
        row.investigationId = some i.id ∧ i.status = .active

theorem Key.same_iff {k k' : Key} :
    k.same k' = true ↔ k.keyType = k'.keyType ∧ k.keyValue = k'.keyValue := by
  simp [Key.same]

/-- The filter keeps the pairs of the keys that attach. -/
theorem any_eligibleKeys {db : DB} {tenant : Tenant} {keys : List Key} {row : Key} :
    (eligibleKeys db tenant keys).any row.same = true ↔
      ∃ k ∈ keys, AttachEligible db tenant k ∧ row.same k = true := by
  simp only [eligibleKeys, List.any_eq_true, List.mem_filter, Bool.or_eq_true, decide_eq_true_eq]
  constructor
  · rintro ⟨k, ⟨⟨hmem, hweak⟩, hstrong | hrare⟩, hsame⟩
    · -- Another key of the pair is strong, and stands for it.
      obtain ⟨k', ⟨hmem', hk'⟩, hsame'⟩ := hstrong
      have h := Key.same_iff.mp hsame
      have h' := Key.same_iff.mp hsame'
      exact ⟨k', hmem', Or.inl hk', Key.same_iff.mpr ⟨h.1.trans h'.1, h.2.trans h'.2⟩⟩
    · refine ⟨k, hmem, ?_, hsame⟩
      cases hs : k.strength with
      | strong => exact Or.inl hs
      | weak => exact absurd hs hweak
      | conditional =>
        refine Or.inr ⟨hs, ?_⟩
        intro seen hseen
        simpa [hseen] using hrare
  · rintro ⟨k, hmem, helig, hsame⟩
    have hself : k.same k = true := Key.same_iff.mpr ⟨rfl, rfl⟩
    rcases helig with hs | ⟨hs, hrare⟩
    · exact ⟨k, ⟨⟨hmem, by simp [hs]⟩, Or.inl ⟨k, ⟨hmem, hs⟩, hself⟩⟩, hsame⟩
    · refine ⟨k, ⟨⟨hmem, by simp [hs]⟩, Or.inr ?_⟩, hsame⟩
      cases hseen : db.keyStats (tenant, k.keyType, k.keyValue) with
      | none => rfl
      | some seen => simpa using hrare seen hseen

theorem mem_correlatedInvestigations {ctx : Context} {db : DB} {tenant : Tenant} {keys : List Key}
    {i : Investigation} :
    i ∈ correlatedInvestigations ctx db tenant (eligibleKeys db tenant keys) ↔
      ∃ k ∈ keys, AttachEligible db tenant k ∧ ∃ row ∈ db.entityKeys,
        row.tenant = tenant ∧ row.keyType = k.keyType ∧ row.keyValue = k.keyValue ∧
          ctx.now < row.expiresAt ∧ i ∈ db.investigations ∧
            row.investigationId = some i.id ∧ i.status = .active := by
  unfold correlatedInvestigations
  rw [List.mem_flatMap]
  constructor
  · rintro ⟨row, hrow, hi⟩
    split_ifs at hi with hcond
    · obtain ⟨htenant, hwindow, hany⟩ := hcond
      obtain ⟨k, hk, helig, hsame⟩ := any_eligibleKeys.mp hany
      obtain ⟨htype, hvalue⟩ := Key.same_iff.mp hsame
      obtain ⟨hmem, hjoin⟩ := List.mem_filter.mp hi
      have hboth : row.investigationId = some i.id ∧ i.status = .active := by simpa using hjoin
      exact ⟨k, hk, helig, row, hrow, htenant, htype, hvalue, hwindow, hmem, hboth⟩
    · simp at hi
  · rintro ⟨k, hk, helig, row, hrow, htenant, htype, hvalue, hwindow, hi, hjoin, hactive⟩
    have hany : (eligibleKeys db tenant keys).any row.toKey.same = true :=
      any_eligibleKeys.mpr ⟨k, hk, helig, Key.same_iff.mpr ⟨htype, hvalue⟩⟩
    refine ⟨row, hrow, ?_⟩
    rw [if_pos ⟨htenant, hwindow, hany⟩, List.mem_filter]
    exact ⟨hi, by simp [hjoin, hactive]⟩

theorem findCorrelatedInvestigation_eq_none {ctx : Context} {db : DB} {tenant : Tenant}
    {keys : List Key} :
    findCorrelatedInvestigation ctx db tenant keys = none ↔ ¬SharesActive ctx db tenant keys := by
  unfold findCorrelatedInvestigation
  rw [Option.map_eq_none_iff, List.argmin_eq_none, List.eq_nil_iff_forall_not_mem]
  unfold SharesActive
  constructor
  · rintro hnone ⟨k, hk, helig, row, hrow, htenant, htype, hvalue, hwindow, i, hi, hjoin⟩
    exact hnone i (mem_correlatedInvestigations.mpr
      ⟨k, hk, helig, row, hrow, htenant, htype, hvalue, hwindow, hi, hjoin⟩)
  · intro hno i hi
    obtain ⟨k, hk, helig, row, hrow, htenant, htype, hvalue, hwindow, hmem, hjoin⟩ :=
      mem_correlatedInvestigations.mp hi
    exact hno ⟨k, hk, helig, row, hrow, htenant, htype, hvalue, hwindow, i, hmem, hjoin⟩

end SocTalk.Triage
