import SocTalk.Lib.Sha256
import SocTalk.Triage.Correlation

/-! The lookup by which a worker's close asks for another active investigation on the same keys,
beside the lookup of ingest; and which keys an alert's entities and IOCs give. -/
namespace SocTalk.Triage
open Py

/-! ## The worker's lookup -/

/-- The strength of a stored key counts, with the hub check on a conditional one. -/
def attaches (db : DB) (mine : EntityKey) : Bool :=
  mine.strength = .strong || mine.strength = .conditional &&
    (db.keyStats (mine.tenant, mine.keyType, mine.keyValue)).getD 0 ≤ hubThreshold

/-- The rows of the self-join: the investigation's own key and another investigation's, both in
their windows. -/
def joins (ctx : Context) (db : DB) (tenant : Tenant) (investigation : ℕ)
    (mine other : EntityKey) : Bool :=
  other.tenant = mine.tenant && mine.toKey.same other.toKey && other.investigationId.isSome &&
    other.investigationId ≠ mine.investigationId && mine.tenant = tenant &&
    mine.investigationId = some investigation && ctx.now < mine.expiresAt &&
    ctx.now < other.expiresAt && attaches db mine

def otherActiveInvestigations (ctx : Context) (db : DB) (tenant : Tenant) (investigation : ℕ) :
    List Investigation :=
  db.entityKeys.flatMap fun mine =>
    (db.entityKeys.filter (joins ctx db tenant investigation mine)).flatMap fun other =>
      db.investigations.filter fun i => other.investigationId = some i.id ∧ i.status = .active

attribute [local instance] timeOrder

def findOtherActiveInvestigationSharingKeys (ctx : Context) (db : DB) (tenant : Tenant)
    (investigation : ℕ) : Option ℕ :=
  ((otherActiveInvestigations ctx db tenant investigation).argmin Investigation.openedAt).map (·.id)

/-! ## The two lookups -/

/-- The keys of an investigation that are still in their windows. -/
def openKeys (ctx : Context) (db : DB) (tenant : Tenant) (investigation : ℕ) : List Key :=
  (db.entityKeys.filter fun row => row.tenant = tenant ∧
    row.investigationId = some investigation ∧ ctx.now < row.expiresAt).map (·.toKey)

/-- Ingest takes the row for a shared attach-eligible one of the key. -/
def IngestShares (ctx : Context) (db : DB) (tenant : Tenant) (k : Key) (row : EntityKey) : Prop :=
  row.tenant = tenant ∧ ctx.now < row.expiresAt ∧
    (eligibleKeys db tenant [k]).any row.toKey.same = true

theorem attaches_iff {db : DB} {mine : EntityKey} :
    attaches db mine = true ↔ AttachEligible db mine.tenant mine.toKey := by
  unfold attaches AttachEligible
  simp only [Bool.or_eq_true, decide_eq_true_eq, Bool.and_eq_true]
  cases hseen : db.keyStats (mine.tenant, mine.keyType, mine.keyValue) with
  | none => simp
  | some seen => simp

theorem ingestShares_iff {ctx : Context} {db : DB} {tenant : Tenant} {k : Key} {row : EntityKey} :
    IngestShares ctx db tenant k row ↔ row.tenant = tenant ∧ ctx.now < row.expiresAt ∧
      AttachEligible db tenant k ∧ row.keyType = k.keyType ∧ row.keyValue = k.keyValue := by
  unfold IngestShares
  rw [any_eligibleKeys]
  simp [Key.same_iff]

/-- The worker takes a pair of rows exactly if its own key is in its window and ingest would take the
other row for that key, which belongs to another investigation. -/
theorem joins_iff {ctx : Context} {db : DB} {tenant : Tenant} {investigation : ℕ}
    {mine other : EntityKey} :
    joins ctx db tenant investigation mine other = true ↔
      (mine.tenant = tenant ∧ mine.investigationId = some investigation ∧
        ctx.now < mine.expiresAt) ∧
      (other.investigationId ≠ none ∧ other.investigationId ≠ some investigation) ∧
        IngestShares ctx db tenant mine.toKey other := by
  unfold joins
  rw [ingestShares_iff]
  simp only [Bool.and_eq_true, decide_eq_true_eq, Key.same_iff, attaches_iff,
    Option.isSome_iff_ne_none]
  constructor
  · rintro ⟨⟨⟨⟨⟨⟨⟨⟨htenant, htype, hvalue⟩, hsome⟩, hother⟩, hmine⟩, hown⟩, hwindow⟩, hwindow'⟩, helig⟩
    rw [hown] at hother
    rw [hmine] at htenant helig
    exact ⟨⟨hmine, hown, hwindow⟩, ⟨hsome, hother⟩, htenant, hwindow', helig, htype.symm,
      hvalue.symm⟩
  · rintro ⟨⟨hmine, hown, hwindow⟩, ⟨hsome, hother⟩, htenant, hwindow', helig, htype, hvalue⟩
    rw [hown, hmine]
    exact ⟨⟨⟨⟨⟨⟨⟨⟨htenant, htype.symm, hvalue.symm⟩, hsome⟩, hother⟩, rfl⟩, rfl⟩, hwindow⟩,
      hwindow'⟩, helig⟩

theorem mem_openKeys {ctx : Context} {db : DB} {tenant : Tenant} {investigation : ℕ} {k : Key} :
    k ∈ openKeys ctx db tenant investigation ↔ ∃ mine ∈ db.entityKeys, (mine.tenant = tenant ∧
      mine.investigationId = some investigation ∧ ctx.now < mine.expiresAt) ∧ mine.toKey = k := by
  unfold openKeys
  simp only [List.mem_map, List.mem_filter, decide_eq_true_eq, and_assoc]

/-- The worker's candidates are those of ingest for the investigation's own open keys, but itself. -/
theorem mem_otherActiveInvestigations {ctx : Context} {db : DB} {tenant : Tenant}
    {investigation : ℕ} {i : Investigation} :
    i ∈ otherActiveInvestigations ctx db tenant investigation ↔ i.id ≠ investigation ∧
      i ∈ correlatedInvestigations ctx db tenant
        (eligibleKeys db tenant (openKeys ctx db tenant investigation)) := by
  rw [mem_correlatedInvestigations]
  unfold otherActiveInvestigations
  simp only [List.mem_flatMap, List.mem_filter, joins_iff, ingestShares_iff, decide_eq_true_eq]
  constructor
  · rintro ⟨mine, hmine, other, ⟨hrow, hopen, ⟨-, hother⟩, htenant, hwindow, helig, htype, hvalue⟩,
      hi, hjoin, hactive⟩
    have hid : i.id ≠ investigation := by
      intro heq
      rw [hjoin, heq] at hother
      exact hother rfl
    exact ⟨hid, mine.toKey, mem_openKeys.mpr ⟨mine, hmine, hopen, rfl⟩, helig, other, hrow, htenant,
      htype, hvalue, hwindow, hi, hjoin, hactive⟩
  · rintro ⟨hid, k, hk, helig, other, hrow, htenant, htype, hvalue, hwindow, hi, hjoin, hactive⟩
    obtain ⟨mine, hmine, hopen, rfl⟩ := mem_openKeys.mp hk
    have hsome : other.investigationId ≠ none := by
      rw [hjoin]
      exact Option.some_ne_none _
    have hother : other.investigationId ≠ some investigation := by
      rw [hjoin]
      exact fun heq => hid (Option.some.inj heq)
    exact ⟨mine, hmine, other, ⟨hrow, hopen, ⟨hsome, hother⟩, htenant, hwindow, helig, htype,
      hvalue⟩, hi, hjoin, hactive⟩

/-- The id is that of an oldest of the investigations. -/
def Oldest (candidates : List Investigation) (id : ℕ) : Prop :=
  ∃ i ∈ candidates, i.id = id ∧ ∀ j ∈ candidates, i.openedAt ≤ j.openedAt

theorem argmin_eq_none_iff {candidates : List Investigation} :
    (candidates.argmin Investigation.openedAt).map (·.id) = none ↔ candidates = [] := by
  rw [Option.map_eq_none_iff, List.argmin_eq_none]

theorem oldest_of_argmin {candidates : List Investigation} {id : ℕ}
    (h : (candidates.argmin Investigation.openedAt).map (·.id) = some id) :
    Oldest candidates id := by
  obtain ⟨i, hi, rfl⟩ := Option.map_eq_some_iff.mp h
  exact ⟨i, List.argmin_mem hi, rfl, fun j hj => List.le_of_mem_argmin hj hi⟩

/-! ## The keys of an alert -/

/-- The keys have one of the type and value. -/
def Has (keys : List Key) (keyType keyValue : String) : Prop :=
  ∃ k ∈ keys, k.keyType = keyType ∧ k.keyValue = keyValue

/-- A text gives the key value: its normal form, unless that or the text is blank. -/
def Adds (ctx : Context) (value keyValue : String) : Prop :=
  value ≠ "" ∧ keyValue ≠ "" ∧ ctx.normalize value = keyValue

/-- The key type that an IOC type maps to. -/
def iocKeyType (type : String) : Option String :=
  if type = "ip" then some "ip"
  else if "hash".toList.isPrefixOf type.toList then some "hash"
  else if type = "domain" ∨ type = "fqdn" then some "domain"
  else none

theorem has_addKey {ctx : Context} {out : List Key} {keyType value t v : String} :
    Has (addKey ctx out keyType value) t v ↔ Has out t v ∨ t = keyType ∧ Adds ctx value v := by
  unfold addKey
  dsimp only
  split_ifs with hskip
  · constructor
    · exact .inl
    · rintro (hold | ⟨rfl, hvalue, hblank, rfl⟩)
      · exact hold
      · rcases hskip with hnone | hnone | hany
        · exact absurd hnone hvalue
        · exact absurd hnone hblank
        · obtain ⟨k, hk, hsame⟩ := List.any_eq_true.mp hany
          obtain ⟨htype, hkey⟩ := Key.same_iff.mp hsame
          exact ⟨k, hk, htype.symm, hkey.symm⟩
  · rw [not_or, not_or] at hskip
    constructor
    · rintro ⟨k, hk, htype, hkey⟩
      rcases List.mem_append.mp hk with hold | hnew
      · exact .inl ⟨k, hold, htype, hkey⟩
      · obtain rfl := List.mem_singleton.mp hnew
        subst htype hkey
        exact .inr ⟨rfl, hskip.1, hskip.2.1, rfl⟩
    · rintro (⟨k, hk, htype, hkey⟩ | ⟨rfl, -, -, rfl⟩)
      · exact ⟨k, List.mem_append_left _ hk, htype, hkey⟩
      · exact ⟨_, List.mem_append_right _ (List.mem_singleton.mpr rfl), rfl, rfl⟩

theorem has_foldl {α : Type} {f : List Key → α → List Key} {P : α → Prop} {t v : String}
    (h : ∀ out x, Has (f out x) t v ↔ Has out t v ∨ P x) (xs : List α) (out : List Key) :
    Has (xs.foldl f out) t v ↔ Has out t v ∨ ∃ x ∈ xs, P x := by
  induction xs generalizing out with
  | nil => simp
  | cons x xs ih =>
    rw [List.foldl_cons, ih, h, or_assoc]
    simp

theorem addIoc_eq (ctx : Context) (out : List Key) (i : IngestedIOC) :
    addIoc ctx out i =
      if i.type = "" ∨ i.value = "" then out
      else match iocKeyType i.type with
        | some t => addKey ctx out t (iocFingerprint ctx i)
        | none => out := by
  unfold addIoc iocKeyType
  split_ifs <;> rfl

theorem has_addEntity {ctx : Context} {out : List Key} {x : WireEntity} {t v : String} :
    Has (addEntity ctx out x) t v ↔ Has out t v ∨ x.type ∈ keyTypes ∧ t = x.type ∧
      Adds ctx x.value v := by
  unfold addEntity
  split_ifs with htype
  · have hmem : x.type ∈ keyTypes := by simpa using htype
    rw [has_addKey]
    simp [hmem]
  · have hmem : x.type ∉ keyTypes := by simpa using htype
    simp [hmem]

theorem has_addIoc {ctx : Context} {out : List Key} {i : IngestedIOC} {t v : String} :
    Has (addIoc ctx out i) t v ↔ Has out t v ∨ (i.type ≠ "" ∧ i.value ≠ "") ∧
      iocKeyType i.type = some t ∧ Adds ctx (iocFingerprint ctx i) v := by
  rw [addIoc_eq]
  split_ifs with hblank
  · have hnone : ¬(i.type ≠ "" ∧ i.value ≠ "") := by tauto
    simp [hnone]
  · have hsome : i.type ≠ "" ∧ i.value ≠ "" := by tauto
    cases htype : iocKeyType i.type with
    | none => simp
    | some keyType =>
      dsimp only
      rw [has_addKey]
      simp [hsome, eq_comm]

/-- What gives an alert a key: an entity of a key type by its value, an IOC by its fingerprint, the
rule. -/
def Gives (ctx : Context) (e : Ingest) (t v : String) : Prop :=
  (∃ x ∈ e.evidence.entities, x.type ∈ keyTypes ∧ t = x.type ∧ Adds ctx x.value v) ∨
  (∃ i ∈ e.initialIocs, (i.type ≠ "" ∧ i.value ≠ "") ∧ iocKeyType i.type = some t ∧
    Adds ctx (iocFingerprint ctx i) v) ∨
  (∃ rule ∈ e.ruleId, t = "rule" ∧ Adds ctx rule v)

theorem has_extractKeys {ctx : Context} {e : Ingest} {t v : String} :
    Has (extractKeys ctx e) t v ↔ Gives ctx e t v := by
  have hnil : ¬Has [] t v := by simp [Has]
  have hentities := has_foldl (f := addEntity ctx) (t := t) (v := v)
    (fun _ _ => has_addEntity) e.evidence.entities []
  have hiocs := has_foldl (f := addIoc ctx) (t := t) (v := v) (fun _ _ => has_addIoc)
    e.initialIocs (e.evidence.entities.foldl (addEntity ctx) [])
  unfold extractKeys Gives
  cases e.ruleId with
  | none =>
    dsimp only
    rw [hiocs, hentities]
    simp [hnil]
  | some rule =>
    dsimp only
    rw [has_addKey, hiocs, hentities]
    simp [hnil, or_assoc]

/-! ## The planes -/

/-- What the lookups agree on about an investigation: the pairs of rows, and the candidates that ingest
has for its open keys, of which the worker leaves out the investigation itself. -/
structure Agree (ctx : Context) (db : DB) (tenant : Tenant) (investigation : ℕ) : Prop where
  pair : ∀ mine other, joins ctx db tenant investigation mine other = true ↔
    (mine.tenant = tenant ∧ mine.investigationId = some investigation ∧
      ctx.now < mine.expiresAt) ∧
    (other.investigationId ≠ none ∧ other.investigationId ≠ some investigation) ∧
      IngestShares ctx db tenant mine.toKey other
  none_iff : findOtherActiveInvestigationSharingKeys ctx db tenant investigation = none ↔
    ∀ i ∈ correlatedInvestigations ctx db tenant
      (eligibleKeys db tenant (openKeys ctx db tenant investigation)), i.id = investigation
  oldest : ∀ id, findOtherActiveInvestigationSharingKeys ctx db tenant investigation = some id →
    Oldest ((correlatedInvestigations ctx db tenant
      (eligibleKeys db tenant (openKeys ctx db tenant investigation))).filter
        fun i => i.id ≠ investigation) id
  ingest : ∀ id, findCorrelatedInvestigation ctx db tenant (openKeys ctx db tenant investigation) =
    some id → Oldest (correlatedInvestigations ctx db tenant
      (eligibleKeys db tenant (openKeys ctx db tenant investigation))) id

/-- The worker's lookup is ingest's for the investigation's own open keys, but itself; and an alert's
keys are the values of its entities beside the fingerprints of its IOCs. -/
theorem planes_agree (ctx : Context) (db : DB) (tenant : Tenant) :
    (∀ investigation, Agree ctx db tenant investigation) ∧
      ∀ e t v, Has (extractKeys ctx e) t v ↔ Gives ctx e t v := by
  refine ⟨fun investigation => ⟨fun mine other => joins_iff, ?_, ?_, ?_⟩, fun e t v => has_extractKeys⟩
  · unfold findOtherActiveInvestigationSharingKeys
    rw [argmin_eq_none_iff, List.eq_nil_iff_forall_not_mem]
    simp only [mem_otherActiveInvestigations]
    constructor
    · intro hnone i hi
      by_contra hid
      exact hnone i ⟨hid, hi⟩
    · intro hall i hi
      exact hi.1 (hall i hi.2)
  · intro id hid
    obtain ⟨i, hi, hfirst, hleast⟩ := oldest_of_argmin hid
    have hsame : ∀ j, j ∈ otherActiveInvestigations ctx db tenant investigation ↔
        j ∈ (correlatedInvestigations ctx db tenant
          (eligibleKeys db tenant (openKeys ctx db tenant investigation))).filter
            fun i => i.id ≠ investigation := by
      intro j
      rw [mem_otherActiveInvestigations, List.mem_filter, decide_eq_true_eq, and_comm]
    exact ⟨i, (hsame i).mp hi, hfirst, fun j hj => hleast j ((hsame j).mpr hj)⟩
  · intro id hid
    exact oldest_of_argmin hid

/-- The digest and the text functions as they are. -/
def keyedContext : Context :=
  ⟨fun _ => none, 0, [], Sha256.hexdigest, fun s => lower (strip s), lower, upper, fun _ _ => false⟩

def addressAlert (entities : List WireEntity) (iocs : List IngestedIOC) : Ingest :=
  { tenant := 0, source := "wazuh", ruleId := none, severity := 5, assetIds := []
    initialIocs := iocs, sourceEventId := "e", evidence := { entities := entities } }

/-- Two cases on one host; the key of the first is past its window. -/
def outlived : DB :=
  { entityKeys :=
      [⟨⟨"host", "web-1", .strong⟩, 0, 1, some 1, -10, 0⟩,
       ⟨⟨"host", "web-1", .strong⟩, 0, 2, some 2, -5, 5⟩]
    investigations := [⟨1, 0, .active, 5, -10, none, none, none, 0, false⟩,
      ⟨2, 0, .active, 5, -5, none, none, none, 0, false⟩] }

/-- An address as an entity and as an IOC gives two keys, and the worker sees no incident where ingest
does on the same key. -/
theorem planes_differ :
    (Has (extractKeys keyedContext (addressAlert [⟨"ip", "10.0.0.5", none⟩] [])) "ip" "10.0.0.5" ∧
      ¬Has (extractKeys keyedContext (addressAlert [] [⟨"ip", "10.0.0.5"⟩])) "ip" "10.0.0.5") ∧
    (findOtherActiveInvestigationSharingKeys keyedContext outlived 0 1 = none ∧
      findCorrelatedInvestigation keyedContext outlived 0 [⟨"host", "web-1", .strong⟩] =
        some 2) := by
  refine ⟨⟨?_, ?_⟩, by decide +kernel, by decide +kernel⟩
  · have hadds : Adds keyedContext "10.0.0.5" "10.0.0.5" := by
      unfold Adds
      decide +kernel
    rw [has_extractKeys]
    exact .inl ⟨_, List.mem_singleton.mpr rfl, by decide, rfl, hadds⟩
  · have hnot : ¬Adds keyedContext (iocFingerprint keyedContext ⟨"ip", "10.0.0.5"⟩) "10.0.0.5" := by
      unfold Adds
      decide +kernel
    rw [has_extractKeys]
    rintro (⟨x, hx, -⟩ | ⟨i, hi, -, -, hadds⟩ | ⟨rule, hrule, -⟩)
    · exact absurd hx List.not_mem_nil
    · rw [List.mem_singleton.mp hi] at hadds
      exact hnot hadds
    · exact absurd hrule (Option.not_mem_none _)

end SocTalk.Triage
