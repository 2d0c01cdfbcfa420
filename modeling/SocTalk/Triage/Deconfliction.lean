import SocTalk.Triage.CloseFloor

/-! Deconfliction fails closed: an alert leaves the queue as a declared test only where one
engagement accounts for all of it. -/
namespace SocTalk.Triage
open Py

/-- One engagement accounts for the whole activity: it is in force, every source is its tester's and
there is one, a host or a technique is in its scope, and none strays from it. -/
structure Covers (ctx : Context) (tenant : Tenant) (occurredAt : ℤ) (inputs : DeconflictionInputs)
    (g : Engagement) : Prop where
  tenant : g.tenant = tenant
  started : g.startsAt ≤ occurredAt
  notEnded : occurredAt ≤ g.endsAt
  unrevoked : g.revoked = false
  source : ∃ ip ∈ inputs.sourceIps, ipInScope ctx g.scopeSourceIps ip = true
  sources : ∀ ip ∈ inputs.sourceIps, ipInScope ctx g.scopeSourceIps ip = true
  target : (∃ h ∈ inputs.hosts, ctx.lower h ∈ g.scopeHosts.map ctx.lower) ∨
    ∃ t ∈ inputs.techniques, ctx.upper t ∈ g.scopeTechniques.map ctx.upper
  hosts : g.scopeHosts ≠ [] → ∀ h ∈ inputs.hosts, ctx.lower h ∈ g.scopeHosts.map ctx.lower
  techniques : g.scopeTechniques ≠ [] →
    ∀ t ∈ inputs.techniques, ctx.upper t ∈ g.scopeTechniques.map ctx.upper

variable {ctx : Context} {db : DB} {tenant : Tenant} {occurredAt : ℤ}
  {inputs : DeconflictionInputs} {g : Engagement}

/-! ## One engagement -/

theorem mem_coveringEngagements : g ∈ coveringEngagements db tenant occurredAt ↔
    g ∈ db.engagements ∧ g.tenant = tenant ∧ g.startsAt ≤ occurredAt ∧ occurredAt ≤ g.endsAt ∧
      g.revoked = false := by
  unfold coveringEngagements
  simp [List.mem_insertionSort]

/-- The engagement is left out where no observed source is its tester's. -/
theorem strayFrom_isSome : (strayFrom ctx inputs g).isSome = true ↔
    ∃ ip ∈ inputs.sourceIps, ipInScope ctx g.scopeSourceIps ip = true := by
  unfold strayFrom
  dsimp only
  split
  · rename_i hnone
    simpa using hnone
  · rename_i hsome
    simpa using hsome

theorem filter_scope_eq_nil {scope observed : List String} {f : String → String} :
    (observed.filter fun x => !(scope.map f).isEmpty && !(scope.map f).contains (f x)) = [] ↔
      (scope ≠ [] → ∀ x ∈ observed, f x ∈ scope.map f) := by
  rw [List.filter_eq_nil_iff]
  constructor
  · intro h hne x hx
    have hx := h x hx
    by_contra hout
    exact hx (by simp_all)
  · intro h x hx hstray
    simp only [Bool.and_eq_true, Bool.not_eq_true', List.isEmpty_eq_false_iff, ne_eq,
      List.map_eq_nil_iff] at hstray
    have hin := h hstray.1 x hx
    rw [← List.contains_iff_mem, hstray.2] at hin
    cases hin

theorem OutOfScope.count_eq_zero_iff {o : OutOfScope} : o.count = 0 ↔
    o.sourceIps = [] ∧ o.hosts = [] ∧ o.techniques = [] ∧ o.missingTarget = false := by
  unfold OutOfScope.count
  constructor
  · intro h
    have hsources : o.sourceIps.length = 0 := by omega
    have hhosts : o.hosts.length = 0 := by omega
    have htechs : o.techniques.length = 0 := by omega
    refine ⟨List.length_eq_zero_iff.mp hsources, List.length_eq_zero_iff.mp hhosts,
      List.length_eq_zero_iff.mp htechs, ?_⟩
    by_contra hmissing
    rw [if_pos (by simpa using hmissing)] at h
    omega
  · rintro ⟨hsources, hhosts, htechs, hmissing⟩
    simp [hsources, hhosts, htechs, hmissing]

/-- Nothing strays from an engagement in force exactly if it accounts for all. -/
theorem covers_iff (hg : g ∈ coveringEngagements db tenant occurredAt) :
    (∃ o, strayFrom ctx inputs g = some o ∧ o.count = 0) ↔
      Covers ctx tenant occurredAt inputs g := by
  obtain ⟨-, htenant, hstarted, hended, hrevoked⟩ := mem_coveringEngagements.mp hg
  constructor
  · rintro ⟨o, ho, hzero⟩
    obtain ⟨hsource, hsources, htarget⟩ := strayFrom_count_eq_zero ho hzero
    obtain ⟨-, hhosts, htechs, -⟩ := OutOfScope.count_eq_zero_iff.mp hzero
    unfold strayFrom at ho
    dsimp only at ho
    split at ho
    · cases ho
    · obtain rfl := Option.some.inj ho
      exact ⟨htenant, hstarted, hended, hrevoked, hsource, hsources, htarget,
        filter_scope_eq_nil.mp hhosts, filter_scope_eq_nil.mp htechs⟩
  · intro hc
    obtain ⟨o, ho⟩ := Option.isSome_iff_exists.mp (strayFrom_isSome.mpr hc.source)
    refine ⟨o, ho, OutOfScope.count_eq_zero_iff.mpr ?_⟩
    unfold strayFrom at ho
    dsimp only at ho
    split at ho
    · cases ho
    · obtain rfl := Option.some.inj ho
      refine ⟨?_, filter_scope_eq_nil.mpr hc.hosts, filter_scope_eq_nil.mpr hc.techniques, ?_⟩
      · refine List.filter_eq_nil_iff.mpr fun ip hip => ?_
        simp [hc.sources ip hip]
      · have htarget := hc.target
        rw [Bool.not_eq_false', Bool.or_eq_true, List.any_eq_true, List.any_eq_true]
        simpa only [List.contains_iff_mem] using htarget

/-! ## All of them -/

/-- What becomes of an alert: the status of the deconfliction, where there is one. -/
def classification (ctx : Context) (db : DB) (tenant : Tenant) (occurredAt : ℤ)
    (inputs : DeconflictionInputs) : Option DeconflictionStatus :=
  (deconflict ctx db tenant occurredAt inputs).map (·.status)

/-- The engagements that a source of the activity belongs to, with what strays from each. -/
def judgedEngagements (ctx : Context) (db : DB) (tenant : Tenant) (occurredAt : ℤ)
    (inputs : DeconflictionInputs) : List (ℕ × OutOfScope) :=
  (coveringEngagements db tenant occurredAt).filterMap fun g =>
    (strayFrom ctx inputs g).map fun o => (g.id, o)

theorem mem_judgedEngagements {p : ℕ × OutOfScope} :
    p ∈ judgedEngagements ctx db tenant occurredAt inputs ↔
      ∃ g ∈ coveringEngagements db tenant occurredAt, g.id = p.1 ∧
        strayFrom ctx inputs g = some p.2 := by
  unfold judgedEngagements
  rw [List.mem_filterMap]
  constructor
  · rintro ⟨g, hg, hp⟩
    obtain ⟨o, ho, rfl⟩ := Option.map_eq_some_iff.mp hp
    exact ⟨g, hg, rfl, ho⟩
  · rintro ⟨g, hg, hid, ho⟩
    exact ⟨g, hg, by rw [ho, Option.map_some, hid]⟩

/-- An engagement from which nothing strays declares the test; the first in the list gives its
name to it. -/
theorem deconflict_declared {d : Deconfliction}
    (h : deconflict ctx db tenant occurredAt inputs = some d) (hd : d.status = .declaredTest) :
    ∃ p ∈ judgedEngagements ctx db tenant occurredAt inputs, p.2.count = 0 ∧
      d.engagementId = p.1 := by
  unfold deconflict at h
  simp only [List.partition_eq_filter_filter] at h
  split at h
  · rename_i p rest hmatched
    obtain rfl := Option.some.inj h
    have hp : p ∈ (judgedEngagements ctx db tenant occurredAt inputs).filter
        fun p => p.2.count = 0 := by
      unfold judgedEngagements
      rw [hmatched]
      exact List.mem_cons_self
    obtain ⟨hmem, hzero⟩ := List.mem_filter.mp hp
    exact ⟨p, hmem, by simpa using hzero, rfl⟩
  · split at h
    · obtain rfl := Option.some.inj h
      cases hd
    · cases h

/-- The status is read off the judged engagements whatever their order. -/
theorem classification_eq : classification ctx db tenant occurredAt inputs =
    let judged := judgedEngagements ctx db tenant occurredAt inputs
    if judged.any fun p => p.2.count = 0 then some .declaredTest
    else if judged.isEmpty then none else some .outOfScope := by
  unfold classification deconflict
  simp only [List.partition_eq_filter_filter]
  rw [← judgedEngagements]
  generalize judgedEngagements ctx db tenant occurredAt inputs = judged
  cases hmatched : judged.filter fun p => p.2.count = 0 with
  | cons p rest =>
    have hp : p ∈ judged.filter fun p => p.2.count = 0 := hmatched ▸ List.mem_cons_self
    obtain ⟨hmem, hzero⟩ := List.mem_filter.mp hp
    have hany : (judged.any fun p => p.2.count = 0) = true := List.any_eq_true.mpr ⟨p, hmem, hzero⟩
    simp [hany]
  | nil =>
    have hnone := List.filter_eq_nil_iff.mp hmatched
    have hany : (judged.any fun p => p.2.count = 0) = false := by
      rw [← Bool.not_eq_true, List.any_eq_true]
      rintro ⟨p, hp, hzero⟩
      exact hnone p hp hzero
    have hstrayed : (judged.filter fun p => !decide (p.2.count = 0)) = judged := by
      refine List.filter_eq_self.mpr fun p hp => ?_
      have hp := hnone p hp
      simpa using hp
    simp only [hany, Bool.false_eq_true, if_false]
    have hcompl : (judged.filter (Bool.not ∘ fun p => decide (p.2.count = 0))) = judged := hstrayed
    rw [hcompl]
    cases hmin : judged.argmin fun p => p.2.count with
    | none =>
      have hnil := List.argmin_eq_none.mp hmin
      simp [hnil]
    | some p =>
      have hne : judged ≠ [] := by
        rintro rfl
        cases hmin
      simp [hne]

theorem classification_eq_declaredTest_iff :
    classification ctx db tenant occurredAt inputs = some .declaredTest ↔
      ∃ g ∈ db.engagements, Covers ctx tenant occurredAt inputs g := by
  have hany : (judgedEngagements ctx db tenant occurredAt inputs).any
      (fun p => p.2.count = 0) = true ↔
      ∃ g ∈ db.engagements, Covers ctx tenant occurredAt inputs g := by
    rw [List.any_eq_true]
    constructor
    · rintro ⟨p, hp, hzero⟩
      obtain ⟨g, hg, -, ho⟩ := mem_judgedEngagements.mp hp
      exact ⟨g, (mem_coveringEngagements.mp hg).1,
        (covers_iff hg).mp ⟨p.2, ho, by simpa using hzero⟩⟩
    · rintro ⟨g, hg, hc⟩
      have hcovering : g ∈ coveringEngagements db tenant occurredAt :=
        mem_coveringEngagements.mpr ⟨hg, hc.tenant, hc.started, hc.notEnded, hc.unrevoked⟩
      obtain ⟨o, ho, hzero⟩ := (covers_iff hcovering).mpr hc
      exact ⟨(g.id, o), mem_judgedEngagements.mpr ⟨g, hcovering, rfl, ho⟩, by simpa using hzero⟩
  rw [classification_eq, ← hany]
  dsimp only
  split
  · rename_i hdeclared
    exact iff_of_true rfl hdeclared
  · rename_i hdeclared
    refine iff_of_false ?_ hdeclared
    split <;> simp

/-- The order of the engagements plays no part in the status. -/
theorem classification_perm {db' : DB} (h : db'.engagements.Perm db.engagements) :
    classification ctx db' tenant occurredAt inputs =
      classification ctx db tenant occurredAt inputs := by
  have hcovering : (coveringEngagements db' tenant occurredAt).Perm
      (coveringEngagements db tenant occurredAt) := by
    unfold coveringEngagements
    exact ((List.perm_insertionSort _ _).trans (h.filter _)).trans
      (List.perm_insertionSort _ _).symm
  have hjudged : (judgedEngagements ctx db' tenant occurredAt inputs).Perm
      (judgedEngagements ctx db tenant occurredAt inputs) := hcovering.filterMap _
  rw [classification_eq, classification_eq]
  dsimp only
  rw [hjudged.any_eq, hjudged.isEmpty_eq]

/-! ## The ingest -/

/-- The engagement an outcome credits the alert to. -/
def Outcome.engagement : Outcome → Option ℕ
  | .declaredTest _ engagement => some engagement
  | _ => none

theorem promote_engagement {e : Ingest} {c : Candidate} {out : Outcome} {db' : DB}
    (h : promote db e c = .ok (out, db')) : out.engagement = none := by
  unfold promote at h
  obtain ⟨settle, -, h⟩ := (bind_eq_ok _ _ _).mp h
  obtain ⟨⟨investigation, opened⟩, -, h⟩ := (bind_eq_ok _ _ _).mp h
  rw [← outcome_eq h]
  rfl

theorem rulesBand_engagement {e : Ingest} {c : Candidate} {out : Outcome} {denied : Bool}
    {db' : DB} (h : (do
      match ← rulesAutoClose ctx db e c denied with
      | some (investigation, db) => return (.autoClosed c.alert investigation, db)
      | none => promote db e c : M (Outcome × DB)) = .ok (out, db')) : out.engagement = none := by
  obtain ⟨closed, -, h⟩ := (bind_eq_ok _ _ _).mp h
  cases closed with
  | none => exact promote_engagement h
  | some closed =>
    rw [← outcome_eq h]
    rfl

/-- Behind the deconfliction no alert is credited to an engagement. -/
theorem reopenOrDecide_engagement {e : Ingest} {c : Candidate} {out : Outcome} {db' : DB}
    (h : reopenOrDecide ctx db e c = .ok (out, db')) : out.engagement = none := by
  unfold reopenOrDecide at h
  split at h
  · rw [← outcome_eq h]
    rfl
  · unfold closeOrPromote at h
    obtain ⟨replay, -, h⟩ := (bind_eq_ok _ _ _).mp h
    cases replay with
    | closed investigation closed =>
      rw [← outcome_eq h]
      rfl
    | passed => exact rulesBand_engagement h
    | denied => exact rulesBand_engagement h

theorem deconflictOrDecide_engagement {e : Ingest} {row : ℕ} {c : Candidate} {out : Outcome}
    {db' : DB} {engagement : ℕ} (h : deconflictOrDecide ctx db e row c = .ok (out, db'))
    (hout : out.engagement = some engagement) :
    ∃ g ∈ db.engagements, g.id = engagement ∧
      Covers ctx e.tenant c.ts (deconflictionInputs ctx e) g := by
  unfold deconflictOrDecide at h
  split at h
  · split at h
    · rw [reopenOrDecide_engagement h] at hout
      cases hout
    · rename_i d hd
      dsimp only at h
      split at h
      · rename_i hstatus
        rw [← outcome_eq h] at hout
        have hid : d.engagementId = engagement := Option.some.inj hout
        obtain ⟨p, hp, hzero, hname⟩ := deconflict_declared hd hstatus
        obtain ⟨g, hg, hgid, ho⟩ := mem_judgedEngagements.mp hp
        exact ⟨g, (mem_coveringEngagements.mp hg).1, by omega, (covers_iff hg).mp ⟨p.2, ho, hzero⟩⟩
      · rw [reopenOrDecide_engagement h] at hout
        cases hout
  · rw [reopenOrDecide_engagement h] at hout
    cases hout

theorem triageFresh_engagement {e : Ingest} {row : ℕ} {c : Candidate} {out : Outcome} {db' : DB}
    {engagement : ℕ} (h : triageFresh ctx db e row c = .ok (out, db'))
    (hout : out.engagement = some engagement) :
    ∃ g ∈ db.engagements, g.id = engagement ∧
      Covers ctx e.tenant c.ts (deconflictionInputs ctx e) g := by
  unfold triageFresh at h
  split at h
  · split at h
    · rw [← outcome_eq h] at hout
      cases hout
    · exact deconflictOrDecide_engagement h hout
  · exact deconflictOrDecide_engagement h hout

/-- An alert that leaves the queue as a declared test leaves it for an engagement that accounts for
all it shows. -/
theorem triageEvent_engagement {e : Ingest} {out : Outcome} {db' : DB} {engagement : ℕ}
    (h : triageEvent ctx db e = .ok (out, db')) (hout : out.engagement = some engagement) :
    ∃ g ∈ db.engagements, g.id = engagement ∧
      Covers ctx e.tenant (e.ts.getD ctx.now) (deconflictionInputs ctx e) g := by
  unfold triageEvent at h
  dsimp only at h
  cases hres : reserveSourceEvent db e (e.ts.getD ctx.now) with
  | none =>
    rw [hres] at h
    rw [← outcome_eq h] at hout
    cases hout
  | some reserved =>
    obtain ⟨row, db₁⟩ := reserved
    simp only [hres] at h
    have hup := upsertAlert_sameChecks ctx db₁ e (e.ts.getD ctx.now)
    have hres := reserveSourceEvent_sameChecks hres
    generalize upsertAlert ctx db₁ e (e.ts.getD ctx.now) = upserted at h hup
    obtain ⟨upsert, db₂⟩ := upserted
    have hlinked : SameChecks db (linkSourceEvent db₂ row upsert.alert) :=
      hres.trans (hup.trans ⟨rfl, rfl, rfl, rfl, rfl⟩)
    cases upsert with
    | merged alert =>
      rw [← outcome_eq h] at hout
      cases hout
    | attached alert investigation =>
      rw [← outcome_eq h] at hout
      cases hout
    | fresh alert =>
      have hsame := hlinked.trans (describeAlert_sameChecks _ alert e.description)
      have hfresh := triageFresh_engagement h hout
      rw [← hsame.engagements]
      exact hfresh

/-! ## The whole rule -/

/-- A declared test is one engagement's, whatever the list of engagements and its order. -/
structure FailsClosed (ctx : Context) : Prop where
  declared : ∀ db tenant occurredAt inputs,
    classification ctx db tenant occurredAt inputs = some .declaredTest ↔
      ∃ g ∈ db.engagements, Covers ctx tenant occurredAt inputs g
  sourceless : ∀ db tenant occurredAt inputs, inputs.sourceIps = [] →
    classification ctx db tenant occurredAt inputs = none
  unordered : ∀ db db' tenant occurredAt inputs, db'.engagements.Perm db.engagements →
    classification ctx db' tenant occurredAt inputs =
      classification ctx db tenant occurredAt inputs
  ingest : ∀ db e alert engagement db',
    triageEvent ctx db e = .ok (.declaredTest alert engagement, db') →
      ∃ g ∈ db.engagements, g.id = engagement ∧
        Covers ctx e.tenant (e.ts.getD ctx.now) (deconflictionInputs ctx e) g

theorem classification_sourceless (h : inputs.sourceIps = []) :
    classification ctx db tenant occurredAt inputs = none := by
  have hnil : judgedEngagements ctx db tenant occurredAt inputs = [] := by
    refine List.eq_nil_iff_forall_not_mem.mpr fun p hp => ?_
    obtain ⟨g, -, -, ho⟩ := mem_judgedEngagements.mp hp
    obtain ⟨ip, hip, -⟩ := strayFrom_isSome.mp (Option.isSome_iff_exists.mpr ⟨p.2, ho⟩)
    rw [h] at hip
    cases hip
  rw [classification_eq, hnil]
  rfl

theorem deconflict_failsClosed (ctx : Context) : FailsClosed ctx where
  declared _ _ _ _ := classification_eq_declaredTest_iff
  sourceless _ _ _ _ h := classification_sourceless h
  unordered _ _ _ _ _ h := classification_perm h
  ingest _ _ _ _ _ h := triageEvent_engagement h rfl

end SocTalk.Triage
