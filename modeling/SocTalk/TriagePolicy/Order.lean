import SocTalk.Authorization.Order
import SocTalk.TriagePolicy.Guard

/-! When neither the evaluation of a context nor the guard's ruling on it depends on the order and the
repetition of its facts. The guard reads attributes of the asset that the resolution key fills in
with defaults, so a tie the evaluation does not see may decide a guardrail. -/
namespace SocTalk.TriagePolicy
open Py Authorization Reorder

/-- The facts the evaluation of a context reasons over. -/
def selectedOf (c : AuthorizationContext) : List AuthorizationFact :=
  select c.facts c.activity.track c.tenant

/-- No order of the facts makes the evaluation read an unreadable window. -/
def Clear (c : AuthorizationContext) : Prop :=
  match c.activity.track with
  | .account => AcctClear (selectedOf c) c.activity
  | .fim => FimClear (selectedOf c) c.activity

/-- Every order of the facts does. -/
def Blocked (c : AuthorizationContext) : Prop :=
  match c.activity.track with
  | .account => AcctBlocked (selectedOf c) c.activity
  | .fim => FimBlocked (selectedOf c) c.activity

/-- The records of the activity's asset. -/
def assetRecords (c : AuthorizationContext) : List EntityContextFact :=
  (entities (selectedOf c)).filter fun e =>
    e.entityType == .asset && e.name == c.activity.host.getD ""

/-- Records that tie for the asset agree on what the guard reads as it stands, defaults not filled
in. -/
def TiesAgree (c : AuthorizationContext) : Prop :=
  c.activity.track = .account → ∀ e e', Speaks (assetRecords c) e → Speaks (assetRecords c) e' →
    e.environment = e'.environment ∧ e.criticality = e'.criticality ∧
      (c.activity.host ≠ some "" → e.dataClassification = e'.dataClassification)

/-- Final decision, interrupt flag and overrides. -/
def GuardResult.ruling (r : GuardResult) : String × Bool × List GuardOverride :=
  (r.finalDecision, r.interrupted, r.overrides)

/-- The input with a context of its own. -/
def GuardInput.over (g : GuardInput) (c : AuthorizationContext) : GuardInput :=
  { g with context := some c }

/-- Neither permuting nor repeating facts changes what is evaluated, derived or ruled. -/
def OrderIndependent (c : AuthorizationContext) : Prop :=
  ∀ facts, Same c.facts facts →
    evaluateAuthorization c.activity facts c.tenant =
        evaluateAuthorization c.activity c.facts c.tenant ∧
      deriveAuthzClass (some { c with facts := facts }) = deriveAuthzClass (some c) ∧
      ∀ g : GuardInput,
        GuardResult.ruling <$> evaluateGuard (g.over { c with facts := facts }) =
          GuardResult.ruling <$> evaluateGuard (g.over c)

/-! ## What reordering keeps -/

theorem same_select {xs ys : List AuthorizationFact} (h : Same xs ys) (track : AuthorizationTrack)
    (tenant : Option String) : Same (select xs track tenant) (select ys track tenant) :=
  h.filter _

section

variable {c : AuthorizationContext} {facts : List AuthorizationFact} (h : Same c.facts facts)
include h

theorem evaluateAuthorization_clear (hc : Clear c) :
    evaluateAuthorization c.activity c.facts c.tenant =
      evaluateAuthorization c.activity facts c.tenant := by
  have hs := same_select h c.activity.track c.tenant
  unfold Clear at hc
  unfold evaluateAuthorization
  cases htrack : c.activity.track with
  | account =>
    simp only [htrack, selectedOf] at hc hs ⊢
    exact acctComponents_same hs hc
  | fim =>
    simp only [htrack, selectedOf] at hc hs ⊢
    exact fimComponents_same hs hc

theorem evaluateAuthorization_blocked (hb : Blocked c) :
    evaluateAuthorization c.activity c.facts c.tenant = .error .valueError ∧
      evaluateAuthorization c.activity facts c.tenant = .error .valueError := by
  have hs := same_select h c.activity.track c.tenant
  unfold Blocked at hb
  unfold evaluateAuthorization
  cases htrack : c.activity.track with
  | account =>
    simp only [htrack, selectedOf] at hb hs ⊢
    exact ⟨(raisesOnly_acctComponents _ _).eq_error (not_returns_acctComponents hb),
      (raisesOnly_acctComponents _ _).eq_error
        (not_returns_acctComponents (acctBlocked_same hs hb))⟩
  | fim =>
    simp only [htrack, selectedOf] at hb hs ⊢
    exact ⟨(raisesOnly_fimComponents _ _).eq_error (not_returns_fimComponents hb),
      (raisesOnly_fimComponents _ _).eq_error
        (not_returns_fimComponents (fimBlocked_same hs hb))⟩

theorem deriveAuthzClass_same (he : evaluateAuthorization c.activity c.facts c.tenant =
    evaluateAuthorization c.activity facts c.tenant) :
    deriveAuthzClass (some { c with facts := facts }) = deriveAuthzClass (some c) := by
  have hs := same_select h c.activity.track c.tenant
  unfold deriveAuthzClass
  simp only [selectFacts]
  rw [he]
  simp only [hs.isEmpty, hs.any]
  rfl

end

/-! ## What the guard reads -/

/-- The guard reads a context through its class, the asset it resolves and nothing else. -/
theorem evaluateGuard_congr {c c' : AuthorizationContext}
    (hderive : deriveAuthzClass (some c) = deriveAuthzClass (some c'))
    (hctx : ∀ (g : GuardInput) cls comps, conditionContext (g.over c) cls comps =
      conditionContext (g.over c') cls comps)
    (hclass : assetDataClassification (some c) = assetDataClassification (some c'))
    (g : GuardInput) : evaluateGuard (g.over c) =
      evaluateGuard (g.over c') := by
  have hsign : signoffEdge (g.over c) =
      signoffEdge (g.over c') := by
    simp only [signoffEdge, GuardInput.over, hclass]
    rfl
  have hedge : ∀ cls, codeEdge (g.over c) cls = codeEdge (g.over c') cls := fun _ => rfl
  have hderive' : deriveAuthzClass (g.over c).context = deriveAuthzClass (g.over c').context :=
    hderive
  simp only [evaluateGuard, hderive', hctx, hsign, hedge]
  rfl

theorem deriveAuthzClass_blocked {c : AuthorizationContext} (hb : Blocked c)
    (he : evaluateAuthorization c.activity c.facts c.tenant = .error .valueError) :
    deriveAuthzClass (some c) = .error .valueError := by
  have hne : ¬(selectFacts c.facts c.activity.track c.tenant).isEmpty = true := by
    intro hnil
    have hsel : selectedOf c = [] := List.isEmpty_iff.mp hnil
    unfold Blocked at hb
    rw [hsel] at hb
    cases htrack : c.activity.track with
    | account => simp [htrack, AcctBlocked, Stuck, Raises, grants, prohibitions] at hb
    | fim => simp [htrack, FimBlocked, Stuck, Raises, grants] at hb
  unfold deriveAuthzClass
  dsimp only
  rw [if_neg hne, he]
  rfl

theorem evaluateGuard_error {c : AuthorizationContext} {e : Exc}
    (h : deriveAuthzClass (some c) = .error e) (g : GuardInput) :
    evaluateGuard (g.over c) = .error e := by
  have h' : deriveAuthzClass (g.over c).context = .error e := h
  simp only [evaluateGuard, h']
  rfl

theorem assetRecord_eq (c : AuthorizationContext) :
    assetRecord c (c.activity.host.getD "") = maxResolved (assetRecords c) := rfl

/-- The class the sign-off rule reads, off the record that speaks for the asset. -/
theorem assetDataClassification_eq {c : AuthorizationContext} (htrack : c.activity.track = .account) :
    assetDataClassification (some c) =
      if c.activity.host = none ∨ c.activity.host = some "" then none
      else ((maxResolved (assetRecords c)).bind (·.dataClassification)).map lower := by
  unfold assetDataClassification
  rw [← assetRecord_eq]
  cases hhost : c.activity.host with
  | none => simp [htrack, hhost]
  | some host =>
    by_cases hempty : host = ""
    · simp [htrack, hhost, hempty]
    · cases hrec : assetRecord c host with
      | none => simp [htrack, hhost, hempty, hrec]
      | some asset => cases hclass : asset.dataClassification <;>
          simp [htrack, hhost, hempty, hrec, hclass]

section

variable {c : AuthorizationContext} {facts : List AuthorizationFact} (h : Same c.facts facts)
include h

theorem same_assetRecords : Same (assetRecords c) (assetRecords { c with facts := facts }) :=
  (same_entities (same_select h c.activity.track c.tenant)).filter _

/-- Where ties agree, the guard reads the same attributes in every order. -/
theorem assetReads_same (ht : TiesAgree c) (htrack : c.activity.track = .account) :
    (maxResolved (assetRecords c)).bind (·.environment) =
        (maxResolved (assetRecords { c with facts := facts })).bind (·.environment) ∧
      (maxResolved (assetRecords c)).bind (·.criticality) =
        (maxResolved (assetRecords { c with facts := facts })).bind (·.criticality) ∧
      (c.activity.host ≠ some "" → (maxResolved (assetRecords c)).bind (·.dataClassification) =
        (maxResolved (assetRecords { c with facts := facts })).bind (·.dataClassification)) := by
  have hsame := same_assetRecords h
  cases he : maxResolved (assetRecords c) with
  | none =>
    cases he' : maxResolved (assetRecords { c with facts := facts }) with
    | none => exact ⟨rfl, rfl, fun _ => rfl⟩
    | some e' =>
      have hmem := (hsame e').mpr (maxResolved_eq_some he').1
      cases hnil : assetRecords c with
      | nil => simp [hnil] at hmem
      | cons x xs => simp [hnil, maxResolved] at he
  | some e =>
    have hspeaks := maxResolved_eq_some he
    cases he' : maxResolved (assetRecords { c with facts := facts }) with
    | none =>
      have hmem := (hsame e).mp hspeaks.1
      cases hnil : assetRecords { c with facts := facts } with
      | nil => simp [hnil] at hmem
      | cons x xs => simp [hnil, maxResolved] at he'
    | some e' =>
      obtain ⟨hmem, hmax⟩ := maxResolved_eq_some he'
      exact ht htrack e e' hspeaks ⟨(hsame e').mpr hmem, fun g hg => hmax g ((hsame g).mp hg)⟩

theorem assetDataClassification_same (ht : TiesAgree c) :
    assetDataClassification (some c) = assetDataClassification (some { c with facts := facts }) := by
  cases htrack : c.activity.track with
  | fim => simp [assetDataClassification, htrack]
  | account =>
    have hreads := (assetReads_same h ht htrack).2.2
    rw [assetDataClassification_eq htrack,
      assetDataClassification_eq (c := { c with facts := facts }) htrack]
    by_cases hempty : c.activity.host = none ∨ c.activity.host = some ""
    · rw [if_pos hempty, if_pos hempty]
    · rw [if_neg hempty, if_neg hempty, hreads fun hh => hempty (Or.inr hh)]

theorem conditionContext_same (ht : TiesAgree c) (g : GuardInput) (cls : AuthzClass)
    (comps : Option AuthorizationComponents) :
    conditionContext (g.over c) cls comps =
      conditionContext (g.over { c with facts := facts }) cls comps := by
  unfold conditionContext GuardInput.over
  cases htrack : c.activity.track with
  | fim => simp [assetDataClassification, htrack]
  | account =>
    obtain ⟨henv, hcrit, -⟩ := assetReads_same h ht htrack
    rw [← assetRecord_eq, ← assetRecord_eq] at henv hcrit
    simp only [htrack, Option.bind_some, if_true, assetDataClassification_same h ht, henv, hcrit]

end

/-! ## What shows the order -/

theorem select_cons {c : AuthorizationContext} {f : AuthorizationFact} (hf : f ∈ selectedOf c) :
    select (f :: c.facts) c.activity.track c.tenant = f :: selectedOf c := by
  obtain ⟨-, hf⟩ := List.mem_filter.mp hf
  exact List.filter_cons_of_pos hf

theorem select_append {c : AuthorizationContext} {zs : List AuthorizationFact}
    (hzs : ∀ f ∈ zs, f ∈ selectedOf c) :
    select (zs ++ c.facts) c.activity.track c.tenant = zs ++ selectedOf c := by
  unfold select
  rw [List.filter_append, List.filter_eq_self.mpr fun f hf => (List.mem_filter.mp (hzs f hf)).2]
  rfl

/-- An evaluation that is neither clear nor blocked raises in one order and returns in another. -/
theorem clear_or_blocked {c : AuthorizationContext} (h : OrderIndependent c) :
    Clear c ∨ Blocked c := by
  by_contra hn
  obtain ⟨hc, hb⟩ := not_or.mp hn
  have hsplit : (∃ f ∈ selectedOf c, ¬Returns
        (evaluateAuthorization c.activity (f :: c.facts) c.tenant)) ∧
      ∃ zs, (∀ f ∈ zs, f ∈ selectedOf c) ∧
        Returns (evaluateAuthorization c.activity (zs ++ c.facts) c.tenant) := by
    unfold Clear at hc
    unfold Blocked at hb
    cases htrack : c.activity.track with
    | account =>
      simp only [htrack] at hc hb
      obtain ⟨f, hf, hraise⟩ := exists_raising hc
      obtain ⟨zs, hzs, hret⟩ := exists_returning hc hb
      rw [← select_cons hf] at hraise
      rw [← select_append hzs] at hret
      refine ⟨⟨f, hf, ?_⟩, zs, hzs, ?_⟩
      · simpa only [evaluateAuthorization, htrack] using hraise
      · simpa only [evaluateAuthorization, htrack] using hret
    | fim =>
      simp only [htrack] at hc hb
      obtain ⟨f, hf, hraise⟩ := exists_raising_fim hc hb
      obtain ⟨zs, hzs, hret⟩ := exists_returning_fim hc hb
      rw [← select_cons hf] at hraise
      rw [← select_append hzs] at hret
      refine ⟨⟨f, hf, ?_⟩, zs, hzs, ?_⟩
      · simpa only [evaluateAuthorization, htrack] using hraise
      · simpa only [evaluateAuthorization, htrack] using hret
  obtain ⟨⟨f, hf, hraise⟩, zs, hzs, hret⟩ := hsplit
  have hmem : ∀ g ∈ selectedOf c, g ∈ c.facts := fun g hg => (List.mem_filter.mp hg).1
  rw [(h _ (same_cons (hmem f hf))).1] at hraise
  rw [(h _ (same_append zs fun g hg => hmem g (hzs g hg))).1] at hret
  exact hraise hret

/-- A guardrail that escalates where a field of the context is set. -/
def probeRule (path : String) : Dict :=
  [("when", .dict [("!!", .list [.dict [("var", .str path)]])]), ("effect", .str "override"),
    ("to", .str "escalate")]

def probe (path : String) : GuardInput where
  verdictDecision := "needs_more_info"
  context := none
  maliciousSignal := false
  guardrails := .list [.dict (probeRule path)]

theorem evaluateCondition_set (ctx : Dict) (path : String) :
    evaluateCondition (.dict [("!!", .list [.dict [("var", .str path)]])]) ctx =
      (lookupParts (split '.' path) (.dict ctx)).truthy := by
  have harg : eval ctx (.dict [("var", .str path)]) =
      .ok (lookupParts (split '.' path) (.dict ctx)) := rfl
  have hitems : evalItems ctx [.dict [("var", .str path)]] =
      .ok [lookupParts (split '.' path) (.dict ctx)] := by
    rw [evalItems, harg]
    rfl
  have hwhen : eval ctx (.dict [("!!", .list [.dict [("var", .str path)]])]) =
      .ok (.bool (lookupParts (split '.' path) (.dict ctx)).truthy) := by
    rw [eval, if_neg (by decide), hitems]
    rfl
  rw [evaluateCondition, hwhen]
  rfl

/-- What the rule does when it fires. -/
def probeOverride : GuardOverride where
  guardrail := guardrailName 0
  fromDecision := "needs_more_info"
  toDecision := "escalate"
  reason := prefixOf 512 "triage policy guardrail"

theorem firstGuardrail_probe (ctx : Dict) (path : String) :
    firstGuardrail ctx "needs_more_info" 0 [.dict (probeRule path)] =
      if (lookupParts (split '.' path) (.dict ctx)).truthy then some probeOverride else none := by
  have hwhen : Dict.get (probeRule path) "when" =
      .dict [("!!", .list [.dict [("var", .str path)]])] := rfl
  have heffect : (Dict.get (probeRule path) "effect").eq (.str "override") = true := rfl
  have hraise : nonRaising "escalate" "needs_more_info" = false := by decide
  have hfire : fireGuardrail ctx "needs_more_info" 0 (.dict (probeRule path)) =
      if (lookupParts (split '.' path) (.dict ctx)).truthy then some probeOverride else none := by
    rw [fireGuardrail, hwhen, evaluateCondition_set]
    cases (lookupParts (split '.' path) (.dict ctx)).truthy with
    | false => rfl
    | true =>
      rw [if_neg (by simp), if_pos rfl]
      dsimp only
      rw [if_pos heffect]
      exact if_neg (by rw [Bool.not_eq_true]; exact hraise)
  rw [firstGuardrail, hfire]
  cases (lookupParts (split '.' path) (.dict ctx)).truthy <;> rfl

/-- A draft for more information is the guardrails' alone. -/
theorem finalDecision_of_draft {g : GuardInput} {cls : AuthzClass}
    {comps : Option AuthorizationComponents} {rules : List Value}
    (hdraft : g.verdictDecision = "needs_more_info")
    (hcls : deriveAuthzClass g.context = .ok (cls, comps)) (hrules : g.guardrails.iter = .ok rules) :
    (fun r => (GuardResult.ruling r).1) <$> evaluateGuard g = .ok
      (match firstGuardrail (conditionContext g cls comps) "needs_more_info" 0 rules with
        | some o => if o.effect = .override then o.toDecision else "needs_more_info"
        | none => "needs_more_info") := by
  have hedge : codeEdge g cls = none := by simp [codeEdge, hdraft]
  have hsign : signoffEdge g = .ok none := by
    simp only [signoffEdge, hdraft]
    rfl
  simp only [evaluateGuard, hcls, hedge, hrules, hdraft, hsign, bind, Except.bind]
  cases firstGuardrail (conditionContext g cls comps) "needs_more_info" 0 rules with
  | none => rfl
  | some o =>
    by_cases heffect : o.effect = .override
    · simp only [heffect, if_true]
      rfl
    · simp only [heffect, if_false]
      rfl

theorem finalDecision_probe {c : AuthorizationContext} {path : String} {cls : AuthzClass}
    {comps : Option AuthorizationComponents} (h : deriveAuthzClass (some c) = .ok (cls, comps)) :
    (fun r => (GuardResult.ruling r).1) <$> evaluateGuard ((probe path).over c) =
      .ok (if (lookupParts (split '.' path)
          (.dict (conditionContext ((probe path).over c) cls comps))).truthy
        then "escalate" else "needs_more_info") := by
  rw [finalDecision_of_draft (g := ((probe path).over c)) rfl h rfl,
    firstGuardrail_probe]
  cases (lookupParts (split '.' path)
    (.dict (conditionContext ((probe path).over c) cls comps))).truthy <;> rfl

/-- A field of the context that is a text or absent. -/
def textField : Option String → Value
  | some s => .str s
  | none => .none

section

variable {c : AuthorizationContext} (htrack : c.activity.track = .account) (g : GuardInput)
  (cls : AuthzClass) (comps : Option AuthorizationComponents)
include htrack

theorem lookup_environment :
    lookupParts (split '.' "asset.environment")
        (.dict (conditionContext (g.over c) cls comps)) =
      textField ((maxResolved (assetRecords c)).bind (·.environment)) := by
  have hparts : split '.' "asset.environment" = ["asset", "environment"] := by decide
  rw [hparts, ← assetRecord_eq]
  simp only [conditionContext, GuardInput.over, htrack, Option.bind_some, if_true]
  cases (assetRecord c (c.activity.host.getD "")).bind (·.environment) <;> rfl

theorem lookup_criticality :
    lookupParts (split '.' "asset.criticality")
        (.dict (conditionContext (g.over c) cls comps)) =
      textField ((maxResolved (assetRecords c)).bind (·.criticality)) := by
  have hparts : split '.' "asset.criticality" = ["asset", "criticality"] := by decide
  rw [hparts, ← assetRecord_eq]
  simp only [conditionContext, GuardInput.over, htrack, Option.bind_some, if_true]
  cases (assetRecord c (c.activity.host.getD "")).bind (·.criticality) <;> rfl

theorem lookup_dataClassification (hhost : c.activity.host ≠ some "") :
    lookupParts (split '.' "asset.data_classification")
        (.dict (conditionContext (g.over c) cls comps)) =
      textField (((maxResolved (assetRecords c)).bind (·.dataClassification)).map lower) := by
  have hparts : split '.' "asset.data_classification" = ["asset", "data_classification"] := by
    decide
  have hnone : ¬(c.activity.host = none ∨ c.activity.host = some "") := by
    rintro (hh | hh)
    · have hfields := c.activity.trackFields
      rw [htrack] at hfields
      exact hfields.1 hh
    · exact hhost hh
  have hclass := assetDataClassification_eq htrack
  rw [if_neg hnone] at hclass
  rw [hparts, ← hclass]
  simp only [conditionContext, GuardInput.over, htrack, Option.bind_some, if_true]
  cases assetDataClassification (some c) <;> rfl

end

/-- Two texts that a default makes equal, and that are set alike, are equal. -/
theorem eq_of_set {o o' : Option String} {default : String} {f : String → String}
    (hget : o.getD default = o'.getD default) (hdefault : f default ≠ "")
    (hset : (textField (o.map f)).truthy = (textField (o'.map f)).truthy) : o = o' := by
  have hne : ∀ s, s = default → (textField (some (f s))).truthy = true := by
    rintro s rfl
    simpa [textField, Value.truthy] using hdefault
  cases o with
  | none =>
    cases o' with
    | none => rfl
    | some s =>
      have hs := hne s hget.symm
      rw [Option.map_some, hs] at hset
      simp [textField, Value.truthy] at hset
  | some s =>
    cases o' with
    | none =>
      have hs := hne s hget
      rw [Option.map_some, hs] at hset
      simp [textField, Value.truthy] at hset
    | some s' =>
      have hss : s = s' := hget
      rw [hss]

theorem record_in_front {c : AuthorizationContext} {e : EntityContextFact}
    (he : Speaks (assetRecords c) e) :
    AuthorizationFact.entityContext e ∈ c.facts ∧
      maxResolved (assetRecords { c with facts := .entityContext e :: c.facts }) = some e := by
  obtain ⟨hmem, hmax⟩ := he
  obtain ⟨hent, hname⟩ := List.mem_filter.mp hmem
  have hsel : AuthorizationFact.entityContext e ∈ selectedOf c := by
    obtain ⟨f, hf, hfe⟩ := List.mem_filterMap.mp hent
    cases f <;> simp_all
  refine ⟨(List.mem_filter.mp hsel).1, ?_⟩
  have hrecords : assetRecords { c with facts := .entityContext e :: c.facts } =
      e :: assetRecords c := by
    unfold assetRecords selectedOf
    rw [select_cons hsel]
    exact List.filter_cons_of_pos hname
  rw [hrecords]
  exact maxResolved_cons hmax

theorem returns_deriveAuthzClass_of {c : AuthorizationContext}
    (h : Returns (evaluateAuthorization c.activity c.facts c.tenant)) :
    Returns (deriveAuthzClass (some c)) := by
  unfold deriveAuthzClass
  refine returns_ite (fun _ => ⟨_, rfl⟩) fun _ => h.bind fun comps _ => ?_
  refine returns_ite (fun _ => ⟨_, rfl⟩) fun _ => ?_
  refine returns_ite (fun _ => ⟨_, rfl⟩) fun _ => ?_
  exact returns_ite (fun _ => ⟨_, rfl⟩) fun _ => ⟨_, rfl⟩

/-- With either of two tied records in front, a guardrail may test what the guard reads of it. -/
theorem tiesAgree_of_orderIndependent {c : AuthorizationContext} (h : OrderIndependent c)
    (hc : Clear c) : TiesAgree c := by
  intro htrack e e' he he'
  have halike : Alike .asset e e' := he.alike (fun _ => Iff.rfl) (fun f hf =>
    (by simpa using (List.mem_filter.mp hf).2 : _ ∧ _).1) he'
  obtain ⟨henv, hcrit, -, hdata, -⟩ := halike.asset
  have hret : Returns (evaluateAuthorization c.activity c.facts c.tenant) := by
    simp only [Clear, htrack] at hc
    simp only [evaluateAuthorization, htrack]
    have hsel : selectedOf c = select c.facts .account c.tenant := by rw [selectedOf, htrack]
    exact hsel ▸ returns_acctComponents_of_clear hc
  obtain ⟨⟨cls, comps⟩, hcls⟩ := returns_deriveAuthzClass_of hret
  obtain ⟨hmem, hfront⟩ := record_in_front he
  obtain ⟨hmem', hfront'⟩ := record_in_front he'
  -- The same guardrail, with the one record in front and with the other.
  have hprobe : ∀ path, (lookupParts (split '.' path) (.dict (conditionContext
        ((probe path).over { c with facts := .entityContext e :: c.facts })
        cls comps))).truthy =
      (lookupParts (split '.' path) (.dict (conditionContext
        ((probe path).over { c with facts := .entityContext e' :: c.facts })
        cls comps))).truthy := by
    intro path
    have hcls₁ := ((h _ (same_cons hmem)).2.1).trans hcls
    have hcls₂ := ((h _ (same_cons hmem')).2.1).trans hcls
    have hrule := ((h _ (same_cons hmem)).2.2 (probe path)).trans
      ((h _ (same_cons hmem')).2.2 (probe path)).symm
    have hrule := congrArg (Prod.fst <$> ·) hrule
    simp only [Functor.map_map] at hrule
    rw [finalDecision_probe hcls₁, finalDecision_probe hcls₂] at hrule
    have hrule := Except.ok.inj hrule
    revert hrule
    generalize Value.truthy _ = b
    generalize Value.truthy _ = b'
    cases b <;> cases b' <;> simp
  refine ⟨?_, ?_, fun hhost => ?_⟩
  · have hset := hprobe "asset.environment"
    rw [lookup_environment (c := { c with facts := .entityContext e :: c.facts }) htrack,
      lookup_environment (c := { c with facts := .entityContext e' :: c.facts }) htrack,
      hfront, hfront'] at hset
    exact eq_of_set (f := id) henv (by decide) (by simpa using hset)
  · have hset := hprobe "asset.criticality"
    rw [lookup_criticality (c := { c with facts := .entityContext e :: c.facts }) htrack,
      lookup_criticality (c := { c with facts := .entityContext e' :: c.facts }) htrack,
      hfront, hfront'] at hset
    exact eq_of_set (f := id) hcrit (by decide) (by simpa using hset)
  · have hset := hprobe "asset.data_classification"
    rw [lookup_dataClassification (c := { c with facts := .entityContext e :: c.facts })
        htrack _ _ _ hhost,
      lookup_dataClassification (c := { c with facts := .entityContext e' :: c.facts })
        htrack _ _ _ hhost, hfront, hfront'] at hset
    exact eq_of_set (f := lower) hdata (by decide) (by simpa using hset)

/-- A log-in of a service account. -/
def login : AuthorizationActivity where
  track := .account
  host := some "db1"
  account := some "svc"
  action := some "login"
  time := ⟨0, 0⟩
  trackFields := ⟨by decide, by decide, by decide⟩

/-- An inventory record of the host, with or without its environment. -/
def inventory (id : String) (environment : Option String) : EntityContextFact where
  id := id
  track := .account
  entityType := .asset
  name := "db1"
  environment := environment
  accountLegality := by decide
  orgLegality := fun _ => rfl
  pathLegality := fun _ => ⟨rfl, rfl⟩

/-- Two records of equal trust, one of which spells the default. -/
def tied : AuthorizationContext where
  activity := login
  facts := [.entityContext (inventory "A1" none), .entityContext (inventory "A2" (some "prod"))]

def baseline (id : String) (window : Option RecurringWindow) : AuthorizationFact :=
  .grant
    { id := id, track := .account, grantClass := .standingBaseline
      scope := { subject := some "svc", target := some "db1", action := some "login",
                 recurringWindow := window }
      classLegality := plain_baseline }

/-- A covering baseline before one whose window names no time of day. -/
def unreadable : AuthorizationContext where
  activity := login
  facts := [baseline "B1" none, baseline "B2" (some ⟨"9am", "5pm"⟩)]

end SocTalk.TriagePolicy
