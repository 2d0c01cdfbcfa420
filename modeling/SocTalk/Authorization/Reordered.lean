import Mathlib.Data.Prod.Lex
import Mathlib.Data.String.Basic
import SocTalk.Authorization.ResolutionKey
import SocTalk.Lib.Reorder

/-! What the evaluator reads off reordered or repeated facts: the record that speaks for an entity
may be another one, but its attributes are the same. -/
namespace SocTalk.Authorization
open Py Reorder

/-! ## The record that speaks for an entity -/

/-- What records are compared by. -/
def rank (f : EntityContextFact) : ℤ ×ₗ String := toLex (f.trust, entityResolutionKey f)

theorem resolvesBelow_iff (f g : EntityContextFact) :
    resolvesBelow f g = true ↔ rank f < rank g := by
  simp [resolvesBelow, rank, Prod.Lex.toLex_lt_toLex]

theorem rank_inj {f g : EntityContextFact} (h : rank f = rank g) :
    f.trust = g.trust ∧ entityResolutionKey f = entityResolutionKey g := by
  simpa [rank] using h

/-- No record outranks it. -/
def Speaks (fs : List EntityContextFact) (f : EntityContextFact) : Prop :=
  f ∈ fs ∧ ∀ g ∈ fs, rank g ≤ rank f

theorem maxResolved_eq_some {fs : List EntityContextFact} {f : EntityContextFact}
    (h : maxResolved fs = some f) : Speaks fs f := by
  cases fs with
  | nil => simp [maxResolved] at h
  | cons x xs =>
    have h := Option.some.inj h
    rw [← h]
    exact foldl_max_mem resolvesBelow_iff x xs

theorem maxResolved_cons {fs : List EntityContextFact} {f : EntityContextFact}
    (h : ∀ g ∈ fs, rank g ≤ rank f) : maxResolved (f :: fs) = some f :=
  congrArg some (foldl_max_head resolvesBelow_iff h)

theorem Speaks.rank_eq {fs gs : List EntityContextFact} (h : Same fs gs) {f g : EntityContextFact}
    (hf : Speaks fs f) (hg : Speaks gs g) : rank f = rank g :=
  le_antisymm (hg.2 f ((h f).mp hf.1)) (hf.2 g ((h g).mpr hg.1))

/-- The same kind and the same attributes, defaults filled in. -/
def Alike (kind : AuthorizationEntityKind) (f g : EntityContextFact) : Prop :=
  f.entityType = kind ∧ g.entityType = kind ∧ entityKeyFields f = entityKeyFields g

theorem Speaks.alike {fs gs : List EntityContextFact} (h : Same fs gs)
    {kind : AuthorizationEntityKind} (hk : ∀ f ∈ fs, f.entityType = kind)
    {f g : EntityContextFact} (hf : Speaks fs f) (hg : Speaks gs g) : Alike kind f g := by
  have hfk := hk f hf.1
  have hgk := hk g ((h g).mpr hg.1)
  obtain ⟨htrust, hkey⟩ := rank_inj (hf.rank_eq h hg)
  exact ⟨hfk, hgk, entityKeyFields_eq (hfk.trans hgk.symm) htrust hkey⟩

/-- Reordering changes the record that speaks for an entity to one alike at most. -/
theorem maxResolved_alike {fs gs : List EntityContextFact} (h : Same fs gs)
    (kind : AuthorizationEntityKind) (hk : ∀ f ∈ fs, f.entityType = kind) :
    Option.Rel (fun f g => Alike kind f g ∧ f ∈ fs ∧ g ∈ fs) (maxResolved fs) (maxResolved gs) := by
  cases hf : maxResolved fs with
  | none =>
    cases fs with
    | cons x xs => simp [maxResolved] at hf
    | nil =>
      cases gs with
      | nil => exact .none
      | cons y ys => exact absurd ((h y).mpr (by simp)) (by simp)
  | some f =>
    have hsf := maxResolved_eq_some hf
    cases hg : maxResolved gs with
    | none =>
      cases gs with
      | nil => exact absurd ((h f).mp hsf.1) (by simp)
      | cons y ys => simp [maxResolved] at hg
    | some g =>
      have hsg := maxResolved_eq_some hg
      exact .some ⟨hsf.alike h hk hsg, hsf.1, (h g).mpr hsg.1⟩

/-! ## Attributes of records alike -/

theorem Alike.asset {f g : EntityContextFact} (h : Alike .asset f g) :
    f.environment.getD "prod" = g.environment.getD "prod" ∧
      f.criticality.getD "medium" = g.criticality.getD "medium" ∧
      f.ownerOrg.getD "" = g.ownerOrg.getD "" ∧
      f.dataClassification.getD "none" = g.dataClassification.getD "none" ∧
      (f.compromiseStatus.map CompromiseStatus.value).getD "clean" =
        (g.compromiseStatus.map CompromiseStatus.value).getD "clean" := by
  obtain ⟨hf, hg, h⟩ := h
  simp only [entityKeyFields, hf, hg, List.cons.injEq, Prod.mk.injEq, true_and, and_true] at h
  obtain ⟨-, henv, hcrit, horg, -, hclass, hstatus⟩ := h
  exact ⟨jsonString_inj henv, jsonString_inj hcrit, jsonString_inj horg, jsonString_inj hclass,
    jsonString_inj hstatus⟩

theorem Alike.watchedPath {f g : EntityContextFact} (h : Alike .watchedPath f g) :
    f.configClass.getD "app" = g.configClass.getD "app" ∧
      (f.compromiseStatus.map CompromiseStatus.value).getD "clean" =
        (g.compromiseStatus.map CompromiseStatus.value).getD "clean" := by
  obtain ⟨hf, hg, h⟩ := h
  simp only [entityKeyFields, hf, hg, List.cons.injEq, Prod.mk.injEq, true_and, and_true] at h
  obtain ⟨-, hclass, -, -, -, -, hstatus⟩ := h
  exact ⟨jsonString_inj hclass, jsonString_inj hstatus⟩

theorem accountKind_value_inj {k k' : AccountKind} (h : k.value = k'.value) : k = k' := by
  cases k <;> cases k' <;> first | rfl | exact absurd h (by decide)

theorem Alike.account {f g : EntityContextFact} (h : Alike .account f g)
    (hf : f.accountType.isSome) (hg : g.accountType.isSome) :
    f.accountType = g.accountType ∧ f.ownerOrg.getD "" = g.ownerOrg.getD "" ∧
      f.privileged.getD false = g.privileged.getD false ∧
      f.breakGlass.getD false = g.breakGlass.getD false ∧
      f.onCall.getD true = g.onCall.getD true := by
  obtain ⟨hft, hgt, h⟩ := h
  simp only [entityKeyFields, hft, hgt, List.cons.injEq, Prod.mk.injEq, true_and, and_true] at h
  obtain ⟨-, htype, horg, hpriv, hglass, -, hcall⟩ := h
  obtain ⟨k, hk⟩ := Option.isSome_iff_exists.mp hf
  obtain ⟨k', hk'⟩ := Option.isSome_iff_exists.mp hg
  rw [hk, hk'] at htype
  have hkk : k = k' := accountKind_value_inj (jsonString_inj htype)
  exact ⟨by rw [hk, hk', hkk], jsonString_inj horg, jsonBool_inj hpriv, jsonBool_inj hglass,
    jsonBool_inj hcall⟩

theorem Alike.org {f g : EntityContextFact} (h : Alike .org f g) :
    f.linkedOrgs.getD [] = g.linkedOrgs.getD [] := by
  obtain ⟨hf, hg, h⟩ := h
  simp only [entityKeyFields, hf, hg, List.cons.injEq, Prod.mk.injEq, true_and, and_true] at h
  exact jsonList_inj h.2

theorem attr_eq {kind : AuthorizationEntityKind} {P : EntityContextFact → EntityContextFact → Prop}
    {o o' : Option EntityContextFact} (h : Option.Rel (fun f g => Alike kind f g ∧ P f g) o o')
    {field : EntityContextFact → Option String} {default : String}
    (hfield : ∀ f g, Alike kind f g → (field f).getD default = (field g).getD default) :
    attr o field default = attr o' field default := by
  cases h with
  | none => rfl
  | some h => exact hfield _ _ h.1

/-! ## What the evaluator reads -/

section

variable {xs ys : List AuthorizationFact} (h : Same xs ys)
include h

theorem same_grants : Same (grants xs) (grants ys) := h.filterMap _

theorem same_prohibitions : Same (prohibitions xs) (prohibitions ys) := h.filterMap _

theorem same_freezes : Same (freezes xs) (freezes ys) := h.filterMap _

theorem same_entities : Same (entities xs) (entities ys) := h.filterMap _

theorem resolvedEntity_alike (kind : AuthorizationEntityKind) (name : String) :
    Option.Rel (fun f g => Alike kind f g ∧ True) (resolvedEntity xs kind name)
      (resolvedEntity ys kind name) := by
  have hrel := maxResolved_alike
    ((same_entities h).filter fun e => e.entityType == kind && e.name == name) kind
    (fun f hf => (by simpa using (List.mem_filter.mp hf).2 : _ ∧ _).1)
  unfold resolvedEntity
  generalize maxResolved _ = o at hrel ⊢
  generalize maxResolved _ = o' at hrel ⊢
  cases hrel with
  | none => exact .none
  | some hrel => exact .some ⟨hrel.1, trivial⟩

theorem accountFact_alike (name : String) :
    Option.Rel (fun f g => f.accountType = g.accountType ∧ f.ownerOrg.getD "" = g.ownerOrg.getD "" ∧
      f.privileged.getD false = g.privileged.getD false ∧
      f.breakGlass.getD false = g.breakGlass.getD false ∧
      f.onCall.getD true = g.onCall.getD true) (accountFact xs name) (accountFact ys name) := by
  have hrel := maxResolved_alike ((same_entities h).filter fun e =>
    e.entityType == .account && e.name == name && e.accountType.isSome) .account
    (fun f hf => (by simpa using (List.mem_filter.mp hf).2 : (_ ∧ _) ∧ _).1.1)
  unfold accountFact
  generalize maxResolved _ = o at hrel ⊢
  generalize maxResolved _ = o' at hrel ⊢
  cases hrel with
  | none => exact .none
  | some hrel =>
    obtain ⟨halike, hf, hg⟩ := hrel
    have hf := (List.mem_filter.mp hf).2
    have hg := (List.mem_filter.mp hg).2
    rw [Bool.and_eq_true] at hf hg
    exact .some (halike.account hf.2 hg.2)

theorem environmentOf_same (name : String) :
    environmentOf (resolvedEntity xs .asset name) = environmentOf (resolvedEntity ys .asset name) :=
  attr_eq (resolvedEntity_alike h .asset name) fun _ _ ha => ha.asset.1

theorem criticalityOf_same (name : String) :
    criticalityOf (resolvedEntity xs .asset name) = criticalityOf (resolvedEntity ys .asset name) :=
  attr_eq (resolvedEntity_alike h .asset name) fun _ _ ha => ha.asset.2.1

theorem ownerOrgOf_same (name : String) :
    ownerOrgOf (resolvedEntity xs .asset name) = ownerOrgOf (resolvedEntity ys .asset name) :=
  attr_eq (resolvedEntity_alike h .asset name) fun _ _ ha => ha.asset.2.2.1

theorem dataClassificationOf_same (name : String) :
    dataClassificationOf (resolvedEntity xs .asset name) =
      dataClassificationOf (resolvedEntity ys .asset name) :=
  attr_eq (resolvedEntity_alike h .asset name) fun _ _ ha => ha.asset.2.2.2.1

theorem statusOf_asset_same (name : String) :
    statusOf (resolvedEntity xs .asset name) = statusOf (resolvedEntity ys .asset name) :=
  attr_eq (resolvedEntity_alike h .asset name) fun _ _ ha => ha.asset.2.2.2.2

theorem configClassOf_same (name : String) :
    configClassOf (resolvedEntity xs .watchedPath name) =
      configClassOf (resolvedEntity ys .watchedPath name) :=
  attr_eq (resolvedEntity_alike h .watchedPath name) fun _ _ ha => ha.watchedPath.1

theorem statusOf_watchedPath_same (name : String) :
    statusOf (resolvedEntity xs .watchedPath name) =
      statusOf (resolvedEntity ys .watchedPath name) :=
  attr_eq (resolvedEntity_alike h .watchedPath name) fun _ _ ha => ha.watchedPath.2

theorem orgLinked_same (a b : String) : orgLinked xs a b = orgLinked ys a b := by
  have ha := resolvedEntity_alike h .org a
  have hb := resolvedEntity_alike h .org b
  dsimp only [orgLinked]
  generalize resolvedEntity xs .org a = o at ha ⊢
  generalize resolvedEntity ys .org a = o' at ha ⊢
  generalize resolvedEntity xs .org b = q at hb ⊢
  generalize resolvedEntity ys .org b = q' at hb ⊢
  cases ha with
  | none =>
    cases hb with
    | none => rfl
    | some hb => simp only [hb.1.org]
  | some ha =>
    cases hb with
    | none => simp only [ha.1.org]
    | some hb => simp only [ha.1.org, hb.1.org]

theorem accountCompromised_same (name : String) :
    accountCompromised xs name = accountCompromised ys name := (same_entities h).any _

theorem acctFreezeBlocks_same (env : String) (g : GrantFact) (t : DateTime) :
    acctFreezeBlocks xs env g t = acctFreezeBlocks ys env g t := by
  unfold acctFreezeBlocks
  rw [(same_freezes h).any]

theorem acctTicketCovers_same (g : GrantFact) (a : AuthorizationActivity) (env : String) :
    acctTicketCovers xs g a env = acctTicketCovers ys g a env := by
  unfold acctTicketCovers
  rw [acctFreezeBlocks_same h]

theorem accountOrg_same (name : String) :
    ((accountFact xs name).bind (·.ownerOrg)).getD "" =
      ((accountFact ys name).bind (·.ownerOrg)).getD "" := by
  have hrel := accountFact_alike h name
  generalize accountFact xs name = o at hrel ⊢
  generalize accountFact ys name = o' at hrel ⊢
  cases hrel with
  | none => rfl
  | some ha => exact ha.2.1

theorem accountType_same (name : String) :
    (accountFact xs name).bind (·.accountType) = (accountFact ys name).bind (·.accountType) := by
  have hrel := accountFact_alike h name
  generalize accountFact xs name = o at hrel ⊢
  generalize accountFact ys name = o' at hrel ⊢
  cases hrel with
  | none => rfl
  | some ha => exact ha.1

theorem breakGlass_same (name : String) :
    ((accountFact xs name).bind (·.breakGlass)).getD false =
      ((accountFact ys name).bind (·.breakGlass)).getD false := by
  have hrel := accountFact_alike h name
  generalize accountFact xs name = o at hrel ⊢
  generalize accountFact ys name = o' at hrel ⊢
  cases hrel with
  | none => rfl
  | some ha => exact ha.2.2.2.1

theorem acctActorGenuine_same (a : AuthorizationActivity) (host account : String) :
    acctActorGenuine xs a (resolvedEntity xs .asset host) (accountFact xs account) =
      acctActorGenuine ys a (resolvedEntity ys .asset host) (accountFact ys account) := by
  unfold acctActorGenuine
  rw [accountCompromised_same h, statusOf_asset_same h]
  have hrel := accountFact_alike h account
  generalize accountFact xs account = o at hrel ⊢
  generalize accountFact ys account = o' at hrel ⊢
  cases hrel with
  | none => rfl
  | some ha =>
    obtain ⟨htype, -, hpriv, hglass, hcall⟩ := ha
    simp only [htype, hpriv, hglass, hcall]

end

/-! ## The one exception -/

theorem raisesOnly_int (s : String) : RaisesOnly .valueError (Py.int s) := by
  unfold Py.int
  dsimp only
  split
  · exact raisesOnly_ok _ _
  · exact raisesOnly_error _

theorem raisesOnly_parseHhmm (s : String) : RaisesOnly .valueError (parseHhmm s) := by
  unfold parseHhmm
  split
  · exact (raisesOnly_int _).bind fun h => (raisesOnly_int _).bind fun m =>
      raisesOnly_ite (raisesOnly_ok _ _) (raisesOnly_error _)
  · exact raisesOnly_error _

theorem raisesOnly_inForce (g : GrantFact) (t : DateTime) :
    RaisesOnly .valueError (inForce g t) := by
  have hw : RaisesOnly .valueError (inRecurringWindow g t) := by
    unfold inRecurringWindow
    split
    · exact raisesOnly_ok _ _
    · unfold inWindow
      refine (raisesOnly_parseHhmm _).bind fun start => raisesOnly_ite ?_ (raisesOnly_ok _ _)
      exact (raisesOnly_parseHhmm _).bind fun stop => raisesOnly_ok _ _
  unfold inForce
  exact hw.bind fun b => raisesOnly_ite (raisesOnly_ok _ _) (raisesOnly_ok _ _)

theorem raisesOnly_acctTicketCovers (facts : List AuthorizationFact) (g : GrantFact)
    (a : AuthorizationActivity) (env : String) :
    RaisesOnly .valueError (acctTicketCovers facts g a env) := by
  unfold acctTicketCovers
  refine raisesOnly_ite ?_ (raisesOnly_ok _ _)
  exact (raisesOnly_inForce g a.time).bind fun b =>
    raisesOnly_ite (raisesOnly_ok _ _) (raisesOnly_ok _ _)

theorem raisesOnly_acctBaselineCovers (g : GrantFact) (a : AuthorizationActivity) :
    RaisesOnly .valueError (acctBaselineCovers g a) :=
  raisesOnly_ite (raisesOnly_inForce g a.time) (raisesOnly_ok _ _)

theorem raisesOnly_acctRoutine (g : GrantFact) (a : AuthorizationActivity) :
    RaisesOnly .valueError (acctRoutine g a) :=
  raisesOnly_ite (raisesOnly_inForce g a.time) (raisesOnly_ok _ _)

theorem raisesOnly_fimCrCovers (g : GrantFact) (a : AuthorizationActivity) :
    RaisesOnly .valueError (fimCrCovers g a) :=
  raisesOnly_ite (raisesOnly_inForce g a.time) (raisesOnly_ok _ _)

theorem raisesOnly_fimBaselineCovers (g : GrantFact) (a : AuthorizationActivity) :
    RaisesOnly .valueError (fimBaselineCovers g a) :=
  raisesOnly_ite (raisesOnly_inForce g a.time) (raisesOnly_ok _ _)

theorem raisesOnly_acctForbids (facts : List AuthorizationFact) (a : AuthorizationActivity)
    (asset account : Option EntityContextFact) (p : ProhibitionFact) :
    RaisesOnly .valueError (acctForbids facts a asset account p) := by
  unfold acctForbids
  iterate 5
    refine raisesOnly_ite (raisesOnly_ok _ _) ?_
    try rw [pure_bind]
  refine raisesOnly_ite ?_ (raisesOnly_ok _ _)
  refine (raisesOnly_anyM (fun g => ?_) _).bind fun b => raisesOnly_ok _ _
  exact raisesOnly_ite (raisesOnly_acctTicketCovers _ _ _ _) (raisesOnly_ok _ _)

theorem raisesOnly_fimForbids (facts : List AuthorizationFact) (a : AuthorizationActivity)
    (configClass : String) (p : ProhibitionFact) :
    RaisesOnly .valueError (fimForbids facts a configClass p) := by
  unfold fimForbids
  iterate 3 refine raisesOnly_ite (raisesOnly_ok _ _) ?_
  refine raisesOnly_ite ?_ (raisesOnly_ok _ _)
  refine (raisesOnly_anyM (fun g => ?_) _).bind fun b => raisesOnly_ok _ _
  exact raisesOnly_ite (raisesOnly_fimCrCovers _ _) (raisesOnly_ok _ _)

theorem raisesOnly_acctCovered (facts : List AuthorizationFact) (a : AuthorizationActivity)
    (env : String) : RaisesOnly .valueError (acctCovered facts a env) := by
  unfold acctCovered
  refine (raisesOnly_anyM (fun g => raisesOnly_acctTicketCovers _ g a env) _).bind fun b => ?_
  refine raisesOnly_ite (raisesOnly_ok _ _) ?_
  refine (raisesOnly_anyM (fun g => raisesOnly_acctBaselineCovers g a) _).bind fun b => ?_
  exact raisesOnly_ite (raisesOnly_ok _ _)
    (raisesOnly_anyM (fun g => raisesOnly_acctRoutine g a) _)

theorem raisesOnly_acctComponents (facts : List AuthorizationFact) (a : AuthorizationActivity) :
    RaisesOnly .valueError (acctComponents facts a) := by
  unfold acctComponents
  refine (raisesOnly_acctCovered facts a _).bind fun covered => ?_
  refine (raisesOnly_anyM (fun p => raisesOnly_acctForbids _ a _ _ p) _).bind fun forbidden => ?_
  refine RaisesOnly.bind ?_ fun sanctioned => raisesOnly_ok _ _
  exact raisesOnly_ite (raisesOnly_ok _ _) (raisesOnly_anyM (fun g => raisesOnly_acctRoutine g a) _)

theorem raisesOnly_fimComponents (facts : List AuthorizationFact) (a : AuthorizationActivity) :
    RaisesOnly .valueError (fimComponents facts a) := by
  unfold fimComponents
  refine (raisesOnly_filterM (fun g => raisesOnly_fimCrCovers g a) _).bind fun crs => ?_
  refine RaisesOnly.bind ?_ fun covered => ?_
  · exact raisesOnly_ite (raisesOnly_anyM (fun g => raisesOnly_fimBaselineCovers g a) _)
      (raisesOnly_ok _ _)
  · exact (raisesOnly_anyM (fun p => raisesOnly_fimForbids _ a _ p) _).bind fun forbidden =>
      raisesOnly_ok _ _

end SocTalk.Authorization
