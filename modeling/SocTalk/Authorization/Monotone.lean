import SocTalk.Authorization.Coverage

/-! Monotonicity: one more grant takes no component away, one more prohibition or freeze grants
none. -/
namespace SocTalk.Authorization
open Py Reorder

/-- Whatever the first components grant, the second do. -/
structure AuthorizationComponents.Below (c c' : AuthorizationComponents) : Prop where
  sanctionedOrRoutine : c.sanctionedOrRoutine = true → c'.sanctionedOrRoutine = true
  inScope : c.inScope = true → c'.inScope = true
  actorGenuine : c.actorGenuine = true → c'.actorGenuine = true
  policyAllowed : c.policyAllowed = true → c'.policyAllowed = true

theorem AuthorizationComponents.Below.refl (c : AuthorizationComponents) : c.Below c :=
  ⟨id, id, id, id⟩

/-- The second facts have at most more grants and fewer prohibitions and freezes. -/
structure Weaker (xs ys : List AuthorizationFact) : Prop where
  entities : entities xs = entities ys
  grants : ∀ g ∈ grants xs, g ∈ Authorization.grants ys
  prohibitions : ∀ p ∈ prohibitions ys, p ∈ Authorization.prohibitions xs
  freezes : ∀ fr ∈ freezes ys, fr ∈ Authorization.freezes xs

section

variable {xs ys : List AuthorizationFact} (h : Weaker xs ys) (a : AuthorizationActivity)
include h

theorem Weaker.resolvedEntity (kind : AuthorizationEntityKind) (name : String) :
    resolvedEntity xs kind name = resolvedEntity ys kind name := by
  unfold Authorization.resolvedEntity
  rw [h.entities]

theorem Weaker.accountFact (name : String) : accountFact xs name = accountFact ys name := by
  unfold Authorization.accountFact
  rw [h.entities]

theorem Weaker.accountCompromised (name : String) :
    accountCompromised xs name = accountCompromised ys name := by
  unfold Authorization.accountCompromised
  rw [h.entities]

theorem Weaker.actorLinked : actorLinked xs a = actorLinked ys a := by
  unfold Authorization.actorLinked orgLinked
  simp only [h.resolvedEntity, h.accountFact]

theorem Weaker.assetEnv : assetEnv xs a = assetEnv ys a := by
  unfold Authorization.assetEnv
  rw [h.resolvedEntity]

theorem Weaker.pathClass : pathClass xs a = pathClass ys a := by
  unfold Authorization.pathClass
  rw [h.resolvedEntity]

/-! ## Account track -/

/-- A freeze less blocks less. -/
theorem Weaker.freezeBlocks {env : String} {g : GrantFact} {t : DateTime}
    (hfree : acctFreezeBlocks xs env g t = false) : acctFreezeBlocks ys env g t = false := by
  unfold acctFreezeBlocks at hfree ⊢
  rw [Bool.and_eq_false_iff] at hfree ⊢
  refine hfree.imp_right fun hnone => ?_
  rw [List.any_eq_false] at hnone ⊢
  exact fun fr hfr => hnone fr (h.freezes fr hfr)

theorem Weaker.ticketCovers {g : GrantFact} (hcov : ticketCovers xs a g = .ok true) :
    ticketCovers ys a g = .ok true := by
  unfold Authorization.ticketCovers acctTicketCovers at hcov ⊢
  obtain ⟨hcheck, hcov⟩ := guarded_eq_true hcov
  obtain ⟨b, hforce, hcov⟩ := (bind_eq_ok _ _ _).mp hcov
  obtain ⟨rfl, hfree⟩ := guarded_eq_true hcov
  have hfree : acctFreezeBlocks xs (Authorization.assetEnv xs a) g a.time = false := by
    simpa using (pure_eq_ok _ _).mp hfree
  rw [h.assetEnv] at hfree
  rw [if_pos hcheck, hforce]
  show (return !acctFreezeBlocks ys (Authorization.assetEnv ys a) g a.time : M Bool) = .ok true
  rw [h.freezeBlocks hfree]
  rfl

theorem Weaker.emergencyCovers {g : GrantFact} (hcov : emergencyCovers xs a g = .ok true) :
    emergencyCovers ys a g = .ok true := by
  unfold Authorization.emergencyCovers at hcov ⊢
  split at hcov
  · rename_i hemergency
    rw [if_pos hemergency]
    exact h.ticketCovers a hcov
  · cases hcov

theorem Weaker.acctCovers (hcov : AcctCovers xs a) : AcctCovers ys a := by
  refine hcov.imp (fun ht => ?_) (Or.imp (fun hb => ?_) fun hr => ?_)
  · exact ht.mono fun g hg hc => ⟨h.grants g hg, h.ticketCovers a hc⟩
  · exact hb.mono fun g hg hc => ⟨h.grants g hg, hc⟩
  · exact hr.mono fun g hg hc => ⟨h.grants g hg, hc⟩

end

/-- The prohibition bears on the activity, exceptions aside. -/
def prohibitionApplies (facts : List AuthorizationFact) (a : AuthorizationActivity)
    (p : ProhibitionFact) : Bool :=
  !(p.forbidAction != a.action || p.priority != .high || p.waiverPresent) &&
  !(p.forbidAccountType.isSome &&
    (accountFact facts (a.account.getD "")).bind (·.accountType) != p.forbidAccountType) &&
  !(p.appliesTo.env.isSome && !(p.appliesTo.env.getD []).contains (assetEnv facts a)) &&
  !(p.appliesTo.criticality.isSome && !(p.appliesTo.criticality.getD []).contains
    (criticalityOf (resolvedEntity facts .asset (a.host.getD "")))) &&
  !(p.appliesTo.dataClass.isSome && !(p.appliesTo.dataClass.getD []).contains
    (dataClassificationOf (resolvedEntity facts .asset (a.host.getD ""))))

/-- The prohibition gives way to a covering emergency change. -/
def breakGlassApplies (facts : List AuthorizationFact) (a : AuthorizationActivity)
    (p : ProhibitionFact) : Bool :=
  p.breakGlassException && ((accountFact facts (a.account.getD "")).bind (·.breakGlass)).getD false

theorem forbids_eq_ite (facts : List AuthorizationFact) (a : AuthorizationActivity)
    (p : ProhibitionFact) : forbids facts a p =
      if prohibitionApplies facts a p then
        if breakGlassApplies facts a p then do
          let covered ← (grants facts).anyM (emergencyCovers facts a)
          return !covered
        else return true
      else return false := by
  rw [forbids_eq]
  unfold prohibitionApplies breakGlassApplies
  generalize (p.forbidAction != a.action || p.priority != .high || p.waiverPresent) = skipped
  generalize (p.forbidAccountType.isSome && (accountFact facts (a.account.getD "")).bind
    (·.accountType) != p.forbidAccountType) = account
  generalize (p.appliesTo.env.isSome && !(p.appliesTo.env.getD []).contains (assetEnv facts a)) = env
  generalize (p.appliesTo.criticality.isSome && !(p.appliesTo.criticality.getD []).contains
    (criticalityOf (resolvedEntity facts .asset (a.host.getD "")))) = criticality
  generalize (p.appliesTo.dataClass.isSome && !(p.appliesTo.dataClass.getD []).contains
    (dataClassificationOf (resolvedEntity facts .asset (a.host.getD "")))) = dataClass
  cases skipped
  case true => rfl
  cases account
  case true => rfl
  cases env
  case true => rfl
  cases criticality
  case true => rfl
  cases dataClass
  case true => rfl
  rfl

theorem acctComponents_allowed {facts : List AuthorizationFact} {a : AuthorizationActivity}
    {comps : AuthorizationComponents} (h : acctComponents facts a = .ok comps)
    (hallowed : comps.policyAllowed = true) :
    ∀ p ∈ prohibitions facts, forbids facts a p = .ok false := by
  rw [acctComponents_eq] at h
  obtain ⟨covered, -, h⟩ := (bind_eq_ok _ _ _).mp h
  obtain ⟨forbidden, hforbidden, h⟩ := (bind_eq_ok _ _ _).mp h
  obtain ⟨sanctioned, -, h⟩ := (bind_eq_ok _ _ _).mp h
  obtain rfl := (pure_eq_ok _ _).mp h
  have hnone : forbidden = false := by simpa using hallowed
  rw [hnone] at hforbidden
  exact anyM_eq_ok_false hforbidden

/-- An exception that some emergency change answers is answered by more of them. -/
theorem exception_mono {ps qs : List GrantFact} {p q : GrantFact → M Bool}
    (hsub : ∀ g ∈ ps, p g = .ok true → g ∈ qs ∧ q g = .ok true)
    (hno : (do
      let covered ← ps.anyM p
      return !covered : M Bool) = .ok false) :
    (do
      let covered ← qs.anyM q
      return !covered : M Bool) ≠ .ok true := by
  obtain ⟨b, hb, hno⟩ := (bind_eq_ok _ _ _).mp hno
  have hcovered : b = true := by simpa using (pure_eq_ok _ _).mp hno
  have hholds := ((anyM_eq_ok_iff hb).mp hcovered).mono hsub
  intro hyes
  obtain ⟨b', hb', hyes⟩ := (bind_eq_ok _ _ _).mp hyes
  have hmissed : b' = false := by simpa using (pure_eq_ok _ _).mp hyes
  rw [(anyM_eq_ok_iff hb').mpr hholds] at hmissed
  cases hmissed

section

variable {xs ys : List AuthorizationFact} (h : Weaker xs ys) {a : AuthorizationActivity}
  {c c' : AuthorizationComponents}
include h

theorem Weaker.prohibitionApplies (p : ProhibitionFact) :
    prohibitionApplies xs a p = prohibitionApplies ys a p := by
  unfold Authorization.prohibitionApplies
  rw [h.accountFact, h.assetEnv, h.resolvedEntity]

/-- What forbids nothing among the first facts forbids nothing among the second. -/
theorem Weaker.forbids {p : ProhibitionFact} (hno : forbids xs a p = .ok false) :
    forbids ys a p ≠ .ok true := by
  have hglass : breakGlassApplies xs a p = breakGlassApplies ys a p := by
    unfold breakGlassApplies
    rw [h.accountFact]
  rw [forbids_eq_ite, h.prohibitionApplies, hglass] at hno
  rw [forbids_eq_ite]
  cases happlies : Authorization.prohibitionApplies ys a p with
  | false =>
    intro hyes
    cases hyes
  | true =>
    rw [happlies] at hno
    cases hexcept : breakGlassApplies ys a p with
    | false =>
      rw [hexcept] at hno
      cases hno
    | true =>
      rw [hexcept] at hno
      exact exception_mono (fun g hg hc => ⟨h.grants g hg, h.emergencyCovers a hc⟩) hno

theorem Weaker.acctActorGenuine (host account : String) :
    acctActorGenuine xs a (Authorization.resolvedEntity xs .asset host)
        (Authorization.accountFact xs account) =
      acctActorGenuine ys a (Authorization.resolvedEntity ys .asset host)
        (Authorization.accountFact ys account) := by
  unfold Authorization.acctActorGenuine
  rw [h.accountCompromised, h.resolvedEntity, h.accountFact]

theorem Weaker.acctComponents (hx : acctComponents xs a = .ok c)
    (hy : acctComponents ys a = .ok c') : c.Below c' := by
  obtain ⟨hsx, hix, hgx, -⟩ := acctComponents_spec hx
  obtain ⟨hsy, hiy, hgy, hpy⟩ := acctComponents_spec hy
  constructor
  · intro hs
    refine hsy.mpr ((hsx.mp hs).imp ?_ ?_)
    · exact fun ⟨g, hg, hc⟩ => ⟨g, h.grants g hg, hc⟩
    · exact fun hr => hr.mono fun g hg hc => ⟨h.grants g hg, hc⟩
  · intro hi
    obtain ⟨hcov, hlinked⟩ := hix.mp hi
    rw [h.actorLinked] at hlinked
    exact hiy.mpr ⟨h.acctCovers a hcov, hlinked⟩
  · rw [hgx, hgy, h.acctActorGenuine]
    exact id
  · intro hallowed
    refine hpy.mpr ?_
    rintro ⟨p, hp, hyes⟩
    exact h.forbids (acctComponents_allowed hx hallowed p (h.prohibitions p hp)) hyes

end

/-! ## File-integrity track -/

theorem fimComponents_allowed {facts : List AuthorizationFact} {a : AuthorizationActivity}
    {comps : AuthorizationComponents} (h : fimComponents facts a = .ok comps)
    (hallowed : comps.policyAllowed = true) :
    ∀ p ∈ prohibitions facts, fimForbids facts a (pathClass facts a) p = .ok false := by
  rw [fimComponents_eq] at h
  obtain ⟨crs, -, h⟩ := (bind_eq_ok _ _ _).mp h
  obtain ⟨covered, -, h⟩ := (bind_eq_ok _ _ _).mp h
  obtain ⟨forbidden, hforbidden, h⟩ := (bind_eq_ok _ _ _).mp h
  obtain rfl := (pure_eq_ok _ _).mp h
  have hnone : forbidden = false := by simpa using hallowed
  rw [hnone] at hforbidden
  exact anyM_eq_ok_false hforbidden

/-- The prohibition bears on the change, exceptions aside. -/
def fimProhibitionApplies (a : AuthorizationActivity) (configClass : String)
    (p : ProhibitionFact) : Bool :=
  !(p.priority != .high || p.waiverPresent) &&
  !(!(p.appliesTo.configClass.getD []).isEmpty &&
    !(p.appliesTo.configClass.getD []).contains configClass) &&
  !(p.forbidChangeType.isSome &&
    !(p.forbidChangeType.getD []).contains ((a.changeType.map ChangeKind.value).getD ""))

def fimEmergencyCovers (a : AuthorizationActivity) (g : GrantFact) : M Bool :=
  if g.emergency then fimCrCovers g a else pure false

theorem fimForbids_eq_ite (facts : List AuthorizationFact) (a : AuthorizationActivity)
    (configClass : String) (p : ProhibitionFact) : fimForbids facts a configClass p =
      if fimProhibitionApplies a configClass p then
        if p.breakGlassException then do
          let covered ← (grants facts).anyM (fimEmergencyCovers a)
          return !covered
        else return true
      else return false := by
  unfold fimForbids fimProhibitionApplies
  generalize (p.priority != .high || p.waiverPresent) = skipped
  dsimp only
  generalize (!(p.appliesTo.configClass.getD []).isEmpty &&
    !(p.appliesTo.configClass.getD []).contains configClass) = elsewhere
  generalize (p.forbidChangeType.isSome && !(p.forbidChangeType.getD []).contains
    ((a.changeType.map ChangeKind.value).getD "")) = change
  cases skipped
  case true => rfl
  cases elsewhere
  case true => rfl
  cases change
  case true => rfl
  rfl

section

variable {xs ys : List AuthorizationFact} (h : Weaker xs ys) {a : AuthorizationActivity}
  {c c' : AuthorizationComponents}
include h

theorem Weaker.fimForbids {configClass : String} {p : ProhibitionFact}
    (hno : fimForbids xs a configClass p = .ok false) :
    fimForbids ys a configClass p ≠ .ok true := by
  rw [fimForbids_eq_ite] at hno ⊢
  cases happlies : fimProhibitionApplies a configClass p with
  | false =>
    intro hyes
    cases hyes
  | true =>
    rw [happlies] at hno
    cases hexcept : p.breakGlassException with
    | false =>
      rw [hexcept] at hno
      cases hno
    | true =>
      rw [hexcept] at hno
      exact exception_mono (fun g hg hc => ⟨h.grants g hg, hc⟩) hno

/-- More change requests except more, and there are fewer freezes to except from. -/
theorem Weaker.unfrozen {crs crs' : List GrantFact} (hcrs : ∀ g ∈ crs, g ∈ crs')
    (hfree : Unfrozen xs a crs) : Unfrozen ys a crs' := by
  intro fr hfr
  have hno := hfree fr (h.freezes fr hfr)
  rw [h.pathClass] at hno
  unfold fimFreezeBlocks at hno ⊢
  rw [Bool.and_eq_false_iff] at hno ⊢
  refine hno.imp_right fun hany => ?_
  rw [Bool.not_eq_false', List.any_eq_true] at hany ⊢
  obtain ⟨g, hg, hexcept⟩ := hany
  exact ⟨g, hcrs g hg, hexcept⟩

theorem Weaker.fimComponents (hx : fimComponents xs a = .ok c)
    (hy : fimComponents ys a = .ok c') : c.Below c' := by
  obtain ⟨crs, hcrs, hsx, hix, hgx, -⟩ := fimComponents_spec hx
  obtain ⟨crs', hcrs', hsy, hiy, hgy, hpy⟩ := fimComponents_spec hy
  have hmore : ∀ g ∈ crs, g ∈ crs' := by
    intro g hg
    obtain ⟨hg, hcov⟩ := (hcrs g).mp hg
    exact (hcrs' g).mpr ⟨h.grants g hg, hcov⟩
  constructor
  · intro hs
    obtain ⟨g, hg, hc⟩ := hsx.mp hs
    exact hsy.mpr ⟨g, h.grants g hg, hc⟩
  · intro hi
    obtain ⟨hcov, hfree⟩ := hix.mp hi
    refine hiy.mpr ⟨hcov.imp (fun hcr => ?_) fun hb => ?_, h.unfrozen hmore hfree⟩
    · exact hcr.mono fun g hg hc => ⟨h.grants g hg, hc⟩
    · exact hb.mono fun g hg hc => ⟨h.grants g hg, hc⟩
  · rw [hgx, hgy, h.resolvedEntity]
    exact id
  · intro hallowed
    refine hpy.mpr ?_
    rintro ⟨p, hp, hyes⟩
    have hno := fimComponents_allowed hx hallowed p (h.prohibitions p hp)
    rw [h.pathClass] at hno
    exact h.fimForbids hno hyes

end

/-! ## One more fact -/

/-- Prohibitions and freezes. -/
def AuthorizationFact.restricts : AuthorizationFact → Bool
  | .prohibition _ => true
  | .changeFreeze _ => true
  | _ => false

theorem weaker_insert_grant (before after : List AuthorizationFact) (g : GrantFact) :
    Weaker (before ++ after) (before ++ .grant g :: after) := by
  constructor
  · simp [entities]
  · intro g' hg'
    rw [mem_grants] at hg' ⊢
    simp only [List.mem_append, List.mem_cons] at hg' ⊢
    exact hg'.imp_right Or.inr
  · simp [prohibitions]
  · simp [freezes]

theorem weaker_insert_restriction (before after : List AuthorizationFact) {f : AuthorizationFact}
    (hf : f.restricts = true) : Weaker (before ++ f :: after) (before ++ after) := by
  have hsub : ∀ {β : Type} (select : AuthorizationFact → Option β) (x : β),
      x ∈ (before ++ after).filterMap select → x ∈ (before ++ f :: after).filterMap select := by
    intro β select x hx
    obtain ⟨e, he, hex⟩ := List.mem_filterMap.mp hx
    refine List.mem_filterMap.mpr ⟨e, ?_, hex⟩
    simp only [List.mem_append, List.mem_cons] at he ⊢
    exact he.imp_right Or.inr
  refine ⟨?_, ?_, fun p hp => hsub _ p hp, fun fr hfr => hsub _ fr hfr⟩
  · cases f with
    | prohibition p => simp [entities]
    | changeFreeze fr => simp [entities]
    | grant g => cases hf
    | entityContext e => cases hf
  · cases f with
    | prohibition p => simp [grants]
    | changeFreeze fr => simp [grants]
    | grant g => cases hf
    | entityContext e => cases hf

/-- A fact that the selection leaves out changes nothing; one that it keeps stands between the
selected ones. -/
theorem select_insert (before after : List AuthorizationFact) (f : AuthorizationFact)
    (track : AuthorizationTrack) (tenant : Option String) :
    select (before ++ f :: after) track tenant = select (before ++ after) track tenant ∨
      ∃ xs ys, select (before ++ after) track tenant = xs ++ ys ∧
        select (before ++ f :: after) track tenant = xs ++ f :: ys := by
  unfold select
  simp only [List.filter_append, List.filter_cons]
  split
  · exact Or.inr ⟨_, _, rfl, rfl⟩
  · exact Or.inl rfl

theorem Weaker.evaluate {a : AuthorizationActivity} {xs ys : List AuthorizationFact}
    {tenant : Option String} {c c' : AuthorizationComponents}
    (h : Weaker (select xs a.track tenant) (select ys a.track tenant))
    (hx : evaluateAuthorization a xs tenant = .ok c)
    (hy : evaluateAuthorization a ys tenant = .ok c') : c.Below c' := by
  unfold evaluateAuthorization at hx hy
  cases htrack : a.track with
  | account =>
    simp only [htrack] at h hx hy
    exact h.acctComponents hx hy
  | fim =>
    simp only [htrack] at h hx hy
    exact h.fimComponents hx hy

/-- Wherever it is added, one more grant turns no component from true to false, and one more
prohibition or freeze none from false to true. -/
theorem authorization_monotone {a : AuthorizationActivity} {before after : List AuthorizationFact}
    {tenant : Option String} {c : AuthorizationComponents}
    (h : evaluateAuthorization a (before ++ after) tenant = .ok c) :
    (∀ g c', evaluateAuthorization a (before ++ .grant g :: after) tenant = .ok c' → c.Below c') ∧
    ∀ f c', f.restricts = true →
      evaluateAuthorization a (before ++ f :: after) tenant = .ok c' → c'.Below c := by
  constructor
  · intro g c' h'
    refine Weaker.evaluate ?_ h h'
    rcases select_insert before after (.grant g) a.track tenant with hsame | ⟨xs, ys, hold, hnew⟩
    · rw [hsame]
      exact ⟨rfl, fun _ hg => hg, fun _ hp => hp, fun _ hfr => hfr⟩
    · rw [hold, hnew]
      exact weaker_insert_grant xs ys g
  · intro f c' hf h'
    refine Weaker.evaluate ?_ h' h
    rcases select_insert before after f a.track tenant with hsame | ⟨xs, ys, hold, hnew⟩
    · rw [hsame]
      exact ⟨rfl, fun _ hg => hg, fun _ hp => hp, fun _ hfr => hfr⟩
    · rw [hold, hnew]
      exact weaker_insert_restriction xs ys hf

/-- A ban on backups. -/
def backupBan : AuthorizationFact :=
  .prohibition
    { id := "P1", track := .account, forbidAction := some "backup"
      trackLegality := ⟨by decide, rfl, rfl⟩ }

/-- A ban takes the policy's permission away and gives nothing. -/
theorem authorization_monotone_ban :
    evaluateAuthorization backup ([backupBaseline "B1" none] ++ []) none =
        .ok ⟨true, true, true, true⟩ ∧
      evaluateAuthorization backup ([backupBaseline "B1" none] ++ backupBan :: []) none =
        .ok ⟨true, true, true, false⟩ ∧
      AuthorizationComponents.Below ⟨true, true, true, false⟩ ⟨true, true, true, true⟩ := by
  have hplain : evaluateAuthorization backup ([backupBaseline "B1" none] ++ []) none =
      .ok ⟨true, true, true, true⟩ := rfl
  have hbanned : evaluateAuthorization backup ([backupBaseline "B1" none] ++ backupBan :: []) none =
      .ok ⟨true, true, true, false⟩ := rfl
  exact ⟨hplain, hbanned, (authorization_monotone hplain).2 backupBan _ rfl hbanned⟩

end SocTalk.Authorization
