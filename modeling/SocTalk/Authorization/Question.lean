import SocTalk.Authorization.Coverage
import SocTalk.Authorization.Render

/-! The authorization question and the grant that an affirmative answer mints. By default the grant
has the activity's own words for its scope; on the file track the engine reads them as a pattern. -/
namespace SocTalk.Authorization
open Py

structure AuthorizationQuestion where
  track : AuthorizationTrack
  activity : AuthorizationActivity
  proposedScope : FactScope
  prompt : String

def proposedScope (activity : AuthorizationActivity) : FactScope :=
  match activity.track with
  | .account => { subject := activity.account, target := activity.host, action := activity.action }
  | .fim => { target := activity.path, changeType := activity.changeType }

def prompt (activity : AuthorizationActivity) : String :=
  let text := fun (v : Option String) => v.getD "None"
  match activity.track with
  | .account => "Was account '" ++ text activity.account ++ "' performing '" ++
      text activity.action ++ "' on host '" ++ text activity.host ++ "' authorized?"
  | .fim => "Was a '" ++ text (activity.changeType.map ChangeKind.value) ++ "' change to '" ++
      text activity.path ++ "' authorized?"

/-- Fires only on `needs_more_info`, without a malicious signal, on an absent class and for a
genuine actor. -/
def authorizationQuestionFor (validate : Value → Option AuthorizationContext)
    (investigation : Value) (disposition : String) : M (Option AuthorizationQuestion) := do
  if disposition != "needs_more_info" then return none
  match ← parseAuthorizationContext validate investigation with
  | none => return none
  | some ctx =>
    if ← hasMaliciousSignal investigation then return none
    let (authzClass, components) ← deriveAuthzClass (some ctx)
    if authzClass != .absent then return none
    -- No components were computed where no fact is on file.
    if !(components.map (·.actorGenuine)).getD true then return none
    return some { track := ctx.activity.track
                  activity := ctx.activity
                  proposedScope := proposedScope ctx.activity
                  prompt := prompt ctx.activity }

/-- The trust of an analyst's assertion. -/
def analystTrust : ℤ := 60

/-- The durable grant that answers a question: an approved change ticket with an expiry. -/
def grantFromActivity (activity : AuthorizationActivity) (validUntil : DateTime)
    (scope : Option FactScope) (factId : String) : GrantFact where
  id := factId
  track := activity.track
  scope := scope.getD (proposedScope activity)
  grantClass := .changeTicket
  status := .approved
  cabRequired := false
  cabApproved := true
  trust := analystTrust
  validUntil := some validUntil
  classLegality := ⟨by simp, rfl, rfl⟩

/-- The grant that answers the question about an activity of the tenant. -/
def minted (activity : AuthorizationActivity) (validUntil : DateTime) (factId : String)
    (tenant : Option String) : GrantFact :=
  { grantFromActivity activity validUntil none factId with tenant := tenant }

/-! ## What a minted grant covers -/

/-- The tuple that is asked about: subject, target and action, or path and change type. -/
def SameTuple (a b : AuthorizationActivity) : Prop :=
  a.track = b.track ∧
  match a.track with
  | .account => a.account = b.account ∧ a.host = b.host ∧ a.action = b.action
  | .fim => a.path = b.path ∧ a.changeType = b.changeType

/-- Among the facts the grant is selected for the activity and covers it by itself. -/
def CoversOnFile (facts : List AuthorizationFact) (tenant : Option String) (g : GrantFact)
    (b : AuthorizationActivity) : Prop :=
  g ∈ grants (select facts b.track tenant) ∧ covers (select facts b.track tenant) b g = .ok true

/-- The grant minted for `a` covers `a` at any time of its validity, unless a freeze is in force,
and covers nothing that differs from `a`. -/
structure CoversExactly (a : AuthorizationActivity) : Prop where
  covered : ∀ validUntil factId tenant facts b,
    .grant (minted a validUntil factId tenant) ∈ facts → SameTuple a b →
    b.time.le validUntil = true →
    (∀ fr ∈ freezes facts, ¬(fr.start.le b.time = true ∧ b.time.le fr.end = true)) →
    CoversOnFile facts tenant (minted a validUntil factId tenant) b
  only : ∀ validUntil factId tenant facts b,
    CoversOnFile facts tenant (minted a validUntil factId tenant) b → SameTuple a b

section

variable {a b : AuthorizationActivity} {validUntil : DateTime} {factId : String}
  {tenant : Option String} {facts selected : List AuthorizationFact}

theorem mem_grants_select {g : GrantFact} {track : AuthorizationTrack} :
    g ∈ grants (select facts track tenant) ↔ .grant g ∈ facts ∧ g.track = track ∧
      (tenant = none ∨ g.tenant = tenant) ∧ g.supersededBy = none := by
  rw [mem_grants]
  unfold select
  rw [List.mem_filter]
  simp [AuthorizationFact.base, and_assoc]

theorem minted_selected : minted a validUntil factId tenant ∈ grants (select facts b.track tenant) ↔
    .grant (minted a validUntil factId tenant) ∈ facts ∧ a.track = b.track := by
  rw [mem_grants_select]
  simp [minted, grantFromActivity]

/-- The minted grant has no window and no start; it is in force up to its expiry. -/
theorem inForce_minted (t : DateTime) :
    inForce (minted a validUntil factId tenant) t = .ok (t.le validUntil) := by
  have hwindow : inRecurringWindow (minted a validUntil factId tenant) t = .ok true := by
    unfold inRecurringWindow minted grantFromActivity proposedScope
    cases a.track <;> rfl
  unfold inForce
  rw [hwindow]
  show (Except.ok (true && t.le validUntil) : M Bool) = _
  rw [Bool.true_and]

theorem covers_minted_account (hb : b.track = .account) :
    covers selected b (minted a validUntil factId tenant) =
      .ok (acctMatches (minted a validUntil factId tenant) b && b.time.le validUntil &&
        !acctFreezeBlocks selected (assetEnv selected b) (minted a validUntil factId tenant)
          b.time) := by
  rw [covers_account hb]
  show ticketCovers selected b (minted a validUntil factId tenant) = _
  unfold ticketCovers acctTicketCovers
  rw [inForce_minted]
  show (if acctMatches (minted a validUntil factId tenant) b then _ else return false) = _
  cases acctMatches (minted a validUntil factId tenant) b with
  | false => rfl
  | true => cases b.time.le validUntil <;> rfl

theorem covers_minted_fim (hb : b.track = .fim) :
    covers selected b (minted a validUntil factId tenant) =
      .ok (fimMatches (minted a validUntil factId tenant) b && b.time.le validUntil) := by
  rw [covers_fim hb]
  show fimCrCovers (minted a validUntil factId tenant) b = _
  unfold fimCrCovers
  rw [inForce_minted]
  show (if fimMatches (minted a validUntil factId tenant) b then _ else return false) = _
  cases fimMatches (minted a validUntil factId tenant) b <;> rfl

theorem acctMatches_minted (ha : a.track = .account) (hb : b.track = .account) :
    acctMatches (minted a validUntil factId tenant) b = true ↔ SameTuple a b := by
  unfold SameTuple
  rw [ha, hb]
  simp only [true_and]
  unfold acctMatches minted grantFromActivity proposedScope
  simp [ha, and_assoc, and_left_comm]

/-- On the file track the path is a pattern, and `any` is a wildcard among the change types. -/
theorem fimMatches_minted (ha : a.track = .fim) :
    fimMatches (minted a validUntil factId tenant) b = true ↔
      Fnmatch.fnmatch (b.path.getD "") (a.path.getD "") = true ∧
        (a.changeType = some .any ∨ a.changeType = b.changeType) := by
  have hlegal := a.trackFields
  rw [ha] at hlegal
  obtain ⟨hpath, hchange⟩ := hlegal
  obtain ⟨p, hp⟩ := Option.ne_none_iff_exists'.mp hpath
  unfold fimMatches fimTypeMatches minted grantFromActivity proposedScope
  simp [ha, hp, hchange]

theorem freezes_select {track : AuthorizationTrack} {fr : ChangeFreezeFact}
    (h : fr ∈ freezes (select facts track tenant)) : fr ∈ freezes facts := by
  unfold freezes at h ⊢
  obtain ⟨f, hf, hfr⟩ := List.mem_filterMap.mp h
  exact List.mem_filterMap.mpr ⟨f, List.mem_of_mem_filter hf, hfr⟩

theorem not_blocks_of_unfrozen {track : AuthorizationTrack} {g : GrantFact} {env : String}
    {t : DateTime} (h : ∀ fr ∈ freezes facts, ¬(fr.start.le t = true ∧ t.le fr.end = true)) :
    acctFreezeBlocks (select facts track tenant) env g t = false := by
  unfold acctFreezeBlocks
  rw [Bool.and_eq_false_iff, List.any_eq_false]
  refine Or.inr fun fr hfr hblock => h fr (freezes_select hfr) ?_
  simp only [Bool.and_eq_true] at hblock
  exact ⟨hblock.1.1.2, hblock.1.2⟩

theorem coversExactly_account (ha : a.track = .account) : CoversExactly a where
  covered validUntil factId tenant facts b hmem hsame htime hfree := by
    have hb : b.track = .account := by rw [← hsame.1, ha]
    refine ⟨minted_selected.mpr ⟨hmem, hsame.1⟩, ?_⟩
    have hmatch : acctMatches (minted a validUntil factId tenant) b = true :=
      (acctMatches_minted ha hb).mpr hsame
    rw [covers_minted_account hb, hmatch, htime, not_blocks_of_unfrozen hfree]
    rfl
  only validUntil factId tenant facts b hcov := by
    obtain ⟨hsel, hcov⟩ := hcov
    have hb : b.track = .account := by rw [← (minted_selected.mp hsel).2, ha]
    rw [covers_minted_account hb] at hcov
    have hall := Except.ok.inj hcov
    simp only [Bool.and_eq_true] at hall
    exact (acctMatches_minted ha hb).mp hall.1.1

theorem coversExactly_fim (ha : a.track = .fim) (hplain : Fnmatch.Plain (a.path.getD "").toList)
    (hchange : a.changeType ≠ some .any) : CoversExactly a where
  covered validUntil factId tenant facts b hmem hsame htime hfree := by
    have hb : b.track = .fim := by rw [← hsame.1, ha]
    refine ⟨minted_selected.mpr ⟨hmem, hsame.1⟩, ?_⟩
    obtain ⟨hpath, hsamechange⟩ : a.path = b.path ∧ a.changeType = b.changeType := by
      have hfields := hsame.2
      rw [ha] at hfields
      exact hfields
    have hmatch : fimMatches (minted a validUntil factId tenant) b = true :=
      (fimMatches_minted ha).mpr
        ⟨((Fnmatch.matches_self_only_iff _).mpr hplain _).mpr (by rw [hpath]), Or.inr hsamechange⟩
    rw [covers_minted_fim hb, hmatch, htime]
    rfl
  only validUntil factId tenant facts b hcov := by
    obtain ⟨hsel, hcov⟩ := hcov
    have htrack := (minted_selected.mp hsel).2
    have hb : b.track = .fim := by rw [← htrack, ha]
    rw [covers_minted_fim hb] at hcov
    have hall := Except.ok.inj hcov
    rw [Bool.and_eq_true] at hall
    obtain ⟨hmatch, hsame⟩ := (fimMatches_minted ha).mp hall.1
    have hpath := ((Fnmatch.matches_self_only_iff _).mpr hplain _).mp hmatch
    have hlegal := a.trackFields
    have hlegal' := b.trackFields
    rw [ha] at hlegal
    rw [hb] at hlegal'
    obtain ⟨p, hp⟩ := Option.ne_none_iff_exists'.mp hlegal.1
    obtain ⟨p', hp'⟩ := Option.ne_none_iff_exists'.mp hlegal'.1
    refine ⟨htrack, ?_⟩
    rw [ha]
    refine ⟨?_, hsame.resolve_left hchange⟩
    rw [hp, hp'] at hpath ⊢
    exact congrArg some hpath.symm

end

/-- A change of a file, at the epoch. -/
def fileChange (path : String) (kind : ChangeKind) : AuthorizationActivity where
  track := .fim
  path := some path
  changeType := some kind
  time := ⟨0, 0⟩
  trackFields := ⟨by simp, by simp⟩

/-- On its own on file, the grant covers exactly what it matches. -/
theorem coversOnFile_alone {a b : AuthorizationActivity} (ha : a.track = .fim)
    (hb : b.track = .fim) (hmatch : fimMatches (minted a b.time "G" none) b = true) :
    CoversOnFile [.grant (minted a b.time "G" none)] none (minted a b.time "G" none) b := by
  refine ⟨minted_selected.mpr ⟨by simp, by rw [ha, hb]⟩, ?_⟩
  have htime : b.time.le b.time = true := by simp [DateTime.le]
  rw [covers_minted_fim hb, hmatch, htime]
  rfl

/-- A minted grant covers exactly its activity on the account track, and on the file track if the
path, read as a pattern, is plain and the change type is not the wildcard. -/
theorem coversExactly_iff (a : AuthorizationActivity) : CoversExactly a ↔ a.track = .account ∨
    (Fnmatch.Plain (a.path.getD "").toList ∧ a.changeType ≠ some .any) := by
  constructor
  · intro h
    cases ha : a.track with
    | account => exact Or.inl rfl
    | fim =>
      refine Or.inr ?_
      have hlegal := a.trackFields
      rw [ha] at hlegal
      obtain ⟨p, hp⟩ := Option.ne_none_iff_exists'.mp hlegal.1
      obtain ⟨kind, hkind⟩ := Option.ne_none_iff_exists'.mp hlegal.2
      -- What the pattern and the change type match is covered, hence the activity itself.
      have honly : ∀ name kind', Fnmatch.fnmatch name p = true → kind = .any ∨ kind = kind' →
          name = p ∧ kind' = kind := by
        intro name kind' hname hk
        have hmatch : fimMatches (minted a (fileChange name kind').time "G" none) (fileChange name kind') =
            true := by
          rw [fimMatches_minted ha, hp, hkind]
          exact ⟨hname, hk.imp (congrArg some) (congrArg some)⟩
        have hsame := h.only _ _ _ _ _ (coversOnFile_alone ha rfl hmatch)
        have hfields := hsame.2
        rw [ha, hp, hkind] at hfields
        exact ⟨(Option.some.inj hfields.1).symm, (Option.some.inj hfields.2).symm⟩
      have hself : Fnmatch.fnmatch p p = true := by
        have hcov := h.covered (fileChange p kind).time "G" none
          [.grant (minted a (fileChange p kind).time "G" none)] (fileChange p kind) (by simp)
          ⟨ha, by rw [ha]; exact ⟨hp, hkind⟩⟩ (by simp [DateTime.le]) (by simp [freezes])
        have hcov := hcov.2
        rw [covers_minted_fim rfl] at hcov
        have hall := Except.ok.inj hcov
        rw [Bool.and_eq_true, fimMatches_minted ha, hp] at hall
        exact hall.1.1
      refine ⟨?_, fun hany => ?_⟩
      · rw [hp, Option.getD_some, ← Fnmatch.matches_self_only_iff]
        refine fun name => ⟨fun hname => (honly name kind hname (Or.inr rfl)).1, ?_⟩
        rintro rfl
        exact hself
      · rw [hkind] at hany
        have hk := Option.some.inj hany
        have hmodify := (honly p .modify hself (Or.inl hk)).2
        rw [hk] at hmodify
        cases hmodify
  · rintro (ha | ⟨hplain, hchange⟩)
    · exact coversExactly_account ha
    · cases ha : a.track with
      | account => exact coversExactly_account ha
      | fim => exact coversExactly_fim ha hplain hchange

/-- The grant for a file whose name has a star covers every file below. -/
theorem not_coversExactly_star :
    CoversOnFile [.grant (minted (fileChange "/srv/*" .modify) ⟨0, 0⟩ "G" none)] none
      (minted (fileChange "/srv/*" .modify) ⟨0, 0⟩ "G" none) (fileChange "/srv/keys" .modify) ∧
    ¬CoversExactly (fileChange "/srv/*" .modify) := by
  have hcovers : CoversOnFile [.grant (minted (fileChange "/srv/*" .modify) ⟨0, 0⟩ "G" none)] none
      (minted (fileChange "/srv/*" .modify) ⟨0, 0⟩ "G" none) (fileChange "/srv/keys" .modify) :=
    coversOnFile_alone rfl rfl (by decide)
  refine ⟨hcovers, fun h => ?_⟩
  have hsame := (h.only _ _ _ _ _ hcovers).2.1
  revert hsame
  decide

end SocTalk.Authorization
