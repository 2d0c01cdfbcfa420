import SocTalk.Authorization.Coverage

/-! One instant under two UTC offsets. Validity and freezes compare instants; a recurring window is
tested on the wall clock of the datetime's own offset. -/
namespace SocTalk.Authorization
open Py

/-- The activity with its time written as `t`. -/
def AuthorizationActivity.at (a : AuthorizationActivity) (t : DateTime) : AuthorizationActivity :=
  { a with time := t }

/-- Every recurring window of the grants is among `W`. -/
def WindowsAmong (W : RecurringWindow → Prop) (facts : List AuthorizationFact) : Prop :=
  ∀ g ∈ grants facts, ∀ w, g.scope.recurringWindow = some w → W w

/-- The same components and the same class at both writings of the time. -/
def SameAt (facts : List AuthorizationFact) (tenant : Option String) (a : AuthorizationActivity)
    (t t' : DateTime) : Prop :=
  evaluateAuthorization (a.at t) facts tenant = evaluateAuthorization (a.at t') facts tenant ∧
    deriveAuthzClass (some ⟨tenant, a.at t, facts⟩) = deriveAuthzClass (some ⟨tenant, a.at t', facts⟩)

theorem WindowsAmong.select {W : RecurringWindow → Prop} {facts : List AuthorizationFact}
    (h : WindowsAmong W facts) (track : AuthorizationTrack) (tenant : Option String) :
    WindowsAmong W (select facts track tenant) := by
  intro g hg
  refine h g (mem_grants.mpr ?_)
  exact (List.mem_filter.mp (mem_grants.mp hg)).1

/-! ## Records that are in force alike -/

section

variable {facts : List AuthorizationFact} {a : AuthorizationActivity} {t t' : DateTime}
  (hinstant : t.instant = t'.instant) (hforce : ∀ g ∈ grants facts, inForce g t = inForce g t')
include hinstant

theorem le_left_eq (s : DateTime) : s.le t = s.le t' := by
  unfold DateTime.le
  rw [hinstant]

theorem le_right_eq (s : DateTime) : t.le s = t'.le s := by
  unfold DateTime.le
  rw [hinstant]

theorem inValidity_eq (g : GrantFact) : inValidity g t = inValidity g t' := by
  unfold inValidity
  simp only [le_left_eq hinstant, le_right_eq hinstant]

theorem acctFreezeBlocks_eq (env : String) (g : GrantFact) :
    acctFreezeBlocks facts env g t = acctFreezeBlocks facts env g t' := by
  unfold acctFreezeBlocks
  simp only [le_left_eq hinstant, le_right_eq hinstant]

theorem inForce_eq {g : GrantFact}
    (h : ∀ w, g.scope.recurringWindow = some w → inWindow t w = inWindow t' w) :
    inForce g t = inForce g t' := by
  have hwindow : inRecurringWindow g t = inRecurringWindow g t' := by
    unfold inRecurringWindow
    cases hw : g.scope.recurringWindow with
    | none => rfl
    | some w => exact h w hw
  unfold inForce
  rw [hwindow, inValidity_eq hinstant]

include hforce

theorem ticketCovers_at {g : GrantFact} (hg : g ∈ grants facts) :
    ticketCovers facts (a.at t) g = ticketCovers facts (a.at t') g := by
  unfold ticketCovers acctTicketCovers AuthorizationActivity.at
  dsimp only
  rw [hforce g hg, acctFreezeBlocks_eq hinstant]
  rfl

omit hinstant in
theorem acctBaselineCovers_at {g : GrantFact} (hg : g ∈ grants facts) :
    acctBaselineCovers g (a.at t) = acctBaselineCovers g (a.at t') := by
  unfold acctBaselineCovers AuthorizationActivity.at
  dsimp only
  rw [hforce g hg]
  rfl

omit hinstant in
theorem acctRoutine_at {g : GrantFact} (hg : g ∈ grants facts) :
    acctRoutine g (a.at t) = acctRoutine g (a.at t') := by
  unfold acctRoutine AuthorizationActivity.at
  dsimp only
  rw [hforce g hg]
  rfl

theorem forbids_at (p : ProhibitionFact) :
    forbids facts (a.at t) p = forbids facts (a.at t') p := by
  have hemergency : (grants facts).anyM (emergencyCovers facts (a.at t)) =
      (grants facts).anyM (emergencyCovers facts (a.at t')) := by
    refine anyM_congr fun g hg => ?_
    unfold emergencyCovers
    rw [ticketCovers_at hinstant hforce hg]
  rw [forbids_eq, forbids_eq, hemergency]
  rfl

theorem acctComponents_at : acctComponents facts (a.at t) = acctComponents facts (a.at t') := by
  have hticket : (grants facts).anyM (ticketCovers facts (a.at t)) =
      (grants facts).anyM (ticketCovers facts (a.at t')) :=
    anyM_congr fun g hg => ticketCovers_at hinstant hforce hg
  have hbaseline : (grants facts).anyM (acctBaselineCovers · (a.at t)) =
      (grants facts).anyM (acctBaselineCovers · (a.at t')) :=
    anyM_congr fun g hg => acctBaselineCovers_at hforce hg
  have hroutine : (grants facts).anyM (acctRoutine · (a.at t)) =
      (grants facts).anyM (acctRoutine · (a.at t')) :=
    anyM_congr fun g hg => acctRoutine_at hforce hg
  have hcovered : acctCovered facts (a.at t) (assetEnv facts (a.at t)) =
      acctCovered facts (a.at t') (assetEnv facts (a.at t')) := by
    rw [acctCovered_eq, acctCovered_eq, hticket, hbaseline, hroutine]
  have hsanctioned : acctSanctioned (grants facts) (a.at t) =
      acctSanctioned (grants facts) (a.at t') := by
    unfold acctSanctioned
    rw [hroutine]
    rfl
  rw [acctComponents_eq, acctComponents_eq, hcovered, hsanctioned,
    anyM_congr fun p _ => forbids_at hinstant hforce p]
  rfl

omit hinstant in
theorem fimCrCovers_at {g : GrantFact} (hg : g ∈ grants facts) :
    fimCrCovers g (a.at t) = fimCrCovers g (a.at t') := by
  unfold fimCrCovers AuthorizationActivity.at
  dsimp only
  rw [hforce g hg]
  rfl

omit hinstant in
theorem fimBaselineCovers_at {g : GrantFact} (hg : g ∈ grants facts) :
    fimBaselineCovers g (a.at t) = fimBaselineCovers g (a.at t') := by
  unfold fimBaselineCovers AuthorizationActivity.at
  dsimp only
  rw [hforce g hg]
  rfl

omit hinstant in
theorem fimForbids_at (configClass : String) (p : ProhibitionFact) :
    fimForbids facts (a.at t) configClass p = fimForbids facts (a.at t') configClass p := by
  have hemergency : ((grants facts).anyM fun g =>
        if g.emergency then fimCrCovers g (a.at t) else pure false) =
      (grants facts).anyM fun g => if g.emergency then fimCrCovers g (a.at t') else pure false :=
    anyM_congr fun g hg => by rw [fimCrCovers_at hforce hg]
  unfold fimForbids
  rw [hemergency]
  rfl

theorem fimComponents_at : fimComponents facts (a.at t) = fimComponents facts (a.at t') := by
  have hcrs : (grants facts).filterM (fimCrCovers · (a.at t)) =
      (grants facts).filterM (fimCrCovers · (a.at t')) :=
    filterM_congr fun g hg => fimCrCovers_at hforce hg
  have hbaseline : (grants facts).anyM (fimBaselineCovers · (a.at t)) =
      (grants facts).anyM (fimBaselineCovers · (a.at t')) :=
    anyM_congr fun g hg => fimBaselineCovers_at hforce hg
  have hblocks : ∀ (configClass : String) (crs : List GrantFact),
      fimFreezeBlocks configClass crs t = fimFreezeBlocks configClass crs t' := by
    intro configClass crs
    funext fr
    unfold fimFreezeBlocks
    rw [le_left_eq hinstant, le_right_eq hinstant]
  rw [fimComponents_eq, fimComponents_eq, hcrs,
    anyM_congr fun p _ => fimForbids_at hforce (pathClass facts (a.at t)) p]
  unfold fimCovered
  rw [hbaseline]
  simp only [AuthorizationActivity.at, hblocks]
  rfl

end

theorem evaluateAuthorization_at {facts : List AuthorizationFact} {tenant : Option String}
    {a : AuthorizationActivity} {t t' : DateTime} (hinstant : t.instant = t'.instant)
    (hforce : ∀ g ∈ grants (select facts a.track tenant), inForce g t = inForce g t') :
    evaluateAuthorization (a.at t) facts tenant = evaluateAuthorization (a.at t') facts tenant := by
  unfold evaluateAuthorization
  cases htrack : a.track with
  | account =>
    simp only [AuthorizationActivity.at, htrack]
    exact acctComponents_at hinstant (htrack ▸ hforce)
  | fim =>
    simp only [AuthorizationActivity.at, htrack]
    exact fimComponents_at hinstant (htrack ▸ hforce)

/-- The class is read off the components and off facts that no time enters. -/
theorem sameAt_of_evaluate {facts : List AuthorizationFact} {tenant : Option String}
    {a : AuthorizationActivity} {t t' : DateTime}
    (h : evaluateAuthorization (a.at t) facts tenant =
      evaluateAuthorization (a.at t') facts tenant) : SameAt facts tenant a t t' := by
  refine ⟨h, ?_⟩
  unfold deriveAuthzClass
  dsimp only
  rw [h]
  rfl

/-! ## A single window -/

/-- A standing baseline for the backup that holds in one window only. -/
def windowed (w : RecurringWindow) : AuthorizationFact := backupBaseline "B" (some w)

theorem windowsAmong_windowed {W : RecurringWindow → Prop} {w : RecurringWindow} (h : W w) :
    WindowsAmong W [windowed w] := by
  intro g hg w' hw'
  obtain rfl : g = _ := List.mem_singleton.mp hg
  obtain rfl : w = w' := Option.some.inj hw'
  exact h

/-- The window alone decides whether the backup is in scope. -/
theorem evaluateAuthorization_windowed (w : RecurringWindow) (t : DateTime) :
    evaluateAuthorization (backup.at t) [windowed w] none = (do
      let b ← inWindow t w
      return ⟨true, b, true, true⟩) := by
  have hcovered : acctCovered [windowed w] (backup.at t) "prod" = inWindow t w := by
    have hticket : (grants [windowed w]).anyM
        (acctTicketCovers [windowed w] · (backup.at t) "prod") = .ok false := rfl
    have hroutine : (grants [windowed w]).anyM (acctRoutine · (backup.at t)) = .ok false := rfl
    have hbaseline : (grants [windowed w]).anyM (acctBaselineCovers · (backup.at t)) =
        inWindow t w := by
      obtain ⟨g, hg, hone⟩ : ∃ g, grants [windowed w] = [g] ∧ acctBaselineCovers g (backup.at t) =
          (do if ← inWindow t w then return true else return false) := ⟨_, rfl, rfl⟩
      rw [hg, List.anyM_cons, hone]
      cases inWindow t w with
      | error e => rfl
      | ok b => cases b <;> rfl
    unfold acctCovered
    rw [hticket, hroutine, hbaseline]
    cases inWindow t w with
    | error e => rfl
    | ok b => cases b <;> rfl
  have hcomponents : evaluateAuthorization (backup.at t) [windowed w] none = (do
      let b ← acctCovered [windowed w] (backup.at t) "prod"
      return ⟨true, b && true, true, true⟩) := rfl
  rw [hcomponents, hcovered]
  simp only [Bool.and_true]

theorem inWindow_eq_of_same {w : RecurringWindow} {t t' : DateTime}
    (h : SameAt [windowed w] none backup t t') : inWindow t w = inWindow t' w := by
  have heval := h.1
  rw [evaluateAuthorization_windowed, evaluateAuthorization_windowed] at heval
  cases hw : inWindow t w with
  | error e =>
    cases hw' : inWindow t' w with
    | error e' =>
      rw [hw, hw'] at heval
      exact congrArg _ (Except.error.inj heval)
    | ok b' =>
      rw [hw, hw'] at heval
      cases heval
  | ok b =>
    cases hw' : inWindow t' w with
    | error e' =>
      rw [hw, hw'] at heval
      cases heval
    | ok b' =>
      rw [hw, hw'] at heval
      have hcomps := congrArg AuthorizationComponents.inScope (Except.ok.inj heval)
      exact congrArg _ hcomps

/-- Three in the morning, UTC, and the same instant two hours ahead of it. -/
def threeUtc : DateTime := ⟨3 * 60 * microsPerMinute, 0⟩
def threeAhead : DateTime := ⟨3 * 60 * microsPerMinute, 2 * 60 * microsPerMinute⟩

end SocTalk.Authorization
