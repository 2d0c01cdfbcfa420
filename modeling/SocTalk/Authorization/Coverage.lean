import SocTalk.Authorization.Order

/-! What an evaluation says of its records: each component as a condition on the selected facts, the
grants that cover by themselves, and the windows an evaluation reads. -/
namespace SocTalk.Authorization
open Py Reorder

/-! ## The components, read off the facts -/

section

variable (facts : List AuthorizationFact) (a : AuthorizationActivity)

/-- The actor's organisation is linked with the asset's. -/
def actorLinked : Bool :=
  orgLinked facts (((accountFact facts (a.account.getD "")).bind (·.ownerOrg)).getD "")
    (ownerOrgOf (resolvedEntity facts .asset (a.host.getD "")))

/-- Some record covers by itself, by the predicate of its class. -/
def AcctCovers : Prop :=
  Holds (ticketCovers facts a) (grants facts) ∨ Holds (acctBaselineCovers · a) (grants facts) ∨
    Holds (acctRoutine · a) (grants facts)

/-- Every active freeze is excepted by a covering change request. -/
def Unfrozen (crs : List GrantFact) : Prop :=
  ∀ fr ∈ freezes facts, fimFreezeBlocks (pathClass facts a) crs a.time fr = false

end

section

variable {facts : List AuthorizationFact} {a : AuthorizationActivity}
  {comps : AuthorizationComponents}

theorem acctCovered_iff {b : Bool} (h : acctCovered facts a (assetEnv facts a) = .ok b) :
    b = true ↔ AcctCovers facts a := by
  rw [acctCovered_eq] at h
  obtain ⟨ticket, hticket, h⟩ := (bind_eq_ok _ _ _).mp h
  have hiff := anyM_eq_ok_iff hticket
  unfold AcctCovers
  cases ticket with
  | true =>
    obtain rfl := (pure_eq_ok _ _).mp h
    exact iff_of_true rfl (Or.inl (hiff.mp rfl))
  | false =>
    have hno : ¬Holds (ticketCovers facts a) (grants facts) := fun hh => by
      cases hiff.mpr hh
    obtain ⟨baseline, hbaseline, h⟩ := (bind_eq_ok _ _ _).mp h
    have hiff' := anyM_eq_ok_iff hbaseline
    cases baseline with
    | true =>
      obtain rfl := (pure_eq_ok _ _).mp h
      exact iff_of_true rfl (Or.inr (Or.inl (hiff'.mp rfl)))
    | false =>
      have hno' : ¬Holds (acctBaselineCovers · a) (grants facts) := fun hh => by
        cases hiff'.mpr hh
      rw [anyM_eq_ok_iff h]
      simp only [hno, hno', false_or]

theorem acctSanctioned_iff {b : Bool} (h : acctSanctioned (grants facts) a = .ok b) :
    b = true ↔ (∃ g ∈ grants facts, acctSanctions g a = true) ∨
      Holds (acctRoutine · a) (grants facts) := by
  unfold acctSanctioned at h
  split at h
  · rename_i hany
    obtain rfl := (pure_eq_ok _ _).mp h
    exact iff_of_true rfl (Or.inl (List.any_eq_true.mp hany))
  · rename_i hany
    rw [anyM_eq_ok_iff h]
    rw [List.any_eq_true] at hany
    simp only [hany, false_or]

/-- The account track, component by component. -/
theorem acctComponents_spec (h : acctComponents facts a = .ok comps) :
    (comps.sanctionedOrRoutine = true ↔ (∃ g ∈ grants facts, acctSanctions g a = true) ∨
      Holds (acctRoutine · a) (grants facts)) ∧
    (comps.inScope = true ↔ AcctCovers facts a ∧ actorLinked facts a = true) ∧
    comps.actorGenuine = acctActorGenuine facts a
      (resolvedEntity facts .asset (a.host.getD "")) (accountFact facts (a.account.getD "")) ∧
    (comps.policyAllowed = true ↔ ¬Holds (forbids facts a) (prohibitions facts)) := by
  rw [acctComponents_eq] at h
  obtain ⟨covered, hcovered, h⟩ := (bind_eq_ok _ _ _).mp h
  obtain ⟨forbidden, hforbidden, h⟩ := (bind_eq_ok _ _ _).mp h
  obtain ⟨sanctioned, hsanctioned, h⟩ := (bind_eq_ok _ _ _).mp h
  obtain rfl := (pure_eq_ok _ _).mp h
  refine ⟨acctSanctioned_iff hsanctioned, ?_, rfl, ?_⟩
  · rw [← acctCovered_iff hcovered, ← Bool.and_eq_true]
    rfl
  · rw [← anyM_eq_ok_iff hforbidden]
    show (!forbidden) = true ↔ ¬forbidden = true
    simp

/-- The file track, component by component. -/
theorem fimComponents_spec (h : fimComponents facts a = .ok comps) :
    ∃ crs, (∀ g, g ∈ crs ↔ g ∈ grants facts ∧ fimCrCovers g a = .ok true) ∧
      (comps.sanctionedOrRoutine = true ↔ ∃ g ∈ grants facts, fimSanctions g a = true) ∧
      (comps.inScope = true ↔ (Holds (fimCrCovers · a) (grants facts) ∨
        Holds (fimBaselineCovers · a) (grants facts)) ∧ Unfrozen facts a crs) ∧
      comps.actorGenuine = !compromisedValues.contains
        (statusOf (resolvedEntity facts .watchedPath (a.path.getD ""))) ∧
      (comps.policyAllowed = true ↔
        ¬Holds (fimForbids facts a (pathClass facts a)) (prohibitions facts)) := by
  rw [fimComponents_eq] at h
  obtain ⟨crs, hcrs, h⟩ := (bind_eq_ok _ _ _).mp h
  obtain ⟨covered, hcovered, h⟩ := (bind_eq_ok _ _ _).mp h
  obtain ⟨forbidden, hforbidden, h⟩ := (bind_eq_ok _ _ _).mp h
  obtain rfl := (pure_eq_ok _ _).mp h
  have hcov : covered = true ↔ Holds (fimCrCovers · a) (grants facts) ∨
      Holds (fimBaselineCovers · a) (grants facts) := by
    have hempty := isEmpty_of_filterM hcrs
    unfold fimCovered at hcovered
    split at hcovered
    · rename_i hnil
      rw [anyM_eq_ok_iff hcovered]
      simp only [hempty.mp hnil, false_or]
    · rename_i hsome
      obtain rfl := (pure_eq_ok _ _).mp hcovered
      exact iff_of_true rfl (Or.inl (not_not.mp fun hn => hsome (hempty.mpr hn)))
  refine ⟨crs, mem_of_filterM_eq_ok hcrs, List.any_eq_true, ?_, rfl, ?_⟩
  · rw [← hcov]
    unfold Unfrozen
    simp
  · rw [← anyM_eq_ok_iff hforbidden]
    show (!forbidden) = true ↔ ¬forbidden = true
    simp

end

/-! ## The windows that are read -/

/-- At this time of day the window can be told: its end is parsed only from its start on. -/
def RecurringWindow.ReadableAt (w : RecurringWindow) (t : DateTime) : Prop :=
  ∃ start, parseHhmm w.start = .ok start ∧ (start ≤ t.time → Returns (parseHhmm w.end))

/-- The grant's window is told at the time. -/
def WindowRead (g : GrantFact) (t : DateTime) : Prop :=
  ∀ w, g.scope.recurringWindow = some w → w.ReadableAt t

/-- The activity meets everything of the grant's class that is tested before the window. -/
def consults (a : AuthorizationActivity) (g : GrantFact) : Bool :=
  match a.track, g.grantClass with
  | .account, .changeTicket => grantOk g && acctMatches g a
  | .account, .standingBaseline => acctMatches g a
  | .account, .routineObservation =>
    acctMatches g a && routineMin ≤ g.seenCount.getD 0 && !g.ioc.getD false
  | .fim, .changeTicket => grantOk g && fimMatches g a
  | .fim, .standingBaseline => fimMatches g a
  | .fim, .routineObservation => false

theorem returns_inWindow_iff (t : DateTime) (w : RecurringWindow) :
    Returns (inWindow t w) ↔ w.ReadableAt t := by
  unfold inWindow RecurringWindow.ReadableAt
  rw [returns_bind_iff]
  refine exists_congr fun start => and_congr_right fun _ => ?_
  split
  · rename_i hle
    simp only [hle, true_imp_iff]
    rw [returns_bind_iff]
    exact ⟨fun ⟨stop, hstop, _⟩ => ⟨stop, hstop⟩, fun ⟨stop, hstop⟩ => ⟨stop, hstop, _, rfl⟩⟩
  · rename_i hlt
    exact iff_of_true ⟨_, rfl⟩ fun hle => absurd hle hlt

theorem returns_inForce_iff (g : GrantFact) (t : DateTime) :
    Returns (inForce g t) ↔ WindowRead g t := by
  have hforce : Returns (inForce g t) ↔ Returns (inRecurringWindow g t) := by
    unfold inForce
    rw [returns_bind_iff]
    exact ⟨fun ⟨b, hb, _⟩ => ⟨b, hb⟩, fun ⟨b, hb⟩ =>
      ⟨b, hb, returns_ite (fun _ => ⟨_, rfl⟩) fun _ => ⟨_, rfl⟩⟩⟩
  rw [hforce]
  unfold inRecurringWindow WindowRead
  cases g.scope.recurringWindow with
  | none => simp
  | some w => simpa using returns_inWindow_iff t w

theorem inForce_eq_true {g : GrantFact} {t : DateTime} (h : inForce g t = .ok true) :
    inRecurringWindow g t = .ok true ∧ inValidity g t = true := by
  unfold inForce at h
  obtain ⟨b, hb, h⟩ := (bind_eq_ok _ _ _).mp h
  cases b with
  | true => exact ⟨hb, (pure_eq_ok _ _).mp h⟩
  | false => cases h

/-! ## Single records -/

/-- The test of `find_covering_grants`. -/
def covers (selected : List AuthorizationFact) (a : AuthorizationActivity) (g : GrantFact) :
    M Bool :=
  match a.track with
  | .fim => do
    if ← fimCrCovers g a then return true
    fimBaselineCovers g a
  | .account => do
    if ← ticketCovers selected a g then return true
    if ← acctBaselineCovers g a then return true
    acctRoutine g a

theorem findCoveringGrants_eq (a : AuthorizationActivity) (facts : List AuthorizationFact)
    (tenant : Option String) : findCoveringGrants a facts tenant =
      (grants (select facts a.track tenant)).filterM (covers (select facts a.track tenant) a) := by
  unfold findCoveringGrants covers
  cases htrack : a.track <;> rfl

/-- By itself the grant matches the activity, is in its window and its validity, and has the
approvals that it needs. -/
structure Covering (a : AuthorizationActivity) (g : GrantFact) : Prop where
  matched : match a.track with
    | .account => acctMatches g a = true
    | .fim => fimMatches g a = true
  window : inRecurringWindow g a.time = .ok true
  valid : inValidity g a.time = true
  approved : grantOk g = true

/-- Only change tickets can lack an approval. -/
theorem grantOk_of_class {g : GrantFact} (h : g.grantClass ≠ .changeTicket) : grantOk g = true := by
  have hlegal := g.classLegality
  unfold grantOk
  cases hclass : g.grantClass with
  | changeTicket => exact absurd hclass h
  | standingBaseline =>
    rw [hclass] at hlegal
    obtain ⟨hstatus, hcab, -⟩ := hlegal
    simp [hstatus, hcab]
  | routineObservation =>
    rw [hclass] at hlegal
    obtain ⟨hstatus, hcab, -⟩ := hlegal
    simp [hstatus, hcab]

section

variable {selected : List AuthorizationFact} {a : AuthorizationActivity} {g : GrantFact}

theorem ticketCovers_of_class (h : g.grantClass ≠ .changeTicket) :
    ticketCovers selected a g = .ok false := by
  simp [ticketCovers, acctTicketCovers, h, pure, Except.pure]

theorem acctBaselineCovers_of_class (h : g.grantClass ≠ .standingBaseline) :
    acctBaselineCovers g a = .ok false := by
  simp [acctBaselineCovers, h, pure, Except.pure]

theorem acctRoutine_of_class (h : g.grantClass ≠ .routineObservation) :
    acctRoutine g a = .ok false := by
  simp [acctRoutine, h, pure, Except.pure]

theorem fimCrCovers_of_class (h : g.grantClass ≠ .changeTicket) : fimCrCovers g a = .ok false := by
  simp [fimCrCovers, h, pure, Except.pure]

theorem fimBaselineCovers_of_class (h : g.grantClass ≠ .standingBaseline) :
    fimBaselineCovers g a = .ok false := by
  simp [fimBaselineCovers, h, pure, Except.pure]

theorem or_false_eq (x : M Bool) :
    (do
      if ← x then return true
      return false) = x := by
  cases x with
  | error e => rfl
  | ok b => cases b <;> rfl

/-- Only the class's own predicate has anything to say. -/
theorem covers_account (h : a.track = .account) : covers selected a g =
    match g.grantClass with
    | .changeTicket => ticketCovers selected a g
    | .standingBaseline => acctBaselineCovers g a
    | .routineObservation => acctRoutine g a := by
  unfold covers
  rw [h]
  dsimp only
  cases hclass : g.grantClass with
  | changeTicket =>
    rw [acctBaselineCovers_of_class (by rw [hclass]; decide),
      acctRoutine_of_class (by rw [hclass]; decide)]
    exact or_false_eq _
  | standingBaseline =>
    rw [ticketCovers_of_class (by rw [hclass]; decide),
      acctRoutine_of_class (by rw [hclass]; decide)]
    exact or_false_eq _
  | routineObservation =>
    rw [ticketCovers_of_class (by rw [hclass]; decide),
      acctBaselineCovers_of_class (by rw [hclass]; decide)]
    rfl

theorem covers_fim (h : a.track = .fim) : covers selected a g =
    match g.grantClass with
    | .changeTicket => fimCrCovers g a
    | .standingBaseline => fimBaselineCovers g a
    | .routineObservation => .ok false := by
  unfold covers
  rw [h]
  dsimp only
  cases hclass : g.grantClass with
  | changeTicket =>
    rw [fimBaselineCovers_of_class (by rw [hclass]; decide)]
    exact or_false_eq _
  | standingBaseline =>
    rw [fimCrCovers_of_class (by rw [hclass]; decide)]
    rfl
  | routineObservation =>
    rw [fimCrCovers_of_class (by rw [hclass]; decide),
      fimBaselineCovers_of_class (by rw [hclass]; decide)]
    rfl

theorem returns_guarded_iff {c : Bool} {x : M Bool} :
    Returns (if c then x else return false) ↔ (c = true → Returns x) := by
  cases c with
  | true => simp
  | false => exact iff_of_true ⟨_, rfl⟩ fun h => by cases h

/-- The search raises at the grants whose window is consulted and cannot be told. -/
theorem returns_covers_iff :
    Returns (covers selected a g) ↔ (consults a g = true → WindowRead g a.time) := by
  rw [← returns_inForce_iff]
  unfold consults
  cases htrack : a.track with
  | account =>
    rw [covers_account htrack]
    cases hclass : g.grantClass with
    | changeTicket =>
      have hticket : ticketCovers selected a g = if grantOk g && acctMatches g a then
          inForce g a.time >>= fun b =>
            if b then return !acctFreezeBlocks selected (assetEnv selected a) g a.time
            else return false
          else return false := by
        simp only [ticketCovers, acctTicketCovers, hclass, beq_self_eq_true, Bool.true_and]
      show Returns (ticketCovers selected a g) ↔ _
      rw [hticket, returns_guarded_iff]
      refine forall_congr' fun _ => ?_
      rw [returns_bind_iff]
      exact ⟨fun ⟨b, hb, _⟩ => ⟨b, hb⟩, fun ⟨b, hb⟩ =>
        ⟨b, hb, returns_ite (fun _ => ⟨_, rfl⟩) fun _ => ⟨_, rfl⟩⟩⟩
    | standingBaseline =>
      show Returns (acctBaselineCovers g a) ↔ _
      unfold acctBaselineCovers
      rw [returns_guarded_iff, hclass]
      simp
    | routineObservation =>
      show Returns (acctRoutine g a) ↔ _
      unfold acctRoutine
      rw [returns_guarded_iff, hclass]
      simp
  | fim =>
    rw [covers_fim htrack]
    cases hclass : g.grantClass with
    | changeTicket =>
      show Returns (fimCrCovers g a) ↔ _
      unfold fimCrCovers
      rw [returns_guarded_iff, hclass]
      simp
    | standingBaseline =>
      show Returns (fimBaselineCovers g a) ↔ _
      unfold fimBaselineCovers
      rw [returns_guarded_iff, hclass]
      simp
    | routineObservation => simp

theorem guarded_eq_true {c : Bool} {x : M Bool} (h : (if c then x else return false) = .ok true) :
    c = true ∧ x = .ok true := by
  cases c with
  | true => exact ⟨rfl, h⟩
  | false => cases h

/-- A grant that the search finds covers by itself. -/
theorem covering_of_covers (h : covers selected a g = .ok true) : Covering a g := by
  cases htrack : a.track with
  | account =>
    rw [covers_account htrack] at h
    cases hclass : g.grantClass with
    | changeTicket =>
      rw [hclass] at h
      obtain ⟨hcheck, h⟩ := guarded_eq_true h
      obtain ⟨⟨-, hok⟩, hmatch⟩ : (_ ∧ grantOk g = true) ∧ acctMatches g a = true := by
        simpa only [Bool.and_eq_true] using hcheck
      obtain ⟨b, hb, h⟩ := (bind_eq_ok _ _ _).mp h
      obtain ⟨rfl, -⟩ := guarded_eq_true h
      obtain ⟨hwindow, hvalid⟩ := inForce_eq_true hb
      exact ⟨by rw [htrack]; exact hmatch, hwindow, hvalid, hok⟩
    | standingBaseline =>
      rw [hclass] at h
      obtain ⟨hcheck, h⟩ := guarded_eq_true h
      obtain ⟨hwindow, hvalid⟩ := inForce_eq_true h
      refine ⟨?_, hwindow, hvalid, grantOk_of_class (by rw [hclass]; decide)⟩
      rw [htrack]
      exact ((Bool.and_eq_true _ _).mp hcheck).2
    | routineObservation =>
      rw [hclass] at h
      obtain ⟨hcheck, h⟩ := guarded_eq_true h
      obtain ⟨hwindow, hvalid⟩ := inForce_eq_true h
      refine ⟨?_, hwindow, hvalid, grantOk_of_class (by rw [hclass]; decide)⟩
      rw [htrack]
      simp only [Bool.and_eq_true] at hcheck
      exact hcheck.1.1.2
  | fim =>
    rw [covers_fim htrack] at h
    cases hclass : g.grantClass with
    | changeTicket =>
      rw [hclass] at h
      obtain ⟨hcheck, h⟩ := guarded_eq_true h
      obtain ⟨⟨-, hok⟩, hmatch⟩ : (_ ∧ grantOk g = true) ∧ fimMatches g a = true := by
        simpa only [Bool.and_eq_true] using hcheck
      obtain ⟨hwindow, hvalid⟩ := inForce_eq_true h
      exact ⟨by rw [htrack]; exact hmatch, hwindow, hvalid, hok⟩
    | standingBaseline =>
      rw [hclass] at h
      obtain ⟨hcheck, h⟩ := guarded_eq_true h
      obtain ⟨hwindow, hvalid⟩ := inForce_eq_true h
      refine ⟨?_, hwindow, hvalid, grantOk_of_class (by rw [hclass]; decide)⟩
      rw [htrack]
      exact ((Bool.and_eq_true _ _).mp hcheck).2
    | routineObservation =>
      rw [hclass] at h
      cases h

/-- Some predicate of the account track holds of a grant exactly if the search keeps it. -/
theorem covers_account_iff (h : a.track = .account) : covers selected a g = .ok true ↔
    ticketCovers selected a g = .ok true ∨ acctBaselineCovers g a = .ok true ∨
      acctRoutine g a = .ok true := by
  have hfalse : (Except.ok false : M Bool) ≠ .ok true := by
    intro heq
    cases heq
  rw [covers_account h]
  cases hclass : g.grantClass with
  | changeTicket =>
    rw [acctBaselineCovers_of_class (by rw [hclass]; decide),
      acctRoutine_of_class (by rw [hclass]; decide)]
    simp only [hfalse, or_false]
  | standingBaseline =>
    rw [ticketCovers_of_class (by rw [hclass]; decide),
      acctRoutine_of_class (by rw [hclass]; decide)]
    simp only [hfalse, or_false, false_or]
  | routineObservation =>
    rw [ticketCovers_of_class (by rw [hclass]; decide),
      acctBaselineCovers_of_class (by rw [hclass]; decide)]
    simp only [hfalse, false_or]

theorem covers_fim_iff (h : a.track = .fim) : covers selected a g = .ok true ↔
    fimCrCovers g a = .ok true ∨ fimBaselineCovers g a = .ok true := by
  have hfalse : (Except.ok false : M Bool) ≠ .ok true := by
    intro heq
    cases heq
  rw [covers_fim h]
  cases hclass : g.grantClass with
  | changeTicket =>
    rw [fimBaselineCovers_of_class (by rw [hclass]; decide)]
    simp only [hfalse, or_false]
  | standingBaseline =>
    rw [fimCrCovers_of_class (by rw [hclass]; decide)]
    simp only [hfalse, false_or]
  | routineObservation =>
    rw [fimCrCovers_of_class (by rw [hclass]; decide),
      fimBaselineCovers_of_class (by rw [hclass]; decide)]
    simp only [hfalse, or_self]

theorem returns_of_covers_account (h : a.track = .account) (hret : Returns (covers selected a g)) :
    Returns (ticketCovers selected a g) ∧ Returns (acctBaselineCovers g a) ∧
      Returns (acctRoutine g a) := by
  rw [covers_account h] at hret
  cases hclass : g.grantClass with
  | changeTicket =>
    rw [hclass] at hret
    exact ⟨hret, ⟨_, acctBaselineCovers_of_class (by rw [hclass]; decide)⟩,
      ⟨_, acctRoutine_of_class (by rw [hclass]; decide)⟩⟩
  | standingBaseline =>
    rw [hclass] at hret
    exact ⟨⟨_, ticketCovers_of_class (by rw [hclass]; decide)⟩, hret,
      ⟨_, acctRoutine_of_class (by rw [hclass]; decide)⟩⟩
  | routineObservation =>
    rw [hclass] at hret
    exact ⟨⟨_, ticketCovers_of_class (by rw [hclass]; decide)⟩,
      ⟨_, acctBaselineCovers_of_class (by rw [hclass]; decide)⟩, hret⟩

theorem returns_of_covers_fim (h : a.track = .fim) (hret : Returns (covers selected a g)) :
    Returns (fimCrCovers g a) ∧ Returns (fimBaselineCovers g a) := by
  rw [covers_fim h] at hret
  cases hclass : g.grantClass with
  | changeTicket =>
    rw [hclass] at hret
    exact ⟨hret, ⟨_, fimBaselineCovers_of_class (by rw [hclass]; decide)⟩⟩
  | standingBaseline =>
    rw [hclass] at hret
    exact ⟨⟨_, fimCrCovers_of_class (by rw [hclass]; decide)⟩, hret⟩
  | routineObservation =>
    exact ⟨⟨_, fimCrCovers_of_class (by rw [hclass]; decide)⟩,
      ⟨_, fimBaselineCovers_of_class (by rw [hclass]; decide)⟩⟩

end

/-! ## When an evaluation returns -/

/-- Every window that the activity makes the evaluation consult can be told. -/
def WindowsRead (selected : List AuthorizationFact) (a : AuthorizationActivity) : Prop :=
  ∀ g ∈ grants selected, consults a g = true → WindowRead g a.time

section

variable {selected : List AuthorizationFact} {a : AuthorizationActivity}

theorem windowsRead_iff :
    WindowsRead selected a ↔ ∀ g ∈ grants selected, Returns (covers selected a g) := by
  unfold WindowsRead
  simp only [returns_covers_iff]

theorem returns_acctComponents_of_windows (htrack : a.track = .account)
    (h : WindowsRead selected a) : Returns (acctComponents selected a) := by
  have hret : ∀ g ∈ grants selected, Returns (ticketCovers selected a g) ∧
      Returns (acctBaselineCovers g a) ∧ Returns (acctRoutine g a) := fun g hg =>
    returns_of_covers_account htrack (windowsRead_iff.mp h g hg)
  refine returns_acctComponents_of_clear ⟨?_, Or.inr ⟨?_, Or.inr ?_⟩⟩
  · rintro ⟨g, hg, hn⟩
    exact hn (hret g hg).1
  · rintro ⟨g, hg, hn⟩
    exact hn (hret g hg).2.1
  · rintro ⟨g, hg, hn⟩
    exact hn (hret g hg).2.2

theorem returns_fimComponents_of_windows (htrack : a.track = .fim)
    (h : WindowsRead selected a) : Returns (fimComponents selected a) := by
  have hret : ∀ g ∈ grants selected, Returns (fimCrCovers g a) ∧
      Returns (fimBaselineCovers g a) := fun g hg =>
    returns_of_covers_fim htrack (windowsRead_iff.mp h g hg)
  have hcr : ¬Raises (fimCrCovers · a) (grants selected) := by
    rintro ⟨g, hg, hn⟩
    exact hn (hret g hg).1
  rw [fimComponents_eq]
  refine Returns.bind (returns_coveringCrs hcr) fun crs _ => Returns.bind ?_ fun _ _ => ?_
  · exact returns_ite (fun _ => returns_anyM fun g hg => (hret g hg).2) fun _ => ⟨_, rfl⟩
  · exact (returns_anyM fun p _ => returns_fimForbids_of hcr _ p).bind fun _ _ => ⟨_, rfl⟩

end

section

variable {a : AuthorizationActivity} {facts : List AuthorizationFact} {tenant : Option String}

theorem returns_evaluateAuthorization_of_windows
    (h : WindowsRead (select facts a.track tenant) a) :
    Returns (evaluateAuthorization a facts tenant) := by
  unfold evaluateAuthorization
  cases htrack : a.track with
  | account => exact returns_acctComponents_of_windows htrack (htrack ▸ h)
  | fim => exact returns_fimComponents_of_windows htrack (htrack ▸ h)

/-- The search for covering grants tests every grant. -/
theorem returns_findCoveringGrants_iff :
    Returns (findCoveringGrants a facts tenant) ↔ WindowsRead (select facts a.track tenant) a := by
  rw [findCoveringGrants_eq, windowsRead_iff]
  constructor
  · intro hret g hg
    by_contra hn
    exact not_returns_filterM ⟨g, hg, hn⟩ hret
  · exact returns_filterM

end

/-! ## One record, or none -/

/-- What the components say of coverage is what the search for covering grants finds: grants that
cover by themselves, one of them at least behind a scope, and with the linkage of the actor
exactly then. -/
def SingleRecord (a : AuthorizationActivity) (facts : List AuthorizationFact)
    (tenant : Option String) : Prop :=
  ∃ comps gs, evaluateAuthorization a facts tenant = .ok comps ∧
    findCoveringGrants a facts tenant = .ok gs ∧
    (comps.inScope = true → gs ≠ [] ∧ ∃ g ∈ gs, Covering a g) ∧
    (comps.inScope = true → comps.sanctionedOrRoutine = true) ∧
    (a.track = .account → (comps.inScope = true ↔
      (∃ g ∈ gs, Covering a g) ∧ actorLinked (select facts a.track tenant) a = true))

section

variable {selected : List AuthorizationFact} {a : AuthorizationActivity}

theorem acctCovers_iff (htrack : a.track = .account) :
    AcctCovers selected a ↔ ∃ g ∈ grants selected, covers selected a g = .ok true := by
  unfold AcctCovers Holds
  constructor
  · rintro (⟨g, hg, hcov⟩ | ⟨g, hg, hcov⟩ | ⟨g, hg, hcov⟩)
    · exact ⟨g, hg, (covers_account_iff htrack).mpr (Or.inl hcov)⟩
    · exact ⟨g, hg, (covers_account_iff htrack).mpr (Or.inr (Or.inl hcov))⟩
    · exact ⟨g, hg, (covers_account_iff htrack).mpr (Or.inr (Or.inr hcov))⟩
  · rintro ⟨g, hg, hcov⟩
    rcases (covers_account_iff htrack).mp hcov with hcov | hcov | hcov
    · exact Or.inl ⟨g, hg, hcov⟩
    · exact Or.inr (Or.inl ⟨g, hg, hcov⟩)
    · exact Or.inr (Or.inr ⟨g, hg, hcov⟩)

theorem sanctioned_of_acctCovers (h : AcctCovers selected a) :
    (∃ g ∈ grants selected, acctSanctions g a = true) ∨ Holds (acctRoutine · a) (grants selected) := by
  rcases h with ⟨g, hg, hcov⟩ | ⟨g, hg, hcov⟩ | hroutine
  · exact Or.inl ⟨g, hg, sanctions_of_ticketCovers hcov⟩
  · exact Or.inl ⟨g, hg, sanctions_of_acctBaselineCovers hcov⟩
  · exact Or.inr hroutine

theorem fimSanctions_of_cr {g : GrantFact} (h : fimCrCovers g a = .ok true) :
    fimSanctions g a = true := by
  obtain ⟨hcheck, -⟩ := guarded_eq_true h
  obtain ⟨⟨hclass, hok⟩, hmatch⟩ : ((g.grantClass == .changeTicket) = true ∧ grantOk g = true) ∧
      fimMatches g a = true := by
    simpa only [Bool.and_eq_true] using hcheck
  have hstatus : (g.status == .approved) = true := ((Bool.and_eq_true _ _).mp hok).1
  unfold fimSanctions
  simp [hmatch, hclass, hstatus]

theorem fimSanctions_of_baseline {g : GrantFact} (h : fimBaselineCovers g a = .ok true) :
    fimSanctions g a = true := by
  obtain ⟨hcheck, -⟩ := guarded_eq_true h
  obtain ⟨hclass, hmatch⟩ := (Bool.and_eq_true _ _).mp hcheck
  unfold fimSanctions
  simp [hmatch, hclass]

end

theorem singleRecord_of_windows {a : AuthorizationActivity} {facts : List AuthorizationFact}
    {tenant : Option String} (h : WindowsRead (select facts a.track tenant) a) :
    SingleRecord a facts tenant := by
  obtain ⟨comps, hcomps⟩ := returns_evaluateAuthorization_of_windows h
  obtain ⟨gs, hgs⟩ := returns_findCoveringGrants_iff.mpr h
  have hfound : ∀ g, g ∈ gs ↔ g ∈ grants (select facts a.track tenant) ∧
      covers (select facts a.track tenant) a g = .ok true := by
    rw [findCoveringGrants_eq] at hgs
    exact mem_of_filterM_eq_ok hgs
  have hsome : (∃ g ∈ grants (select facts a.track tenant),
      covers (select facts a.track tenant) a g = .ok true) ↔ ∃ g ∈ gs, Covering a g := by
    constructor
    · rintro ⟨g, hg, hcov⟩
      exact ⟨g, (hfound g).mpr ⟨hg, hcov⟩, covering_of_covers hcov⟩
    · rintro ⟨g, hg, -⟩
      exact ⟨g, (hfound g).mp hg⟩
  have hne : (∃ g ∈ gs, Covering a g) → gs ≠ [] ∧ ∃ g ∈ gs, Covering a g := by
    rintro ⟨g, hg, hcov⟩
    exact ⟨List.ne_nil_of_mem hg, g, hg, hcov⟩
  refine ⟨comps, gs, hcomps, hgs, ?_⟩
  unfold evaluateAuthorization at hcomps
  cases htrack : a.track with
  | account =>
    simp only [htrack] at hcomps hsome ⊢
    obtain ⟨hsanctioned, hscope, -, -⟩ := acctComponents_spec hcomps
    rw [acctCovers_iff htrack, hsome] at hscope
    refine ⟨fun hin => hne (hscope.mp hin).1, fun hin => ?_, fun _ => hscope⟩
    have hcovers := (acctCovers_iff htrack).mpr (hsome.mpr (hscope.mp hin).1)
    exact hsanctioned.mpr (sanctioned_of_acctCovers hcovers)
  | fim =>
    simp only [htrack] at hcomps hsome ⊢
    obtain ⟨crs, -, hsanctioned, hscope, -, -⟩ := fimComponents_spec hcomps
    refine ⟨fun hin => hne (hsome.mp ?_), fun hin => ?_, fun hne => by cases hne⟩
    · rcases (hscope.mp hin).1 with ⟨g, hg, hcov⟩ | ⟨g, hg, hcov⟩
      · exact ⟨g, hg, (covers_fim_iff htrack).mpr (Or.inl hcov)⟩
      · exact ⟨g, hg, (covers_fim_iff htrack).mpr (Or.inr hcov)⟩
    · rw [hsanctioned]
      rcases (hscope.mp hin).1 with ⟨g, hg, hcov⟩ | ⟨g, hg, hcov⟩
      · exact ⟨g, hg, fimSanctions_of_cr hcov⟩
      · exact ⟨g, hg, fimSanctions_of_baseline hcov⟩

/-- The nightly backup of a host. -/
def backup : AuthorizationActivity where
  track := .account
  host := some "db1"
  account := some "svc"
  action := some "backup"
  time := ⟨0, 0⟩
  trackFields := ⟨by decide, by decide, by decide⟩

def backupBaseline (id : String) (window : Option RecurringWindow) : AuthorizationFact :=
  .grant
    { id := id, track := .account, grantClass := .standingBaseline
      scope := { subject := some "svc", target := some "db1", action := some "backup",
                 recurringWindow := window }
      classLegality := plain_baseline }

end SocTalk.Authorization
