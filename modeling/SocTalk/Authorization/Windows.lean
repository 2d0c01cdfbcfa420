import SocTalk.Authorization.Engine

/-! The one way an evaluation raises: a recurring window whose text is no time of day.
With readable windows on every grant the evaluator is total. -/
namespace SocTalk.Authorization
open Py

/-- Both ends are times of day. -/
def RecurringWindow.Readable (w : RecurringWindow) : Prop :=
  Returns (parseHhmm w.start) ∧ Returns (parseHhmm w.end)

/-- Every grant's window, where there is one, is readable. -/
def WindowsReadable (facts : List AuthorizationFact) : Prop :=
  ∀ g ∈ grants facts, ∀ w, g.scope.recurringWindow = some w → w.Readable

theorem mem_grants {facts : List AuthorizationFact} {g : GrantFact} :
    g ∈ grants facts ↔ AuthorizationFact.grant g ∈ facts := by
  unfold grants
  rw [List.mem_filterMap]
  constructor
  · rintro ⟨f, hf, hg⟩
    cases f <;> simp_all
  · intro h
    exact ⟨_, h, rfl⟩

theorem WindowsReadable.select {facts : List AuthorizationFact} (h : WindowsReadable facts)
    (track : AuthorizationTrack) (tenant : Option String) :
    WindowsReadable (select facts track tenant) := by
  intro g hg
  refine h g (mem_grants.mpr ?_)
  exact (List.mem_filter.mp (mem_grants.mp hg)).1

theorem RecurringWindow.Readable.inWindow {w : RecurringWindow} (h : w.Readable) (t : DateTime) :
    Returns (inWindow t w) := by
  obtain ⟨⟨start, hs⟩, ⟨stop, he⟩⟩ := h
  unfold Authorization.inWindow
  rw [hs, he]
  exact returns_ite (fun _ => ⟨_, rfl⟩) fun _ => ⟨_, rfl⟩

section

variable {facts : List AuthorizationFact} (h : WindowsReadable facts)
include h

theorem returns_inForce {g : GrantFact} (hg : g ∈ grants facts) (t : DateTime) :
    Returns (inForce g t) := by
  have hw : Returns (inRecurringWindow g t) := by
    unfold inRecurringWindow
    split
    · simp
    · rename_i w hw
      exact (h g hg w hw).inWindow t
  unfold inForce
  exact hw.bind fun b _ => returns_ite (fun _ => ⟨_, rfl⟩) fun _ => ⟨_, rfl⟩

theorem returns_acctTicketCovers {g : GrantFact} (hg : g ∈ grants facts)
    (fs : List AuthorizationFact) (a : AuthorizationActivity) (env : String) :
    Returns (acctTicketCovers fs g a env) := by
  unfold acctTicketCovers
  refine returns_ite (fun _ => ?_) fun _ => ⟨_, rfl⟩
  exact (returns_inForce h hg a.time).bind fun b _ =>
    returns_ite (fun _ => ⟨_, rfl⟩) fun _ => ⟨_, rfl⟩

theorem returns_acctBaselineCovers {g : GrantFact} (hg : g ∈ grants facts)
    (a : AuthorizationActivity) : Returns (acctBaselineCovers g a) :=
  returns_ite (fun _ => returns_inForce h hg a.time) fun _ => ⟨_, rfl⟩

theorem returns_acctRoutine {g : GrantFact} (hg : g ∈ grants facts)
    (a : AuthorizationActivity) : Returns (acctRoutine g a) :=
  returns_ite (fun _ => returns_inForce h hg a.time) fun _ => ⟨_, rfl⟩

theorem returns_fimCrCovers {g : GrantFact} (hg : g ∈ grants facts)
    (a : AuthorizationActivity) : Returns (fimCrCovers g a) :=
  returns_ite (fun _ => returns_inForce h hg a.time) fun _ => ⟨_, rfl⟩

theorem returns_fimBaselineCovers {g : GrantFact} (hg : g ∈ grants facts)
    (a : AuthorizationActivity) : Returns (fimBaselineCovers g a) :=
  returns_ite (fun _ => returns_inForce h hg a.time) fun _ => ⟨_, rfl⟩

theorem returns_acctCovered (a : AuthorizationActivity) (env : String) :
    Returns (acctCovered facts a env) := by
  unfold acctCovered
  refine (returns_anyM fun g hg => returns_acctTicketCovers h hg facts a env).bind fun b _ => ?_
  refine returns_ite (fun _ => ⟨_, rfl⟩) fun _ => ?_
  refine (returns_anyM fun g hg => returns_acctBaselineCovers h hg a).bind fun b _ => ?_
  exact returns_ite (fun _ => ⟨_, rfl⟩) fun _ =>
    returns_anyM fun g hg => returns_acctRoutine h hg a

theorem returns_acctSanctioned (a : AuthorizationActivity) :
    Returns (acctSanctioned (grants facts) a) :=
  returns_ite (fun _ => ⟨_, rfl⟩) fun _ => returns_anyM fun _ hg => returns_acctRoutine h hg a

theorem returns_acctForbids (a : AuthorizationActivity)
    (asset account : Option EntityContextFact) (p : ProhibitionFact) :
    Returns (acctForbids facts a asset account p) := by
  unfold acctForbids
  -- The five guards return; only the emergency-change lookup evaluates windows.
  iterate 5
    refine returns_ite (fun _ => ⟨_, rfl⟩) fun _ => ?_
    try rw [pure_bind]
  refine returns_ite (fun _ => ?_) fun _ => ⟨_, rfl⟩
  refine Returns.bind (returns_anyM fun g hg => ?_) fun b _ => ⟨_, rfl⟩
  exact returns_ite (fun _ => returns_acctTicketCovers h hg facts a _) fun _ => ⟨_, rfl⟩

theorem returns_fimForbids (a : AuthorizationActivity) (configClass : String)
    (p : ProhibitionFact) : Returns (fimForbids facts a configClass p) := by
  unfold fimForbids
  iterate 3 refine returns_ite (fun _ => ⟨_, rfl⟩) fun _ => ?_
  refine returns_ite (fun _ => ?_) fun _ => ⟨_, rfl⟩
  refine Returns.bind (returns_anyM fun g hg => ?_) fun b _ => ⟨_, rfl⟩
  exact returns_ite (fun _ => returns_fimCrCovers h hg a) fun _ => ⟨_, rfl⟩

theorem returns_acctComponents (a : AuthorizationActivity) :
    Returns (acctComponents facts a) := by
  unfold acctComponents
  refine (returns_acctCovered h a _).bind fun covered _ => ?_
  refine (returns_anyM fun p _ => returns_acctForbids h a _ _ p).bind fun forbidden _ => ?_
  exact (returns_acctSanctioned h a).bind fun sanctioned _ => ⟨_, rfl⟩

theorem returns_fimCovered (a : AuthorizationActivity) (crs : List GrantFact) :
    Returns (fimCovered facts a crs) :=
  returns_ite (fun _ => returns_anyM fun _ hg => returns_fimBaselineCovers h hg a)
    fun _ => ⟨_, rfl⟩

theorem returns_fimComponents (a : AuthorizationActivity) :
    Returns (fimComponents facts a) := by
  unfold fimComponents
  refine (returns_filterM fun g hg => returns_fimCrCovers h hg a).bind fun crs _ => ?_
  refine (returns_fimCovered h a crs).bind fun covered _ => ?_
  exact (returns_anyM fun p _ => returns_fimForbids h a _ p).bind fun forbidden _ => ⟨_, rfl⟩

end

theorem returns_evaluateAuthorization {facts : List AuthorizationFact}
    (h : WindowsReadable facts) (a : AuthorizationActivity) (tenant : Option String) :
    Returns (evaluateAuthorization a facts tenant) := by
  unfold evaluateAuthorization
  have hs := h.select a.track tenant
  split
  · exact returns_fimComponents hs a
  · exact returns_acctComponents hs a

/-- The class derivation is total on contexts whose windows are readable. -/
theorem returns_deriveAuthzClass {context : Option AuthorizationContext}
    (h : ∀ c, context = some c → WindowsReadable c.facts) :
    Returns (deriveAuthzClass context) := by
  unfold deriveAuthzClass
  cases context with
  | none => exact ⟨_, rfl⟩
  | some c =>
    refine returns_ite (fun _ => ⟨_, rfl⟩) fun _ => ?_
    refine (returns_evaluateAuthorization (h c rfl) c.activity c.tenant).bind fun comps _ => ?_
    refine returns_ite (fun _ => ⟨_, rfl⟩) fun _ => ?_
    refine returns_ite (fun _ => ⟨_, rfl⟩) fun _ => ?_
    exact returns_ite (fun _ => ⟨_, rfl⟩) fun _ => ⟨_, rfl⟩

end SocTalk.Authorization
