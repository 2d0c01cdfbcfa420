import SocTalk.Authorization.Reordered
import SocTalk.Authorization.Windows

/-! When the order of the facts shows in an evaluation: only where a recurring window that cannot be
read lies behind a record that ends the search for coverage. -/
namespace SocTalk.Authorization
open Py Reorder

/-! ## Account track -/

section

variable (facts : List AuthorizationFact) (a : AuthorizationActivity)

def assetEnv : String := environmentOf (resolvedEntity facts .asset (a.host.getD ""))

def ticketCovers (g : GrantFact) : M Bool := acctTicketCovers facts g a (assetEnv facts a)

/-- Coverage by an emergency change. -/
def emergencyCovers (g : GrantFact) : M Bool :=
  if g.emergency then ticketCovers facts a g else pure false

def forbids (p : ProhibitionFact) : M Bool :=
  acctForbids facts a (resolvedEntity facts .asset (a.host.getD ""))
    (accountFact facts (a.account.getD "")) p

/-- The search for coverage ends, in whatever order, without reading an unreadable window. -/
def AcctClear : Prop :=
  ¬Raises (ticketCovers facts a) (grants facts) ∧
    (Holds (ticketCovers facts a) (grants facts) ∨
      ¬Raises (acctBaselineCovers · a) (grants facts) ∧
        (Holds (acctBaselineCovers · a) (grants facts) ∨
          ¬Raises (acctRoutine · a) (grants facts)))

/-- In whatever order, the evaluation reads an unreadable window. -/
def AcctBlocked : Prop :=
  Stuck (ticketCovers facts a) (grants facts) ∨
    (¬Raises (ticketCovers facts a) (grants facts) ∧ ¬Holds (ticketCovers facts a) (grants facts) ∧
      (Stuck (acctBaselineCovers · a) (grants facts) ∨
        ¬Raises (acctBaselineCovers · a) (grants facts) ∧
          ¬Holds (acctBaselineCovers · a) (grants facts) ∧
          Stuck (acctRoutine · a) (grants facts))) ∨
    (¬Holds (emergencyCovers facts a) (grants facts) ∧
      Stuck (forbids facts a) (prohibitions facts))

theorem acctComponents_eq : acctComponents facts a = (do
    let covered ← acctCovered facts a (assetEnv facts a)
    let forbidden ← (prohibitions facts).anyM (forbids facts a)
    let sanctioned ← acctSanctioned (grants facts) a
    return { sanctionedOrRoutine := sanctioned
             inScope := covered &&
               orgLinked facts (((accountFact facts (a.account.getD "")).bind (·.ownerOrg)).getD "")
                 (ownerOrgOf (resolvedEntity facts .asset (a.host.getD "")))
             actorGenuine := acctActorGenuine facts a
               (resolvedEntity facts .asset (a.host.getD "")) (accountFact facts (a.account.getD ""))
             policyAllowed := !forbidden }) := rfl

theorem forbids_eq (p : ProhibitionFact) : forbids facts a p = (do
    if p.forbidAction != a.action || p.priority != .high || p.waiverPresent then return false
    if p.forbidAccountType.isSome &&
        (accountFact facts (a.account.getD "")).bind (·.accountType) != p.forbidAccountType then
      return false
    if p.appliesTo.env.isSome && !(p.appliesTo.env.getD []).contains (assetEnv facts a) then
      return false
    if p.appliesTo.criticality.isSome && !(p.appliesTo.criticality.getD []).contains
        (criticalityOf (resolvedEntity facts .asset (a.host.getD ""))) then
      return false
    if p.appliesTo.dataClass.isSome && !(p.appliesTo.dataClass.getD []).contains
        (dataClassificationOf (resolvedEntity facts .asset (a.host.getD ""))) then
      return false
    if p.breakGlassException &&
        ((accountFact facts (a.account.getD "")).bind (·.breakGlass)).getD false then
      let covered ← (grants facts).anyM (emergencyCovers facts a)
      return !covered
    return true) := rfl

theorem raisesOnly_ticketCovers (g : GrantFact) :
    RaisesOnly .valueError (ticketCovers facts a g) := raisesOnly_acctTicketCovers facts g a _

theorem raisesOnly_emergencyCovers (g : GrantFact) :
    RaisesOnly .valueError (emergencyCovers facts a g) :=
  raisesOnly_ite (raisesOnly_ticketCovers facts a g) (raisesOnly_ok _ _)

theorem raisesOnly_forbids (p : ProhibitionFact) : RaisesOnly .valueError (forbids facts a p) :=
  raisesOnly_acctForbids facts a _ _ p

theorem returns_forbids (h : Returns ((grants facts).anyM (emergencyCovers facts a)))
    (p : ProhibitionFact) : Returns (forbids facts a p) := by
  rw [forbids_eq]
  iterate 5
    refine returns_ite (fun _ => ⟨_, rfl⟩) fun _ => ?_
    try rw [pure_bind]
  exact returns_ite (fun _ => h.bind fun b _ => ⟨_, rfl⟩) fun _ => ⟨_, rfl⟩

end

theorem sanctions_of_ticketCovers {facts : List AuthorizationFact} {a : AuthorizationActivity}
    {g : GrantFact} (h : ticketCovers facts a g = .ok true) : acctSanctions g a = true := by
  unfold ticketCovers acctTicketCovers at h
  split at h
  · rename_i hm
    simp only [acctMatches, Bool.and_eq_true] at hm
    obtain ⟨⟨hclass, hok⟩, ⟨-, hsubject⟩, haction⟩ := hm
    simp [acctSanctions, hclass, hok, hsubject, haction]
  · cases h

theorem sanctions_of_acctBaselineCovers {a : AuthorizationActivity} {g : GrantFact}
    (h : acctBaselineCovers g a = .ok true) : acctSanctions g a = true := by
  unfold acctBaselineCovers at h
  split at h
  · rename_i hm
    simp only [acctMatches, Bool.and_eq_true] at hm
    obtain ⟨hclass, ⟨-, hsubject⟩, haction⟩ := hm
    simp [acctSanctions, hclass, hsubject, haction]
  · cases h

theorem not_raises_emergency {facts : List AuthorizationFact} {a : AuthorizationActivity}
    (h : ¬Raises (ticketCovers facts a) (grants facts)) :
    ¬Raises (emergencyCovers facts a) (grants facts) := by
  rintro ⟨g, hg, hn⟩
  refine h ⟨g, hg, fun hr => hn ?_⟩
  exact returns_ite (fun _ => hr) fun _ => ⟨_, rfl⟩

section

variable {xs ys : List AuthorizationFact} (h : Same xs ys) (a : AuthorizationActivity)
include h

theorem ticketCovers_same : ticketCovers xs a = ticketCovers ys a := by
  funext g
  unfold ticketCovers assetEnv
  rw [environmentOf_same h, acctTicketCovers_same h]

theorem emergencyCovers_same : emergencyCovers xs a = emergencyCovers ys a := by
  funext g
  rw [emergencyCovers, emergencyCovers, ticketCovers_same h]

theorem coversTicket_same (hone : ¬Raises (ticketCovers xs a) (grants xs) ∨
    ¬Holds (ticketCovers xs a) (grants xs)) :
    (grants xs).anyM (ticketCovers xs a) = (grants ys).anyM (ticketCovers ys a) := by
  rw [(same_grants h).anyM (raisesOnly_ticketCovers xs a) hone,
    ticketCovers_same h]

theorem coversBaseline_same (hone : ¬Raises (acctBaselineCovers · a) (grants xs) ∨
    ¬Holds (acctBaselineCovers · a) (grants xs)) :
    (grants xs).anyM (acctBaselineCovers · a) = (grants ys).anyM (acctBaselineCovers · a) :=
  (same_grants h).anyM (fun g => raisesOnly_acctBaselineCovers g a) hone

theorem routine_same (hone : ¬Raises (acctRoutine · a) (grants xs) ∨
    ¬Holds (acctRoutine · a) (grants xs)) :
    (grants xs).anyM (acctRoutine · a) = (grants ys).anyM (acctRoutine · a) :=
  (same_grants h).anyM (fun g => raisesOnly_acctRoutine g a) hone

/-- Where emergency changes do not both cover and raise, no prohibition shows the order. -/
theorem forbids_same (hone : ¬Raises (emergencyCovers xs a) (grants xs) ∨
    ¬Holds (emergencyCovers xs a) (grants xs)) : forbids xs a = forbids ys a := by
  have hinner : (grants xs).anyM (emergencyCovers xs a) =
      (grants ys).anyM (emergencyCovers ys a) := by
    rw [(same_grants h).anyM (raisesOnly_emergencyCovers xs a) hone, emergencyCovers_same h a]
  have henv : assetEnv xs a = assetEnv ys a := environmentOf_same h _
  funext p
  rw [forbids_eq, forbids_eq, hinner, henv, accountType_same h, criticalityOf_same h,
    dataClassificationOf_same h, breakGlass_same h]

end

section

variable {facts : List AuthorizationFact} {a : AuthorizationActivity}

theorem acctCovered_eq : acctCovered facts a (assetEnv facts a) = (do
    if ← (grants facts).anyM (ticketCovers facts a) then return true
    if ← (grants facts).anyM (acctBaselineCovers · a) then return true
    (grants facts).anyM (acctRoutine · a)) := rfl

theorem acctCovered_of_ticket (h : (grants facts).anyM (ticketCovers facts a) = .ok true) :
    acctCovered facts a (assetEnv facts a) = .ok true := by
  rw [acctCovered_eq, h]
  rfl

theorem acctCovered_of_no_ticket (h : (grants facts).anyM (ticketCovers facts a) = .ok false) :
    acctCovered facts a (assetEnv facts a) = (do
      if ← (grants facts).anyM (acctBaselineCovers · a) then return true
      (grants facts).anyM (acctRoutine · a)) := by
  rw [acctCovered_eq, h]
  rfl

theorem acctCovered_of_baseline (h : (grants facts).anyM (ticketCovers facts a) = .ok false)
    (hb : (grants facts).anyM (acctBaselineCovers · a) = .ok true) :
    acctCovered facts a (assetEnv facts a) = .ok true := by
  rw [acctCovered_of_no_ticket h, hb]
  rfl

theorem acctCovered_of_no_baseline (h : (grants facts).anyM (ticketCovers facts a) = .ok false)
    (hb : (grants facts).anyM (acctBaselineCovers · a) = .ok false) :
    acctCovered facts a (assetEnv facts a) = (grants facts).anyM (acctRoutine · a) := by
  rw [acctCovered_of_no_ticket h, hb]
  rfl

theorem acctSanctioned_of_sanctions {g : GrantFact} (hg : g ∈ grants facts)
    (h : acctSanctions g a = true) : acctSanctioned (grants facts) a = .ok true := by
  have hany : (grants facts).any (acctSanctions · a) = true := List.any_eq_true.mpr ⟨g, hg, h⟩
  rw [acctSanctioned, if_pos hany]
  rfl

theorem returns_acctComponents_of (hc : Returns (acctCovered facts a (assetEnv facts a)))
    (hf : Returns ((prohibitions facts).anyM (forbids facts a)))
    (hs : Returns (acctSanctioned (grants facts) a)) : Returns (acctComponents facts a) := by
  rw [acctComponents_eq]
  exact hc.bind fun _ _ => hf.bind fun _ _ => hs.bind fun _ _ => ⟨_, rfl⟩

theorem not_returns_of_acctCovered (h : ¬Returns (acctCovered facts a (assetEnv facts a))) :
    ¬Returns (acctComponents facts a) := by
  rw [acctComponents_eq, returns_bind_iff]
  rintro ⟨covered, hc, -⟩
  exact h ⟨covered, hc⟩

theorem not_returns_of_forbids (h : ¬Returns ((prohibitions facts).anyM (forbids facts a))) :
    ¬Returns (acctComponents facts a) := by
  rw [acctComponents_eq, returns_bind_iff]
  rintro ⟨covered, -, hrest⟩
  obtain ⟨forbidden, hf, -⟩ := (returns_bind_iff _ _).mp hrest
  exact h ⟨forbidden, hf⟩

/-- A blocked evaluation raises. -/
theorem not_returns_acctComponents (h : AcctBlocked facts a) :
    ¬Returns (acctComponents facts a) := by
  rcases h with hstuck | ⟨hr, hh, hrest⟩ | ⟨-, hstuck⟩
  · refine not_returns_of_acctCovered fun hret => not_returns_anyM hstuck ?_
    rw [acctCovered_eq, returns_bind_iff] at hret
    obtain ⟨b, hb, -⟩ := hret
    exact ⟨b, hb⟩
  · refine not_returns_of_acctCovered ?_
    rcases hrest with hstuck | ⟨hr', hh', hstuck⟩
    · rw [acctCovered_of_no_ticket (anyM_false hr hh), returns_bind_iff]
      rintro ⟨b, hb, -⟩
      exact not_returns_anyM hstuck ⟨b, hb⟩
    · rw [acctCovered_of_no_baseline (anyM_false hr hh) (anyM_false hr' hh')]
      exact not_returns_anyM hstuck
  · exact not_returns_of_forbids (not_returns_anyM hstuck)

end

section

variable {facts : List AuthorizationFact} {a : AuthorizationActivity} (hc : AcctClear facts a)
include hc

/-- A covering ticket or baseline sanctions, so without a sanction the search for coverage came to
the routine sightings. -/
theorem not_raises_routine (hs : ¬(grants facts).any (acctSanctions · a) = true) :
    ¬Raises (acctRoutine · a) (grants facts) := by
  have hnone : ∀ g ∈ grants facts, ¬acctSanctions g a = true := fun g hg hsg =>
    hs (List.any_eq_true.mpr ⟨g, hg, hsg⟩)
  have ht : ¬Holds (ticketCovers facts a) (grants facts) := fun ⟨g, hg, hcov⟩ =>
    hnone g hg (sanctions_of_ticketCovers hcov)
  have hb : ¬Holds (acctBaselineCovers · a) (grants facts) := fun ⟨g, hg, hcov⟩ =>
    hnone g hg (sanctions_of_acctBaselineCovers hcov)
  exact (hc.2.resolve_left ht).2.resolve_left hb

theorem returns_acctCovered_of_clear : Returns (acctCovered facts a (assetEnv facts a)) := by
  obtain ⟨ht, hrest⟩ := hc
  by_cases hh : Holds (ticketCovers facts a) (grants facts)
  · exact ⟨true, acctCovered_of_ticket (anyM_true ht hh)⟩
  · obtain ⟨hb, hrest⟩ := hrest.resolve_left hh
    by_cases hh' : Holds (acctBaselineCovers · a) (grants facts)
    · exact ⟨true, acctCovered_of_baseline (anyM_false ht hh) (anyM_true hb hh')⟩
    · rw [acctCovered_of_no_baseline (anyM_false ht hh) (anyM_false hb hh')]
      exact returns_anyM_of_not_raises (hrest.resolve_left hh')

theorem returns_acctComponents_of_clear : Returns (acctComponents facts a) := by
  have he := returns_anyM_of_not_raises (not_raises_emergency hc.1)
  refine returns_acctComponents_of (returns_acctCovered_of_clear hc)
    (returns_anyM fun p _ => returns_forbids facts a he p) ?_
  unfold acctSanctioned
  exact returns_ite (fun _ => ⟨true, rfl⟩) fun hs =>
    returns_anyM_of_not_raises (not_raises_routine hc hs)

end

section

variable {xs ys : List AuthorizationFact} (h : Same xs ys) {a : AuthorizationActivity}
include h

theorem acctCovered_same (hc : AcctClear xs a) :
    acctCovered xs a (assetEnv xs a) = acctCovered ys a (assetEnv ys a) := by
  obtain ⟨ht, hrest⟩ := hc
  have hticket := coversTicket_same h a (Or.inl ht)
  by_cases hh : Holds (ticketCovers xs a) (grants xs)
  · have htrue := anyM_true ht hh
    rw [acctCovered_of_ticket htrue, acctCovered_of_ticket (hticket ▸ htrue)]
  · have hfalse := anyM_false ht hh
    obtain ⟨hb, hrest⟩ := hrest.resolve_left hh
    have hbase := coversBaseline_same h a (Or.inl hb)
    by_cases hh' : Holds (acctBaselineCovers · a) (grants xs)
    · have htrue := anyM_true hb hh'
      rw [acctCovered_of_baseline hfalse htrue,
        acctCovered_of_baseline (hticket ▸ hfalse) (hbase ▸ htrue)]
    · have hfalse' := anyM_false hb hh'
      rw [acctCovered_of_no_baseline hfalse hfalse',
        acctCovered_of_no_baseline (hticket ▸ hfalse) (hbase ▸ hfalse'),
        routine_same h a (Or.inl (hrest.resolve_left hh'))]

theorem acctSanctioned_same (hc : AcctClear xs a) :
    acctSanctioned (grants xs) a = acctSanctioned (grants ys) a := by
  unfold acctSanctioned
  rw [← (same_grants h).any]
  by_cases hs : (grants xs).any (acctSanctions · a) = true
  · rw [if_pos hs, if_pos hs]
  · rw [if_neg hs, if_neg hs]
    exact routine_same h a (Or.inl (not_raises_routine hc hs))

/-- A clear evaluation gives one result in every order. -/
theorem acctComponents_same (hc : AcctClear xs a) : acctComponents xs a = acctComponents ys a := by
  have he := not_raises_emergency hc.1
  have hforbids := forbids_same h a (Or.inl he)
  have hreturns : ¬Raises (forbids xs a) (prohibitions xs) := by
    rintro ⟨p, -, hn⟩
    exact hn (returns_forbids xs a (returns_anyM_of_not_raises he) p)
  have hany : (prohibitions xs).anyM (forbids xs a) = (prohibitions ys).anyM (forbids ys a) := by
    rw [(same_prohibitions h).anyM (raisesOnly_forbids xs a) (Or.inl hreturns),
      hforbids]
  rw [acctComponents_eq, acctComponents_eq, acctCovered_same h hc, hany, acctSanctioned_same h hc,
    orgLinked_same h, accountOrg_same h, ownerOrgOf_same h, acctActorGenuine_same h]

theorem acctBlocked_same (hb : AcctBlocked xs a) : AcctBlocked ys a := by
  unfold AcctBlocked at hb ⊢
  have hg := same_grants h
  rw [← ticketCovers_same h, ← emergencyCovers_same h, ← hg.stuck, ← hg.raises, ← hg.holds,
    ← hg.stuck, ← hg.raises, ← hg.holds, ← hg.stuck, ← hg.holds]
  rcases hb with hb | hb | ⟨hno, hb⟩
  · exact Or.inl hb
  · exact Or.inr (Or.inl hb)
  · refine Or.inr (Or.inr ⟨hno, ?_⟩)
    rw [← forbids_same h a (Or.inr hno)]
    exact (same_prohibitions h).stuck.mp hb

end

section

variable {xs : List AuthorizationFact} {a : AuthorizationActivity}

theorem returns_forbids_of_ticket {ys : List AuthorizationFact} (h : Same xs ys)
    (ht : ¬Raises (ticketCovers xs a) (grants xs)) :
    Returns ((prohibitions ys).anyM (forbids ys a)) := by
  rw [(same_grants h).raises, ticketCovers_same h] at ht
  have he := returns_anyM_of_not_raises (not_raises_emergency ht)
  exact returns_anyM fun p _ => returns_forbids ys a he p

/-- With an unreadable window in front of what it hides behind, the evaluation raises. -/
theorem exists_raising (hc : ¬AcctClear xs a) :
    ∃ f ∈ xs, ¬Returns (acctComponents (f :: xs) a) := by
  by_cases ht : Raises (ticketCovers xs a) (grants xs)
  · obtain ⟨g, hg, hn⟩ := ht
    have hf := mem_grants.mp hg
    refine ⟨_, hf, not_returns_of_acctCovered fun hret => ?_⟩
    rw [acctCovered_eq, returns_bind_iff, ← ticketCovers_same (same_cons hf)] at hret
    obtain ⟨b, hret, -⟩ := hret
    exact not_returns_anyM_cons hn ⟨b, hret⟩
  have hnt : ¬Holds (ticketCovers xs a) (grants xs) := fun hh => hc ⟨ht, Or.inl hh⟩
  have hfalse := anyM_false ht hnt
  by_cases hr : Raises (acctBaselineCovers · a) (grants xs)
  · obtain ⟨g, hg, hn⟩ := hr
    have hf := mem_grants.mp hg
    refine ⟨_, hf, not_returns_of_acctCovered fun hret => ?_⟩
    rw [coversTicket_same (same_cons hf) a (Or.inl ht)] at hfalse
    rw [acctCovered_of_no_ticket hfalse, returns_bind_iff] at hret
    obtain ⟨b, hret, -⟩ := hret
    exact not_returns_anyM_cons (p := (acctBaselineCovers · a)) hn ⟨b, hret⟩
  · have hnb : ¬Holds (acctBaselineCovers · a) (grants xs) := fun hh =>
      hc ⟨ht, Or.inr ⟨hr, Or.inl hh⟩⟩
    have hrr : Raises (acctRoutine · a) (grants xs) := by
      by_contra hnr
      exact hc ⟨ht, Or.inr ⟨hr, Or.inr hnr⟩⟩
    obtain ⟨g, hg, hn⟩ := hrr
    have hf := mem_grants.mp hg
    have hfalse' := anyM_false hr hnb
    refine ⟨_, hf, not_returns_of_acctCovered fun hret => ?_⟩
    rw [coversTicket_same (same_cons hf) a (Or.inl ht)] at hfalse
    rw [coversBaseline_same (same_cons hf) a (Or.inl hr)] at hfalse'
    rw [acctCovered_of_no_baseline hfalse hfalse'] at hret
    exact not_returns_anyM_cons (p := (acctRoutine · a)) hn hret

/-- With the right records in front, the evaluation returns. -/
theorem exists_returning (hc : ¬AcctClear xs a) (hb : ¬AcctBlocked xs a) :
    ∃ zs, (∀ f ∈ zs, f ∈ xs) ∧ Returns (acctComponents (zs ++ xs) a) := by
  by_cases ht : Raises (ticketCovers xs a) (grants xs)
  · have hh : Holds (ticketCovers xs a) (grants xs) := by
      by_contra hn
      exact hb (Or.inl ⟨ht, hn⟩)
    by_cases he : Holds (emergencyCovers xs a) (grants xs)
    · -- An emergency change that covers answers every break-glass question, too.
      obtain ⟨g, hg, hcov⟩ := he
      have hf := mem_grants.mp hg
      have hticket : ticketCovers xs a g = .ok true := by
        unfold emergencyCovers at hcov
        split at hcov
        · exact hcov
        · cases hcov
      refine ⟨[.grant g], by simpa using hf, ?_⟩
      rw [List.singleton_append]
      have hsame := same_cons hf
      refine returns_acctComponents_of ⟨true, acctCovered_of_ticket (anyM_cons_true ?_)⟩ ?_
        ⟨true, acctSanctioned_of_sanctions (g := g) ?_ (sanctions_of_ticketCovers hticket)⟩
      · rw [← ticketCovers_same hsame]
        exact hticket
      · refine returns_anyM fun p _ => returns_forbids _ a ⟨true, anyM_cons_true ?_⟩ p
        rw [← emergencyCovers_same hsame]
        exact hcov
      · exact mem_grants.mpr (by simp)
    · obtain ⟨g, hg, hticket⟩ := hh
      have hf := mem_grants.mp hg
      have hfstuck : ¬Stuck (forbids xs a) (prohibitions xs) := fun hs =>
        hb (Or.inr (Or.inr ⟨he, hs⟩))
      by_cases hr : Raises (forbids xs a) (prohibitions xs)
      · have hp : Holds (forbids xs a) (prohibitions xs) := by
          by_contra hn
          exact hfstuck ⟨hr, hn⟩
        obtain ⟨p, hp, hforbids⟩ := hp
        have hpf : AuthorizationFact.prohibition p ∈ xs := by
          obtain ⟨f, hf, hfp⟩ := List.mem_filterMap.mp hp
          cases f <;> simp_all
        have hzs : ∀ f ∈ [AuthorizationFact.grant g, .prohibition p], f ∈ xs := by
          simp [hf, hpf]
        refine ⟨_, hzs, ?_⟩
        have hsame := same_append _ hzs
        refine returns_acctComponents_of ⟨true, acctCovered_of_ticket (anyM_cons_true ?_)⟩
          ⟨true, anyM_cons_true ?_⟩
          ⟨true, acctSanctioned_of_sanctions (g := g) ?_ (sanctions_of_ticketCovers hticket)⟩
        · rw [← ticketCovers_same hsame]
          exact hticket
        · rw [← forbids_same hsame a (Or.inr he)]
          exact hforbids
        · exact mem_grants.mpr (by simp)
      · have hzs : ∀ f ∈ [AuthorizationFact.grant g], f ∈ xs := by simp [hf]
        refine ⟨_, hzs, ?_⟩
        have hsame := same_append _ hzs
        refine returns_acctComponents_of ⟨true, acctCovered_of_ticket (anyM_cons_true ?_)⟩ ?_
          ⟨true, acctSanctioned_of_sanctions (g := g) ?_ (sanctions_of_ticketCovers hticket)⟩
        · rw [← ticketCovers_same hsame]
          exact hticket
        · rw [(same_prohibitions hsame).raises, forbids_same hsame a (Or.inr he)] at hr
          exact returns_anyM_of_not_raises hr
        · exact mem_grants.mpr (by simp)
  have hnt : ¬Holds (ticketCovers xs a) (grants xs) := fun hh => hc ⟨ht, Or.inl hh⟩
  have hfalse := anyM_false ht hnt
  by_cases hr : Raises (acctBaselineCovers · a) (grants xs)
  · have hh : Holds (acctBaselineCovers · a) (grants xs) := by
      by_contra hn
      exact hb (Or.inr (Or.inl ⟨ht, hnt, Or.inl ⟨hr, hn⟩⟩))
    obtain ⟨g, hg, hcov⟩ := hh
    have hf := mem_grants.mp hg
    have hsame := same_cons hf
    refine ⟨[.grant g], by simpa using hf, ?_⟩
    rw [List.singleton_append]
    rw [coversTicket_same hsame a (Or.inl ht)] at hfalse
    refine returns_acctComponents_of ⟨true, acctCovered_of_baseline hfalse (anyM_cons_true hcov)⟩
      (returns_forbids_of_ticket hsame ht)
      ⟨true, acctSanctioned_of_sanctions (g := g) ?_ (sanctions_of_acctBaselineCovers hcov)⟩
    exact mem_grants.mpr (by simp)
  · have hnb : ¬Holds (acctBaselineCovers · a) (grants xs) := fun hh =>
      hc ⟨ht, Or.inr ⟨hr, Or.inl hh⟩⟩
    have hrr : Raises (acctRoutine · a) (grants xs) := by
      by_contra hnr
      exact hc ⟨ht, Or.inr ⟨hr, Or.inr hnr⟩⟩
    have hh : Holds (acctRoutine · a) (grants xs) := by
      by_contra hn
      exact hb (Or.inr (Or.inl ⟨ht, hnt, Or.inr ⟨hr, hnb, hrr, hn⟩⟩))
    obtain ⟨g, hg, hcov⟩ := hh
    have hf := mem_grants.mp hg
    have hsame := same_cons hf
    have hfalse' := anyM_false hr hnb
    refine ⟨[.grant g], by simpa using hf, ?_⟩
    rw [List.singleton_append]
    rw [coversTicket_same hsame a (Or.inl ht)] at hfalse
    rw [coversBaseline_same hsame a (Or.inl hr)] at hfalse'
    have hroutine : (grants (.grant g :: xs)).anyM (acctRoutine · a) = .ok true :=
      anyM_cons_true hcov
    refine returns_acctComponents_of ⟨true, ?_⟩ (returns_forbids_of_ticket hsame ht)
      (returns_ite (fun _ => ⟨true, rfl⟩) fun _ => ⟨true, hroutine⟩)
    rw [acctCovered_of_no_baseline hfalse hfalse', hroutine]

end

/-! ## File-integrity track -/

section

variable (facts : List AuthorizationFact) (a : AuthorizationActivity)

def pathClass : String := configClassOf (resolvedEntity facts .watchedPath (a.path.getD ""))

def FimClear : Prop :=
  ¬Raises (fimCrCovers · a) (grants facts) ∧
    (Holds (fimCrCovers · a) (grants facts) ∨ ¬Raises (fimBaselineCovers · a) (grants facts))

/-- Every change request is looked at, so one unreadable window among them raises in any order. -/
def FimBlocked : Prop :=
  Raises (fimCrCovers · a) (grants facts) ∨
    (¬Holds (fimCrCovers · a) (grants facts) ∧ Stuck (fimBaselineCovers · a) (grants facts))

theorem fimComponents_eq : fimComponents facts a = (do
    let coveringCrs ← (grants facts).filterM (fimCrCovers · a)
    let covered ← fimCovered facts a coveringCrs
    let forbidden ← (prohibitions facts).anyM (fimForbids facts a (pathClass facts a))
    return { sanctionedOrRoutine := (grants facts).any (fimSanctions · a)
             inScope := covered &&
               !(freezes facts).any (fimFreezeBlocks (pathClass facts a) coveringCrs a.time)
             actorGenuine := !compromisedValues.contains
               (statusOf (resolvedEntity facts .watchedPath (a.path.getD "")))
             policyAllowed := !forbidden }) := rfl

end

section

variable {facts : List AuthorizationFact} {a : AuthorizationActivity}

theorem isEmpty_of_filterM {crs : List GrantFact}
    (h : (grants facts).filterM (fimCrCovers · a) = .ok crs) :
    crs.isEmpty = true ↔ ¬Holds (fimCrCovers · a) (grants facts) := by
  rw [List.isEmpty_iff, List.eq_nil_iff_forall_not_mem]
  constructor
  · rintro hnil ⟨g, hg, hcov⟩
    exact hnil g ((mem_of_filterM_eq_ok h g).mpr ⟨hg, hcov⟩)
  · intro hn g hg
    exact hn ⟨g, (mem_of_filterM_eq_ok h g).mp hg⟩

theorem returns_coveringCrs (h : ¬Raises (fimCrCovers · a) (grants facts)) :
    ∃ crs, (grants facts).filterM (fimCrCovers · a) = .ok crs :=
  returns_filterM fun g hg => by_contra fun hn => h ⟨g, hg, hn⟩

theorem returns_fimForbids_of (h : ¬Raises (fimCrCovers · a) (grants facts)) (configClass : String)
    (p : ProhibitionFact) : Returns (fimForbids facts a configClass p) := by
  unfold fimForbids
  iterate 3 refine returns_ite (fun _ => ⟨_, rfl⟩) fun _ => ?_
  refine returns_ite (fun _ => ?_) fun _ => ⟨_, rfl⟩
  refine Returns.bind (returns_anyM fun g hg => ?_) fun b _ => ⟨_, rfl⟩
  exact returns_ite (fun _ => by_contra fun hn => h ⟨g, hg, hn⟩) fun _ => ⟨_, rfl⟩

theorem fimFreezeBlocks_same {crs crs' : List GrantFact} (hs : Same crs crs')
    (configClass : String) (t : DateTime) :
    fimFreezeBlocks configClass crs t = fimFreezeBlocks configClass crs' t := by
  funext fr
  rw [fimFreezeBlocks, fimFreezeBlocks, hs.any]

theorem not_returns_fimComponents (h : FimBlocked facts a) : ¬Returns (fimComponents facts a) := by
  rw [fimComponents_eq, returns_bind_iff]
  rintro ⟨crs, hcrs, hrest⟩
  rcases h with hr | ⟨hn, hstuck⟩
  · exact not_returns_filterM hr ⟨crs, hcrs⟩
  · obtain ⟨covered, hcov, -⟩ := (returns_bind_iff _ _).mp hrest
    rw [fimCovered, if_pos ((isEmpty_of_filterM hcrs).mpr hn)] at hcov
    exact not_returns_anyM hstuck ⟨covered, hcov⟩

end

section

variable {xs ys : List AuthorizationFact} (h : Same xs ys) {a : AuthorizationActivity}
include h

theorem fimForbids_same (hc : ¬Raises (fimCrCovers · a) (grants xs)) (configClass : String) :
    fimForbids xs a configClass = fimForbids ys a configClass := by
  have hinner : ((grants xs).anyM fun g => if g.emergency then fimCrCovers g a else pure false) =
      (grants ys).anyM fun g => if g.emergency then fimCrCovers g a else pure false := by
    refine (same_grants h).anyM (e := .valueError)
      (fun g => raisesOnly_ite (raisesOnly_fimCrCovers g a) (raisesOnly_ok _ _)) (Or.inl ?_)
    rintro ⟨g, hg, hn⟩
    exact hc ⟨g, hg, fun hr => hn (returns_ite (fun _ => hr) fun _ => ⟨_, rfl⟩)⟩
  funext p
  unfold fimForbids
  rw [hinner]

theorem fimComponents_same (hc : FimClear xs a) : fimComponents xs a = fimComponents ys a := by
  obtain ⟨hr, hrest⟩ := hc
  have hr' := hr
  rw [(same_grants h).raises] at hr'
  obtain ⟨crs, hcrs⟩ := returns_coveringCrs hr
  obtain ⟨crs', hcrs'⟩ := returns_coveringCrs hr'
  have hsame : Same crs crs' := by
    intro g
    rw [mem_of_filterM_eq_ok hcrs, mem_of_filterM_eq_ok hcrs', same_grants h g]
  have hcovered : fimCovered xs a crs = fimCovered ys a crs' := by
    unfold fimCovered
    rw [hsame.isEmpty]
    by_cases hnil : crs'.isEmpty = true
    · have hnone := (isEmpty_of_filterM hcrs).mp (hsame.isEmpty.trans hnil)
      rw [if_pos hnil, if_pos hnil]
      exact (same_grants h).anyM (fun g => raisesOnly_fimBaselineCovers g a)
        (Or.inl (hrest.resolve_left hnone))
    · rw [if_neg hnil, if_neg hnil]
  have hclass : pathClass xs a = pathClass ys a := configClassOf_same h _
  have hforbidden : (prohibitions xs).anyM (fimForbids xs a (pathClass xs a)) =
      (prohibitions ys).anyM (fimForbids ys a (pathClass ys a)) := by
    rw [← hclass, ← fimForbids_same h hr]
    exact (same_prohibitions h).anyM (fun p => raisesOnly_fimForbids xs a _ p)
      (Or.inl fun ⟨p, _, hn⟩ => hn (returns_fimForbids_of hr _ p))
  rw [fimComponents_eq, fimComponents_eq, hcrs, hcrs']
  show (fimCovered xs a crs >>= _) = (fimCovered ys a crs' >>= _)
  rw [hcovered, hforbidden, (same_grants h).any, hclass, fimFreezeBlocks_same hsame,
    (same_freezes h).any, statusOf_watchedPath_same h]

theorem fimBlocked_same (hb : FimBlocked xs a) : FimBlocked ys a := by
  unfold FimBlocked at hb ⊢
  rwa [← (same_grants h).raises, ← (same_grants h).holds, ← (same_grants h).stuck]

end

section

variable {xs : List AuthorizationFact} {a : AuthorizationActivity}

/-- Where neither holds, change requests decide nothing and baselines are split. -/
theorem fim_split (hc : ¬FimClear xs a) (hb : ¬FimBlocked xs a) :
    (¬Raises (fimCrCovers · a) (grants xs) ∧ ¬Holds (fimCrCovers · a) (grants xs)) ∧
      Raises (fimBaselineCovers · a) (grants xs) ∧ Holds (fimBaselineCovers · a) (grants xs) := by
  have hr : ¬Raises (fimCrCovers · a) (grants xs) := fun hr => hb (Or.inl hr)
  have hn : ¬Holds (fimCrCovers · a) (grants xs) := fun hh => hc ⟨hr, Or.inl hh⟩
  have hbr : Raises (fimBaselineCovers · a) (grants xs) := by
    by_contra hnr
    exact hc ⟨hr, Or.inr hnr⟩
  refine ⟨⟨hr, hn⟩, hbr, ?_⟩
  by_contra hnh
  exact hb (Or.inr ⟨hn, hbr, hnh⟩)

theorem fimCovered_front {g : GrantFact} (hg : g ∈ grants xs)
    (hr : ¬Raises (fimCrCovers · a) (grants xs)) (hn : ¬Holds (fimCrCovers · a) (grants xs)) :
    ∃ crs, (grants (.grant g :: xs)).filterM (fimCrCovers · a) = .ok crs ∧
      fimCovered (.grant g :: xs) a crs = (g :: grants xs).anyM (fimBaselineCovers · a) := by
  have hsame := same_cons (mem_grants.mp hg)
  rw [(same_grants hsame).raises] at hr
  rw [(same_grants hsame).holds] at hn
  obtain ⟨crs, hcrs⟩ := returns_coveringCrs hr
  refine ⟨crs, hcrs, ?_⟩
  rw [fimCovered, if_pos ((isEmpty_of_filterM hcrs).mpr hn)]
  rfl

theorem exists_raising_fim (hc : ¬FimClear xs a) (hb : ¬FimBlocked xs a) :
    ∃ f ∈ xs, ¬Returns (fimComponents (f :: xs) a) := by
  obtain ⟨⟨hr, hn⟩, ⟨g, hg, hraise⟩, -⟩ := fim_split hc hb
  refine ⟨_, mem_grants.mp hg, fun hret => ?_⟩
  obtain ⟨crs, hcrs, hcov⟩ := fimCovered_front hg hr hn
  rw [fimComponents_eq, hcrs] at hret
  obtain ⟨covered, hcovered, -⟩ :=
    (returns_bind_iff (fimCovered (.grant g :: xs) a crs) _).mp hret
  rw [hcov] at hcovered
  exact not_returns_anyM_cons (p := (fimBaselineCovers · a)) hraise ⟨covered, hcovered⟩

theorem exists_returning_fim (hc : ¬FimClear xs a) (hb : ¬FimBlocked xs a) :
    ∃ zs, (∀ f ∈ zs, f ∈ xs) ∧ Returns (fimComponents (zs ++ xs) a) := by
  obtain ⟨⟨hr, hn⟩, -, g, hg, hcover⟩ := fim_split hc hb
  have hf := mem_grants.mp hg
  refine ⟨[.grant g], by simpa using hf, ?_⟩
  rw [List.singleton_append]
  obtain ⟨crs, hcrs, hcov⟩ := fimCovered_front hg hr hn
  rw [anyM_cons_true (p := (fimBaselineCovers · a)) hcover] at hcov
  rw [(same_grants (same_cons hf)).raises] at hr
  rw [fimComponents_eq, hcrs]
  refine Returns.bind ⟨crs, rfl⟩ fun crs' hcrs' => ?_
  obtain rfl : crs = crs' := Except.ok.inj hcrs'
  exact Returns.bind ⟨true, hcov⟩ fun _ _ =>
    (returns_anyM fun p _ => returns_fimForbids_of hr _ p).bind fun _ _ => ⟨_, rfl⟩

end

end SocTalk.Authorization
