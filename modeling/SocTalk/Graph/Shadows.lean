import SocTalk.Graph.Run

/-! Policies that are not active are audited and change no run. -/
namespace SocTalk.Graph
open Py Authorization TriagePolicy

/-- The state without what is kept for the audit alone. -/
def GraphState.unaudited (s : GraphState) : GraphState :=
  { s with triagePolicyShadow := [], audit := [] }

@[simp] theorem toDict_unaudited (s : GraphState) : s.unaudited.toDict = s.toDict := rfl

/-- A result without what its state keeps for the audit. -/
def unauditedResult (x : M (GraphState × Place)) : M (GraphState × Place) :=
  x.map fun r => (r.1.unaudited, r.2)

/-- The same setup, but for policies that are not active. -/
structure SameActive (S S' : Setup) : Prop where
  active : S.registry.filter (·.status = .active) = S'.registry.filter (·.status = .active)
  validate : S.validate = S'.validate
  dumpContext : S.dumpContext = S'.dumpContext
  budgetEnv : S.budgetEnv = S'.budgetEnv

theorem SameActive.refl (S : Setup) : SameActive S S := ⟨rfl, rfl, rfl, rfl⟩

theorem find?_active {reg reg' : List TriagePolicy}
    (h : reg.filter (·.status = .active) = reg'.filter (·.status = .active)) (t : Traits) :
    reg.find? (fun pb => pb.status = .active && pb.matchesTraits t) =
      reg'.find? (fun pb => pb.status = .active && pb.matchesTraits t) := by
  have hfilter : ∀ l : List TriagePolicy,
      l.find? (fun pb => pb.status = .active && pb.matchesTraits t) =
        (l.filter (·.status = .active)).find? (·.matchesTraits t) := by
    intro l
    rw [List.find?_filter]
    congr 1
    funext pb
    cases hs : decide (pb.status = .active) <;> simp
  rw [hfilter, hfilter, h]

variable {S S' : Setup}

theorem matchTriagePolicy_active (h : SameActive S S') (investigation : Value) :
    matchTriagePolicy S.registry investigation = matchTriagePolicy S'.registry investigation := by
  unfold matchTriagePolicy
  cases traitsOf investigation with
  | error e => rfl
  | ok t =>
    have hfind := find?_active h.active t
    change Except.ok _ = Except.ok _
    rw [hfind]

/-! ## Nodes -/

theorem unaudited_stashVetoes (s : GraphState) (p : TriagePolicy) :
    (stashVetoes s p).map GraphState.unaudited = stashVetoes s.unaudited p := by
  unfold stashVetoes
  have hinvestigation : investigationOf s.unaudited = investigationOf s := rfl
  rw [hinvestigation]
  split
  · cases operationalCloseVetoes (investigationOf s) p.appliesTo.ruleGroups <;> rfl
  · rfl

theorem unaudited_resolve (h : SameActive S S') (s : GraphState) :
    (resolveTriagePolicyNode S s).map GraphState.unaudited =
      (resolveTriagePolicyNode S' s.unaudited).map GraphState.unaudited := by
  have hinvestigation : investigationOf s.unaudited = investigationOf s := rfl
  unfold resolveTriagePolicyNode
  rw [hinvestigation, matchTriagePolicy_active h]
  unfold matchTriagePolicy matchShadowTriagePolicies
  cases traitsOf (investigationOf s) with
  | error e => rfl
  | ok t =>
    cases hfind : S'.registry.find? (fun pb => pb.status = .active && pb.matchesTraits t) with
    | none =>
      simp only [bind, Except.bind, pure, Except.pure, hfind]
      rfl
    | some p =>
      simp only [bind, Except.bind, pure, Except.pure, hfind]
      rw [unaudited_stashVetoes, unaudited_stashVetoes]
      rfl

theorem unaudited_supervisorNode (h : SameActive S S') (a : Answer) (s : GraphState) :
    (supervisorNode S a s).unaudited = supervisorNode S' a s.unaudited := by
  unfold supervisorNode
  dsimp only [GraphState.unaudited]
  rw [h.budgetEnv]
  split
  · rfl
  · split
    · rfl
    · cases a.decision <;> rfl

theorem unaudited_dumpComponents (h : SameActive S S') (s : GraphState) :
    (dumpComponents S s).map GraphState.unaudited = dumpComponents S' s.unaudited := by
  have hinvestigation : investigationOf s.unaudited = investigationOf s := rfl
  unfold dumpComponents
  rw [h.validate, h.dumpContext, hinvestigation]
  cases parseAuthorizationContext S'.validate (investigationOf s) with
  | error e => rfl
  | ok parsed =>
    cases parsed with
    | none => rfl
    | some ctx =>
      simp only [bind, Except.bind]
      cases evaluateAuthorization ctx.activity ctx.facts ctx.tenant with
      | error e => rfl
      | ok components =>
        dsimp only
        split <;> rfl

theorem unaudited_gatherNode (h : SameActive S S') (s : GraphState) :
    (gatherAuthorizationContextNode S s).map GraphState.unaudited =
      gatherAuthorizationContextNode S' s.unaudited := by
  have hsteps : s.unaudited.stepsRun = s.stepsRun := rfl
  unfold gatherAuthorizationContextNode
  rw [unaudited_dumpComponents h, hsteps]
  congr 1
  split <;> rfl

theorem unaudited_verdictNode (a : Answer) (s : GraphState) :
    (verdictNode a s).unaudited = verdictNode a s.unaudited := by
  unfold verdictNode
  cases a.verdict <;> rfl

theorem unaudited_enforceRuling (draft : String) (r : GuardResult) (s : GraphState) :
    (enforceRuling draft r s).unaudited = enforceRuling draft r s.unaudited := by
  unfold enforceRuling
  cases r.interrupted <;> cases r.overridden <;> rfl

/-- The audit of a validated policy does not raise. -/
theorem returns_shadowGuardrailAudits (shadows : List TriagePolicy) (ctx : Dict) :
    Returns (shadowGuardrailAudits (shadows.map fun p => .dict p.dump) ctx) := by
  unfold shadowGuardrailAudits
  split
  · simp
  · refine Returns.bind (returns_mapM fun pb hpb => ?_) fun audits _ => returns_pure _
    obtain ⟨p, -, rfl⟩ := List.mem_map.mp hpb
    have hrules : Dict.get p.dump "guardrails" = .list (p.guardrails.map Guardrail.dump) := rfl
    dsimp only
    rw [hrules]
    refine Returns.bind ?_ fun rules _ => returns_pure _
    unfold Value.orElse
    split <;> exact returns_ok _

theorem unaudited_applyRuling (now draft : String) (result : GuardResult)
    (audits audits' : List Dict) (s : GraphState) :
    (applyRuling now draft result audits s).unaudited =
      (applyRuling now draft result audits' s.unaudited).unaudited := by
  unfold applyRuling
  dsimp only
  split
  · rfl
  · rw [unaudited_enforceRuling, unaudited_enforceRuling]
    rfl

theorem unaudited_guardNode (h : SameActive S S') (now : String) (s : GraphState) :
    (guardNode S now s).map GraphState.unaudited =
      (guardNode S' now s.unaudited).map GraphState.unaudited := by
  unfold guardNode
  rw [toDict_unaudited, h.validate]
  cases guardInput S'.validate s.toDict with
  | error e => rfl
  | ok g =>
    cases g with
    | none => rfl
    | some g =>
      obtain hresult | ⟨result, hresult⟩ : (∃ e, evaluateGuard g = .error e) ∨
          ∃ result, evaluateGuard g = .ok result := by
        cases evaluateGuard g with
        | error e => exact .inl ⟨e, rfl⟩
        | ok result => exact .inr ⟨result, rfl⟩
      · obtain ⟨e, hresult⟩ := hresult
        simp only [bind, Except.bind, hresult]
      · obtain ⟨audits, haudits⟩ :=
          returns_shadowGuardrailAudits s.triagePolicyShadow result.conditionCtx
        obtain ⟨audits', haudits'⟩ :=
          returns_shadowGuardrailAudits s.unaudited.triagePolicyShadow result.conditionCtx
        simp only [bind, Except.bind, hresult, haudits, haudits', pure, Except.pure]
        have hruling := unaudited_applyRuling now g.verdictDecision result audits audits' s
        exact congrArg Except.ok hruling

theorem unaudited_closeInvestigationNode (s : GraphState) :
    (closeInvestigationNode s).map GraphState.unaudited = closeInvestigationNode s.unaudited := by
  have hinvestigation : s.unaudited.investigation = s.investigation := rfl
  unfold closeInvestigationNode
  rw [hinvestigation]
  split <;> rfl

/-! ## Runs -/

theorem route_unaudited (s : GraphState) :
    routeFromResolveTriagePolicy s.unaudited = routeFromResolveTriagePolicy s ∧
      routeFromSupervisor s.unaudited = routeFromSupervisor s ∧
      routeFromHumanReview s.unaudited = routeFromHumanReview s := ⟨rfl, rfl, rfl⟩

/-- A node followed by an edge that does not read the audit. -/
theorem unauditedResult_bind {x y : M GraphState} {f : GraphState → M (GraphState × Place)}
    (h : x.map GraphState.unaudited = y.map GraphState.unaudited)
    (hf : ∀ s, unauditedResult (f s) = unauditedResult (f s.unaudited)) :
    unauditedResult (x >>= f) = unauditedResult (y >>= f) := by
  cases x with
  | error e =>
    cases y with
    | error e' =>
      cases h
      rfl
    | ok s' => cases h
  | ok s =>
    cases y with
    | error e' => cases h
    | ok s' =>
      have hs : s.unaudited = s'.unaudited := Except.ok.inj h
      change unauditedResult (f s) = unauditedResult (f s')
      rw [hf s, hf s', hs]

theorem unaudited_unaudited (x : M GraphState) :
    (x.map GraphState.unaudited).map GraphState.unaudited = x.map GraphState.unaudited := by
  cases x <;> rfl

theorem unaudited_runNode (h : SameActive S S') (a : Answer) (s : GraphState) (n : Node) :
    unauditedResult (runNode S a s n) = unauditedResult (runNode S' a s.unaudited n) := by
  cases n with
  | resolveTriagePolicy => exact unauditedResult_bind (unaudited_resolve h s) fun _ => rfl
  | supervisor =>
    have hsupervisor := unaudited_supervisorNode h a s
    obtain ⟨-, hroute, -⟩ := route_unaudited (supervisorNode S a s)
    change Except.ok _ = Except.ok _
    rw [← hsupervisor, hroute]
    rfl
  | gatherAuthorizationContext =>
    refine unauditedResult_bind ?_ fun _ => rfl
    rw [← unaudited_gatherNode h, unaudited_unaudited]
  | verdict =>
    have hverdict := unaudited_verdictNode a s
    change Except.ok _ = Except.ok _
    rw [← hverdict]
    rfl
  | verdictGuard =>
    refine unauditedResult_bind (unaudited_guardNode h a.now s) fun s => ?_
    rw [toDict_unaudited]
    cases routeFromVerdict s.toDict <;> rfl
  | humanReview =>
    unfold runNode
    cases a.review <;> rfl
  | closeInvestigation =>
    refine unauditedResult_bind ?_ fun _ => rfl
    rw [← unaudited_closeInvestigationNode, unaudited_unaudited]
  | _ => rfl

/-- Two runs that are at the same place, with the same state but for the audit. -/
structure SameOutcome (c c' : Config) : Prop where
  place : c.place = c'.place
  state : c.state.unaudited = c'.state.unaudited
  supervisorRuns : c.supervisorRuns = c'.supervisorRuns
  moreInfos : c.moreInfos = c'.moreInfos
  moves : c.moves = c'.moves

/-- Whatever reads the graph's final state reads the same. -/
theorem SameOutcome.toDict {c c' : Config} (h : SameOutcome c c') :
    c.state.toDict = c'.state.toDict := by
  rw [← toDict_unaudited, h.state, toDict_unaudited]

theorem step_sameOutcome (h : SameActive S S') {c c' : Config} (hc : SameOutcome c c')
    (a : Answer) : SameOutcome (step S c a) (step S' c' a) := by
  obtain ⟨place, s, runs, infos, moves⟩ := c
  obtain ⟨place', s', runs', infos', moves'⟩ := c'
  obtain ⟨rfl, hstate, rfl, rfl, rfl⟩ := hc
  dsimp only at hstate
  cases place with
  | before n =>
    have hnode : unauditedResult (runNode S a s n) = unauditedResult (runNode S' a s' n) := by
      have hself := unaudited_runNode (SameActive.refl S') a s' n
      rw [unaudited_runNode h, hstate, ← hself]
    unfold step
    dsimp only
    split
    · exact ⟨rfl, hstate, rfl, rfl, rfl⟩
    · split
      · exact ⟨rfl, hstate, rfl, rfl, rfl⟩
      · cases hx : runNode S a s n with
        | error e =>
          cases hy : runNode S' a s' n with
          | error e' => exact ⟨rfl, hstate, rfl, rfl, rfl⟩
          | ok r' =>
            rw [hx, hy] at hnode
            cases hnode
        | ok r =>
          cases hy : runNode S' a s' n with
          | error e' =>
            rw [hx, hy] at hnode
            cases hnode
          | ok r' =>
            rw [hx, hy] at hnode
            obtain ⟨hstate', hplace⟩ := Prod.mk.inj (Except.ok.inj hnode)
            exact ⟨hplace, hstate', rfl, rfl, rfl⟩
  | ended => exact ⟨rfl, hstate, rfl, rfl, rfl⟩
  | aborted => exact ⟨rfl, hstate, rfl, rfl, rfl⟩

theorem run_sameOutcome (h : SameActive S S') {c c' : Config} (hc : SameOutcome c c')
    (answers : List Answer) : SameOutcome (run S c answers) (run S' c' answers) := by
  induction answers generalizing c c' with
  | nil => exact hc
  | cons a answers ih => exact ih (step_sameOutcome h hc a)

end SocTalk.Graph
