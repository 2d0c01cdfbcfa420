import SocTalk.Graph.RequiredSteps
import SocTalk.Graph.Shadows
import SocTalk.TriagePolicy.Authoring

/-! What files and tenants author cannot suppress: a built-in's alerts stay with the built-in, nothing
authored closes a class or grants a close, and a policy that is not active changes no outcome. -/
namespace SocTalk.TriagePolicy
open Py Graph
open Provisioning.Configuration (PolicyRevision latestRevision)

/-! ## Built-ins govern -/

/-- An alert that a built-in matches is governed by that built-in. -/
theorem builtin_governs (S : Setup) {investigation : Value} {b : TriagePolicy}
    (h : matchTriagePolicy builtinTriagePolicies investigation = .ok (some b)) :
    matchTriagePolicy S.registry investigation = .ok (some b) := by
  unfold matchTriagePolicy at h ⊢
  obtain ⟨t, ht, hfind⟩ := (bind_eq_ok _ _ _).mp h
  have hfirst := (pure_eq_ok _ _).mp hfind
  rw [ht, Setup.registry, registry_eq]
  refine (bind_eq_ok _ _ _).mpr ⟨t, rfl, (pure_eq_ok _ _).mpr ?_⟩
  rw [List.find?_append, hfirst]
  rfl

/-- No edge leads back to the first node, and no other node chooses a policy. -/
theorem runNode_policy (S : Setup) {a : Answer} {s s' : GraphState} {n : Node} {place : Place}
    (hn : n ≠ .resolveTriagePolicy) (h : runNode S a s n = .ok (s', place)) :
    s'.triagePolicy = s.triagePolicy ∧ place ≠ .before .resolveTriagePolicy := by
  cases n with
  | resolveTriagePolicy => exact absurd rfl hn
  | supervisor =>
    cases h
    constructor
    · unfold supervisorNode
      dsimp only
      split
      · rfl
      · split
        · rfl
        · cases a.decision <;> rfl
    · unfold routeFromSupervisor
      split
      · simp
      · dsimp only
        cases gatedAction (supervisorNode S a s) with
        | verdict => dsimp only; split <;> simp
        | close => dsimp only; split <;> simp
        | _ => simp
  | gatherAuthorizationContext =>
    obtain ⟨s₁, hgather, h⟩ := (bind_eq_ok _ _ _).mp h
    cases (pure_eq_ok _ _).mp h
    exact ⟨(gatherNode_spec S hgather).1, by simp⟩
  | verdict =>
    cases h
    exact ⟨(sameRun_verdictNode a s).policy, by simp⟩
  | verdictGuard =>
    obtain ⟨s₁, hguard, h⟩ := (bind_eq_ok _ _ _).mp h
    obtain ⟨route, -, h⟩ := (bind_eq_ok _ _ _).mp h
    cases (pure_eq_ok _ _).mp h
    refine ⟨(sameRun_guardNode S hguard).1.policy, ?_⟩
    cases route <;> simp [Route.node]
  | humanReview =>
    unfold runNode at h
    cases hreview : a.review with
    | none =>
      rw [hreview] at h
      cases h
      exact ⟨rfl, by simp⟩
    | some d =>
      rw [hreview] at h
      cases h
      refine ⟨rfl, ?_⟩
      cases d <;> simp [routeFromHumanReview, humanReviewNode]
  | closeInvestigation =>
    obtain ⟨s₁, hclose, h⟩ := (bind_eq_ok _ _ _).mp h
    cases (pure_eq_ok _ _).mp h
    exact ⟨(sameRun_closeInvestigationNode hclose).policy, by simp⟩
  | _ =>
    cases h
    exact ⟨rfl, by simp⟩

/-- Past the first node, a run is governed by one policy. -/
def GovernedBy (b : TriagePolicy) (investigation : Value) (c : Config) : Prop :=
  c.place = .aborted ∨
    c.place = .before .resolveTriagePolicy ∧ c.state.investigation = investigation ∨
    c.place ≠ .before .resolveTriagePolicy ∧ c.state.triagePolicy = some b

theorem resolve_governed {S : Setup} {b : TriagePolicy} {s s' : GraphState}
    (hmatch : matchTriagePolicy S.registry (investigationOf s) = .ok (some b))
    (h : resolveTriagePolicyNode S s = .ok s') : s'.triagePolicy = some b := by
  unfold resolveTriagePolicyNode at h
  obtain ⟨policy, hpolicy, h⟩ := (bind_eq_ok _ _ _).mp h
  obtain ⟨shadow, -, h⟩ := (bind_eq_ok _ _ _).mp h
  obtain rfl : some b = policy := Except.ok.inj (hmatch.symm.trans hpolicy)
  unfold stashVetoes at h
  dsimp only at h
  split at h
  · obtain ⟨vetoes, -, h⟩ := (bind_eq_ok _ _ _).mp h
    cases (pure_eq_ok _ _).mp h
    rfl
  · cases (pure_eq_ok _ _).mp h
    rfl

theorem step_governedBy {S : Setup} {b : TriagePolicy} {investigation : Value} {c : Config}
    (hmatch : matchTriagePolicy S.registry (investigation.orElse (.dict [])) = .ok (some b))
    (h : GovernedBy b investigation c) (a : Answer) :
    GovernedBy b investigation (step S c a) := by
  obtain ⟨place, s, runs, infos, moves⟩ := c
  cases place with
  | ended => exact h
  | aborted => exact h
  | before n =>
    unfold step
    dsimp only
    split
    · exact .inl rfl
    · split
      · exact h
      · cases hrun : runNode S a s n with
        | error e => exact .inl rfl
        | ok r =>
          obtain ⟨s', place⟩ := r
          by_cases hn : n = .resolveTriagePolicy
          · subst hn
            obtain hplace | ⟨-, hinvestigation⟩ | ⟨hplace, -⟩ := h
            · cases hplace
            · obtain ⟨s₁, hresolve, hrun⟩ := (bind_eq_ok _ _ _).mp hrun
              cases (pure_eq_ok _ _).mp hrun
              dsimp only at hinvestigation
              have hpolicy := resolve_governed (s := s)
                (by rw [investigationOf, hinvestigation]; exact hmatch) hresolve
              refine .inr (.inr ⟨?_, hpolicy⟩)
              dsimp only [routeFromResolveTriagePolicy]
              rw [hpolicy]
              dsimp only
              split
              · simp
              · split <;> simp
            · exact absurd rfl hplace
          · obtain ⟨hpolicy, hplace⟩ := runNode_policy S hn hrun
            obtain hplace' | ⟨hplace', -⟩ | ⟨-, hb⟩ := h
            · cases hplace'
            · cases hplace'
              exact absurd rfl hn
            · exact .inr (.inr ⟨hplace, hpolicy.trans hb⟩)

theorem run_governedBy {S : Setup} {b : TriagePolicy} {investigation : Value}
    (hmatch : matchTriagePolicy S.registry (investigation.orElse (.dict [])) = .ok (some b))
    {c : Config} (h : GovernedBy b investigation c) (answers : List Answer) :
    GovernedBy b investigation (run S c answers) := by
  induction answers generalizing c with
  | nil => exact h
  | cons a answers ih => exact ih (step_governedBy hmatch h a)

/-! ## Read back -/

/-- What is dumped of a mapping as YAML reads back as an equal mapping. -/
def Yaml.ReadsBack (Y : Yaml) (d : Dict) : Prop :=
  ∃ d', Y.safeLoad (Y.safeDump (.dict d)) = some (.dict d') ∧
    (Value.dict d').eq (.dict d) = true

theorem lookup_of_eqPairs {xs ys : Dict} (h : Value.eqPairs xs ys = true) {k : String} {v : Value}
    (hv : (k, v) ∈ xs) : ∃ w, ys.lookup k = some w ∧ v.eq w = true := by
  induction xs with
  | nil => cases hv
  | cons p xs ih =>
    obtain ⟨k', v'⟩ := p
    rw [Value.eqPairs, Bool.and_eq_true] at h
    rcases List.mem_cons.mp hv with hp | hv
    · cases hp
      cases hw : ys.lookup k with
      | none => simp [hw] at h
      | some w =>
        simp only [hw] at h
        exact ⟨w, rfl, h.1⟩
    · exact ih h.2 hv

/-- The elements of a list read entry by entry. -/
theorem mem_mapM_iff {α β : Type} {f : α → Option β} {xs : List α} {ys : List β}
    (h : xs.mapM f = some ys) {y : β} : y ∈ ys ↔ ∃ x ∈ xs, f x = some y := by
  induction xs generalizing ys with
  | nil =>
    cases h
    simp
  | cons x xs ih =>
    rw [List.mapM_cons] at h
    obtain ⟨z, hz, h⟩ := Option.bind_eq_some_iff.mp h
    obtain ⟨zs, hzs, h⟩ := Option.bind_eq_some_iff.mp h
    cases h
    rw [List.mem_cons, ih hzs]
    constructor
    · rintro (rfl | ⟨x', hx', hy⟩)
      · exact ⟨x, List.mem_cons_self, hz⟩
      · exact ⟨x', List.mem_cons_of_mem _ hx', hy⟩
    · rintro ⟨x', hx', hy⟩
      rcases List.mem_cons.mp hx' with rfl | hx'
      · exact .inl (Option.some.inj (hy.symm.trans hz))
      · exact .inr ⟨x', hx', hy⟩

theorem parseStrs_of_eqItems {vs ws : List Value} {xs ys : List String}
    (h : Value.eqItems vs ws = true) (hx : vs.mapM parseStr = some xs)
    (hy : ws.mapM parseStr = some ys) : xs = ys := by
  induction vs generalizing ws xs ys with
  | nil =>
    cases ws with
    | nil =>
      cases hx
      cases hy
      rfl
    | cons w ws => cases h
  | cons v vs ih =>
    cases ws with
    | nil => cases h
    | cons w ws =>
      rw [Value.eqItems, Bool.and_eq_true] at h
      rw [List.mapM_cons] at hx hy
      obtain ⟨x, hvx, hx⟩ := Option.bind_eq_some_iff.mp hx
      obtain ⟨xs', hxs, hx⟩ := Option.bind_eq_some_iff.mp hx
      obtain ⟨y, hwy, hy⟩ := Option.bind_eq_some_iff.mp hy
      obtain ⟨ys', hys, hy⟩ := Option.bind_eq_some_iff.mp hy
      cases hx
      cases hy
      have htail := ih h.2 hxs hys
      cases v with
      | str s =>
        cases w with
        | str t =>
          have hs : s = x := Option.some.inj hvx
          have ht : t = y := Option.some.inj hwy
          have hhead : s = t := by simpa [Value.eq, Value.num?, Value.text?] using h.1
          rw [← hs, ← ht, hhead, htail]
        | _ => cases hwy
      | _ => cases hvx

theorem exists_of_mapM {α β : Type} {f : α → Option β} {xs : List α} {ys : List β}
    (h : xs.mapM f = some ys) {x : α} (hx : x ∈ xs) : ∃ y, f x = some y := by
  induction xs generalizing ys with
  | nil => cases hx
  | cons x' xs ih =>
    rw [List.mapM_cons] at h
    obtain ⟨z, hz, h⟩ := Option.bind_eq_some_iff.mp h
    obtain ⟨zs, hzs, -⟩ := Option.bind_eq_some_iff.mp h
    rcases List.mem_cons.mp hx with rfl | hx
    · exact ⟨z, hz⟩
    · exact ih hzs hx

theorem parseTexts_of_eq {v w : Value} {xs ys : List String} (h : v.eq w = true)
    (hx : parseTexts v = some xs) (hy : parseTexts w = some ys) : xs = ys := by
  cases v with
  | list vs =>
    cases w with
    | list ws => exact parseStrs_of_eqItems h hx hy
    | _ => cases hy
  | _ => cases hx

/-- The entries of an equal mapping are the same. -/
theorem legalActions_of_eq {v w : Value} {legal legal' : List (String × List String)}
    (h : v.eq w = true) (hv : parseLegalActions v = some legal)
    (hw : parseLegalActions w = some legal') : ∀ entry ∈ legal, entry ∈ legal' := by
  cases v with
  | dict kvs =>
    cases w with
    | dict kvs' =>
      rw [Value.eq, Bool.and_eq_true] at h
      intro entry hentry
      obtain ⟨kv, hkv, hread⟩ := (mem_mapM_iff hv).mp hentry
      obtain ⟨actions, hactions, rfl⟩ := Option.map_eq_some_iff.mp hread
      obtain ⟨u, hlookup, heq⟩ := lookup_of_eqPairs h.2 hkv
      obtain ⟨before, after, hsplit, -⟩ := List.lookup_eq_some_iff.mp hlookup
      have hmem : (kv.1, u) ∈ kvs' := hsplit ▸ List.mem_append_right _ List.mem_cons_self
      obtain ⟨read, hread'⟩ := exists_of_mapM hw hmem
      obtain ⟨actions', hactions', hentry'⟩ := Option.map_eq_some_iff.mp hread'
      rw [parseTexts_of_eq heq hactions hactions']
      exact (mem_mapM_iff hw).mpr ⟨_, hmem, by rw [hactions']; rfl⟩
    | _ => cases hw
  | _ => cases hv

theorem lookup_setDefault {d : Dict} {k k' : String} (v : Value) (h : k' ≠ k) :
    (setDefault d k v).lookup k' = d.lookup k' := by
  unfold setDefault
  split
  · rfl
  · have hk : (k' == k) = false := by simpa using h
    rw [List.lookup_append]
    simp [List.lookup_cons, hk]

/-! ## What a tenant authors grants no close -/

/-- A rendered file is the document of the active, accepted, latest revision of its policy. -/
theorem of_rendered {Y : Yaml} {tenantId : String} {log : List (PolicyRevision Definition)}
    {out : List (String × String)} (h : renderActiveAuthoredValues Y tenantId log = .ok out)
    {name yamlText : String} (hmem : (name, yamlText) ∈ out) :
    ∃ row ∈ log, latestRevision log row.policy = some row ∧ row.status = .active ∧
      (∃ p, Accepted row.definition.val p) ∧
      yamlText = Y.safeDump (.dict (activeDocument tenantId row.definition)) := by
  unfold renderActiveAuthoredValues at h
  obtain ⟨rendered, hrendered, h⟩ := (bind_eq_ok _ _ _).mp h
  obtain rfl := (pure_eq_ok _ _).mp h
  obtain ⟨entry, hentry, hsome⟩ := List.mem_filterMap.mp hmem
  obtain rfl : entry = some (name, yamlText) := hsome
  obtain ⟨row, hrow, hfile⟩ := (mem_of_mapM_eq_ok hrendered _).mp hentry
  obtain ⟨hlog, hlatest⟩ := of_latestRevisions hrow
  unfold renderRow at hfile
  split at hfile
  · cases hfile
  · rename_i hactive
    obtain ⟨p, haccepted, hfile⟩ := (bind_eq_ok _ _ _).mp hfile
    obtain ⟨q, -, hfile⟩ := (bind_eq_ok _ _ _).mp hfile
    cases (pure_eq_ok _ _).mp hfile
    exact ⟨row, hlog, hlatest, by simpa using hactive, ⟨p, accepted_of_validateAuthored haccepted⟩,
      rfl⟩

/-- The policy that the worker reads off a rendered file lists known actions but no close. -/
theorem rendered_actions {Y : Yaml} {tenantId : String}
    {log : List (PolicyRevision Definition)}
    (hY : ∀ row ∈ log, Y.ReadsBack (activeDocument tenantId row.definition)) {out : List (String × String)}
    (h : renderActiveAuthoredValues Y tenantId log = .ok out) {name yamlText : String}
    (hmem : (name, yamlText) ∈ out) {p : TriagePolicy}
    (hp : parseTriagePolicyText Y yamlText = some p) :
    ∀ entry ∈ p.legalActions, ∀ a ∈ entry.2, a ∈ validActions ∧ a ≠ "CLOSE" := by
  obtain ⟨row, hrow, -, -, ⟨q, hq⟩, rfl⟩ := of_rendered h hmem
  obtain ⟨raw, hload, hvalid, -, -⟩ := of_parseTriagePolicyText hp
  obtain ⟨d', hback, heq⟩ := hY row hrow
  rw [hback] at hload
  obtain rfl : d' = raw := by simpa using hload
  have hread := legalActions_of_modelValidate hvalid
  have haccepted := legalActions_of_modelValidate hq.schema
  unfold fieldOr at hread haccepted
  rw [lookup_setDefault _ (by decide)] at hread
  rw [Dict.lookup_set_of_ne _ _ (by decide)] at haccepted
  have hdocument : (activeDocument tenantId row.definition).lookup "legal_actions" =
      row.definition.val.lookup "legal_actions" := by
    unfold activeDocument
    rw [Dict.lookup_set_of_ne _ _ (by decide), Dict.lookup_set_of_ne _ _ (by decide)]
  intro entry hentry
  cases hd : d'.lookup "legal_actions" with
  | none =>
    simp only [hd, Option.some.injEq] at hread
    rw [← hread] at hentry
    cases hentry
  | some v =>
    simp only [hd] at hread
    obtain ⟨before, after, hsplit, -⟩ := List.lookup_eq_some_iff.mp hd
    have hmem' : ("legal_actions", v) ∈ d' := hsplit ▸ List.mem_append_right _ List.mem_cons_self
    rw [Value.eq, Bool.and_eq_true] at heq
    obtain ⟨w, hw, hvw⟩ := lookup_of_eqPairs heq.2 hmem'
    rw [hdocument] at hw
    simp only [hw] at haccepted
    exact hq.actions entry (legalActions_of_eq hvw hread haccepted entry hentry)

/-- No phase lists the close, and under the gate no other action becomes the close. -/
def GrantsNoClose (p : TriagePolicy) : Prop :=
  (∀ entry ∈ p.legalActions, "CLOSE" ∉ entry.2) ∧
    ∀ stepsRun action, remap (legalActionsFor (some p) stepsRun) action = .close →
      action = .close ∧ legalActionsFor (some p) stepsRun = none

theorem grantsNoClose_of_actions {p : TriagePolicy}
    (h : ∀ entry ∈ p.legalActions, ∀ a ∈ entry.2, a ∈ validActions ∧ a ≠ "CLOSE") :
    GrantsNoClose p := by
  constructor
  · intro entry hentry hclose
    exact (h entry hentry _ hclose).2 rfl
  · intro stepsRun action hremap
    have hnever : ∀ legal, legalActionsFor (some p) stepsRun = some legal →
        SupervisorAction.close ∉ legal := by
      intro legal hlegal hmem
      obtain ⟨phase, actions, hentry, name, hname, hupper⟩ := listed_of_legal hlegal hmem
      obtain ⟨hvalid, hne⟩ := h _ hentry name hname
      have hknown : ∀ name ∈ validActions, upper name = "CLOSE" → name = "CLOSE" := by decide
      exact hne (hknown name hvalid hupper)
    cases hlegal : legalActionsFor (some p) stepsRun with
    | none =>
      rw [hlegal] at hremap
      exact ⟨hremap, rfl⟩
    | some legal =>
      have hclose := hnever legal hlegal
      have hne := legalActionsFor_ne_nil hlegal
      have hmem := remap_mem hne action
      rw [← hlegal, hremap] at hmem
      exact absurd hmem hclose

/-- A policy that the worker reads off a file rendered from a tenant's revisions. -/
def Authored (Y : Yaml) (tenantId : String) (log : List (PolicyRevision Definition))
    (p : TriagePolicy) : Prop :=
  ∃ out name yamlText, renderActiveAuthoredValues Y tenantId log = .ok out ∧
    (name, yamlText) ∈ out ∧ parseTriagePolicyText Y yamlText = some p

/-- Whatever is authored: built-ins keep their alerts, nothing but a built-in closes its class,
what a tenant authors never grants a close, and what is not active changes no run. -/
theorem authored_cannot_suppress (S : Setup) (tenantId : String)
    (log : List (PolicyRevision Definition))
    (hY : ∀ row ∈ log, S.yaml.ReadsBack (activeDocument tenantId row.definition)) :
    (∀ investigation correlation budget answers b,
      matchTriagePolicy builtinTriagePolicies (investigation.orElse (.dict [])) = .ok (some b) →
      GovernedBy b investigation (run S (start investigation correlation budget) answers)) ∧
    (∀ p ∈ S.registry, p ∉ builtinTriagePolicies → p.deterministicDisposition = none) ∧
    (∀ raw p, validateAuthored raw = .ok p →
      p.deterministicDisposition = none ∧ GrantsNoClose p) ∧
    (∀ p, Authored S.yaml tenantId log p →
      p.deterministicDisposition = none ∧ GrantsNoClose p) ∧
    (∀ out name yamlText, renderActiveAuthoredValues S.yaml tenantId log = .ok out →
      (name, yamlText) ∈ out → ∃ row, latestRevision log row.policy = some row ∧
        row.status = .active ∧
        yamlText = S.yaml.safeDump (.dict (activeDocument tenantId row.definition))) ∧
    ∀ S', SameActive S S' → ∀ investigation correlation budget answers,
      SameOutcome (run S (start investigation correlation budget) answers)
        (run S' (start investigation correlation budget) answers) := by
  refine ⟨?_, ?_, ?_, ?_, ?_, ?_⟩
  · intro investigation correlation budget answers b hmatch
    exact run_governedBy (builtin_governs S hmatch) (.inr (.inl ⟨rfl, rfl⟩)) answers
  · intro p hp hbuiltin
    rcases mem_registry.mp hp with hp | hp
    · exact absurd hp hbuiltin
    · exact loaded_disposition hp
  · intro raw p hvalid
    have haccepted := accepted_of_validateAuthored hvalid
    exact ⟨haccepted.disposition, grantsNoClose_of_actions haccepted.actions⟩
  · intro p ⟨out, name, yamlText, hrender, hmem, hp⟩
    obtain ⟨raw, -, -, -, hdisposition⟩ := of_parseTriagePolicyText hp
    exact ⟨hdisposition, grantsNoClose_of_actions (rendered_actions hY hrender hmem hp)⟩
  · intro out name yamlText hrender hmem
    obtain ⟨row, -, hlatest, hactive, -, htext⟩ := of_rendered hrender hmem
    exact ⟨row, hlatest, hactive, htext⟩
  · intro S' hsame investigation correlation budget answers
    exact run_sameOutcome hsame ⟨rfl, rfl, rfl, rfl, rfl⟩ answers

/-! A tenant's policy of one action. -/

def strictText : String :=
  "applies_to:\n  rule_groups:\n  - sshd\nid: strict-ssh\nlegal_actions:\n  decide:\n" ++
    "  - VERDICT\npriority: 60\nstatus: active\ntenant: t1\n"

def strictDefinition : Definition :=
  ⟨[("id", .str "strict-ssh"), ("priority", .int 60),
    ("applies_to", .dict [("rule_groups", .list [.str "sshd"])]),
    ("legal_actions", .dict [("decide", .list [.str "VERDICT"])])], by decide⟩

def strictDocument : Dict :=
  [("applies_to", .dict [("rule_groups", .list [.str "sshd"])]), ("id", .str "strict-ssh"),
    ("legal_actions", .dict [("decide", .list [.str "VERDICT"])]), ("priority", .int 60),
    ("status", .str "active"), ("tenant", .str "t1")]

def strictYaml : Yaml where
  safeLoad text := if text = strictText then some (.dict strictDocument) else none
  safeDump _ := strictText

def strictSetup : Setup where
  yaml := strictYaml
  tenants := ["t1"]
  files := [strictText]
  validate _ := none
  dumpContext _ _ := .none

def strictLog : List (PolicyRevision Definition) :=
  [{ policy := "strict-ssh", revision := 1, status := .active, definition := strictDefinition }]

theorem authored_cannot_suppress_strict :
    ∃ p, Authored strictYaml "t1" strictLog p ∧ GrantsNoClose p := by
  have hload : strictYaml.safeLoad strictText = some (.dict strictDocument) := by
    simp [strictYaml]
  have hY : ∀ row ∈ strictLog, strictSetup.yaml.ReadsBack (activeDocument "t1" row.definition) := by
    intro row hrow
    obtain rfl := List.mem_singleton.mp hrow
    exact ⟨strictDocument, hload, by decide +kernel⟩
  have hrendered : (renderActiveAuthoredValues strictYaml "t1" strictLog).toOption =
      some [("authored-strict-ssh.yaml", strictText)] := by decide +kernel
  have hrender : renderActiveAuthoredValues strictYaml "t1" strictLog =
      .ok [("authored-strict-ssh.yaml", strictText)] := by
    cases hout : renderActiveAuthoredValues strictYaml "t1" strictLog with
    | error e => simp [hout, Except.toOption] at hrendered
    | ok out => simpa [hout, Except.toOption] using hrendered
  obtain ⟨p, hp⟩ : ∃ p, parseTriagePolicyText strictYaml strictText = some p :=
    Option.isSome_iff_exists.mp (by decide +kernel)
  have hauthored : Authored strictYaml "t1" strictLog p :=
    ⟨_, _, _, hrender, List.mem_cons_self, hp⟩
  obtain ⟨-, -, -, hclose, -, -⟩ := authored_cannot_suppress strictSetup "t1" strictLog hY
  exact ⟨p, hauthored, (hclose p hauthored).2⟩

end SocTalk.TriagePolicy
