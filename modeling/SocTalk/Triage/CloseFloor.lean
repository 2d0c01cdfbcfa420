import SocTalk.Triage.Event

/-! The safety floor of ingest: an alert is closed with no investigation run only where
nothing forbids it. -/
namespace SocTalk.Triage
open Py TriagePolicy

/-- The automatic closes are below the configured cap, or the cap is disabled. -/
def BelowCap (ctx : Context) (db : DB) (tenant : Tenant) (policy : Dict) : Prop :=
  ∃ cap, intPolicy policy "auto_close_volume_cap" 500 = .ok cap ∧ (cap ≤ 0 ∨
    ∃ window, intPolicy policy "auto_close_volume_window_hours" 24 = .ok window ∧
      (countRecentAutoCloses ctx db tenant (max 1 window) : ℤ) < cap)

/-- Nothing on the floor forbids closing the alert in these rows. -/
structure FloorClear (ctx : Context) (db : DB) (e : Ingest) (keys : List Key) (policy : Dict) :
    Prop where
  killSwitchOff : autoCloseKilled ctx policy = false
  noIocs : e.initialIocs = []
  noActiveIncident : ¬SharesActive ctx db e.tenant keys
  belowCap : BelowCap ctx db e.tenant policy

theorem volumeCapExceeded_eq_false {ctx : Context} {db : DB} {tenant : Tenant} {policy : Dict}
    (h : volumeCapExceeded ctx db tenant policy = .ok false) : BelowCap ctx db tenant policy := by
  unfold volumeCapExceeded at h
  obtain ⟨cap, hcap, h⟩ := (bind_eq_ok _ _ _).mp h
  refine ⟨cap, hcap, ?_⟩
  by_cases hoff : cap ≤ 0
  · exact Or.inl hoff
  · rw [if_neg hoff] at h
    obtain ⟨window, hwindow, h⟩ := (bind_eq_ok _ _ _).mp h
    have hcount : ¬cap ≤ (countRecentAutoCloses ctx db tenant (max 1 window) : ℤ) := by
      simpa using h
    exact Or.inr ⟨window, hwindow, by omega⟩

/-- The floor lets a close pass only where it is clear. -/
theorem closeFloorVeto_eq_none {ctx : Context} {db : DB} {e : Ingest} {keys : List Key}
    {policy : Dict} (h : closeFloorVeto ctx db e keys policy = .ok none) :
    FloorClear ctx db e keys policy := by
  unfold closeFloorVeto at h
  by_cases hkill : autoCloseKilled ctx policy = true
  · rw [if_pos hkill] at h
    simp at h
  · rw [if_neg hkill] at h
    by_cases hioc : e.initialIocs ≠ []
    · rw [if_pos hioc] at h
      simp at h
    · rw [if_neg hioc] at h
      cases hfind : findCorrelatedInvestigation ctx db e.tenant keys with
      | some investigation => simp [hfind] at h
      | none =>
        simp only [hfind, Option.isSome_none, Bool.false_eq_true, if_false] at h
        obtain ⟨exceeded, hcap, h⟩ := (bind_eq_ok _ _ _).mp h
        cases exceeded with
        | true => simp at h
        | false =>
          exact ⟨by simpa using hkill, not_not.mp hioc,
            findCorrelatedInvestigation_eq_none.mp hfind, volumeCapExceeded_eq_false hcap⟩

/-! ## The close sites -/

theorem outcome_eq {o out : Outcome} {d d' : DB}
    (h : (pure (o, d) : M (Outcome × DB)) = .ok (out, d')) : o = out :=
  congrArg Prod.fst ((pure_eq_ok _ _).mp h)

theorem memoizedClose_closed {ctx : Context} {db db' : DB} {e : Ingest} {c : Candidate}
    {investigation : ℕ} (h : memoizedClose ctx db e c = .ok (.closed investigation db')) :
    FloorClear ctx db e c.keys c.policy ∧ c.forcePromote = false := by
  unfold memoizedClose at h
  by_cases hgate : (!Policy.flag c.policy "verdict_memoization_enabled" || c.forcePromote) = true
  · rw [if_pos hgate] at h
    simp at h
  · rw [if_neg hgate] at h
    have hforce : c.forcePromote = false := by
      have hboth := Bool.or_eq_false_iff.mp (Bool.not_eq_true _ ▸ hgate)
      exact hboth.2
    split at h
    · simp at h
    · split at h
      · simp at h
      · obtain ⟨veto, hveto, h⟩ := (bind_eq_ok _ _ _).mp h
        cases veto with
        | some v => simp at h
        | none => exact ⟨closeFloorVeto_eq_none hveto, hforce⟩

theorem rulesBandCloses_eq_true {e : Ingest} {c : Candidate} {denied : Bool}
    (h : rulesBandCloses e c denied = .ok true) :
    c.forcePromote = false ∧
      (Policy.get c.policy "auto_close_enabled" (.bool true)).truthy = true := by
  unfold rulesBandCloses at h
  dsimp only at h
  split_ifs at h with hband hon
  · simp at h
  · simp at h
  · simp only [Bool.or_eq_true, not_or, Bool.not_eq_true] at hband
    exact ⟨hband.2, by simpa using hon⟩

theorem rulesAutoClose_eq_some {ctx : Context} {db : DB} {e : Ingest} {c : Candidate}
    {denied : Bool} {closed : ℕ × DB}
    (h : rulesAutoClose ctx db e c denied = .ok (some closed)) :
    FloorClear ctx db e c.keys c.policy ∧ c.forcePromote = false ∧
      (Policy.get c.policy "auto_close_enabled" (.bool true)).truthy = true := by
  unfold rulesAutoClose at h
  obtain ⟨closes, hband, h⟩ := (bind_eq_ok _ _ _).mp h
  cases closes with
  | false => simp at h
  | true =>
    simp only [if_true] at h
    obtain ⟨veto, hveto, h⟩ := (bind_eq_ok _ _ _).mp h
    cases veto with
    | some v => simp at h
    | none => exact ⟨closeFloorVeto_eq_none hveto, rulesBandCloses_eq_true hband⟩

/-- What is known of a fresh alert that was closed, on the rows its checks read. -/
structure Closable (ctx : Context) (db : DB) (e : Ingest) (c : Candidate) (out : Outcome) :
    Prop where
  floor : FloorClear ctx db e c.keys c.policy
  notForced : c.forcePromote = false
  enabled : ∀ alert investigation, out = .autoClosed alert investigation →
    (Policy.get c.policy "auto_close_enabled" (.bool true)).truthy = true

theorem promote_not_closes {db db' : DB} {e : Ingest} {c : Candidate} {out : Outcome}
    (h : promote db e c = .ok (out, db')) : out.closes = false := by
  unfold promote at h
  obtain ⟨settle, -, h⟩ := (bind_eq_ok _ _ _).mp h
  obtain ⟨⟨investigation, opened⟩, -, h⟩ := (bind_eq_ok _ _ _).mp h
  rw [← outcome_eq h]
  rfl

/-- The rules band behind the memoized close, which it either closes or promotes. -/
theorem closable_of_rules {ctx : Context} {db db' : DB} {e : Ingest} {c : Candidate}
    {out : Outcome} {denied : Bool} (h : (do
      match ← rulesAutoClose ctx db e c denied with
      | some (investigation, db) => return (.autoClosed c.alert investigation, db)
      | none => promote db e c : M (Outcome × DB)) = .ok (out, db'))
    (hc : out.closes = true) : Closable ctx db e c out := by
  obtain ⟨closed, hrules, h⟩ := (bind_eq_ok _ _ _).mp h
  cases closed with
  | none =>
    have hno := promote_not_closes h
    rw [hno] at hc
    cases hc
  | some closed =>
    obtain ⟨hfloor, hforce, hon⟩ := rulesAutoClose_eq_some hrules
    exact ⟨hfloor, hforce, fun _ _ _ => hon⟩

theorem closeOrPromote_closes {ctx : Context} {db db' : DB} {e : Ingest} {c : Candidate}
    {out : Outcome} (h : closeOrPromote ctx db e c = .ok (out, db')) (hc : out.closes = true) :
    Closable ctx db e c out := by
  unfold closeOrPromote at h
  obtain ⟨replay, hmemo, h⟩ := (bind_eq_ok _ _ _).mp h
  cases replay with
  | closed investigation closed =>
    obtain ⟨hfloor, hforce⟩ := memoizedClose_closed hmemo
    have hout := outcome_eq h
    refine ⟨hfloor, hforce, ?_⟩
    intro alert i hauto
    rw [← hout] at hauto
    cases hauto
  | passed => exact closable_of_rules h hc
  | denied => exact closable_of_rules h hc

theorem reopenOrDecide_closes {ctx : Context} {db db' : DB} {e : Ingest} {c : Candidate}
    {out : Outcome} (h : reopenOrDecide ctx db e c = .ok (out, db')) (hc : out.closes = true) :
    Closable ctx db e c out := by
  unfold reopenOrDecide at h
  split at h
  · have hout := outcome_eq h
    rw [← hout] at hc
    cases hc
  · exact closeOrPromote_closes h hc

/-- Deconfliction claims the alert for an engagement, in its scope or straying from it. -/
def Deconflicted (ctx : Context) (db : DB) (e : Ingest) (policy : Dict) : Prop :=
  Policy.flag policy "engagement_deconfliction_enabled" = true ∧
    ∃ d, deconflict ctx db e.tenant (e.ts.getD ctx.now) (deconflictionInputs ctx e) = some d

theorem deconflictOrDecide_closes {ctx : Context} {db db' : DB} {e : Ingest} {row : ℕ}
    {c : Candidate} {out : Outcome} (hts : c.ts = e.ts.getD ctx.now)
    (h : deconflictOrDecide ctx db e row c = .ok (out, db')) (hc : out.closes = true) :
    Closable ctx db e c out ∧ ¬Deconflicted ctx db e c.policy := by
  unfold deconflictOrDecide at h
  unfold Deconflicted
  rw [← hts]
  by_cases hflag : Policy.flag c.policy "engagement_deconfliction_enabled" = true
  · rw [if_pos hflag] at h
    cases hd : deconflict ctx db e.tenant c.ts (deconflictionInputs ctx e) with
    | none =>
      simp only [hd] at h
      exact ⟨reopenOrDecide_closes h hc, by simp⟩
    | some d =>
      simp only [hd] at h
      split at h
      · have hout := outcome_eq h
        rw [← hout] at hc
        cases hc
      · -- The candidate goes on forced, and a forced candidate is not closed.
        have hforced := (reopenOrDecide_closes h hc).notForced
        cases hforced
  · rw [if_neg hflag] at h
    exact ⟨reopenOrDecide_closes h hc, fun hdec => hflag hdec.1⟩

theorem triageFresh_closes {ctx : Context} {db db' : DB} {e : Ingest} {row : ℕ} {c : Candidate}
    {out : Outcome} (hts : c.ts = e.ts.getD ctx.now)
    (h : triageFresh ctx db e row c = .ok (out, db')) (hc : out.closes = true) :
    Closable ctx db e c out ∧ ¬Deconflicted ctx db e c.policy := by
  unfold triageFresh at h
  split at h
  · split at h
    · have hout := outcome_eq h
      rw [← hout] at hc
      cases hc
    · exact deconflictOrDecide_closes hts h hc
  · exact deconflictOrDecide_closes hts h hc

/-! ## Frame: what ingest writes before the checks -/

/-- The tables the floor and the screens read are the same. -/
structure SameChecks (db db' : DB) : Prop where
  investigations : db'.investigations = db.investigations
  entityKeys : db'.entityKeys = db.entityKeys
  keyStats : db'.keyStats = db.keyStats
  tenantPolicies : db'.tenantPolicies = db.tenantPolicies
  engagements : db'.engagements = db.engagements

theorem SameChecks.refl (db : DB) : SameChecks db db := ⟨rfl, rfl, rfl, rfl, rfl⟩

theorem SameChecks.trans {db db' db'' : DB} (h : SameChecks db db') (h' : SameChecks db' db'') :
    SameChecks db db'' :=
  ⟨h'.1.trans h.1, h'.2.trans h.2, h'.3.trans h.3, h'.4.trans h.4, h'.5.trans h.5⟩

theorem SameChecks.updateAlert (db : DB) (id : ℕ) (f : Alert → Alert) :
    SameChecks db (db.updateAlert id f) := ⟨rfl, rfl, rfl, rfl, rfl⟩

theorem reserveSourceEvent_sameChecks {db db' : DB} {e : Ingest} {ts : ℤ} {row : ℕ}
    (h : reserveSourceEvent db e ts = some (row, db')) : SameChecks db db' := by
  unfold reserveSourceEvent at h
  split at h
  · cases h
  · have hdb := congrArg Prod.snd (Option.some.inj h)
    dsimp only at hdb
    rw [← hdb]
    exact ⟨rfl, rfl, rfl, rfl, rfl⟩

theorem upsertAlert_sameChecks (ctx : Context) (db : DB) (e : Ingest) (ts : ℤ) :
    SameChecks db (upsertAlert ctx db e ts).2 := by
  have hcoalesce : ∀ existing, SameChecks db (coalesce db e ts existing) :=
    fun _ => SameChecks.updateAlert db _ _
  have hinsert : SameChecks db (insertAlert db e ts (alertSignature ctx e.ruleId e.assetIds ts)) :=
    ⟨rfl, rfl, rfl, rfl, rfl⟩
  unfold upsertAlert
  dsimp only
  split
  · exact hcoalesce _
  · split
    · split
      · exact hinsert
      · exact hcoalesce _
    · exact hinsert

theorem describeAlert_sameChecks (db : DB) (alert : ℕ) (description : Option String) :
    SameChecks db (describeAlert db alert description) := by
  unfold describeAlert
  split
  · exact SameChecks.refl db
  · split
    · exact SameChecks.refl db
    · exact SameChecks.updateAlert db _ _

theorem SameChecks.sharesActive {db db' : DB} (h : SameChecks db db') (ctx : Context)
    (tenant : Tenant) (keys : List Key) :
    SharesActive ctx db' tenant keys ↔ SharesActive ctx db tenant keys := by
  unfold SharesActive AttachEligible
  rw [h.investigations, h.entityKeys, h.keyStats]

theorem SameChecks.floorClear {db db' : DB} (h : SameChecks db db') {ctx : Context} {e : Ingest}
    {keys : List Key} {policy : Dict} (hclear : FloorClear ctx db' e keys policy) :
    FloorClear ctx db e keys policy := by
  refine ⟨hclear.killSwitchOff, hclear.noIocs, ?_, ?_⟩
  · exact fun hshares => hclear.noActiveIncident ((h.sharesActive ctx e.tenant keys).mpr hshares)
  · have hcap := hclear.belowCap
    unfold BelowCap countRecentAutoCloses at hcap ⊢
    rwa [h.investigations] at hcap

theorem SameChecks.effectivePolicy {db db' : DB} (h : SameChecks db db') (ctx : Context)
    (tenant : Tenant) : effectivePolicy ctx db' tenant = effectivePolicy ctx db tenant := by
  unfold Triage.effectivePolicy
  rw [h.tenantPolicies]

theorem SameChecks.deconflicted {db db' : DB} (h : SameChecks db db') {ctx : Context} {e : Ingest}
    {policy : Dict} (hno : ¬Deconflicted ctx db' e policy) : ¬Deconflicted ctx db e policy := by
  unfold Deconflicted deconflict coveringEngagements at hno ⊢
  rwa [h.engagements] at hno

/-! ## The floor -/

/-- Every gate a close without an investigation run has to pass. -/
structure CloseAllowed (ctx : Context) (db : DB) (e : Ingest) (out : Outcome) : Prop where
  floor : FloorClear ctx db e (extractKeys ctx e) (effectivePolicy ctx db e.tenant)
  notForced : ¬Deconflicted ctx db e (effectivePolicy ctx db e.tenant)
  enabled : ∀ alert investigation, out = .autoClosed alert investigation →
    (Policy.get (effectivePolicy ctx db e.tenant) "auto_close_enabled" (.bool true)).truthy = true

/-- Ingest closes an alert with no run only where the kill switch is off, no indicator came
with it, no active case shares a key with it, the volume is below its cap and deconfliction
does not claim it. -/
theorem triageEvent_closeAllowed {ctx : Context} {db db' : DB} {e : Ingest} {out : Outcome}
    (h : triageEvent ctx db e = .ok (out, db')) (hc : out.closes = true) :
    CloseAllowed ctx db e out := by
  unfold triageEvent at h
  dsimp only at h
  cases hres : reserveSourceEvent db e (e.ts.getD ctx.now) with
  | none =>
    rw [hres] at h
    have hout := outcome_eq h
    rw [← hout] at hc
    cases hc
  | some reserved =>
    obtain ⟨row, db₁⟩ := reserved
    simp only [hres] at h
    have hup := upsertAlert_sameChecks ctx db₁ e (e.ts.getD ctx.now)
    have hres := reserveSourceEvent_sameChecks hres
    generalize upsertAlert ctx db₁ e (e.ts.getD ctx.now) = upserted at h hup
    obtain ⟨upsert, db₂⟩ := upserted
    have hlinked : SameChecks db (linkSourceEvent db₂ row upsert.alert) :=
      hres.trans (hup.trans ⟨rfl, rfl, rfl, rfl, rfl⟩)
    cases upsert with
    | merged alert =>
      have hout := outcome_eq h
      rw [← hout] at hc
      cases hc
    | attached alert investigation =>
      have hout := outcome_eq h
      rw [← hout] at hc
      cases hc
    | fresh alert =>
      have hsame := hlinked.trans (describeAlert_sameChecks _ alert e.description)
      obtain ⟨hclosable, hno⟩ := triageFresh_closes rfl h hc
      have hpolicy := hsame.effectivePolicy ctx e.tenant
      dsimp only [Upsert.alert] at hclosable hno hpolicy
      rw [hpolicy] at hno
      have hfloor := hclosable.floor
      have hon := hclosable.enabled
      dsimp only at hfloor hon
      rw [hpolicy] at hfloor hon
      exact ⟨hsame.floorClear hfloor, hsame.deconflicted hno, hon⟩

/-- No environment, no install policies, hashing and text left as they are. -/
def bareContext : Context := ⟨fun _ => none, 0, [], id, id, id, id, fun _ _ => false⟩

def lowSeverityEvent : Ingest := ⟨0, "wazuh", some "5501", 2, ["h1"], [], "e1", none, none, {}⟩

/-- A low-severity event on an empty database: it is closed, and every gate is open. -/
theorem triageEvent_closeAllowed_lowSeverity :
    ∃ db', triageEvent bareContext {} lowSeverityEvent = .ok (.autoClosed 1 2, db') ∧
      CloseAllowed bareContext {} lowSeverityEvent (.autoClosed 1 2) := by
  have hrun : (triageEvent bareContext {} lowSeverityEvent).map Prod.fst =
      .ok (.autoClosed 1 2) := by decide +kernel
  cases h : triageEvent bareContext {} lowSeverityEvent with
  | error _ => simp [h, Except.map] at hrun
  | ok result =>
    obtain ⟨out, db'⟩ := result
    obtain rfl : out = .autoClosed 1 2 := by simpa [h, Except.map] using hrun
    exact ⟨db', rfl, triageEvent_closeAllowed h rfl⟩

end SocTalk.Triage
