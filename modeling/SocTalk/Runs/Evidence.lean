import SocTalk.Runs.Rules

/-! Evidence that arrives while a run executes: a flagged active investigation has a live run. -/
namespace SocTalk.Runs
open ReadCommitted

/-- A live run of the investigation. -/
def Attended (t : Tables) (c : InvestigationId) : Prop :=
  ∃ id ∈ t.runIds, ∃ row, t.runs id = some row ∧ row.investigation = c ∧ row.status.live = true

theorem attended_iff {t : Tables} {c : InvestigationId} :
    Attended t c ↔ (activeRunForCase t c).isSome = true := by
  unfold activeRunForCase
  rw [List.find?_isSome]
  constructor
  · rintro ⟨id, hid, row, hrow, hc, hlive⟩
    exact ⟨id, hid, by simp [hrow, hc, hlive]⟩
  · rintro ⟨id, hid, hfind⟩
    cases hrow : t.runs id with
    | none => simp [hrow] at hfind
    | some row =>
      simp only [hrow, Bool.and_eq_true, beq_iff_eq] at hfind
      exact ⟨id, hid, row, hrow, hfind⟩

/-- Flagged evidence on an active investigation has a live run. -/
def NoLostEvidence (t : Tables) : Prop :=
  ∀ c row, t.investigations c = some row → row.status = .active →
    row.hasNewEvidence = true → Attended t c

/-- Moreover every run is listed and belongs to an investigation. -/
structure EvidenceInv (t : Tables) : Prop where
  attended : NoLostEvidence t
  listed : ∀ id row, t.runs id = some row → id ∈ t.runIds
  owned : ∀ id row, t.runs id = some row → (t.investigations row.investigation).isSome = true

/-- An investigation stays, and a closed one is not activated again. -/
def StatusKept (old row : InvestigationRow) : Prop := row.status = .active → old.status = .active

def InvestigationsKept (t t' : Tables) : Prop :=
  ∀ c old, t.investigations c = some old →
    ∃ row, t'.investigations c = some row ∧ StatusKept old row

theorem InvestigationsKept.trans {t t' t'' : Tables} (h : InvestigationsKept t t')
    (h' : InvestigationsKept t' t'') : InvestigationsKept t t'' := by
  intro c old hold
  obtain ⟨row, hrow, hkept⟩ := h c old hold
  obtain ⟨row', hrow', hkept'⟩ := h' c row hrow
  exact ⟨row', hrow', fun hactive => hkept (hkept' hactive)⟩

def evidenceOutline : Outline Tables Unit Request where
  inv _ sh := EvidenceInv sh.db
  rely _ sh sh' := InvestigationsKept sh.db sh'.db
  commits _ _ _ _ := True
  calls _ _ _ _ := True
  inv_open _ _ h := h
  rely_refl _ _ _ old hold := ⟨old, hold, id⟩
  rely_trans _ _ _ _ h h' := h.trans h'

/-- The condition: a run is not ended as failed over flagged evidence; no evidence is
flagged between a completion's look at the flag and its commit; and evidence is not flagged
on an active investigation whose last live run has ended since it was looked up. -/
def evidenceSeen : Stmt → View Tables Resource → Prop
  | .releaseUpdate run lease _ _, v => ∀ row, heldRow v.db run lease = some row →
      row.maxAttempts ≤ row.attempts + 1 →
      (evidenceFlag v.db row.investigation && investigationActive v.db row.investigation) = false
  | .completeUpdate run lease _ _ status, v => status = .failed →
      ∀ row, heldRow v.db run lease = some row →
      (evidenceFlag v.db row.investigation && investigationActive v.db row.investigation) = false
  | .endedCommit c flagRead, v => investigationActive v.db c = true →
      evidenceFlag v.db c = flagRead
  | .attachCommit c, v => investigationActive v.db c = true →
      (activeRunForCase v.db c).isSome = true
  | _, _ => True

/-! ## Sessions that touch one investigation -/

/-- What a session has pending concerns the investigation `c` and its runs. -/
structure Touches (c : InvestigationId) (ws : List Write) (t : Tables) : Prop where
  present : (t.investigations c).isSome = true
  runs : ∀ w ∈ ws, ∀ id row, w.runRow? = some (id, row) → row.investigation = c ∧
    ((w.insertedRun? = some id ∧ t.runs id = none) ∨
      ∃ old, t.runs id = some old ∧ old.investigation = c)
  investigations : ∀ w ∈ ws, ∀ c' row, w.investigationRow? = some (c', row) → c' = c ∧
    ∀ old, t.investigations c = some old → StatusKept old row

section

variable {c : InvestigationId} {ws ws' : List Write} {t : Tables}

/-- What the session sees of its investigation. -/
theorem Touches.view (h : Touches c ws t) :
    ∃ old row, t.investigations c = some old ∧
      (store.applyAll ws t).investigations c = some row ∧ StatusKept old row := by
  obtain ⟨old, hold⟩ := Option.isSome_iff_exists.mp h.present
  rcases investigations_applyAll ws t c with ⟨w, hw, row, hrow, heq⟩ | ⟨-, heq⟩
  · exact ⟨old, row, hold, heq, (h.investigations w hw c row hrow).2 old hold⟩
  · exact ⟨old, old, hold, heq.trans hold, id⟩

theorem Touches.append (h : Touches c ws t) (h' : Touches c ws' t) : Touches c (ws ++ ws') t where
  present := h.present
  runs w hw := by
    rcases List.mem_append.mp hw with hw | hw
    · exact h.runs w hw
    · exact h'.runs w hw
  investigations w hw := by
    rcases List.mem_append.mp hw with hw | hw
    · exact h.investigations w hw
    · exact h'.investigations w hw

/-- Ledger rows, effects and locks touch nothing. -/
theorem Touches.of_none (hc : (t.investigations c).isSome = true)
    (h : ∀ w ∈ ws, w.runRow? = none ∧ w.investigationRow? = none) : Touches c ws t where
  present := hc
  runs w hw id row hrow := by
    rw [(h w hw).1] at hrow
    cases hrow
  investigations w hw c' row hrow := by
    rw [(h w hw).2] at hrow
    cases hrow

theorem Touches.stable {i : ℕ} {sh sh' : Shared Tables Unit} (h : Touches c ws sh.db)
    (hr : RelyOn evidenceOutline store i ws sh sh') : Touches c ws sh'.db where
  present := by
    obtain ⟨old, hold⟩ := Option.isSome_iff_exists.mp h.present
    obtain ⟨row, hrow, -⟩ := hr.1 c old hold
    rw [hrow]
    rfl
  runs w hw id row hrow := by
    have hheld : Resource.run id ∈ store.held ws := by
      refine List.mem_flatMap.mpr ⟨w, hw, ?_⟩
      cases w <;> simp_all [Write.runRow?, store, Write.locks]
    rw [runs_of_relyOn hr hheld]
    exact h.runs w hw id row hrow
  investigations w hw c' row hrow := by
    obtain ⟨rfl, hold⟩ := h.investigations w hw c' row hrow
    refine ⟨rfl, fun old hold' => hold old ?_⟩
    have hheld : Resource.investigation c' ∈ store.held ws := by
      refine List.mem_flatMap.mpr ⟨w, hw, ?_⟩
      cases w <;> simp_all [Write.investigationRow?, store, Write.locks]
    rw [← investigations_of_relyOn hr hheld]
    exact hold'

/-- The commit of such a session is safe when its own investigation is. -/
theorem Touches.commit {i n : ℕ} {req : Request} {sh : Shared Tables Unit}
    (h : Touches c ws sh.db) (hinv : EvidenceInv sh.db)
    (hown : ∀ row, (store.applyAll ws sh.db).investigations c = some row →
      row.status = .active → row.hasNewEvidence = true →
      Attended (store.applyAll ws sh.db) c) :
    Guarantees evidenceOutline i n sh { sh with db := store.applyAll ws sh.db } ∧
      evidenceOutline.commits i req sh { sh with db := store.applyAll ws sh.db } := by
  have hother : ∀ c', c' ≠ c →
      (store.applyAll ws sh.db).investigations c' = sh.db.investigations c' := by
    intro c' hc'
    rcases investigations_applyAll ws sh.db c' with ⟨w, hw, row, hrow, -⟩ | ⟨-, heq⟩
    · exact absurd (h.investigations w hw c' row hrow).1 hc'
    · exact heq
  have hkept : InvestigationsKept sh.db (store.applyAll ws sh.db) := by
    intro c' old hold
    by_cases hc' : c' = c
    · obtain ⟨old', row, hold', hrow, hst⟩ := h.view
      subst hc'
      obtain rfl := Option.some.inj (hold.symm.trans hold')
      exact ⟨row, hrow, hst⟩
    · exact ⟨old, (hother c' hc').trans hold, id⟩
  have hgrow : ∀ id ∈ sh.db.runIds, id ∈ (store.applyAll ws sh.db).runIds := by
    intro id hid
    rw [runIds_applyAll]
    exact List.mem_append_left _ hid
  refine ⟨⟨⟨?_, ?_, ?_⟩, fun _ _ => hkept⟩, trivial⟩
  · intro c' row hrow hactive hflag
    by_cases hc' : c' = c
    · subst hc'
      exact hown row hrow hactive hflag
    · rw [hother c' hc'] at hrow
      obtain ⟨id, hid, r, hr, hrc, hlive⟩ := hinv.attended c' row hrow hactive hflag
      refine ⟨id, hgrow id hid, r, ?_, hrc, hlive⟩
      rcases runs_applyAll ws sh.db id with ⟨w, hw, r', hr', -⟩ | ⟨-, heq⟩
      · exfalso
        rcases (h.runs w hw id r' hr').2 with ⟨-, hnone⟩ | ⟨old, hold, holdc⟩
        · rw [hr] at hnone
          cases hnone
        · obtain rfl := Option.some.inj (hr.symm.trans hold)
          exact hc' (hrc.symm.trans holdc)
      · exact heq.trans hr
  · intro id row hrow
    rcases runs_applyAll ws sh.db id with ⟨w, hw, r', hr', -⟩ | ⟨-, heq⟩
    · rcases (h.runs w hw id r' hr').2 with ⟨hins, -⟩ | ⟨old, hold, -⟩
      · rw [runIds_applyAll]
        exact List.mem_append_right _ (List.mem_filterMap.mpr ⟨w, hw, hins⟩)
      · exact hgrow id (hinv.listed id old hold)
    · exact hgrow id (hinv.listed id row (heq ▸ hrow))
  · intro id row hrow
    have hpresent : ∀ c', (sh.db.investigations c').isSome = true →
        ((store.applyAll ws sh.db).investigations c').isSome = true := by
      intro c' hsome
      obtain ⟨old, hold⟩ := Option.isSome_iff_exists.mp hsome
      obtain ⟨row', hrow', -⟩ := hkept c' old hold
      rw [hrow']
      rfl
    rcases runs_applyAll ws sh.db id with ⟨w, hw, row', hrow', heq⟩ | ⟨-, heq⟩
    · obtain rfl := Option.some.inj (heq.symm.trans hrow)
      rw [(h.runs w hw id row' hrow').1]
      exact hpresent c h.present
    · exact hpresent _ (hinv.owned id row (heq ▸ hrow))

end

/-! ## Reports -/

section

variable {i : ℕ} {req : Request} {sh : Shared Tables Unit} {c : InvestigationId}

/-- A run that stays live attends its investigation. -/
theorem safe_commitLive {ws : List Write} {run : RunId} {row : RunRow} {lab : Stmt}
    (h : Touches c ws sh.db) (hset : .setRun run row ∈ ws)
    (hlast : ∀ w ∈ ws, ∀ r, w.runRow? = some (run, r) → r = row)
    (hrow : row.investigation = c) (hlive : row.status.live = true) :
    Safe evidenceOutline store evidenceSeen i req (.commit lab) ws sh := by
  intro n sh' locked _ hinv hr _
  apply (h.stable hr).commit hinv
  intro _ _ _ _
  have hids : run ∈ sh'.db.runIds := by
    rcases ((h.stable hr).runs _ hset run row rfl).2 with ⟨hins, -⟩ | ⟨old, hold, -⟩
    · cases hins
    · exact hinv.listed run old hold
  have hids' : run ∈ (store.applyAll ws sh'.db).runIds := by
    rw [runIds_applyAll]
    exact List.mem_append_left _ hids
  refine ⟨run, hids', row, ?_, hrow, hlive⟩
  rcases runs_applyAll ws sh'.db run with ⟨w, hw, r, hwr, heq⟩ | ⟨hno, -⟩
  · rw [heq, hlast w hw r hwr]
  · exact absurd rfl (hno _ hset row)

/-- The commit of an ended run, when its investigation was seen inactive or not flagged. -/
theorem safe_commitEnded {ws : List Write} {flagRead : Bool} (h : Touches c ws sh.db)
    (hread : flagRead = evidenceFlag (store.applyAll ws sh.db) c)
    (hno : (flagRead && investigationActive (store.applyAll ws sh.db) c) = false) :
    Safe evidenceOutline store evidenceSeen i req (.commit (.endedCommit c flagRead)) ws sh := by
  intro n sh' locked _ hinv hr hcond
  apply (h.stable hr).commit hinv
  intro row hrow hactive hflag
  exfalso
  by_cases hheld : Resource.investigation c ∈ store.held ws
  · have hsame := investigations_applyAll_congr ws (investigations_of_relyOn hr hheld)
    rw [hsame] at hrow
    rw [hread] at hno
    unfold evidenceFlag investigationActive at hno
    rw [hrow] at hno
    simp [hactive, hflag] at hno
  · -- Nothing pending on the investigation: it is as committed, then and now.
    have hunheld : ∀ t, (store.applyAll ws t).investigations c = t.investigations c :=
      fun t => congrArg Prod.snd (store.row_applyAll hheld t)
    rw [hunheld] at hrow
    obtain ⟨old, hold⟩ := Option.isSome_iff_exists.mp h.present
    obtain ⟨row', hrow', hkept⟩ := hr.1 c old hold
    obtain rfl := Option.some.inj (hrow.symm.trans hrow')
    have hnow : flagRead = true := by
      rw [← hcond (by simp [investigationActive, hrow, hactive])]
      simp [evidenceFlag, hrow, hflag]
    have hthen : investigationActive (store.applyAll ws sh.db) c = true := by
      simp [investigationActive, hunheld, hold, hkept hactive]
    rw [hnow, hthen] at hno
    cases hno

/-- What a report has pending: its ledger rows and the run's new row. -/
theorem touches_report {t : Tables} {run : RunId} {row row' : RunRow} (rows : List LedgerRow)
    {extra : List Write} (hinv : EvidenceInv t) (hrow : t.runs run = some row)
    (hc : row'.investigation = row.investigation)
    (hextra : ∀ w ∈ extra, w.runRow? = none ∧ w.investigationRow? = none) :
    Touches row.investigation (rows.map .insertLedger ++ .setRun run row' :: extra) t := by
  have hpresent := hinv.owned run row hrow
  have hrows : Touches row.investigation (rows.map .insertLedger) t := by
    apply Touches.of_none hpresent
    intro w hw
    obtain ⟨r, -, rfl⟩ := List.mem_map.mp hw
    exact ⟨rfl, rfl⟩
  have hset : Touches row.investigation [.setRun run row'] t := by
    refine ⟨hpresent, fun w hw id r hr => ?_, fun w hw c' r hr => ?_⟩
    · obtain rfl := List.mem_singleton.mp hw
      obtain ⟨rfl, rfl⟩ : run = id ∧ row' = r := by simpa [Write.runRow?] using hr
      exact ⟨hc, Or.inr ⟨row, hrow, rfl⟩⟩
    · obtain rfl := List.mem_singleton.mp hw
      cases hr
  exact hrows.append (hset.append (Touches.of_none hpresent hextra))

theorem investigations_report (rows : List LedgerRow) (run : RunId) (row : RunRow)
    (extra : List Write) (hextra : ∀ w ∈ extra, w.runRow? = none ∧ w.investigationRow? = none)
    (t : Tables) (c : InvestigationId) :
    (store.applyAll (rows.map .insertLedger ++ .setRun run row :: extra) t).investigations c =
      t.investigations c := by
  rcases investigations_applyAll (rows.map .insertLedger ++ .setRun run row :: extra) t c with
    ⟨w, hw, r, hr, -⟩ | ⟨-, heq⟩
  · rcases List.mem_append.mp hw with hw | hw
    · obtain ⟨l, -, rfl⟩ := List.mem_map.mp hw
      cases hr
    · rcases List.mem_cons.mp hw with rfl | hw
      · cases hr
      · rw [(hextra w hw).2] at hr
        cases hr
  · exact heq

theorem setRun_unique {rows : List LedgerRow} {run : RunId} {row : RunRow} {extra : List Write}
    (hextra : ∀ w ∈ extra, w.runRow? = none ∧ w.investigationRow? = none) :
    ∀ w ∈ rows.map Write.insertLedger ++ .setRun run row :: extra, ∀ r,
      w.runRow? = some (run, r) → r = row := by
  intro w hw r hr
  rcases List.mem_append.mp hw with hw | hw
  · obtain ⟨l, -, rfl⟩ := List.mem_map.mp hw
    cases hr
  · rcases List.mem_cons.mp hw with rfl | hw
    · obtain ⟨-, rfl⟩ : run = run ∧ row = r := by simpa [Write.runRow?] using hr
      rfl
    · rw [(hextra w hw).1] at hr
      cases hr

/-- A report that leaves its run live. -/
theorem safe_liveReport {run : RunId} {row row' : RunRow} {rows : List LedgerRow}
    {extra : List Write} {lab : Stmt} (hinv : EvidenceInv sh.db)
    (hrow : sh.db.runs run = some row) (hc : row'.investigation = row.investigation)
    (hextra : ∀ w ∈ extra, w.runRow? = none ∧ w.investigationRow? = none)
    (hlive : row'.status.live = true) :
    Safe evidenceOutline store evidenceSeen i req (.commit lab)
      (rows.map .insertLedger ++ .setRun run row' :: extra) sh :=
  safe_commitLive (touches_report rows hinv hrow hc hextra) (by simp) (setRun_unique hextra) hc
    hlive

/-- A report that ends its run without a disposition, over no flagged evidence. -/
theorem safe_endedReport {run : RunId} {row row' : RunRow} {rows : List LedgerRow}
    {extra : List Write} (hinv : EvidenceInv sh.db) (hrow : sh.db.runs run = some row)
    (hc : row'.investigation = row.investigation)
    (hextra : ∀ w ∈ extra, w.runRow? = none ∧ w.investigationRow? = none)
    (hseen : let seen := store.applyAll (rows.map .insertLedger) sh.db
      (evidenceFlag seen row.investigation && investigationActive seen row.investigation) = false) :
    Safe evidenceOutline store evidenceSeen i req
      (.commit (.endedCommit row.investigation
        (evidenceFlag (store.applyAll (rows.map .insertLedger) sh.db) row.investigation)))
      (rows.map .insertLedger ++ .setRun run row' :: extra) sh := by
  have hsame : (store.applyAll (rows.map .insertLedger ++ .setRun run row' :: extra)
      sh.db).investigations = (store.applyAll (rows.map .insertLedger) sh.db).investigations := by
    funext c
    rw [investigations_report rows run row' extra hextra, applyAll_ledger]
  apply safe_commitEnded (touches_report rows hinv hrow hc hextra)
  · unfold evidenceFlag
    rw [hsame]
  · unfold investigationActive
    rw [hsame]
    exact hseen

theorem safe_evidenceHeartbeat (run : RunId) (lease : LeaseId) (wall : Time) (usage : Usage) :
    Safe evidenceOutline store evidenceSeen i (.heartbeat run lease wall usage)
      (heartbeatRun run lease wall usage) [] sh := by
  unfold heartbeatRun
  refine safe_report (fun v hv => by simp [hv]) ?_
  intro n sh' read row locked _ hinv _ hheld _
  obtain ⟨hrow, -, hactive⟩ := heldRow_eq_some.mp hheld
  rw [heldRow_applyAll_ledger, hheld, Option.isSome_some, if_pos rfl]
  have hlive : row.status.live = true := by
    rw [hactive]
    rfl
  exact safe_liveReport hinv hrow rfl (by simp) hlive

theorem safe_evidenceRelease (run : RunId) (lease : LeaseId) (now : Time) (usage : Usage) :
    Safe evidenceOutline store evidenceSeen i (.release run lease now usage)
      (releaseRun run lease now usage) [] sh := by
  unfold releaseRun
  refine safe_report (fun v hv => by simp [hv]) ?_
  intro n sh' read row locked _ hinv _ hheld hcond
  obtain ⟨hrow, -, -⟩ := heldRow_eq_some.mp hheld
  rw [heldRow_applyAll_ledger, hheld]
  dsimp only
  by_cases hlast : row.maxAttempts ≤ row.attempts + 1
  · rw [if_pos hlast]
    have hseen := hcond row (by rw [heldRow_applyAll_ledger]; exact hheld) hlast
    exact safe_endedReport hinv hrow rfl (by simp) hseen
  · rw [if_neg hlast]
    have hlive : (row.released now usage).status.live = true := by
      unfold RunRow.released
      rw [if_neg hlast]
      rfl
    exact safe_liveReport hinv hrow rfl (by simp) hlive

/-! ## The completion -/

theorem touches_effects {ws : List Write} {t : Tables} (effects : List Effect)
    (h : Touches c ws t) : Touches c (ws ++ effects.map .insertEffect) t := by
  apply h.append (Touches.of_none h.present ?_)
  intro w hw
  obtain ⟨e, -, rfl⟩ := List.mem_map.mp hw
  exact ⟨rfl, rfl⟩

/-- A new row for the investigation, made from the one in sight. -/
theorem touches_setInvestigation {ws : List Write} {t : Tables} {row row' : InvestigationRow}
    (h : Touches c ws t) (hrow : (store.applyAll ws t).investigations c = some row)
    (hkept : StatusKept row row') : Touches c (ws ++ [.setInvestigation c row']) t := by
  apply h.append
  refine ⟨h.present, fun w hw id r hr => ?_, fun w hw c' r hr => ?_⟩
  · obtain rfl := List.mem_singleton.mp hw
    cases hr
  · obtain rfl := List.mem_singleton.mp hw
    obtain ⟨rfl, rfl⟩ : c = c' ∧ row' = r := by simpa [Write.investigationRow?] using hr
    refine ⟨rfl, fun old hold hactive => ?_⟩
    obtain ⟨old', seen, hold', hseen, hst⟩ := h.view
    obtain rfl := Option.some.inj (hold.symm.trans hold')
    obtain rfl := Option.some.inj (hrow.symm.trans hseen)
    exact hst (hkept hactive)

theorem touches_insertRun {t : Tables} (run lease : ℕ) (hc : (t.investigations c).isSome = true)
    (hfree : t.runs i = none) (now : Time) :
    Touches c [.insertRun i (newRun c now now), .insertEffect ⟨run, lease, .followUp i⟩] t := by
  refine ⟨hc, fun w hw id r hr => ?_, fun w hw c' r hr => ?_⟩
  · simp only [List.mem_cons, List.not_mem_nil, or_false] at hw
    rcases hw with rfl | rfl
    · obtain ⟨rfl, rfl⟩ : i = id ∧ newRun c now now = r := by simpa [Write.runRow?] using hr
      exact ⟨rfl, Or.inl ⟨rfl, hfree⟩⟩
    · cases hr
  · simp only [List.mem_cons, List.not_mem_nil, or_false] at hw
    rcases hw with rfl | rfl <;> cases hr

theorem safe_followUpRun {ws : List Write} (run : RunId) (lease : LeaseId) (now : Time)
    (h : Touches c ws sh.db) :
    Safe evidenceOutline store evidenceSeen i req (followUpRun i run lease now c) ws sh := by
  unfold followUpRun
  intro n sh1 locked1 _ _ hr1 _
  have h1 := h.stable hr1
  dsimp only
  rw [List.append_nil]
  by_cases hflag : (evidenceFlag (store.applyAll ws sh1.db) c &&
      investigationActive (store.applyAll ws sh1.db) c) = true
  · rw [if_pos hflag]
    intro n2 sh2 locked2 _ _ hr2 _
    have h2 := h1.stable hr2
    obtain ⟨-, row, -, hrow, -⟩ := h2.view
    dsimp only
    rw [hrow, Option.toList_some, List.map_cons, List.map_nil]
    have h2' := touches_setInvestigation h2 hrow
      (show StatusKept row { row with hasNewEvidence := false } from id)
    intro n3 sh3 locked3 _ _ hr3 _
    have h3 := h2'.stable hr3
    dsimp only
    by_cases hins : insertable (store.applyAll
        (ws ++ [.setInvestigation c { row with hasNewEvidence := false }]) sh3.db) i c = true
    · rw [if_pos hins, if_pos hins]
      have hfree : sh3.db.runs i = none := by
        simp only [insertable, Bool.and_eq_true, Option.isNone_iff_eq_none] at hins
        exact runs_eq_none_of_applyAll hins.1
      have h3' := h3.append (touches_insertRun run lease h3.present hfree now)
      intro n4 sh4 locked4 _ hinv4 hr4 _
      apply (h3'.stable hr4).commit hinv4
      -- The flag is cleared in the same transaction.
      intro final hfinal _ hset
      rw [Store.applyAll_append, Store.applyAll_append] at hfinal
      simp [store, Store.applyAll, Write.apply] at hfinal
      rw [← hfinal] at hset
      cases hset
    · rw [if_neg hins, if_neg hins]
      trivial
  · rw [if_neg hflag]
    exact safe_commitEnded h1 rfl (by simpa using hflag)

theorem safe_afterDisposition {ws : List Write} (run : RunId) (lease : LeaseId) (now : Time)
    (payload : CompletePayload) (reads : CompleteReads) (d : Option TriagePolicy.Disposition)
    (changed : Bool) (h : Touches c ws sh.db) :
    Safe evidenceOutline store evidenceSeen i req
      (afterDisposition i run lease now c payload reads d changed) ws sh := by
  unfold afterDisposition
  have hone : ∀ (p : Prop) [Decidable p] (e : Effect) (ws' : List Write) (t : Tables),
      Touches c ws' t → Touches c (ws' ++ if p then [.insertEffect e] else []) t := by
    intro p _ e ws' t h'
    by_cases hp : p
    · rw [if_pos hp]
      exact touches_effects [e] h'
    · rw [if_neg hp, List.append_nil]
      exact h'
  intro n1 sh1 locked1 _ _ hr1 _ n2 sh2 locked2 _ _ hr2 _
  exact safe_followUpRun run lease now
    (hone _ _ _ _ ((hone _ _ _ _ (h.stable hr1)).stable hr2))

theorem safe_applyDisposition {ws : List Write} (run : RunId) (lease : LeaseId) (now : Time)
    (payload : CompletePayload) (reads : CompleteReads) (h : Touches c ws sh.db) :
    Safe evidenceOutline store evidenceSeen i req
      (applyDisposition i run lease now c payload reads) ws sh := by
  unfold applyDisposition
  split
  · intro n1 sh1 locked1 _ _ hr1 _
    have h1 := h.stable hr1
    apply safe_afterDisposition
    obtain ⟨-, row, -, hrow, -⟩ := h1.view
    dsimp only
    split
    · rw [hrow]
      have hset := touches_setInvestigation h1 hrow
        (show StatusKept row { row with status := .autoClosedFp } from fun hclosed => by cases hclosed)
      have hall := touches_effects [⟨run, lease, .closed⟩] hset
      rwa [List.append_assoc] at hall
    · rw [List.append_nil]
      exact h1
  · intro n1 sh1 locked1 _ _ hr1 _
    have h1 := h.stable hr1
    apply safe_afterDisposition
    obtain ⟨-, row, -, hrow, -⟩ := h1.view
    dsimp only
    rw [← List.append_assoc]
    apply touches_effects [⟨run, lease, .reviewRequested⟩]
    split
    · rw [hrow]
      exact touches_setInvestigation h1 hrow
        (show StatusKept row { row with severity := max row.severity 12 } from id)
    · rw [List.append_nil]
      exact h1
  · exact safe_afterDisposition run lease now payload reads _ _ h

theorem safe_evidenceComplete (run : RunId) (lease : LeaseId) (now : Time)
    (payload : CompletePayload) (reads : CompleteReads) :
    Safe evidenceOutline store evidenceSeen i (.complete run lease now payload reads)
      (completeRun i run lease now payload reads) [] sh := by
  unfold completeRun
  refine safe_report (fun v hv => by simp [hv]) ?_
  intro n sh' read row locked _ hinv _ hheld hcond
  obtain ⟨hrow, -, -⟩ := heldRow_eq_some.mp hheld
  have hextra : ∀ w ∈ [Write.insertEffect ⟨run, lease, .ended⟩],
      w.runRow? = none ∧ w.investigationRow? = none := by
    intro w hw
    obtain rfl := List.mem_singleton.mp hw
    exact ⟨rfl, rfl⟩
  rw [heldRow_applyAll_ledger, hheld]
  cases hstatus : payload.status with
  | completed =>
    exact safe_applyDisposition run lease now payload reads
      (touches_report _ hinv hrow rfl hextra)
  | haltedBudget =>
    have hlive : (row.ended payload).status.live = true := by
      simp [RunRow.ended, hstatus, FinalStatus.runStatus, RunStatus.live]
    exact safe_liveReport hinv hrow rfl hextra hlive
  | failed =>
    have hseen := hcond hstatus row (by rw [heldRow_applyAll_ledger]; exact hheld)
    exact safe_endedReport hinv hrow rfl hextra hseen

end

/-! ## The other parties -/

section

variable {i : ℕ} {req : Request} {sh : Shared Tables Unit}

/-- A run stays with its investigation, and live if it was. -/
def LiveKept (old row : RunRow) : Prop :=
  row.investigation = old.investigation ∧ (old.status.live = true → row.status.live = true)

theorem liveKept_trans (a b c : RunRow) (h : LiveKept a b) (h' : LiveKept b c) : LiveKept a c :=
  ⟨h'.1.trans h.1, fun hlive => h'.2 (h.2 hlive)⟩

theorem safe_of_liveKept {prog : Program} (hprog : KeepsProg LiveKept (fun _ _ => False) prog)
    {ws : List Write} (hws : ∀ w ∈ ws, Kept LiveKept (fun _ _ => False) sh.db w) :
    Safe evidenceOutline store evidenceSeen i req prog ws sh := by
  apply safe_of_keeps liveKept_trans (fun _ _ _ h _ => h.elim) hprog hws
  intro ws' n sh' hws' _ hinv
  have hinvest : ∀ c, (store.applyAll ws' sh'.db).investigations c = sh'.db.investigations c := by
    intro c
    rcases investigations_applyAll ws' sh'.db c with ⟨w, hw, row, hrow, -⟩ | ⟨-, heq⟩
    · have hk := hws' w hw
      cases w with
      | setInvestigation c' r =>
        obtain ⟨old, -, hfalse⟩ := hk
        exact hfalse.elim
      | _ => cases hrow
    · exact heq
  have hruns : ∀ id old, sh'.db.runs id = some old →
      ∃ row, (store.applyAll ws' sh'.db).runs id = some row ∧ LiveKept old row := by
    intro id old hold
    rcases runs_applyAll ws' sh'.db id with ⟨w, -, row, -, heq⟩ | ⟨-, heq⟩
    · obtain ⟨old', hold', hrow⟩ := Kept.runs hws' heq
      obtain rfl := Option.some.inj (hold.symm.trans hold')
      rcases hrow with rfl | hrow
      · exact ⟨row, heq, rfl, fun hlive => hlive⟩
      · exact ⟨row, heq, hrow⟩
    · exact ⟨old, heq.trans hold, rfl, fun hlive => hlive⟩
  have hgrow : ∀ id ∈ sh'.db.runIds, id ∈ (store.applyAll ws' sh'.db).runIds := by
    intro id hid
    rw [runIds_applyAll]
    exact List.mem_append_left _ hid
  refine ⟨⟨⟨?_, ?_, ?_⟩, fun _ _ c old hold => ⟨old, (hinvest c).trans hold, id⟩⟩, trivial⟩
  · intro c row hrow hactive hflag
    rw [hinvest] at hrow
    obtain ⟨id, hid, old, hold, hc, hlive⟩ := hinv.attended c row hrow hactive hflag
    obtain ⟨row', hrow', hsame, hstay⟩ := hruns id old hold
    exact ⟨id, hgrow id hid, row', hrow', hsame.trans hc, hstay hlive⟩
  · intro id row hrow
    obtain ⟨old, hold, -⟩ := Kept.runs hws' hrow
    exact hgrow id (hinv.listed id old hold)
  · intro id row hrow
    obtain ⟨old, hold, hsame⟩ := Kept.runs hws' hrow
    have hc : row.investigation = old.investigation := by
      rcases hsame with rfl | hsame
      · rfl
      · exact hsame.1
    rw [hinvest, hc]
    exact hinv.owned id old hold

theorem safe_evidenceAttach (c : InvestigationId) :
    Safe evidenceOutline store evidenceSeen i (.attach c) (attachEvidence c) [] sh := by
  unfold attachEvidence
  intro n1 sh1 locked1 _ _ _ _
  dsimp only
  split
  · exact safe_of_liveKept (keeps_commit _) (by simp)
  · intro n2 sh2 locked2 _ _ _ _
    dsimp only
    cases hrow : (store.applyAll ([] ++ []) sh2.db).investigations c with
    | none => exact safe_of_liveKept (keeps_commit _) (by simp)
    | some row =>
      have hnil : Touches c [] sh2.db := by
        apply Touches.of_none _ (by simp)
        rw [show sh2.db.investigations c = some row from hrow]
        rfl
      have h2 := touches_setInvestigation hnil hrow
        (show StatusKept row { row with hasNewEvidence := true } from id)
      intro n3 sh3 locked3 _ hinv hr3 hcond
      have h3 := h2.stable hr3
      apply h3.commit hinv
      intro final hfinal hactive _
      obtain ⟨old, final', hold, hfinal', hkept⟩ := h3.view
      obtain rfl := Option.some.inj (hfinal.symm.trans hfinal')
      have hnow : investigationActive sh3.db c = true := by
        simp [investigationActive, hold, hkept hactive]
      exact attended_iff.mpr (hcond hnow)

theorem safe_evidencePromote (severity : ℕ) (now notBefore : Time) :
    Safe evidenceOutline store evidenceSeen i (.promote severity now notBefore)
      (promoteAlert i severity now notBefore) [] sh := by
  apply safe_promoteAlert
  intro n sh' _ hinv _ hnone hfree all
  have hinvest : ∀ c, c ≠ i →
      (store.applyAll all sh'.db).investigations c = sh'.db.investigations c :=
    fun c hc => Function.update_of_ne hc _ _
  have hkept : InvestigationsKept sh'.db (store.applyAll all sh'.db) := by
    intro c old hold
    have hc : c ≠ i := by
      rintro rfl
      rw [hnone] at hold
      cases hold
    exact ⟨old, (hinvest c hc).trans hold, id⟩
  refine ⟨⟨⟨?_, ?_, ?_⟩, fun _ _ => hkept⟩, trivial⟩
  · intro c row hrow hactive hflag
    by_cases hc : c = i
    · -- The fresh investigation has no evidence yet.
      subst hc
      have hself : (store.applyAll all sh'.db).investigations c = some { severity := severity } :=
        Function.update_self _ _ _
      rw [hself] at hrow
      obtain rfl := Option.some.inj hrow
      cases hflag
    · rw [hinvest c hc] at hrow
      obtain ⟨id, hmem, r, hr, hrc, hlive⟩ := hinv.attended c row hrow hactive hflag
      have hid : id ≠ i := by
        rintro rfl
        rw [hfree] at hr
        cases hr
      have hsame : (store.applyAll all sh'.db).runs id = sh'.db.runs id :=
        Function.update_of_ne hid _ _
      exact ⟨id, List.mem_append_left _ hmem, r, hsame.trans hr, hrc, hlive⟩
  · intro id row hrow
    by_cases hid : id = i
    · exact List.mem_append_right _ (List.mem_singleton.mpr hid)
    · have hsame : (store.applyAll all sh'.db).runs id = sh'.db.runs id :=
        Function.update_of_ne hid _ _
      exact List.mem_append_left _ (hinv.listed id row (hsame ▸ hrow))
  · intro id row hrow
    by_cases hid : id = i
    · subst hid
      have hself : (store.applyAll all sh'.db).runs id = some (newRun id now notBefore) :=
        Function.update_self _ _ _
      rw [hself] at hrow
      obtain rfl := Option.some.inj hrow
      have hown : (store.applyAll all sh'.db).investigations id = some { severity := severity } :=
        Function.update_self _ _ _
      rw [show (newRun id now notBefore).investigation = id from rfl, hown]
      rfl
    · have hsame : (store.applyAll all sh'.db).runs id = sh'.db.runs id :=
        Function.update_of_ne hid _ _
      obtain ⟨old, hold⟩ := Option.isSome_iff_exists.mp (hinv.owned id row (hsame ▸ hrow))
      obtain ⟨row', hrow', -⟩ := hkept _ old hold
      rw [hrow']
      rfl

end

theorem safe_evidence (n : ℕ) (req : Request) (sh : Shared Tables Unit)
    (_hinv : evidenceOutline.inv n sh) :
    Safe evidenceOutline store evidenceSeen n req (serve n req) [] sh := by
  cases req with
  | claim now wall capOk =>
    exact safe_of_liveKept (keeps_claim n now wall capOk fun _ _ _ _ => ⟨rfl, id⟩) (by simp)
  | heartbeat run lease wall usage => exact safe_evidenceHeartbeat run lease wall usage
  | release run lease now usage => exact safe_evidenceRelease run lease now usage
  | complete run lease now payload reads => exact safe_evidenceComplete run lease now payload reads
  | reap now => exact safe_of_liveKept (keeps_reap (fun _ => ⟨rfl, id⟩) now) (by simp)
  | unlock run now tokens dollars =>
    exact safe_of_liveKept (keeps_unlock run now tokens dollars fun _ _ _ => ⟨rfl, fun _ => rfl⟩)
      (by simp)
  | transition run resume =>
    exact safe_of_liveKept (keeps_transition run resume fun _ _ hs => ⟨rfl, fun _ => hs⟩) (by simp)
  | attach c => exact safe_evidenceAttach c
  | promote severity now notBefore => exact safe_evidencePromote severity now notBefore

/-! ## Every run -/

theorem evidenceInv_empty : EvidenceInv Tables.empty where
  attended _ _ h := by cases h
  listed _ _ h := by cases h
  owned _ _ h := by cases h

/-- While evidence is seen before a run ends, no flagged investigation is left without one. -/
theorem evidence_attended {sys : System} (hrun : Run store serve evidenceSeen init sys) :
    NoLostEvidence sys.shared.db := by
  have hstart : evidenceOutline.inv 0 ⟨Tables.empty, []⟩ := evidenceInv_empty
  have hinv : EvidenceInv sys.shared.db := Run.inv safe_evidence hstart hrun
  exact hinv.attended

instance decidableEvidenceSeen : ∀ lab v, Decidable (evidenceSeen lab v)
  | .releaseUpdate run lease _ _, v => inferInstanceAs (Decidable (∀ row,
      heldRow v.db run lease = some row → row.maxAttempts ≤ row.attempts + 1 → _ = false))
  | .completeUpdate run lease _ _ status, v => inferInstanceAs (Decidable (status = .failed →
      ∀ row, heldRow v.db run lease = some row → _ = false))
  | .endedCommit c _, v => inferInstanceAs (Decidable (investigationActive v.db c = true → _ = _))
  | .attachCommit c, v => inferInstanceAs (Decidable (investigationActive v.db c = true → _ = true))
  | .plain, _ => isTrue trivial
  | .heartbeatUpdate _ _ _ _, _ => isTrue trivial

/-- Evidence arrives while the run executes, and its completion queues the next run. -/
def attachThenComplete : List (Event Request) := promoteAndClaim ++
  [.begin (.attach 0), .advance 2, .advance 2, .advance 2,
   .begin (.complete 0 1 2
      { status := .completed, usage := { tokens := 0 }, disposition := some .leaveOpen } {}),
   .advance 3, .advance 3, .advance 3, .advance 3, .advance 3, .advance 3, .advance 3, .advance 3,
   .advance 3]

theorem evidence_attended_attachThenComplete : ∃ sys,
    runEvents store serve evidenceSeen init attachThenComplete = some sys ∧
    sys.shared.db.runIds = [0, 3] ∧ NoLostEvidence sys.shared.db := by
  have hids : (runEvents store serve evidenceSeen init attachThenComplete).map
      (·.shared.db.runIds) = some [0, 3] := by decide +kernel
  obtain ⟨sys, hsys, heq⟩ := Option.map_eq_some_iff.mp hids
  exact ⟨sys, hsys, heq, evidence_attended (Run.of_runEvents hsys)⟩

/-- Evidence arrives while the run executes, and the run fails. -/
def attachThenFail : List (Event Request) := promoteAndClaim ++
  [.begin (.attach 0), .advance 2, .advance 2, .advance 2,
   .begin (.complete 0 1 2 { status := .failed, usage := { tokens := 0 } } {}),
   .advance 3, .advance 3, .advance 3, .advance 3]

theorem evidence_lost_attachThenFail : ∃ sys,
    runEvents store serve always init attachThenFail = some sys ∧
    sys.shared.db.investigations 0 =
      some { status := .active, severity := 7, hasNewEvidence := true } ∧
    activeRunForCase sys.shared.db 0 = none ∧ ¬ NoLostEvidence sys.shared.db := by
  have hlast : (runEvents store serve always init attachThenFail).map
      (fun sys => (sys.shared.db.investigations 0, activeRunForCase sys.shared.db 0)) =
      some (some { status := .active, severity := 7, hasNewEvidence := true }, none) := by
    decide +kernel
  obtain ⟨sys, hsys, heq⟩ := Option.map_eq_some_iff.mp hlast
  obtain ⟨hinvest, hnone⟩ := Prod.mk.inj heq
  refine ⟨sys, hsys, hinvest, hnone, fun h => ?_⟩
  have hsome := attended_iff.mp (h 0 _ hinvest rfl rfl)
  rw [hnone] at hsome
  cases hsome

end SocTalk.Runs
