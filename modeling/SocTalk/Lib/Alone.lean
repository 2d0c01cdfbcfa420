import SocTalk.Lib.ReadCommitted

/-! A transaction with no other session open: what it leaves of the committed rows and what it does
outside the database, as a function of its program. -/
namespace ReadCommitted

variable {DB W X Lab Res Row Req : Type}

/-- The committed rows afterwards, and the outside effects in order. -/
def Prog.alone (S : Store DB W Res Row) : Prog DB W X Lab Res → List W → DB → DB × List X
  | .stmt _ writes next, ws, db =>
    let v : View DB Res := ⟨S.applyAll ws db, fun _ => false⟩
    (next v).alone S (ws ++ writes v) db
  | .call x next, ws, db => ((next.alone S ws db).1, x :: (next.alone S ws db).2)
  | .commit _, ws, db => (S.applyAll ws db, [])
  | .rollback, _, db => (db, [])

/-- Pending writes count only for what they come to. -/
theorem Prog.alone_congr {S : Store DB W Res Row} {ws ws' : List W} {db : DB}
    (h : S.applyAll ws db = S.applyAll ws' db) (prog : Prog DB W X Lab Res) :
    prog.alone S ws db = prog.alone S ws' db := by
  induction prog generalizing ws ws' with
  | stmt lab writes next ih =>
    unfold alone
    dsimp only
    rw [h]
    exact ih _ (by rw [Store.applyAll_append, Store.applyAll_append, h])
  | call x next ih =>
    unfold alone
    rw [ih h]
  | commit lab =>
    unfold alone
    rw [h]
  | rollback => rfl

/-- A program of known writes leaves the rows as they were, or commits some of those writes. -/
theorem Prog.alone_emits {S : Store DB W Res Row} {Q : W → Prop} {prog : Prog DB W X Lab Res}
    (h : Emits Q prog) (ws : List W) (db : DB) : (prog.alone S ws db).1 = db ∨
      ∃ ws', (∀ w ∈ ws', Q w) ∧ (prog.alone S ws db).1 = S.applyAll (ws ++ ws') db := by
  induction prog generalizing ws with
  | stmt lab writes next ih =>
    obtain ⟨hwrites, hnext⟩ := h ⟨S.applyAll ws db, fun _ => false⟩
    rcases ih _ hnext (ws ++ writes ⟨S.applyAll ws db, fun _ => false⟩) with
      hsame | ⟨ws', hws', heq⟩
    · exact .inl hsame
    · refine .inr ⟨writes ⟨S.applyAll ws db, fun _ => false⟩ ++ ws', fun w hw => ?_, ?_⟩
      · rcases List.mem_append.mp hw with hw | hw
        · exact hwrites w hw
        · exact hws' w hw
      · rw [← List.append_assoc]
        exact heq
  | call x next ih => exact h.elim
  | commit lab => exact .inr ⟨[], by simp, by rw [List.append_nil]; rfl⟩
  | rollback => exact .inl rfl

theorem update_of_others {sys : Sys DB W X Lab Res Req} {i : ℕ}
    (h : ∀ j, j ≠ i → sys.session j = none) (s : Option (Session DB W X Lab Res Req)) :
    ∀ j, j ≠ i → Function.update sys.session i s j = none := by
  intro j hj
  rw [Function.update_of_ne hj, h j hj]

theorem update_none_of_others {sys : Sys DB W X Lab Res Req} {i : ℕ}
    (h : ∀ j, j ≠ i → sys.session j = none) : ∀ j, Function.update sys.session i none j = none := by
  intro j
  by_cases hj : j = i
  · rw [hj, Function.update_self]
  · exact update_of_others h none j hj

section

variable [DecidableEq Res] {S : Store DB W Res Row} {serve : ℕ → Req → Prog DB W X Lab Res}
variable {cond : Lab → View DB Res → Prop}

theorem lockedBy_eq_false {sys : Sys DB W X Lab Res Req} {i : ℕ}
    (h : ∀ j, j ≠ i → sys.session j = none) (r : Res) : lockedBy S sys i r = false := by
  unfold lockedBy
  rw [List.any_eq_false]
  intro j _ hlocked
  by_cases hj : j = i
  · simp [hj] at hlocked
  · rw [h j hj] at hlocked
    simp at hlocked

theorem admits_of_all (h : ∀ lab v, cond lab v) (sys : Sys DB W X Lab Res Req) (e : Event Req) :
    Admits S cond sys e := by
  cases e with
  | begin req => trivial
  | crash i => trivial
  | advance i =>
    intro s _
    split
    · exact h _ _
    · exact h _ _
    · trivial

/-- The only open session gets to its end, all that it wrote still pending. -/
theorem run_to_end (hcond : ∀ lab v, cond lab v) (prog : Prog DB W X Lab Res) {ws : List W}
    {sys : Sys DB W X Lab Res Req} {i : ℕ} {req : Req} (hi : sys.session i = some ⟨req, prog, ws⟩)
    (hothers : ∀ j, j ≠ i → sys.session j = none) :
    ∃ sys' last ws', Run S serve cond sys sys' ∧ sys'.session i = some ⟨req, last, ws'⟩ ∧
      (∀ j, j ≠ i → sys'.session j = none) ∧ sys'.shared.db = sys.shared.db ∧
      sys'.shared.world = sys.shared.world ++ (prog.alone S ws sys.shared.db).2 ∧
      ((∃ lab, last = .commit lab ∧
          (prog.alone S ws sys.shared.db).1 = S.applyAll ws' sys.shared.db) ∨
        (last = .rollback ∧ (prog.alone S ws sys.shared.db).1 = sys.shared.db)) := by
  induction prog generalizing ws sys with
  | stmt lab writes next ih =>
    have hview : viewOf S sys i ⟨req, .stmt lab writes next, ws⟩ =
        ⟨S.applyAll ws sys.shared.db, fun _ => false⟩ := by
      unfold viewOf
      congr 1
      funext r
      exact lockedBy_eq_false hothers r
    obtain ⟨mid, hmid⟩ : ∃ mid : Sys DB W X Lab Res Req, mid = { sys with
        session := Function.update sys.session i (some ⟨req,
          next ⟨S.applyAll ws sys.shared.db, fun _ => false⟩,
          ws ++ writes ⟨S.applyAll ws sys.shared.db, fun _ => false⟩⟩) } := ⟨_, rfl⟩
    have hstep : step S serve sys (.advance i) = some mid := by
      simp only [step, hi, hview, Bool.not_false, List.all_eq_true, implies_true, if_true, hmid]
    obtain ⟨sys', last, ws', hrun, hi', hnone, hdb, hworld, hlast⟩ :=
      @ih ⟨S.applyAll ws sys.shared.db, fun _ => false⟩
        (ws ++ writes ⟨S.applyAll ws sys.shared.db, fun _ => false⟩) mid
        (by rw [hmid]; exact Function.update_self ..)
        (by rw [hmid]; exact update_of_others hothers _)
    have hshared : mid.shared = sys.shared := by rw [hmid]
    rw [hshared] at hdb hworld hlast
    exact ⟨sys', last, ws',
      (Run.step (.advance i) .refl (admits_of_all hcond _ _) hstep).trans hrun, hi', hnone, hdb,
      hworld, hlast⟩
  | call x next ih =>
    obtain ⟨mid, hmid⟩ : ∃ mid : Sys DB W X Lab Res Req, mid =
        { shared := { sys.shared with world := sys.shared.world ++ [x] }, opened := sys.opened
          session := Function.update sys.session i (some ⟨req, next, ws⟩) } := ⟨_, rfl⟩
    have hstep : step S serve sys (.advance i) = some mid := by
      simp only [step, hi, hmid]
    obtain ⟨sys', last, ws', hrun, hi', hnone, hdb, hworld, hlast⟩ := @ih ws mid
      (by rw [hmid]; exact Function.update_self ..) (by rw [hmid]; exact update_of_others hothers _)
    have hsame : mid.shared.db = sys.shared.db := by rw [hmid]
    have hgrown : mid.shared.world = sys.shared.world ++ [x] := by rw [hmid]
    rw [hsame] at hdb hworld hlast
    refine ⟨sys', last, ws',
      (Run.step (.advance i) .refl (admits_of_all hcond _ _) hstep).trans hrun, hi', hnone, hdb,
      ?_, hlast⟩
    rw [hworld, hgrown, List.append_assoc]
    rfl
  | commit lab =>
    exact ⟨sys, .commit lab, ws, .refl, hi, hothers, rfl, (List.append_nil _).symm,
      .inl ⟨lab, rfl, rfl⟩⟩
  | rollback =>
    exact ⟨sys, .rollback, ws, .refl, hi, hothers, rfl, (List.append_nil _).symm, .inr ⟨rfl, rfl⟩⟩

/-- The only open session runs to its end and past it. -/
theorem run_alone (hcond : ∀ lab v, cond lab v) (prog : Prog DB W X Lab Res) {ws : List W}
    {sys : Sys DB W X Lab Res Req} {i : ℕ} {req : Req} (hi : sys.session i = some ⟨req, prog, ws⟩)
    (hothers : ∀ j, j ≠ i → sys.session j = none) :
    ∃ sys', Run S serve cond sys sys' ∧ sys'.shared.db = (prog.alone S ws sys.shared.db).1 ∧
      sys'.shared.world = sys.shared.world ++ (prog.alone S ws sys.shared.db).2 ∧
      ∀ j, sys'.session j = none := by
  obtain ⟨mid, last, ws', hrun, hmid, hnone, hdb, hworld, hlast⟩ :=
    run_to_end hcond prog hi hothers
  rcases hlast with ⟨lab, rfl, hafter⟩ | ⟨rfl, hafter⟩
  · have hstep : step S serve mid (.advance i) = some
        { shared := { mid.shared with db := S.applyAll ws' mid.shared.db }
          opened := mid.opened, session := Function.update mid.session i none } := by
      simp only [step, hmid]
    refine ⟨_, .step (.advance i) hrun (admits_of_all hcond _ _) hstep, ?_, hworld,
      update_none_of_others hnone⟩
    rw [hafter, ← hdb]
  · have hstep : step S serve mid (.advance i) = some
        { mid with session := Function.update mid.session i none } := by
      simp only [step, hmid]
    exact ⟨_, .step (.advance i) hrun (admits_of_all hcond _ _) hstep, hdb.trans hafter.symm,
      hworld, update_none_of_others hnone⟩

/-- Or it is lost at its end: nothing is written, and what was called was called. -/
theorem run_alone_lost (hcond : ∀ lab v, cond lab v) (prog : Prog DB W X Lab Res) {ws : List W}
    {sys : Sys DB W X Lab Res Req} {i : ℕ} {req : Req} (hi : sys.session i = some ⟨req, prog, ws⟩)
    (hothers : ∀ j, j ≠ i → sys.session j = none) :
    ∃ sys', Run S serve cond sys sys' ∧ sys'.shared.db = sys.shared.db ∧
      sys'.shared.world = sys.shared.world ++ (prog.alone S ws sys.shared.db).2 ∧
      ∀ j, sys'.session j = none := by
  obtain ⟨mid, last, ws', hrun, hmid, hnone, hdb, hworld, -⟩ :=
    run_to_end hcond prog hi hothers
  have hstep : step S serve mid (.crash i) = some
      { mid with session := Function.update mid.session i none } := by
    simp only [step, hmid]
  exact ⟨_, .step (.crash i) hrun trivial hstep, hdb, hworld, update_none_of_others hnone⟩

end

end ReadCommitted
