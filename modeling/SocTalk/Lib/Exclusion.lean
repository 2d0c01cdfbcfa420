import SocTalk.Lib.ReadCommitted

/-! Locks that guard what no statement touches by itself, such as advisory locks: what a
transaction may rely on depends on the locks it holds, and what its commit must leave to the
others on the locks they may hold beside it. -/
namespace ReadCommitted

variable {DB W X Lab Res Row Req : Type}

/-- What session `i` relies on while it holds some locks, and what its commit is shown to do. -/
structure Discipline (DB Res Req : Type) where
  rely : ℕ → List Res → DB → DB → Prop
  commits : ℕ → Req → DB → DB → Prop
  rely_refl : ∀ i held db, rely i held db db
  rely_trans : ∀ i held db db' db'', rely i held db db' → rely i held db' db'' →
    rely i held db db''

theorem Store.mem_held_append {S : Store DB W Res Row} {r : Res} {ws : List W}
    (h : r ∈ S.held ws) (ws' : List W) : r ∈ S.held (ws ++ ws') := by
  rw [S.held_append]
  exact List.mem_append_left _ h

section Logic

variable (d : Discipline DB Res Req) (S : Store DB W Res Row)

/-- Whatever the other sessions commit between its statements, the program's own commit does
what it should and respects every session that holds other locks. -/
def Sound (i : ℕ) (req : Req) : Prog DB W X Lab Res → List W → DB → Prop
  | .rollback, _, _ => True
  | .commit _, ws, db => ∀ db', d.rely i (S.held ws) db db' →
      d.commits i req db' (S.applyAll ws db') ∧
        ∀ j held, j ≠ i → (∀ r ∈ held, r ∉ S.held ws) → d.rely j held db' (S.applyAll ws db')
  | .call _ next, ws, db => Sound i req next ws db
  | .stmt _ writes next, ws, db => ∀ db' locked, d.rely i (S.held ws) db db' →
      Sound i req (next ⟨S.applyAll ws db', locked⟩)
        (ws ++ writes ⟨S.applyAll ws db', locked⟩) db'

variable {d S}

theorem Sound.stable {i : ℕ} {req : Req} {prog : Prog DB W X Lab Res} {ws : List W} {db db' : DB}
    (h : Sound d S i req prog ws db) (hr : d.rely i (S.held ws) db db') :
    Sound d S i req prog ws db' := by
  induction prog with
  | rollback => trivial
  | commit lab => exact fun db'' hr' => h db'' (d.rely_trans _ _ _ _ _ hr hr')
  | call x next ih => exact ih h
  | stmt lab writes next => exact fun db'' locked hr' => h db'' locked (d.rely_trans _ _ _ _ _ hr hr')

/-- A statement reached under a stable property of the pending writes. -/
theorem Sound.of_stmt {P : DB → Prop} {i : ℕ} {req : Req} {lab : Lab}
    {writes : View DB Res → List W} {next : View DB Res → Prog DB W X Lab Res} {ws : List W}
    {db : DB} (hstable : ∀ db db', P db → d.rely i (S.held ws) db db' → P db') (hP : P db)
    (hnext : ∀ db locked, P db → Sound d S i req (next ⟨S.applyAll ws db, locked⟩)
      (ws ++ writes ⟨S.applyAll ws db, locked⟩) db) :
    Sound d S i req (.stmt lab writes next) ws db :=
  fun db' locked hr => hnext db' locked (hstable db db' hP hr)

end Logic

/-! ## Soundness of the rule -/

section Soundness

variable (d : Discipline DB Res Req) (S : Store DB W Res Row)

/-- Every open session is sound and no lock is held twice. -/
structure Disciplined (sys : Sys DB W X Lab Res Req) : Prop where
  bound : ∀ i s, sys.session i = some s → i < sys.opened
  sound : ∀ i s, sys.session i = some s → Sound d S i s.req s.prog s.pending sys.shared.db
  disjoint : ∀ i j s t, sys.session i = some s → sys.session j = some t → i ≠ j →
    ∀ r ∈ S.held s.pending, r ∉ S.held t.pending

variable {d S} {sys sys' : Sys DB W X Lab Res Req}

/-- Of the sessions after an update, each is the new one or an old one. -/
theorem update_cases {i j : ℕ} {s : Option (Session DB W X Lab Res Req)}
    {t : Session DB W X Lab Res Req} (h : Function.update sys.session i s j = some t) :
    (j = i ∧ s = some t) ∨ (j ≠ i ∧ sys.session j = some t) := by
  by_cases hj : j = i
  · rw [hj, Function.update_self] at h
    exact Or.inl ⟨hj, h⟩
  · rw [Function.update_of_ne hj] at h
    exact Or.inr ⟨hj, h⟩

/-- Session `i` ends, and the rows change only as the others may rely on. -/
theorem Disciplined.close (h : Disciplined d S sys) (i : ℕ) {sh : Shared DB X}
    (hrely : ∀ j t, j ≠ i → sys.session j = some t →
      d.rely j (S.held t.pending) sys.shared.db sh.db) :
    Disciplined d S { sys with shared := sh, session := Function.update sys.session i none } := by
  have hold : ∀ j t, Function.update sys.session i none j = some t →
      j ≠ i ∧ sys.session j = some t := by
    intro j t ht
    rcases update_cases ht with ⟨-, hnone⟩ | hold
    · cases hnone
    · exact hold
  refine ⟨fun j t ht => h.bound j t (hold j t ht).2, ?_, ?_⟩
  · intro j t ht
    obtain ⟨hj, hs⟩ := hold j t ht
    exact (h.sound j t hs).stable (hrely j t hj hs)
  · exact fun j k t u ht hu => h.disjoint j k t u (hold j t ht).2 (hold k u hu).2

/-- Session `i` goes on with locks that no other session holds. -/
theorem Disciplined.resume (h : Disciplined d S sys) {i n : ℕ}
    {s : Session DB W X Lab Res Req} (hi : i < n) (hn : sys.opened ≤ n)
    (hfree : ∀ j t, sys.session j = some t → j ≠ i → ∀ r ∈ S.held s.pending,
      r ∉ S.held t.pending)
    (hsound : Sound d S i s.req s.prog s.pending sys.shared.db) (world : List X) :
    Disciplined d S ⟨⟨sys.shared.db, world⟩, n, Function.update sys.session i (some s)⟩ := by
  refine ⟨?_, ?_, ?_⟩
  · intro j t ht
    rcases update_cases ht with ⟨rfl, -⟩ | ⟨-, hs⟩
    · exact hi
    · exact Nat.lt_of_lt_of_le (h.bound j t hs) hn
  · intro j t ht
    rcases update_cases ht with ⟨rfl, heq⟩ | ⟨-, hs⟩
    · obtain rfl := Option.some.inj heq
      exact hsound
    · exact h.sound j t hs
  · intro j k t u ht hu hjk r hr
    rcases update_cases ht with ⟨hj, htj⟩ | ⟨hj, htj⟩
    · obtain rfl := Option.some.inj htj
      rcases update_cases hu with ⟨hk, -⟩ | ⟨hk, huk⟩
      · exact absurd (hj.trans hk.symm) hjk
      · exact hfree k u huk hk r hr
    · rcases update_cases hu with ⟨hk, huk⟩ | ⟨-, huk⟩
      · obtain rfl := Option.some.inj huk
        exact fun hmem => hfree j t htj hj r hmem hr
      · exact h.disjoint j k t u htj huk hjk r hr

theorem disciplined_start (sh : Shared DB X) :
    Disciplined d S (start sh : Sys DB W X Lab Res Req) where
  bound _ _ hs := by cases hs
  sound _ _ hs := by cases hs
  disjoint _ _ _ _ hs := by cases hs

variable [DecidableEq Res] {serve : ℕ → Req → Prog DB W X Lab Res}

/-- What a step leaves, and what its commit was shown to do. -/
theorem Disciplined.step (hserve : ∀ n req db, Sound d S n req (serve n req) [] db)
    {e : Event Req} (h : Disciplined d S sys) (hstep : step S serve sys e = some sys') :
    Disciplined d S sys' ∧ (sys'.shared.db = sys.shared.db ∨ ∃ i s, e = .advance i ∧
      sys.session i = some s ∧ d.commits i s.req sys.shared.db sys'.shared.db) := by
  have hsame : ∀ j (t : Session DB W X Lab Res Req), sys.session j = some t →
      d.rely j (S.held t.pending) sys.shared.db sys.shared.db := fun j t _ => d.rely_refl _ _ _
  cases e with
  | begin req =>
    obtain rfl := Option.some.inj hstep
    exact ⟨h.resume (Nat.lt_succ_self _) (Nat.le_succ _) (by simp) (hserve _ req _) _, Or.inl rfl⟩
  | crash i =>
    unfold ReadCommitted.step at hstep
    cases hs : sys.session i with
    | none => simp [hs] at hstep
    | some s =>
      simp only [hs] at hstep
      obtain rfl := Option.some.inj hstep
      exact ⟨h.close i fun j t _ => hsame j t, Or.inl rfl⟩
  | advance i =>
    unfold ReadCommitted.step at hstep
    cases hs : sys.session i with
    | none => simp [hs] at hstep
    | some s =>
      have hi := h.bound i s hs
      have hsound := h.sound i s hs
      have hdisj : ∀ j t, sys.session j = some t → j ≠ i → ∀ r ∈ S.held s.pending,
          r ∉ S.held t.pending := fun j t ht hj => h.disjoint i j s t hs ht (Ne.symm hj)
      simp only [hs] at hstep
      cases hp : s.prog with
      | rollback =>
        simp only [hp] at hstep
        obtain rfl := Option.some.inj hstep
        exact ⟨h.close i fun j t _ => hsame j t, Or.inl rfl⟩
      | commit lab =>
        simp only [hp] at hstep
        obtain rfl := Option.some.inj hstep
        rw [hp] at hsound
        obtain ⟨hcommit, hothers⟩ := hsound sys.shared.db (d.rely_refl _ _ _)
        refine ⟨h.close i fun j t hj ht => hothers j _ hj fun r hr hmem => ?_,
          Or.inr ⟨i, s, rfl, hs, hcommit⟩⟩
        exact hdisj j t ht hj r hmem hr
      | call x next =>
        simp only [hp] at hstep
        obtain rfl := Option.some.inj hstep
        rw [hp] at hsound
        exact ⟨h.resume (s := { s with prog := next }) hi (Nat.le_refl _) hdisj hsound _, Or.inl rfl⟩
      | stmt lab writes next =>
        simp only [hp] at hstep
        split at hstep
        · rename_i hfree
          obtain rfl := Option.some.inj hstep
          rw [hp] at hsound
          refine ⟨h.resume hi (Nat.le_refl _) ?_ (hsound sys.shared.db _ (d.rely_refl _ _ _)) _, Or.inl rfl⟩
          intro j t ht hj r hr
          rw [S.held_append] at hr
          rcases List.mem_append.mp hr with hr | hr
          · exact hdisj j t ht hj r hr
          · have hl : lockedBy S sys i r = false := by
              have hall := List.all_eq_true.mp hfree r hr
              simpa [viewOf] using hall
            exact not_held_of_not_locked hl ht (h.bound j t ht) hj
        · cases hstep

/-- Every state of every run is disciplined. -/
theorem Run.disciplined {cond : Lab → View DB Res → Prop}
    (hserve : ∀ n req db, Sound d S n req (serve n req) [] db) {sh : Shared DB X}
    (hrun : Run S serve cond (start sh) sys) : Disciplined d S sys := by
  induction hrun with
  | refl => exact disciplined_start sh
  | step e _ _ hstep ih => exact (ih.step hserve hstep).1

end Soundness

end ReadCommitted
