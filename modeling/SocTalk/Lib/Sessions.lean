import SocTalk.Lib.ReadCommitted

/-! What holds of every open session: an assertion about its program, its uncommitted writes and
the committed rows, at each place where the program may stand. -/
namespace ReadCommitted

variable {DB W X Lab Res Row Req : Type}

section

variable (S : Store DB W Res Row) (cond : Lab → View DB Res → Prop) (I : DB → Prop)
variable (Q : Prog DB W X Lab Res → List W → DB → Prop)

/-- Other sessions' commits, which keep the invariant and the rows held. -/
def Agree (ws : List W) (db db' : DB) : Prop :=
  I db' ∧ ∀ r ∈ S.held ws, S.row r db' = S.row r db

/-- Wherever the program gets to, whatever others commit meanwhile, `Q` holds, and each commit
keeps the invariant. -/
def Upholds : Prog DB W X Lab Res → List W → DB → Prop
  | .rollback, ws, db => ∀ db', Agree S I ws db db' → Q .rollback ws db'
  | .commit lab, ws, db => ∀ db', Agree S I ws db db' → Q (.commit lab) ws db' ∧
      ∀ locked, cond lab ⟨db', locked⟩ → I (S.applyAll ws db')
  | .call x next, ws, db => ∀ db', Agree S I ws db db' → Q (.call x next) ws db' ∧
      Upholds next ws db'
  | .stmt lab writes next, ws, db => ∀ db', Agree S I ws db db' →
      Q (.stmt lab writes next) ws db' ∧
      ∀ locked, cond lab ⟨S.applyAll ws db', locked⟩ →
        Upholds (next ⟨S.applyAll ws db', locked⟩)
          (ws ++ writes ⟨S.applyAll ws db', locked⟩) db'

variable {S cond I Q}

theorem Agree.refl {ws : List W} {db : DB} (hI : I db) : Agree S I ws db db := ⟨hI, fun _ _ => rfl⟩

theorem Agree.trans {ws : List W} {db db' db'' : DB} (h : Agree S I ws db db')
    (h' : Agree S I ws db' db'') : Agree S I ws db db'' :=
  ⟨h'.1, fun r hr => (h'.2 r hr).trans (h.2 r hr)⟩

theorem Upholds.stable {prog : Prog DB W X Lab Res} {ws : List W} {db db' : DB}
    (h : Upholds S cond I Q prog ws db) (ha : Agree S I ws db db') :
    Upholds S cond I Q prog ws db' := by
  cases prog with
  | rollback => exact fun db'' ha' => h db'' (ha.trans ha')
  | commit lab => exact fun db'' ha' => h db'' (ha.trans ha')
  | call x next => exact fun db'' ha' => h db'' (ha.trans ha')
  | stmt lab writes next => exact fun db'' ha' => h db'' (ha.trans ha')

theorem Upholds.here {prog : Prog DB W X Lab Res} {ws : List W} {db : DB}
    (h : Upholds S cond I Q prog ws db) (hI : I db) : Q prog ws db := by
  cases prog with
  | rollback => exact h db (Agree.refl hI)
  | commit lab => exact (h db (Agree.refl hI)).1
  | call x next => exact (h db (Agree.refl hI)).1
  | stmt lab writes next => exact (h db (Agree.refl hI)).1

end

section Soundness

variable [DecidableEq Res] {S : Store DB W Res Row} {cond : Lab → View DB Res → Prop}
variable {I : DB → Prop} {Q : Prog DB W X Lab Res → List W → DB → Prop}
variable {serve : ℕ → Req → Prog DB W X Lab Res}

/-- The outline that promises nothing: it still keeps any row from being held twice. -/
theorem consistent_trivial {sh : Shared DB X} {sys : Sys DB W X Lab Res Req}
    (hrun : Run S serve cond (start sh) sys) :
    Consistent (invariantOutline fun _ => True) S cond sys := by
  refine (consistent_start trivial).run (fun n req sh _ => ?_) hrun
  have hsafe : ∀ (prog : Prog DB W X Lab Res) (ws : List W) (sh : Shared DB X),
      Safe (invariantOutline (fun _ => True) : Outline DB X Req) S cond n req prog ws sh := by
    intro prog
    induction prog with
    | rollback => exact fun _ _ => trivial
    | commit lab => exact fun _ _ _ _ _ _ _ _ _ => ⟨⟨trivial, fun _ _ => trivial⟩, trivial⟩
    | call x next ih =>
      exact fun ws sh _ sh' _ _ _ => ⟨⟨trivial, fun _ _ => trivial⟩, trivial, ih ws _⟩
    | stmt lab writes next ih => exact fun _ _ _ _ _ _ _ _ _ => ih _ _ _
  exact hsafe _ _ _

/-- The invariant, and the assertion of each open session. -/
def Upheld (S : Store DB W Res Row) (cond : Lab → View DB Res → Prop) (I : DB → Prop)
    (Q : Prog DB W X Lab Res → List W → DB → Prop) (sys : Sys DB W X Lab Res Req) : Prop :=
  I sys.shared.db ∧ ∀ i s, sys.session i = some s →
    Upholds S cond I Q s.prog s.pending sys.shared.db

omit [DecidableEq Res] in
/-- Only session `i` moves, and the rows stay. -/
theorem Upheld.update {sys : Sys DB W X Lab Res Req} (h : Upheld S cond I Q sys) (i opened : ℕ)
    (world : List X) {s' : Option (Session DB W X Lab Res Req)}
    (hs' : ∀ s, s' = some s → Upholds S cond I Q s.prog s.pending sys.shared.db) :
    Upheld S cond I Q
      { shared := { sys.shared with world := world }, opened := opened
        session := Function.update sys.session i s' } := by
  refine ⟨h.1, fun j s hs => ?_⟩
  dsimp only at hs
  by_cases hj : j = i
  · rw [hj, Function.update_self] at hs
    exact hs' s hs
  · rw [Function.update_of_ne hj] at hs
    exact h.2 j s hs

theorem Upheld.step (hserve : ∀ n req db, I db → Upholds S cond I Q (serve n req) [] db)
    {sys sys' : Sys DB W X Lab Res Req} {e : Event Req}
    (hc : Consistent (invariantOutline fun _ => True) S cond sys) (h : Upheld S cond I Q sys)
    (hadm : Admits S cond sys e) (hstep : ReadCommitted.step S serve sys e = some sys') :
    Upheld S cond I Q sys' := by
  cases e with
  | begin req =>
    obtain rfl := Option.some.inj hstep
    refine h.update sys.opened (sys.opened + 1) sys.shared.world ?_
    rintro s ⟨⟩
    exact hserve _ req _ h.1
  | crash i =>
    unfold ReadCommitted.step at hstep
    cases hs : sys.session i with
    | none => simp [hs] at hstep
    | some s =>
      simp only [hs] at hstep
      obtain rfl := Option.some.inj hstep
      exact h.update i sys.opened sys.shared.world (by simp)
  | advance i =>
    unfold ReadCommitted.step at hstep
    cases hs : sys.session i with
    | none => simp [hs] at hstep
    | some s =>
      have hup := h.2 i s hs
      have hcond := hadm s hs
      simp only [hs] at hstep
      cases hp : s.prog with
      | rollback =>
        simp only [hp] at hstep
        obtain rfl := Option.some.inj hstep
        exact h.update i sys.opened sys.shared.world (by simp)
      | call x next =>
        simp only [hp] at hstep
        obtain rfl := Option.some.inj hstep
        rw [hp] at hup
        refine h.update i sys.opened _ ?_
        rintro s' ⟨⟩
        exact (hup sys.shared.db (Agree.refl h.1)).2
      | stmt lab writes next =>
        simp only [hp] at hstep hcond
        split at hstep
        · obtain rfl := Option.some.inj hstep
          rw [hp] at hup
          refine h.update i sys.opened sys.shared.world ?_
          rintro s' ⟨⟩
          exact (hup sys.shared.db (Agree.refl h.1)).2 _ hcond
        · cases hstep
      | commit lab =>
        simp only [hp] at hstep hcond
        obtain rfl := Option.some.inj hstep
        rw [hp] at hup
        have hI : I (S.applyAll s.pending sys.shared.db) :=
          (hup sys.shared.db (Agree.refl h.1)).2 _ hcond
        refine ⟨hI, fun j t ht => ?_⟩
        dsimp only at ht
        by_cases hj : j = i
        · rw [hj, Function.update_self] at ht
          cases ht
        · rw [Function.update_of_ne hj] at ht
          -- what this session holds, the other did not write
          refine (h.2 j t ht).stable ⟨hI, fun r hr => S.row_applyAll ?_ _⟩
          exact hc.disjoint j i t s ht hs hj r hr

/-- In every run whose steps meet the condition, the invariant holds and so does what is asserted
of each open session. -/
theorem Run.upheld (hserve : ∀ n req db, I db → Upholds S cond I Q (serve n req) [] db)
    {sh : Shared DB X} {sys : Sys DB W X Lab Res Req} (hrun : Run S serve cond (start sh) sys)
    (h0 : I sh.db) : Upheld S cond I Q sys := by
  induction hrun with
  | refl => exact ⟨h0, fun _ _ hs => by cases hs⟩
  | step e hmid hadm hstep ih => exact ih.step hserve (consistent_trivial hmid) hadm hstep

end Soundness

end ReadCommitted
