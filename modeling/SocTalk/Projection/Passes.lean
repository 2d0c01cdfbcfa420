import Mathlib.Logic.Function.Basic
import SocTalk.Lib.Cursor
import SocTalk.Lib.Transition
import SocTalk.Projection.Replay

/-! Transactions that append events to one investigation and fold new events into its projection,
statement by statement: every event is folded as long as no pass reads past an append that is still
in flight. -/
namespace SocTalk.Projection.Passes

open Cursor Transition

/-- Where a consumption stands between its statements. -/
inductive Pass where
  | loaded (facts : Facts)
  | folded (facts : Facts)

/-- A transaction: the rows it has inserted, its consumption under way, the projection row it has
written. -/
structure Session where
  appended : List Event := []
  pass : Option Pass := none
  saved : Option Facts := none

/-- The committed rows, the next number of the sequence, the open transactions, and which of them
holds the projection row. -/
structure State where
  rows : List Event := []
  row : Option Facts := none
  next : ℕ := 1
  session : ℕ → Session := fun _ => {}
  holder : Option ℕ := none

namespace State

def set (s : State) (i : ℕ) (x : Session) : State :=
  { s with session := Function.update s.session i x }

/-- The transaction ends. -/
def close (s : State) (i : ℕ) : State :=
  { s.set i {} with holder := if s.holder = some i then none else s.holder }

/-- The rows that a statement of the transaction sees. -/
def visible (s : State) (i : ℕ) : List Event := s.rows ++ (s.session i).appended

def projection (s : State) (i : ℕ) : Option Facts := (s.session i).saved.or s.row

end State

inductive Op where
  | append (i : ℕ) (kind : String) (payload : Py.Dict) (visibility : Visibility)
  | load (i : ℕ)
  | read (i : ℕ)
  | save (i : ℕ)
  | commit (i : ℕ)
  | rollback (i : ℕ)
  /-- A number drawn for another investigation or for a duplicate. -/
  | draw

/-- The insert of `append_event`: the number is drawn as it runs; a payload that the cast refuses
ends the transaction. -/
def append (s : State) (i : ℕ) (kind : String) (payload : Py.Dict) (visibility : Visibility) :
    State :=
  let x := s.session i
  match x.pass, Event.append_event s.next kind payload visibility with
  | none, some e => { s.set i { x with appended := x.appended ++ [e] } with next := s.next + 1 }
  | none, none => s.close i
  | some _, _ => s

/-- `load_facts`, with which `consume_new_events` begins. -/
def load (s : State) (i : ℕ) : State :=
  let x := s.session i
  match x.pass with
  | none => s.set i { x with pass := some (.loaded (load_facts (s.projection i))) }
  | some _ => s

/-- The select behind `applied_seq` and the loop of `apply_event`, whose exceptions end the
transaction. -/
def read (s : State) (i : ℕ) : State :=
  let x := s.session i
  match x.pass with
  | some (.loaded facts) =>
    let rows := (inOrder Event.seq (s.visible i)).filter fun e => facts.applied_seq < e.seq
    if rows.isEmpty then s.set i { x with pass := none }
    else match applyAll facts rows with
      | .ok facts => s.set i { x with pass := some (.folded facts) }
      | .error _ => s.close i
  | _ => s

/-- The upsert of `save_facts`, which waits while another transaction holds the row and then
overwrites it. -/
def save (s : State) (i : ℕ) : State :=
  let x := s.session i
  match x.pass with
  | some (.folded facts) =>
    if s.holder = none ∨ s.holder = some i then
      match save_facts facts with
      | .ok row => { s.set i { x with pass := none, saved := some row } with holder := some i }
      | .error _ => s.close i
    else s
  | _ => s

def commit (s : State) (i : ℕ) : State :=
  match (s.session i).pass with
  | none => { s.close i with rows := s.visible i, row := s.projection i }
  | some _ => s

def step (s : State) : Op → State
  | .append i kind payload visibility => append s i kind payload visibility
  | .load i => load s i
  | .read i => read s i
  | .save i => save s i
  | .commit i => commit s i
  | .rollback i => s.close i
  | .draw => { s with next := s.next + 1 }

/-- One consumption in a transaction of its own, from beginning to end. -/
def State.consume (s : State) (i : ℕ) : State :=
  [Op.load i, .read i, .save i, .commit i].foldl step s

/-- A pass reads no row past a lower number that another transaction has drawn and not committed. -/
def InOrderRead (s : State) : Op → Prop
  | .read i => ∀ facts, (s.session i).pass = some (.loaded facts) →
      ∀ r ∈ s.visible i, facts.applied_seq < r.seq →
        ∀ j ≠ i, ∀ e ∈ (s.session j).appended, r.seq < e.seq
  | _ => True

/-! ## The invariant -/

/-- The facts are the fold of the rows up to their mark, and the rows that `others` have in flight
are behind it. -/
structure Current (s : State) (rows : List Event) (others : ℕ → Prop) (f : Facts) : Prop where
  follows : Follows Event.seq Facts.applied_seq apply_event {} rows f
  behind : ∀ j, others j → ∀ e ∈ (s.session j).appended, f.applied_seq < e.seq

/-- The facts that a transaction has at hand. -/
def Session.Has (x : Session) (f : Facts) : Prop :=
  x.pass = some (.loaded f) ∨ x.pass = some (.folded f) ∨ x.saved = some f

structure Inv (s : State) : Prop where
  started : 0 < s.next
  drawn : ∀ i, ∀ e ∈ s.visible i, e.seq < s.next
  row : Current s s.rows (fun _ => True) (load_facts s.row)
  held : ∀ i f, (s.session i).Has f → Current s (s.visible i) (· ≠ i) f

/-! ## What the steps do to the invariant -/

@[simp] theorem set_session (s : State) (i : ℕ) (x : Session) : (s.set i x).session i = x :=
  Function.update_self ..

theorem set_session_of_ne (s : State) {i j : ℕ} (x : Session) (h : j ≠ i) :
    (s.set i x).session j = s.session j :=
  Function.update_of_ne h ..

theorem not_has_empty (f : Facts) : ¬({} : Session).Has f := by
  rintro (h | h | h) <;> cases h

theorem seq_append_event {seq : ℕ} {kind : String} {payload : Py.Dict} {visibility : Visibility}
    {e : Event} (h : Event.append_event seq kind payload visibility = some e) : e.seq = seq := by
  unfold Event.append_event at h
  split at h
  · obtain rfl := Option.some.inj h
    rfl
  · cases h

section

variable {rows : List Event} {f : Facts}

theorem projects_of_follows (h : Follows Event.seq Facts.applied_seq apply_event {} rows f) :
    Projects (upTo Event.seq f.applied_seq rows) f := by
  have hfold := projects_nil.foldlM (upTo Event.seq f.applied_seq rows)
  obtain ⟨f', hf', hp⟩ := hfold.1 (hfold.2 ⟨f, h⟩)
  obtain rfl : f = f' := Except.ok.inj (h.symm.trans hf')
  simpa using hp

/-- A mark is a number that has been drawn. -/
theorem mark_lt (h : Follows Event.seq Facts.applied_seq apply_event {} rows f) {n : ℕ} (hn : 0 < n)
    (hrows : ∀ e ∈ rows, e.seq < n) : f.applied_seq < n := by
  rcases (projects_of_follows h).reached with hzero | ⟨e, he, hseq⟩
  · omega
  · have hlt := hrows e ((mem_upTo Event.seq).mp he).1
    omega

/-- A pass that folds what is behind the mark leaves the facts of the whole log. -/
theorem projects_of_fold (h : Follows Event.seq Facts.applied_seq apply_event {} rows f)
    {f' : Facts} (hfold : (after Event.seq f.applied_seq rows).foldlM apply_event f = .ok f') :
    Projects (inOrder Event.seq rows) f' := by
  have hspec := (projects_of_follows h).foldlM (after Event.seq f.applied_seq rows)
  obtain ⟨f'', hf'', hp⟩ := hspec.1 (hspec.2 ⟨f', hfold⟩)
  obtain rfl : f' = f'' := Except.ok.inj (hfold.symm.trans hf'')
  rwa [upTo_append_after] at hp

end

section

variable {s s' : State} {rows : List Event} {others : ℕ → Prop} {f : Facts} {i : ℕ}

theorem Current.mono (h : Current s rows others f)
    (happ : ∀ j, ∀ e ∈ (s'.session j).appended, e ∈ (s.session j).appended) :
    Current s' rows others f :=
  ⟨h.follows, fun j hj e he => h.behind j hj e (happ j e he)⟩

theorem Inv.mark_lt (h : Inv s) (hf : Current s (s.visible i) others f) :
    f.applied_seq < s.next :=
  Passes.mark_lt hf.follows h.started (h.drawn i)

theorem Inv.mark_row_lt (h : Inv s) : (load_facts s.row).applied_seq < s.next :=
  Passes.mark_lt h.row.follows h.started fun e he => h.drawn 0 e (List.mem_append_left _ he)

/-- What a transaction reads of the projection, its own write or the committed row. -/
theorem Inv.projection (h : Inv s) (i : ℕ) :
    Current s (s.visible i) (· ≠ i) (load_facts (s.projection i)) := by
  unfold State.projection
  cases hsaved : (s.session i).saved with
  | some f => exact h.held i f (Or.inr (Or.inr hsaved))
  | none =>
    constructor
    · exact h.row.follows.append (h.row.behind i trivial)
    · exact fun j _ => h.row.behind j trivial

/-- A statement of one transaction that inserts nothing, and its end. -/
theorem Inv.update (h : Inv s) (hrows : s'.rows = s.rows) (hrow : s'.row = s.row)
    (hnext : s'.next = s.next) (hother : ∀ j ≠ i, s'.session j = s.session j)
    (hself : s'.session i = {} ∨ (s'.session i).appended = (s.session i).appended ∧
      ∀ f, (s'.session i).Has f → Current s (s.visible i) (· ≠ i) f) : Inv s' := by
  have happ : ∀ j, ∀ e ∈ (s'.session j).appended, e ∈ (s.session j).appended := by
    intro j e he
    by_cases hj : j = i
    · subst hj
      rcases hself with hend | ⟨hsame, -⟩
      · rw [hend] at he
        cases he
      · rwa [hsame] at he
    · rwa [hother j hj] at he
  have hvis : ∀ j, ∀ e ∈ s'.visible j, e ∈ s.visible j := by
    intro j e he
    unfold State.visible at he ⊢
    rw [hrows] at he
    rcases List.mem_append.mp he with he | he
    · exact List.mem_append_left _ he
    · exact List.mem_append_right _ (happ j e he)
  constructor
  · rw [hnext]
    exact h.started
  · intro j e he
    rw [hnext]
    exact h.drawn j e (hvis j e he)
  · rw [hrows, hrow]
    exact h.row.mono happ
  · intro j f hf
    by_cases hj : j = i
    · subst hj
      rcases hself with hend | ⟨hsame, hhas⟩
      · rw [hend] at hf
        exact (not_has_empty f hf).elim
      · have hvisible : s'.visible j = s.visible j := by
          unfold State.visible
          rw [hrows, hsame]
        rw [hvisible]
        exact (hhas f hf).mono happ
    · have hvisible : s'.visible j = s.visible j := by
        unfold State.visible
        rw [hrows, hother j hj]
      rw [hvisible]
      rw [hother j hj] at hf
      exact (h.held j f hf).mono happ

theorem Inv.close (h : Inv s) (i : ℕ) : Inv (s.close i) :=
  h.update rfl rfl rfl (fun _ hj => set_session_of_ne s {} hj) (Or.inl (set_session s i {}))

/-- A statement that leaves the transaction's rows as they are. -/
theorem Inv.set (h : Inv s) {x : Session} (happ : x.appended = (s.session i).appended)
    (hhas : ∀ f, x.Has f → Current s (s.visible i) (· ≠ i) f) (holder : Option ℕ) :
    Inv { s.set i x with holder := holder } := by
  have hsession : (s.set i x).session i = x := set_session s i x
  refine h.update rfl rfl rfl (fun _ hj => set_session_of_ne s x hj) (Or.inr ?_)
  constructor
  · exact (congrArg Session.appended hsession).trans happ
  · intro f hf
    rw [hsession] at hf
    exact hhas f hf

/-- A new row is behind every mark. -/
theorem Inv.insert (h : Inv s) (i : ℕ) {e : Event} (he : e.seq = s.next) :
    Inv { s.set i { s.session i with appended := (s.session i).appended ++ [e] } with
      next := s.next + 1 } := by
  set s' : State := { s.set i { s.session i with appended := (s.session i).appended ++ [e] } with
    next := s.next + 1 } with hs'
  have hself : s'.session i = { s.session i with appended := (s.session i).appended ++ [e] } :=
    set_session s i _
  have hother : ∀ j ≠ i, s'.session j = s.session j := fun _ hj => set_session_of_ne s _ hj
  have hcurrent : ∀ {rows others f}, Current s rows others f → f.applied_seq < s.next →
      Current s' rows others f := by
    intro rows others f hf hlt
    refine ⟨hf.follows, fun j hj e' he' => ?_⟩
    by_cases hji : j = i
    · subst hji
      rw [hself] at he'
      rcases List.mem_append.mp he' with hold | hnew
      · exact hf.behind j hj e' hold
      · obtain rfl := List.mem_singleton.mp hnew
        omega
    · rw [hother j hji] at he'
      exact hf.behind j hj e' he'
  have hvisible : s'.visible i = s.visible i ++ [e] := by
    unfold State.visible
    rw [hself, ← List.append_assoc]
    rfl
  have hvisible' : ∀ j ≠ i, s'.visible j = s.visible j := by
    intro j hj
    unfold State.visible
    rw [hother j hj]
    rfl
  constructor
  · exact Nat.succ_pos _
  · intro j e' he'
    show e'.seq < s.next + 1
    by_cases hj : j = i
    · subst hj
      rw [hvisible] at he'
      rcases List.mem_append.mp he' with hold | hnew
      · have hlt := h.drawn j e' hold
        omega
      · obtain rfl := List.mem_singleton.mp hnew
        omega
    · rw [hvisible' j hj] at he'
      have hlt := h.drawn j e' he'
      omega
  · exact hcurrent h.row h.mark_row_lt
  · intro j f hf
    by_cases hj : j = i
    · subst hj
      rw [hself] at hf
      have hold := h.held j f hf
      have hlt := h.mark_lt hold
      rw [hvisible]
      refine hcurrent ⟨hold.follows.append fun e' he' => ?_, hold.behind⟩ hlt
      obtain rfl := List.mem_singleton.mp he'
      omega
    · rw [hother j hj] at hf
      have hold := h.held j f hf
      rw [hvisible' j hj]
      exact hcurrent hold (h.mark_lt hold)

theorem Inv.append (h : Inv s) (i : ℕ) (kind : String) (payload : Py.Dict)
    (visibility : Visibility) : Inv (append s i kind payload visibility) := by
  unfold Passes.append
  dsimp only
  split
  · exact h.insert i (seq_append_event ‹_›)
  · exact h.close i
  · exact h

theorem Inv.load (h : Inv s) (i : ℕ) : Inv (load s i) := by
  unfold Passes.load
  dsimp only
  split
  · refine h.set ?_ ?_ s.holder
    · rfl
    · intro f hf
      rcases hf with hf | hf | hf
      · injection hf with hf
        injection hf with hf
        rw [← hf]
        exact h.projection i
      · cases hf
      · exact h.held i f (Or.inr (Or.inr hf))
  · exact h

/-- The facts that a pass has folded follow what its transaction sees. -/
theorem Inv.folded (h : Inv s) (hread : InOrderRead s (.read i)) {facts facts' : Facts}
    (hpass : (s.session i).pass = some (.loaded facts))
    (hfold : (after Event.seq facts.applied_seq (s.visible i)).foldlM apply_event facts =
      .ok facts') : Current s (s.visible i) (· ≠ i) facts' := by
  have hfacts := h.held i facts (Or.inl hpass)
  have hp := projects_of_fold hfacts.follows hfold
  constructor
  · exact hfacts.follows.advance hfold fun e he => hp.seen e ((mem_inOrder Event.seq).mpr he)
  · intro j hj e he
    have hbehind := hfacts.behind j hj e he
    rcases hp.reached with hzero | ⟨r, hr, hseq⟩
    · omega
    · by_cases hseen : r.seq ≤ facts.applied_seq
      · omega
      · have hlt := hread facts hpass r ((mem_inOrder Event.seq).mp hr) (by omega) j hj e he
        omega

theorem Inv.read (h : Inv s) (i : ℕ) (hread : InOrderRead s (.read i)) : Inv (read s i) := by
  have hsaved : ∀ f, (s.session i).saved = some f → Current s (s.visible i) (· ≠ i) f :=
    fun f hf => h.held i f (Or.inr (Or.inr hf))
  unfold Passes.read
  dsimp only
  split
  · rename_i facts hpass
    rw [filter_inOrder]
    split
    · refine h.set ?_ ?_ s.holder
      · rfl
      · intro f hf
        rcases hf with hf | hf | hf
        · cases hf
        · cases hf
        · exact hsaved f hf
    · split
      · rename_i facts' hok
        have hfold : (after Event.seq facts.applied_seq (s.visible i)).foldlM apply_event facts =
            .ok facts' := by
          unfold applyAll at hok
          split at hok
          · obtain rfl := Except.ok.inj hok
            assumption
          · cases hok
        refine h.set ?_ ?_ s.holder
        · rfl
        · intro f hf
          rcases hf with hf | hf | hf
          · cases hf
          · injection hf with hf
            injection hf with hf
            rw [← hf]
            exact h.folded hread hpass hfold
          · exact hsaved f hf
      · exact h.close i
  · exact h

theorem Inv.save (h : Inv s) (i : ℕ) : Inv (save s i) := by
  unfold Passes.save
  dsimp only
  split
  · rename_i facts hpass
    have hfacts := h.held i facts (Or.inr (Or.inl hpass))
    rw [save_facts_stored (projects_of_follows hfacts.follows).stored]
    dsimp only
    split
    · refine h.set ?_ ?_ (some i)
      · rfl
      · intro f hf
        rcases hf with hf | hf | hf
        · cases hf
        · cases hf
        · injection hf with hf
          rw [← hf]
          exact hfacts
    · exact h
  · exact h

theorem Inv.commit (h : Inv s) (i : ℕ) : Inv (commit s i) := by
  unfold Passes.commit
  split
  · set s' : State := { s.close i with rows := s.visible i, row := s.projection i }
    have hself : s'.session i = {} := set_session s i {}
    have hother : ∀ j ≠ i, s'.session j = s.session j := fun _ hj => set_session_of_ne s _ hj
    have hvisible : ∀ j ≠ i, s'.visible j = s.rows ++ (s.session i).appended ++
        (s.session j).appended := by
      intro j hj
      unfold State.visible
      rw [hother j hj]
      rfl
    constructor
    · exact h.started
    · intro j e he
      by_cases hj : j = i
      · subst hj
        unfold State.visible at he
        rw [hself] at he
        exact h.drawn j e (by simpa using he)
      · rw [hvisible j hj] at he
        rcases List.mem_append.mp he with he | he
        · exact h.drawn i e he
        · exact h.drawn j e (List.mem_append_right _ he)
    · have hproj := h.projection i
      refine ⟨hproj.follows, fun j _ e he => ?_⟩
      by_cases hj : j = i
      · rw [hj, hself] at he
        cases he
      · rw [hother j hj] at he
        exact hproj.behind j hj e he
    · intro j f hf
      by_cases hj : j = i
      · rw [hj, hself] at hf
        exact (not_has_empty f hf).elim
      · rw [hother j hj] at hf
        have hold := h.held j f hf
        rw [hvisible j hj]
        refine ⟨hold.follows.insert (hold.behind i (Ne.symm hj)), fun k hk e he => ?_⟩
        by_cases hki : k = i
        · rw [hki, hself] at he
          cases he
        · rw [hother k hki] at he
          exact hold.behind k hk e he
  · exact h

theorem Inv.draw (h : Inv s) : Inv { s with next := s.next + 1 } := by
  constructor
  · exact Nat.succ_pos _
  · exact fun i e he => Nat.lt_succ_of_lt (h.drawn i e he)
  · exact ⟨h.row.follows, h.row.behind⟩
  · exact fun i f hf => ⟨(h.held i f hf).follows, (h.held i f hf).behind⟩

theorem Inv.step (h : Inv s) (op : Op) (hread : InOrderRead s op) : Inv (step s op) := by
  cases op with
  | append i kind payload visibility => exact h.append i kind payload visibility
  | load i => exact h.load i
  | read i => exact h.read i hread
  | save i => exact h.save i
  | commit i => exact h.commit i
  | rollback i => exact h.close i
  | draw => exact h.draw

theorem inv_start : Inv {} := by
  constructor
  · decide
  · exact fun i e he => by cases he
  · exact ⟨rfl, fun j _ e he => by cases he⟩
  · exact fun i f hf => (not_has_empty f hf).elim

theorem inv_of_run (hrun : Run step InOrderRead {} s) : Inv s :=
  hrun.inv (fun _ op hinv hread => hinv.step op hread) inv_start

end

/-! ## Catching up -/

/-- One more consumption saves the facts of a replay of all the committed rows, or raises as the
replay does. -/
def CatchesUp (s : State) (i : ℕ) : Prop :=
  match replay (inOrder Event.seq s.rows) with
  | .ok rebuilt => load_facts (s.consume i).row = rebuilt.1
  | .error e => consume_new_events (inOrder Event.seq s.rows) s.row = .error e

section

variable {s : State} {i : ℕ}

/-- A consumption that nobody interrupts is `consume_new_events` on the committed rows. -/
theorem consume_row (hidle : s.session i = {}) (hfree : s.holder = none) {row : Option Facts}
    {n : ℕ} (h : consume_new_events (inOrder Event.seq s.rows) s.row = .ok (row, n)) :
    (s.consume i).row = row := by
  have hset : ∀ x : Session, (s.set i x).session i = x := set_session s i
  have hsee : ∀ x : Session, x.appended = [] → (s.set i x).visible i = s.rows := by
    intro x hx
    unfold State.visible
    rw [hset, hx]
    exact List.append_nil _
  have hprojection : s.projection i = s.row := by
    unfold State.projection
    rw [hidle]
    rfl
  have hload : load s i = s.set i { pass := some (.loaded (load_facts s.row)) } := by
    unfold load
    rw [hprojection, hidle]
  show (commit (save (read (load s i) i) i) i).row = row
  rw [hload]
  unfold consume_new_events at h
  dsimp only at h
  split at h
  · rename_i hnone
    obtain ⟨rfl, -⟩ := Prod.mk.inj (Except.ok.inj h)
    have hread : read (s.set i { pass := some (.loaded (load_facts s.row)) }) i =
        (s.set i { pass := some (.loaded (load_facts s.row)) }).set i {} := by
      unfold read
      rw [hset, hsee _ rfl]
      simp only [hnone, if_true]
    have hsave : save ((s.set i { pass := some (.loaded (load_facts s.row)) }).set i {}) i =
        (s.set i { pass := some (.loaded (load_facts s.row)) }).set i {} := by
      unfold save
      rw [set_session]
    rw [hread, hsave]
    unfold commit State.projection
    rw [set_session]
    rfl
  · rename_i hsome
    obtain ⟨facts, hfacts, h⟩ := (Py.bind_eq_ok _ _ _).mp h
    obtain ⟨saved, hsaved, h⟩ := (Py.bind_eq_ok _ _ _).mp h
    obtain ⟨rfl, -⟩ := Prod.mk.inj (Except.ok.inj h)
    have hread : read (s.set i { pass := some (.loaded (load_facts s.row)) }) i =
        (s.set i { pass := some (.loaded (load_facts s.row)) }).set i
          { pass := some (.folded facts) } := by
      unfold read
      rw [hset, hsee _ rfl]
      simp only [hsome, hfacts]
      rfl
    have hsave : save ((s.set i { pass := some (.loaded (load_facts s.row)) }).set i
        { pass := some (.folded facts) }) i =
        { ((s.set i { pass := some (.loaded (load_facts s.row)) }).set i
          { pass := some (.folded facts) }).set i { saved := some saved } with
          holder := some i } := by
      unfold save
      rw [set_session]
      simp only [hsaved]
      exact if_pos (Or.inl hfree)
    rw [hread, hsave]
    have hlast : ({ ((s.set i { pass := some (.loaded (load_facts s.row)) }).set i
        { pass := some (.folded facts) }).set i { saved := some saved } with
        holder := some i } : State).session i = { saved := some saved } := set_session _ i _
    unfold commit State.projection
    rw [hlast]
    rfl

/-- On a row that follows the log, a consumption ends as a replay of the log does. -/
theorem consume_eq_replay {rows : List Event} {row : Option Facts}
    (h : Follows Event.seq Facts.applied_seq apply_event {} rows (load_facts row)) :
    (∃ f row' n, replay (inOrder Event.seq rows) = .ok (f, f) ∧
      consume_new_events (inOrder Event.seq rows) row = .ok (row', n) ∧ load_facts row' = f) ∨
    ∃ e, replay (inOrder Event.seq rows) = .error e ∧
      consume_new_events (inOrder Event.seq rows) row = .error e := by
  have hafter := h.foldlM_after
  unfold consume_new_events replay
  dsimp only
  rw [filter_inOrder]
  unfold applyAll
  rw [← hafter]
  cases hfold : (after Event.seq (load_facts row).applied_seq rows).foldlM apply_event
      (load_facts row) with
  | ok f =>
    have hsave := save_facts_stored (projects_of_fold h hfold).stored
    refine Or.inl ⟨f, ?_⟩
    cases hrows : after Event.seq (load_facts row).applied_seq rows with
    | nil =>
      rw [hrows] at hfold
      obtain rfl : load_facts row = f := Except.ok.inj hfold
      refine ⟨row, 0, ?_, rfl, rfl⟩
      show (save_facts (load_facts row) >>= _) = _
      rw [hsave]
      rfl
    | cons e rest =>
      refine ⟨some f, rest.length + 1, ?_, ?_, rfl⟩
      · show (save_facts f >>= _) = _
        rw [hsave]
        rfl
      · show (save_facts f >>= _) = _
        rw [hsave]
        rfl
  | error e =>
    refine Or.inr ⟨.raised e, rfl, ?_⟩
    cases hrows : after Event.seq (load_facts row).applied_seq rows with
    | nil =>
      rw [hrows] at hfold
      cases hfold
    | cons e' rest => rfl

/-- However appends and consumptions interleave, one more consumption leaves the replay of all that
is committed, if no pass has read past an append in flight. -/
theorem consume_catches_up (hrun : Run step InOrderRead {} s) (hfree : s.holder = none)
    (hidle : s.session i = {}) : CatchesUp s i := by
  have hrow := (inv_of_run hrun).row.follows
  unfold CatchesUp
  rcases consume_eq_replay hrow with ⟨f, row', n, hreplay, hconsume, hf⟩ | ⟨e, hreplay, hconsume⟩
  · rw [hreplay, consume_row hidle hfree hconsume]
    exact hf
  · rw [hreplay]
    exact hconsume

end

/-- A worker's transaction posts a directive. -/
def directive (i : ℕ) (id : String) : Op :=
  .append i "directive_added" [("id", .str id)] .mssp_only

/-- A directive commits while a consumption is under way. -/
def followed : List Op :=
  [directive 0 "d1", .commit 0, .load 1, directive 2 "d2", .commit 2, .read 1, .save 1, .commit 1]

theorem consume_catches_up_followed : CatchesUp (followed.foldl step {}) 3 := by
  have hread : InOrderRead ((followed.take 5).foldl step {}) (.read 1) := by
    intro facts _ r _ _ j _ e he
    rcases j with _ | _ | _ | j
    · cases he
    · cases he
    · cases he
    · cases he
  have hadmits : Admits step InOrderRead {} followed :=
    ⟨trivial, trivial, trivial, trivial, trivial, hread, trivial, trivial, trivial⟩
  exact consume_catches_up (Run.of_admits hadmits) rfl rfl

/-- The second directive is folded while the first is in flight. -/
def overtaken : List Op :=
  [directive 0 "d1", directive 1 "d2", .commit 1, .load 2, .read 2, .save 2, .commit 2, .commit 0]

/-- Without the condition a directive is never folded. -/
theorem not_catches_up_overtaken :
    ¬∀ (s : State) (i : ℕ), Run step (fun _ _ => True) {} s →
      (∀ j, (s.session j).appended = []) → s.holder = none → s.session i = {} → CatchesUp s i := by
  intro h
  have hended : ∀ j, ((overtaken.foldl step {}).session j).appended = [] := by
    intro j
    rcases j with _ | _ | _ | j <;> rfl
  have hadmits : Admits step (fun _ _ => True) {} overtaken :=
    ⟨trivial, trivial, trivial, trivial, trivial, trivial, trivial, trivial, trivial⟩
  have hcatch := h (overtaken.foldl step {}) 3 (Run.of_admits hadmits) hended rfl rfl
  have hlost := congrArg (fun f : Facts => f.active_directives.length) hcatch
  have hone : (load_facts ((overtaken.foldl step {}).consume 3).row).active_directives.length = 1 :=
    rfl
  cases hone.symm.trans hlost

end SocTalk.Projection.Passes
