import Mathlib.Data.List.Basic
import Mathlib.Logic.Function.Basic

/-! Transactions at READ COMMITTED with row locks. A session runs its program statement by
statement; each statement sees the committed rows under the session's own writes, waits for
the rows it locks, and nothing but a commit changes the committed rows. The proof rule is
modular: a program is safe against everything other sessions' commits may do to rows it
does not hold. -/
namespace ReadCommitted

variable {DB W X Lab Res Row Req : Type}

/-- What one statement sees: the rows, and which of them other sessions hold locked. -/
structure View (DB Res : Type) where
  db : DB
  locked : Res → Bool

/-- A transaction's program. A label names a statement with the values it was built from;
`call` is an effect outside the database, which no rollback undoes. -/
inductive Prog (DB W X Lab Res : Type) where
  | stmt (lab : Lab) (writes : View DB Res → List W)
      (next : View DB Res → Prog DB W X Lab Res)
  | call (x : X) (next : Prog DB W X Lab Res)
  | commit (lab : Lab)
  | rollback

/-- A write touches only the rows it locks. -/
structure Store (DB W Res Row : Type) where
  apply : W → DB → DB
  locks : W → List Res
  row : Res → DB → Row
  frame : ∀ w r db, r ∉ locks w → row r (apply w db) = row r db

namespace Store

variable (S : Store DB W Res Row)

def applyAll (ws : List W) (db : DB) : DB := ws.foldl (fun db w => S.apply w db) db

/-- The rows a list of uncommitted writes holds locked. -/
def held (ws : List W) : List Res := ws.flatMap S.locks

@[simp] theorem applyAll_nil (db : DB) : S.applyAll [] db = db := rfl

@[simp] theorem applyAll_cons (w : W) (ws : List W) (db : DB) :
    S.applyAll (w :: ws) db = S.applyAll ws (S.apply w db) := rfl

@[simp] theorem applyAll_append (ws ws' : List W) (db : DB) :
    S.applyAll (ws ++ ws') db = S.applyAll ws' (S.applyAll ws db) := by
  unfold applyAll
  rw [List.foldl_append]

@[simp] theorem held_nil : S.held [] = [] := rfl

@[simp] theorem held_cons (w : W) (ws : List W) : S.held (w :: ws) = S.locks w ++ S.held ws := rfl

@[simp] theorem held_append (ws ws' : List W) : S.held (ws ++ ws') = S.held ws ++ S.held ws' := by
  unfold held
  rw [List.flatMap_append]

/-- A row that no pending write locks is as committed. -/
theorem row_applyAll {r : Res} {ws : List W} (h : r ∉ S.held ws) (db : DB) :
    S.row r (S.applyAll ws db) = S.row r db := by
  induction ws generalizing db with
  | nil => rfl
  | cons w ws ih =>
    simp only [held_cons, List.mem_append, not_or] at h
    rw [applyAll_cons, ih h.2, S.frame w r db h.1]

/-- Where writes act on a row by that row alone, so do lists of them. -/
theorem row_applyAll_congr {r : Res}
    (hcongr : ∀ w db db', S.row r db = S.row r db' → S.row r (S.apply w db) = S.row r (S.apply w db'))
    (ws : List W) {db db' : DB} (h : S.row r db = S.row r db') :
    S.row r (S.applyAll ws db) = S.row r (S.applyAll ws db') := by
  induction ws generalizing db db' with
  | nil => exact h
  | cons w ws ih => exact ih (hcongr w db db' h)

/-- What other sessions leave of a row under the writes of one: the row as they left it, or,
where it is held, all that it was. -/
theorem row_stable {r : Res}
    (hcongr : ∀ w db db', S.row r db = S.row r db' → S.row r (S.apply w db) = S.row r (S.apply w db'))
    {ws : List W} {db db' : DB} (hheld : ∀ r ∈ S.held ws, S.row r db' = S.row r db) :
    S.row r (S.applyAll ws db') = S.row r db' ∨
      S.row r db' = S.row r db ∧ S.row r (S.applyAll ws db') = S.row r (S.applyAll ws db) := by
  by_cases hr : r ∈ S.held ws
  · exact Or.inr ⟨hheld r hr, S.row_applyAll_congr hcongr ws (hheld r hr)⟩
  · exact Or.inl (S.row_applyAll hr db')

/-- A looked-up row after the writes: one of those written, or the old one if none was. -/
theorem lookup_applyAll {R : Type} (look : DB → Option R) {pick : W → Option R}
    (h : ∀ w db, look (S.apply w db) = (pick w).or (look db)) (ws : List W) (db : DB) :
    (∃ w ∈ ws, ∃ r, pick w = some r ∧ look (S.applyAll ws db) = some r) ∨
      ((∀ w ∈ ws, pick w = none) ∧ look (S.applyAll ws db) = look db) := by
  induction ws generalizing db with
  | nil => exact Or.inr ⟨by simp, rfl⟩
  | cons w ws ih =>
    rw [applyAll_cons]
    rcases ih (S.apply w db) with ⟨w', hw', r, hr, heq⟩ | ⟨hnone, heq⟩
    · exact Or.inl ⟨w', List.mem_cons_of_mem _ hw', r, hr, heq⟩
    · rw [heq, h]
      cases hw : pick w with
      | some r => exact Or.inl ⟨w, List.mem_cons_self, r, hw, rfl⟩
      | none =>
        refine Or.inr ⟨?_, rfl⟩
        intro w' hw'
        rcases List.mem_cons.mp hw' with rfl | hw'
        · exact hw
        · exact hnone w' hw'

/-- It depends on nothing but the old one. -/
theorem lookup_applyAll_congr {R : Type} (look : DB → Option R) {pick : W → Option R}
    (h : ∀ w db, look (S.apply w db) = (pick w).or (look db)) (ws : List W) {db db' : DB}
    (heq : look db = look db') : look (S.applyAll ws db) = look (S.applyAll ws db') := by
  induction ws generalizing db db' with
  | nil => exact heq
  | cons w ws ih =>
    rw [applyAll_cons, applyAll_cons]
    apply ih
    rw [h, h, heq]

/-- A table that writes only append to grows by what they append, in order. -/
theorem appended_applyAll {R : Type} {col : DB → List R} {pick : W → Option R}
    (h : ∀ w db, col (S.apply w db) = col db ++ (pick w).toList) (ws : List W) (db : DB) :
    col (S.applyAll ws db) = col db ++ ws.filterMap pick := by
  induction ws generalizing db with
  | nil => simp
  | cons w ws ih =>
    rw [applyAll_cons, ih, h, List.append_assoc]
    cases hw : pick w <;> simp [hw]

end Store

/-- The committed rows and the log of outside effects. -/
structure Shared (DB X : Type) where
  db : DB
  world : List X

structure Session (DB W X Lab Res Req : Type) where
  req : Req
  prog : Prog DB W X Lab Res
  pending : List W

/-- The database with its sessions, numbered in the order they were opened. -/
structure Sys (DB W X Lab Res Req : Type) where
  shared : Shared DB X
  opened : ℕ
  session : ℕ → Option (Session DB W X Lab Res Req)

inductive Event (Req : Type) where
  | begin (req : Req)
  | advance (i : ℕ)
  | crash (i : ℕ)

section Semantics

variable [DecidableEq Res] (S : Store DB W Res Row) (serve : ℕ → Req → Prog DB W X Lab Res)

/-- Some other session holds the row. -/
def lockedBy (sys : Sys DB W X Lab Res Req) (i : ℕ) (r : Res) : Bool :=
  (List.range sys.opened).any fun j => j != i &&
    match sys.session j with
    | some s => (S.held s.pending).contains r
    | none => false

def viewOf (sys : Sys DB W X Lab Res Req) (i : ℕ) (s : Session DB W X Lab Res Req) :
    View DB Res :=
  ⟨S.applyAll s.pending sys.shared.db, lockedBy S sys i⟩

/-- One step, `none` where it cannot be taken: a statement waits while another session
holds a row it locks. -/
def step (sys : Sys DB W X Lab Res Req) : Event Req → Option (Sys DB W X Lab Res Req)
  | .begin req =>
    some { sys with
      opened := sys.opened + 1
      session := Function.update sys.session sys.opened (some ⟨req, serve sys.opened req, []⟩) }
  | .crash i =>
    match sys.session i with
    | none => none
    | some _ => some { sys with session := Function.update sys.session i none }
  | .advance i =>
    match sys.session i with
    | none => none
    | some s =>
      match s.prog with
      | .stmt _ writes next =>
        let v := viewOf S sys i s
        if (S.held (writes v)).all fun r => !v.locked r then
          some { sys with
            session := Function.update sys.session i
              (some { s with prog := next v, pending := s.pending ++ writes v }) }
        else none
      | .call x next =>
        some { sys with
          shared := { sys.shared with world := sys.shared.world ++ [x] }
          session := Function.update sys.session i (some { s with prog := next }) }
      | .commit _ =>
        some { sys with
          shared := { sys.shared with db := S.applyAll s.pending sys.shared.db }
          session := Function.update sys.session i none }
      | .rollback => some { sys with session := Function.update sys.session i none }

/-- The condition a guarded run puts on the statement or commit that a step executes. -/
def Admits (cond : Lab → View DB Res → Prop) (sys : Sys DB W X Lab Res Req) :
    Event Req → Prop
  | .advance i => ∀ s, sys.session i = some s →
    match s.prog with
    | .stmt lab _ _ => cond lab (viewOf S sys i s)
    | .commit lab => cond lab ⟨sys.shared.db, lockedBy S sys i⟩
    | _ => True
  | _ => True

/-- Runs whose steps all meet the condition. -/
inductive Run (cond : Lab → View DB Res → Prop) (sys : Sys DB W X Lab Res Req) :
    Sys DB W X Lab Res Req → Prop
  | refl : Run cond sys sys
  | step {mid last} (e : Event Req) : Run cond sys mid → Admits S cond mid e →
      step S serve mid e = some last → Run cond sys last

instance decidableAdmits (cond : Lab → View DB Res → Prop) [∀ lab v, Decidable (cond lab v)]
    (sys : Sys DB W X Lab Res Req) (e : Event Req) : Decidable (Admits S cond sys e) :=
  match e with
  | .begin _ => isTrue trivial
  | .crash _ => isTrue trivial
  | .advance i =>
    match hs : sys.session i with
    | none => isTrue fun s h => by rw [hs] at h; cases h
    | some s =>
      have iff_of_some : Admits S cond sys (.advance i) ↔ match s.prog with
          | .stmt lab _ _ => cond lab (viewOf S sys i s)
          | .commit lab => cond lab ⟨sys.shared.db, lockedBy S sys i⟩
          | _ => True :=
        ⟨fun h => h s hs, fun h t ht => by rw [hs] at ht; cases ht; exact h⟩
      match hp : s.prog with
      | .stmt lab _ _ => decidable_of_iff (cond lab (viewOf S sys i s)) (by rw [iff_of_some, hp])
      | .commit lab =>
        decidable_of_iff (cond lab ⟨sys.shared.db, lockedBy S sys i⟩) (by rw [iff_of_some, hp])
      | .call _ _ => isTrue (by rw [iff_of_some, hp]; trivial)
      | .rollback => isTrue (by rw [iff_of_some, hp]; trivial)

/-- The state after these events, `none` where one cannot be taken or is not admitted. -/
def runEvents (cond : Lab → View DB Res → Prop) [∀ lab v, Decidable (cond lab v)]
    (sys : Sys DB W X Lab Res Req) : List (Event Req) → Option (Sys DB W X Lab Res Req)
  | [] => some sys
  | e :: es =>
    if Admits S cond sys e then
      (step S serve sys e).bind fun sys' => runEvents cond sys' es
    else none

variable {S serve} {cond : Lab → View DB Res → Prop}

theorem Run.trans {sys mid last : Sys DB W X Lab Res Req} (h : Run S serve cond sys mid)
    (h' : Run S serve cond mid last) : Run S serve cond sys last := by
  induction h' with
  | refl => exact h
  | step e _ hadm hs ih => exact Run.step e ih hadm hs

theorem Run.of_runEvents [∀ lab v, Decidable (cond lab v)] {es : List (Event Req)}
    {sys last : Sys DB W X Lab Res Req} (h : runEvents S serve cond sys es = some last) :
    Run S serve cond sys last := by
  induction es generalizing sys with
  | nil =>
    obtain rfl := Option.some.inj h
    exact Run.refl
  | cons e es ih =>
    unfold runEvents at h
    split at h
    · rename_i hadm
      obtain ⟨mid, hmid, hrest⟩ := Option.bind_eq_some_iff.mp h
      exact (Run.step e Run.refl hadm hmid).trans (ih hrest)
    · cases h

end Semantics

/-! ## Proof outlines -/

/-- What is proved of a protocol: an invariant of the shared state while `n` sessions have
been opened, what session `i` may rely on other sessions' steps to keep, and what each
commit and each outside call is shown to satisfy. -/
structure Outline (DB X Req : Type) where
  inv : ℕ → Shared DB X → Prop
  rely : ℕ → Shared DB X → Shared DB X → Prop
  commits : ℕ → Req → Shared DB X → Shared DB X → Prop
  calls : ℕ → Req → X → Shared DB X → Prop
  inv_open : ∀ n sh, inv n sh → inv (n + 1) sh
  rely_refl : ∀ i sh, rely i sh sh
  rely_trans : ∀ i sh sh' sh'', rely i sh sh' → rely i sh' sh'' → rely i sh sh''

section Logic

variable (o : Outline DB X Req) (S : Store DB W Res Row) (cond : Lab → View DB Res → Prop)

/-- What session `i` holding `ws` sees of the other sessions' steps. -/
def RelyOn (i : ℕ) (ws : List W) (sh sh' : Shared DB X) : Prop :=
  o.rely i sh sh' ∧ ∀ r ∈ S.held ws, S.row r sh'.db = S.row r sh.db

/-- A step of session `i` keeps the invariant and what every other session relies on. -/
def Guarantees (i n : ℕ) (sh sh' : Shared DB X) : Prop :=
  o.inv n sh' ∧ ∀ j, j ≠ i → o.rely j sh sh'

/-- Whatever the other sessions do between its steps, the program keeps its guarantees. -/
def Safe (i : ℕ) (req : Req) : Prog DB W X Lab Res → List W → Shared DB X → Prop
  | .rollback, _, _ => True
  | .commit lab, ws, sh => ∀ n sh' locked, i < n → o.inv n sh' → RelyOn o S i ws sh sh' →
      cond lab ⟨sh'.db, locked⟩ →
      Guarantees o i n sh' { sh' with db := S.applyAll ws sh'.db } ∧
        o.commits i req sh' { sh' with db := S.applyAll ws sh'.db }
  | .call x next, ws, sh => ∀ n sh', i < n → o.inv n sh' → RelyOn o S i ws sh sh' →
      Guarantees o i n sh' { sh' with world := sh'.world ++ [x] } ∧ o.calls i req x sh' ∧
        Safe i req next ws { sh' with world := sh'.world ++ [x] }
  | .stmt lab writes next, ws, sh => ∀ n sh' locked, i < n → o.inv n sh' →
      RelyOn o S i ws sh sh' → cond lab ⟨S.applyAll ws sh'.db, locked⟩ →
      Safe i req (next ⟨S.applyAll ws sh'.db, locked⟩)
        (ws ++ writes ⟨S.applyAll ws sh'.db, locked⟩) sh'

variable {o S cond}

theorem RelyOn.refl (i : ℕ) (ws : List W) (sh : Shared DB X) : RelyOn o S i ws sh sh :=
  ⟨o.rely_refl i sh, fun _ _ => rfl⟩

theorem RelyOn.trans {i : ℕ} {ws : List W} {sh sh' sh'' : Shared DB X}
    (h : RelyOn o S i ws sh sh') (h' : RelyOn o S i ws sh' sh'') : RelyOn o S i ws sh sh'' :=
  ⟨o.rely_trans i _ _ _ h.1 h'.1, fun r hr => (h'.2 r hr).trans (h.2 r hr)⟩

/-- Fewer writes hold fewer rows. -/
theorem RelyOn.mono {i : ℕ} {ws ws' : List W} {sh sh' : Shared DB X}
    (h : RelyOn o S i (ws ++ ws') sh sh') : RelyOn o S i ws sh sh' := by
  refine ⟨h.1, fun r hr => h.2 r ?_⟩
  rw [S.held_append]
  exact List.mem_append_left _ hr

/-- Safety is stable under what the other sessions do. -/
theorem Safe.stable {i : ℕ} {req : Req} {prog : Prog DB W X Lab Res} {ws : List W}
    {sh sh' : Shared DB X} (h : Safe o S cond i req prog ws sh) (hr : RelyOn o S i ws sh sh') :
    Safe o S cond i req prog ws sh' := by
  cases prog with
  | rollback => trivial
  | commit lab => exact fun n sh'' locked hi hinv hr' => h n sh'' locked hi hinv (hr.trans hr')
  | call x next => exact fun n sh'' hi hinv hr' => h n sh'' hi hinv (hr.trans hr')
  | stmt lab writes next =>
    exact fun n sh'' locked hi hinv hr' => h n sh'' locked hi hinv (hr.trans hr')

/-- A program all of whose further writes satisfy `Q`, with no outside effect. -/
def Emits (Q : W → Prop) : Prog DB W X Lab Res → Prop
  | .stmt _ writes next => ∀ v, (∀ w ∈ writes v, Q w) ∧ Emits Q (next v)
  | .call _ _ => False
  | .commit _ => True
  | .rollback => True

/-- To show such a program safe, show the commit of any writes that satisfy `Q`. -/
theorem Safe.of_emits {Q : W → Prop} {i : ℕ} {req : Req} {prog : Prog DB W X Lab Res}
    {ws : List W} {sh : Shared DB X} (h : Emits Q prog)
    (hc : ∀ ws' n sh', (∀ w ∈ ws', Q w) → i < n → o.inv n sh' → RelyOn o S i ws sh sh' →
      Guarantees o i n sh' { sh' with db := S.applyAll (ws ++ ws') sh'.db } ∧
        o.commits i req sh' { sh' with db := S.applyAll (ws ++ ws') sh'.db }) :
    Safe o S cond i req prog ws sh := by
  have hgo : ∀ (prog : Prog DB W X Lab Res) (acc : List W) (sh' : Shared DB X),
      Emits Q prog → (∀ w ∈ acc, Q w) → RelyOn o S i ws sh sh' →
      Safe o S cond i req prog (ws ++ acc) sh' := by
    intro prog
    induction prog with
    | rollback => exact fun _ _ _ _ _ => trivial
    | commit lab =>
      intro acc sh' _ hacc hr n sh'' locked hi hinv hr' _
      exact hc acc n sh'' hacc hi hinv (hr.trans hr'.mono)
    | call x next => exact fun _ _ he => he.elim
    | stmt lab writes next ih =>
      intro acc sh' he hacc hr n sh'' locked hi hinv hr' _
      obtain ⟨hw, hn⟩ := he ⟨S.applyAll (ws ++ acc) sh''.db, locked⟩
      rw [List.append_assoc]
      refine ih _ (acc ++ _) sh'' hn ?_ (hr.trans hr'.mono)
      intro w hmem
      rcases List.mem_append.mp hmem with hmem | hmem
      · exact hacc w hmem
      · exact hw w hmem
  have hbase := hgo prog [] sh h (by simp) (RelyOn.refl i ws sh)
  simpa using hbase

/-- A program that runs into `next` or rolls back, all its writes until then satisfying `Q`. -/
inductive LeadsTo (Q : W → Prop) (next : Prog DB W X Lab Res) : Prog DB W X Lab Res → Prop
  | here : LeadsTo Q next next
  | rollback : LeadsTo Q next .rollback
  | stmt {lab : Lab} {writes : View DB Res → List W} {cont : View DB Res → Prog DB W X Lab Res}
      (hw : ∀ v, ∀ w ∈ writes v, Q w) (hn : ∀ v, LeadsTo Q next (cont v)) :
      LeadsTo Q next (.stmt lab writes cont)

theorem LeadsTo.trans {Q : W → Prop} {next mid prog : Prog DB W X Lab Res}
    (h : LeadsTo Q mid prog) (h' : LeadsTo Q next mid) : LeadsTo Q next prog := by
  induction h with
  | here => exact h'
  | rollback => exact .rollback
  | stmt hw _ ih => exact .stmt hw ih

/-- To show such a program safe, show that a stable property of the pending writes survives
any write that satisfies `Q`, and that `next` is safe under it. -/
theorem Safe.of_leadsTo {Q : W → Prop} {P : List W → Shared DB X → Prop} {i : ℕ} {req : Req}
    {next prog : Prog DB W X Lab Res} {ws : List W} {sh : Shared DB X} (h : LeadsTo Q next prog)
    (hstable : ∀ ws sh sh', P ws sh → RelyOn o S i ws sh sh' → P ws sh')
    (hwrite : ∀ ws sh w, P ws sh → Q w → P (ws ++ [w]) sh)
    (hnext : ∀ ws sh, P ws sh → Safe o S cond i req next ws sh) (hP : P ws sh) :
    Safe o S cond i req prog ws sh := by
  have hwrites : ∀ (ws' ws : List W) (sh : Shared DB X), P ws sh → (∀ w ∈ ws', Q w) →
      P (ws ++ ws') sh := by
    intro ws'
    induction ws' with
    | nil => exact fun ws sh hP _ => by rwa [List.append_nil]
    | cons w ws' ih =>
      intro ws sh hP hQ
      have hone := hwrite ws sh w hP (hQ w List.mem_cons_self)
      have hall := ih (ws ++ [w]) sh hone fun w' hw' => hQ w' (List.mem_cons_of_mem w hw')
      rwa [List.append_assoc] at hall
  induction h generalizing ws sh with
  | here => exact hnext ws sh hP
  | rollback => trivial
  | stmt hw _ ih =>
    intro n sh' locked _ _ hr _
    exact ih _ (hwrites _ ws sh' (hstable ws sh sh' hP hr) (hw _))

end Logic

/-! ## Soundness of the rule -/

section Soundness

variable {S : Store DB W Res Row} {o : Outline DB X Req} {cond : Lab → View DB Res → Prop}

/-- The invariant holds, every open session is safe, and no row is held twice. -/
structure Consistent (o : Outline DB X Req) (S : Store DB W Res Row)
    (cond : Lab → View DB Res → Prop) (sys : Sys DB W X Lab Res Req) : Prop where
  inv : o.inv sys.opened sys.shared
  bound : ∀ i s, sys.session i = some s → i < sys.opened
  safe : ∀ i s, sys.session i = some s → Safe o S cond i s.req s.prog s.pending sys.shared
  disjoint : ∀ i j s t, sys.session i = some s → sys.session j = some t → i ≠ j →
    ∀ r ∈ S.held s.pending, r ∉ S.held t.pending

/-- Removing a session keeps the rest consistent. -/
theorem Consistent.close {sys : Sys DB W X Lab Res Req} (h : Consistent o S cond sys) (i : ℕ) :
    Consistent o S cond { sys with session := Function.update sys.session i none } := by
  have hsub : ∀ j s, Function.update sys.session i none j = some s → sys.session j = some s := by
    intro j s hs
    by_cases hj : j = i
    · rw [hj, Function.update_self] at hs
      cases hs
    · rwa [Function.update_of_ne hj] at hs
  exact ⟨h.inv, fun j s hs => h.bound j s (hsub j s hs), fun j s hs => h.safe j s (hsub j s hs),
    fun j k s t hs ht => h.disjoint j k s t (hsub j s hs) (hsub k t ht)⟩

/-- A step of session `i` on the shared state that changes only rows it holds. -/
theorem Consistent.shared {sys : Sys DB W X Lab Res Req} (h : Consistent o S cond sys) {i : ℕ}
    {s : Session DB W X Lab Res Req} (hs : sys.session i = some s) {sh : Shared DB X}
    (hg : Guarantees o i sys.opened sys.shared sh)
    (hrow : ∀ r, r ∉ S.held s.pending → S.row r sh.db = S.row r sys.shared.db) :
    Consistent o S cond
      { sys with shared := sh, session := Function.update sys.session i none } := by
  have hsub : ∀ j t, Function.update sys.session i none j = some t →
      sys.session j = some t ∧ j ≠ i := by
    intro j t ht
    by_cases hj : j = i
    · rw [hj, Function.update_self] at ht
      cases ht
    · rw [Function.update_of_ne hj] at ht
      exact ⟨ht, hj⟩
  refine ⟨hg.1, fun j t ht => h.bound j t (hsub j t ht).1, ?_, ?_⟩
  · intro j t ht
    obtain ⟨ht, hj⟩ := hsub j t ht
    refine (h.safe j t ht).stable ⟨hg.2 j hj, fun r hr => hrow r ?_⟩
    exact h.disjoint j i t s ht hs hj r hr
  · intro j k t u ht hu
    exact h.disjoint j k t u (hsub j t ht).1 (hsub k u hu).1

/-- Putting back session `i` with the same pending writes. -/
theorem Consistent.reopen {sys : Sys DB W X Lab Res Req} {i : ℕ}
    {s' : Session DB W X Lab Res Req} (h : Consistent o S cond sys)
    (hfree : ∀ j t, sys.session j = some t → j ≠ i → ∀ r ∈ S.held s'.pending,
      r ∉ S.held t.pending)
    (hi : i < sys.opened) (hsafe : Safe o S cond i s'.req s'.prog s'.pending sys.shared) :
    Consistent o S cond { sys with session := Function.update sys.session i (some s') } := by
  have hcases : ∀ j t, Function.update sys.session i (some s') j = some t →
      (j = i ∧ t = s') ∨ (j ≠ i ∧ sys.session j = some t) := by
    intro j t ht
    by_cases hj : j = i
    · rw [hj, Function.update_self] at ht
      exact Or.inl ⟨hj, (Option.some.inj ht).symm⟩
    · rw [Function.update_of_ne hj] at ht
      exact Or.inr ⟨hj, ht⟩
  refine ⟨h.inv, ?_, ?_, ?_⟩
  · intro j t ht
    rcases hcases j t ht with ⟨rfl, -⟩ | ⟨-, ht⟩
    · exact hi
    · exact h.bound j t ht
  · intro j t ht
    rcases hcases j t ht with ⟨rfl, rfl⟩ | ⟨-, ht⟩
    · exact hsafe
    · exact h.safe j t ht
  · intro j k t u ht hu hjk r hr
    rcases hcases j t ht with ⟨hj, hts⟩ | ⟨hj, hts⟩
    · rcases hcases k u hu with ⟨hk, -⟩ | ⟨hk, hus⟩
      · exact absurd (hj.trans hk.symm) hjk
      · exact hfree k u hus hk r (hts ▸ hr)
    · rcases hcases k u hu with ⟨-, hus⟩ | ⟨-, hus⟩
      · rw [hus]
        exact fun hmem => hfree j t hts hj r hmem hr
      · exact h.disjoint j k t u hts hus hjk r hr

/-- A database with no session opened yet. -/
def start (sh : Shared DB X) : Sys DB W X Lab Res Req := ⟨sh, 0, fun _ => none⟩

theorem consistent_start {sh : Shared DB X} (h : o.inv 0 sh) :
    Consistent o S cond (start sh : Sys DB W X Lab Res Req) where
  inv := h
  bound _ _ hs := by cases hs
  safe _ _ hs := by cases hs
  disjoint _ _ _ _ hs := by cases hs

variable [DecidableEq Res] {serve : ℕ → Req → Prog DB W X Lab Res}

theorem not_held_of_not_locked {sys : Sys DB W X Lab Res Req} {i j : ℕ} {r : Res}
    {t : Session DB W X Lab Res Req} (hl : lockedBy S sys i r = false)
    (ht : sys.session j = some t) (hj : j < sys.opened) (hij : j ≠ i) :
    r ∉ S.held t.pending := by
  intro hmem
  have hany : lockedBy S sys i r = true := by
    unfold lockedBy
    rw [List.any_eq_true]
    refine ⟨j, List.mem_range.mpr hj, ?_⟩
    simp [hij, ht, hmem]
  rw [hl] at hany
  cases hany

/-- One admitted step keeps the system consistent. -/
theorem Consistent.step
    (hserve : ∀ n req sh, o.inv n sh → Safe o S cond n req (serve n req) [] sh)
    {sys sys' : Sys DB W X Lab Res Req} {e : Event Req} (h : Consistent o S cond sys)
    (hadm : Admits S cond sys e) (hstep : step S serve sys e = some sys') :
    Consistent o S cond sys' := by
  cases e with
  | begin req =>
    obtain rfl := Option.some.inj hstep
    have hopen : Consistent o S cond { sys with opened := sys.opened + 1 } :=
      ⟨o.inv_open _ _ h.inv, fun i s hs => Nat.lt_succ_of_lt (h.bound i s hs), h.safe, h.disjoint⟩
    exact hopen.reopen (by simp) (Nat.lt_succ_self _)
      (hserve _ req _ h.inv)
  | crash i =>
    unfold ReadCommitted.step at hstep
    cases hs : sys.session i with
    | none => simp [hs] at hstep
    | some s =>
      simp only [hs] at hstep
      obtain rfl := Option.some.inj hstep
      exact h.close i
  | advance i =>
    unfold ReadCommitted.step at hstep
    cases hs : sys.session i with
    | none => simp [hs] at hstep
    | some s =>
      have hi := h.bound i s hs
      have hsafe := h.safe i s hs
      have hcond := hadm s hs
      simp only [hs] at hstep
      cases hp : s.prog with
      | rollback =>
        simp only [hp] at hstep
        obtain rfl := Option.some.inj hstep
        exact h.close i
      | commit lab =>
        simp only [hp] at hstep hcond
        obtain rfl := Option.some.inj hstep
        rw [hp] at hsafe
        obtain ⟨hg, -⟩ := hsafe sys.opened sys.shared _ hi h.inv (RelyOn.refl _ _ _) hcond
        exact h.shared hs hg fun r hr => S.row_applyAll hr _
      | call x next =>
        simp only [hp] at hstep
        obtain rfl := Option.some.inj hstep
        rw [hp] at hsafe
        obtain ⟨hg, -, hnext⟩ := hsafe sys.opened sys.shared hi h.inv (RelyOn.refl _ _ _)
        have hsh := h.shared hs hg fun _ _ => rfl
        have hfree : ∀ j t, Function.update sys.session i none j = some t → j ≠ i →
            ∀ r ∈ S.held { s with prog := next }.pending, r ∉ S.held t.pending := by
          intro j t ht hj r hr
          have htj : sys.session j = some t := by simpa [Function.update_of_ne hj] using ht
          exact h.disjoint i j s t hs htj (Ne.symm hj) r hr
        have hback := Consistent.reopen hsh hfree hi hnext
        simpa using hback
      | stmt lab writes next =>
        simp only [hp] at hstep hcond
        split at hstep
        · rename_i hfree
          obtain rfl := Option.some.inj hstep
          rw [hp] at hsafe
          have hnext := hsafe sys.opened sys.shared _ hi h.inv (RelyOn.refl _ _ _) hcond
          refine h.reopen ?_ hi hnext
          intro j t ht hj r hr
          rw [S.held_append] at hr
          rcases List.mem_append.mp hr with hr | hr
          · exact h.disjoint i j s t hs ht (Ne.symm hj) r hr
          · have hl : lockedBy S sys i r = false := by
              have := List.all_eq_true.mp hfree r hr
              simpa [viewOf] using this
            exact not_held_of_not_locked hl ht (h.bound j t ht) hj
        · cases hstep

theorem Consistent.run
    (hserve : ∀ n req sh, o.inv n sh → Safe o S cond n req (serve n req) [] sh)
    {sys sys' : Sys DB W X Lab Res Req} (h : Consistent o S cond sys)
    (hrun : Run S serve cond sys sys') : Consistent o S cond sys' := by
  induction hrun with
  | refl => exact h
  | step e _ hadm hstep ih => exact ih.step hserve hadm hstep

/-- The invariant holds after every run whose steps meet the condition. -/
theorem Run.inv (hserve : ∀ n req sh, o.inv n sh → Safe o S cond n req (serve n req) [] sh)
    {sh : Shared DB X} (h0 : o.inv 0 sh) {sys : Sys DB W X Lab Res Req}
    (hrun : Run S serve cond (start sh) sys) : o.inv sys.opened sys.shared :=
  ((consistent_start h0).run hserve hrun).inv

/-- Only a commit changes the committed rows, and then as the outline says. -/
theorem Consistent.commit_step {sys sys' : Sys DB W X Lab Res Req} {e : Event Req}
    (h : Consistent o S cond sys) (hadm : Admits S cond sys e)
    (hstep : ReadCommitted.step S serve sys e = some sys') :
    sys'.shared.db = sys.shared.db ∨
      ∃ i s lab, e = .advance i ∧ sys.session i = some s ∧ s.prog = .commit lab ∧
        o.commits i s.req sys.shared sys'.shared := by
  cases e with
  | begin req =>
    obtain rfl := Option.some.inj hstep
    exact Or.inl rfl
  | crash i =>
    unfold ReadCommitted.step at hstep
    cases hs : sys.session i with
    | none => simp [hs] at hstep
    | some s =>
      simp only [hs] at hstep
      obtain rfl := Option.some.inj hstep
      exact Or.inl rfl
  | advance i =>
    unfold ReadCommitted.step at hstep
    cases hs : sys.session i with
    | none => simp [hs] at hstep
    | some s =>
      have hsafe := h.safe i s hs
      have hcond := hadm s hs
      simp only [hs] at hstep
      cases hp : s.prog with
      | rollback =>
        simp only [hp] at hstep
        obtain rfl := Option.some.inj hstep
        exact Or.inl rfl
      | call x next =>
        simp only [hp] at hstep
        obtain rfl := Option.some.inj hstep
        exact Or.inl rfl
      | stmt lab writes next =>
        simp only [hp] at hstep
        split at hstep
        · obtain rfl := Option.some.inj hstep
          exact Or.inl rfl
        · cases hstep
      | commit lab =>
        simp only [hp] at hstep hcond
        obtain rfl := Option.some.inj hstep
        rw [hp] at hsafe
        have hc := hsafe sys.opened sys.shared _ (h.bound i s hs) h.inv (RelyOn.refl _ _ _) hcond
        exact Or.inr ⟨i, s, lab, rfl, hs, hp, hc.2⟩

end Soundness

/-! ## One invariant of the committed rows -/

section Invariant

variable (S : Store DB W Res Row) (cond : Lab → View DB Res → Prop) (I : DB → Prop)

/-- What other sessions' commits leave true of the writes pending against the committed rows,
as long as they keep the invariant and the rows held. -/
def Stable (P : List W → DB → Prop) : Prop :=
  ∀ ws db db', I db → I db' → (∀ r ∈ S.held ws, S.row r db' = S.row r db) → P ws db → P ws db'

/-- From `P` on, each statement reaches a stable assertion and each commit keeps the invariant. -/
def Keeps : Prog DB W X Lab Res → (List W → DB → Prop) → Prop
  | .rollback, _ => True
  | .commit lab, P => ∀ ws db locked, I db → P ws db → cond lab ⟨db, locked⟩ →
      I (S.applyAll ws db)
  | .call _ next, P => Keeps next P
  | .stmt lab writes next, P => ∀ ws db locked, I db → P ws db →
      cond lab ⟨S.applyAll ws db, locked⟩ →
      ∃ Q, Stable S I Q ∧ Q (ws ++ writes ⟨S.applyAll ws db, locked⟩) db ∧
        Keeps (next ⟨S.applyAll ws db, locked⟩) Q

/-- The outline that promises the invariant and nothing else. -/
def invariantOutline : Outline DB X Req where
  inv _ sh := I sh.db
  rely _ _ _ := True
  commits _ _ _ _ := True
  calls _ _ _ _ := True
  inv_open _ _ h := h
  rely_refl _ _ := trivial
  rely_trans _ _ _ _ _ _ := trivial

variable {S cond I}

/-- Between statements nothing is pending: the assertion every program starts from. -/
theorem stable_nil : Stable S I fun ws _ => ws = [] := fun _ _ _ _ _ _ h => h

theorem Keeps.safe {i : ℕ} {req : Req} {prog : Prog DB W X Lab Res} {P : List W → DB → Prop}
    {ws : List W} {sh : Shared DB X} (h : Keeps S cond I prog P) (hs : Stable S I P)
    (hI : I sh.db) (hP : P ws sh.db) :
    Safe (invariantOutline I) S cond i req prog ws sh := by
  induction prog generalizing P ws sh with
  | rollback => trivial
  | commit lab =>
    intro n sh' locked _ hinv hr hc
    have hP' := hs ws sh.db sh'.db hI hinv hr.2 hP
    exact ⟨⟨h ws sh'.db locked hinv hP' hc, fun _ _ => trivial⟩, trivial⟩
  | call x next ih =>
    intro n sh' _ hinv hr
    have hP' := hs ws sh.db sh'.db hI hinv hr.2 hP
    exact ⟨⟨hinv, fun _ _ => trivial⟩, trivial, ih h hs hinv hP'⟩
  | stmt lab writes next ih =>
    intro n sh' locked _ hinv hr hc
    have hP' := hs ws sh.db sh'.db hI hinv hr.2 hP
    obtain ⟨Q, hQ, hQw, hnext⟩ := h ws sh'.db locked hinv hP' hc
    exact ih _ hnext hQ hinv hQw

/-- An invariant that every program keeps holds after every run. -/
theorem Run.keeps [DecidableEq Res] {serve : ℕ → Req → Prog DB W X Lab Res}
    (hserve : ∀ n req, Keeps S cond I (serve n req) fun ws _ => ws = []) {sh : Shared DB X}
    {sys : Sys DB W X Lab Res Req} (hrun : Run S serve cond (start sh) sys) (h0 : I sh.db) :
    I sys.shared.db :=
  Run.inv (o := invariantOutline I)
    (fun n req _ hI => (hserve n req).safe stable_nil hI rfl) h0 hrun

/-- A program whose statements are all of a given shape. -/
def Shaped (shape : Lab → View DB Res → List W → Prop) : Prog DB W X Lab Res → Prop
  | .stmt lab writes next => ∀ v, shape lab v (writes v) ∧ Shaped shape (next v)
  | .call _ next => Shaped shape next
  | .commit _ => True
  | .rollback => True

/-- A stable assertion that every statement of that shape keeps, and under which every commit
keeps the invariant. -/
theorem Keeps.of_shaped {shape : Lab → View DB Res → List W → Prop} {P : List W → DB → Prop}
    {prog : Prog DB W X Lab Res} (hp : Shaped shape prog) (hs : Stable S I P)
    (hstmt : ∀ lab ws db locked ws', I db → P ws db → cond lab ⟨S.applyAll ws db, locked⟩ →
      shape lab ⟨S.applyAll ws db, locked⟩ ws' → P (ws ++ ws') db)
    (hcommit : ∀ ws db, I db → P ws db → I (S.applyAll ws db)) : Keeps S cond I prog P := by
  induction prog with
  | rollback => trivial
  | commit lab => exact fun ws db _ hI hP _ => hcommit ws db hI hP
  | call x next ih => exact ih hp
  | stmt lab writes next ih =>
    intro ws db locked hI hP hc
    obtain ⟨hshape, hnext⟩ := hp ⟨S.applyAll ws db, locked⟩
    exact ⟨P, hs, hstmt lab ws db locked _ hI hP hc hshape, ih _ hnext⟩

theorem Keeps.mono {P P' : List W → DB → Prop} {prog : Prog DB W X Lab Res}
    (h : Keeps S cond I prog P) (hle : ∀ ws db, I db → P' ws db → P ws db) :
    Keeps S cond I prog P' := by
  induction prog generalizing P P' with
  | rollback => trivial
  | commit lab => exact fun ws db locked hI hP hc => h ws db locked hI (hle ws db hI hP) hc
  | call x next ih => exact ih h hle
  | stmt lab writes next _ =>
    exact fun ws db locked hI hP hc => h ws db locked hI (hle ws db hI hP) hc

/-- An invariant of what one lock guards, which each statement keeps as if it ran alone. -/
theorem Keeps.of_row {shape : Lab → View DB Res → List W → Prop} (r : Res)
    {prog : Prog DB W X Lab Res} (hp : Shaped shape prog)
    (hrow : ∀ db db', S.row r db = S.row r db' → I db → I db')
    (hcongr : ∀ w db db', S.row r db = S.row r db' → S.row r (S.apply w db) = S.row r (S.apply w db'))
    (hstmt : ∀ lab db locked ws, I db → cond lab ⟨db, locked⟩ → shape lab ⟨db, locked⟩ ws →
      I (S.applyAll ws db)) : Keeps S cond I prog fun ws _ => ws = [] := by
  have hstable : Stable S I fun ws db => I (S.applyAll ws db) := by
    intro ws db db' _ hI' hheld h
    rcases S.row_stable hcongr hheld with hfree | ⟨-, hsame⟩
    · exact hrow _ _ hfree.symm hI'
    · exact hrow _ _ hsame.symm h
  have hkeeps : Keeps S cond I prog fun ws db => I (S.applyAll ws db) := by
    refine Keeps.of_shaped hp hstable ?_ fun _ _ _ h => h
    intro lab ws db locked ws' _ hP hc hshape
    rw [S.applyAll_append]
    exact hstmt lab _ locked ws' hP hc hshape
  refine hkeeps.mono ?_
  rintro ws db hI rfl
  exact hI

end Invariant

end ReadCommitted
