import SocTalk.Lib.ReadCommitted

/-! Programs of one store run over a larger one, and statements judged write by write. -/
namespace ReadCommitted

variable {DB W X Lab Res Row DB' W' Lab' Res' : Type}

/-- How a larger store holds a smaller one. -/
structure Embedding (DB W Lab Res DB' W' Lab' Res' : Type) where
  db : DB' → DB
  write : W → W'
  lab : Lab → Lab'
  res : Res → Res'

def Embedding.view (e : Embedding DB W Lab Res DB' W' Lab' Res') (v : View DB' Res') :
    View DB Res := ⟨e.db v.db, fun r => v.locked (e.res r)⟩

/-- The program over the larger store, which sees and writes its part of it. -/
def Prog.embed (e : Embedding DB W Lab Res DB' W' Lab' Res') :
    Prog DB W X Lab Res → Prog DB' W' X Lab' Res'
  | .stmt lab writes next =>
    .stmt (e.lab lab) (fun v => (writes (e.view v)).map e.write) fun v => (next (e.view v)).embed e
  | .call x next => .call x (next.embed e)
  | .commit lab => .commit (e.lab lab)
  | .rollback => .rollback

theorem Shaped.embed {e : Embedding DB W Lab Res DB' W' Lab' Res'}
    {shape : Lab → View DB Res → List W → Prop} {shape' : Lab' → View DB' Res' → List W' → Prop}
    (hle : ∀ lab v ws, shape lab (e.view v) ws → shape' (e.lab lab) v (ws.map e.write))
    {prog : Prog DB W X Lab Res} (h : Shaped shape prog) : Shaped shape' (prog.embed e) := by
  induction prog with
  | rollback => trivial
  | commit lab => trivial
  | call x next ih => exact ih h
  | stmt lab writes next ih =>
    intro v
    obtain ⟨hshape, hnext⟩ := h (e.view v)
    exact ⟨hle lab v _ hshape, ih _ hnext⟩

/-! ## Writes judged one by one -/

namespace Store

variable (S : Store DB W Res Row)

/-- Each write is within `P` of the database it is applied to. -/
def Each (P : DB → W → Prop) : DB → List W → Prop
  | _, [] => True
  | db, w :: ws => P db w ∧ Each P (S.apply w db) ws

variable {S} {P : DB → W → Prop}

theorem Each.of_forall {ws : List W} (h : ∀ w ∈ ws, ∀ db, P db w) (db : DB) : S.Each P db ws := by
  induction ws generalizing db with
  | nil => trivial
  | cons w ws ih =>
    exact ⟨h w List.mem_cons_self db, ih (fun w' hw' => h w' (List.mem_cons_of_mem w hw')) _⟩

theorem Each.append {ws ws' : List W} {db : DB} (h : S.Each P db ws)
    (h' : S.Each P (S.applyAll ws db) ws') : S.Each P db (ws ++ ws') := by
  induction ws generalizing db with
  | nil => exact h'
  | cons w ws ih => exact ⟨h.1, ih h.2 h'⟩

/-- What each such write keeps, all of them keep. -/
theorem Each.keeps {I : DB → Prop} (hstep : ∀ db w, I db → P db w → I (S.apply w db))
    {ws : List W} {db : DB} (h : S.Each P db ws) (hI : I db) : I (S.applyAll ws db) := by
  induction ws generalizing db with
  | nil => exact hI
  | cons w ws ih => exact ih h.2 (hstep db w hI h.1)

end Store

end ReadCommitted
