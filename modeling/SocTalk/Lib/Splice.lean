import Mathlib.Data.List.Infix
import Mathlib.Tactic.Common

/-! A text in which marks stand for some of its stretches. -/
namespace Splice

variable {α : Type}

/-- What stays of the text, or a stretch and the mark shown for it. -/
inductive Patch (α : Type) where
  | keep (c : α)
  | swap (m mark : List α)

def Patch.source : Patch α → List α
  | keep c => [c]
  | swap m _ => m

def Patch.shown : Patch α → List α
  | keep c => [c]
  | swap _ mark => mark

def source (ps : List (Patch α)) : List α := ps.flatMap Patch.source

def shown (ps : List (Patch α)) : List α := ps.flatMap Patch.shown

def keeps (m : List α) : List (Patch α) := m.map .keep

section
variable (c : α) (m mark : List α) (ps qs : List (Patch α))

@[simp] theorem source_nil : source ([] : List (Patch α)) = [] := rfl

@[simp] theorem shown_nil : shown ([] : List (Patch α)) = [] := rfl

@[simp] theorem source_keep : source (.keep c :: ps) = c :: source ps := rfl

@[simp] theorem shown_keep : shown (.keep c :: ps) = c :: shown ps := rfl

@[simp] theorem source_swap : source (.swap m mark :: ps) = m ++ source ps := rfl

@[simp] theorem shown_swap : shown (.swap m mark :: ps) = mark ++ shown ps := rfl

@[simp] theorem source_append : source (ps ++ qs) = source ps ++ source qs := List.flatMap_append

@[simp] theorem shown_append : shown (ps ++ qs) = shown ps ++ shown qs := List.flatMap_append

@[simp] theorem keeps_nil : keeps ([] : List α) = [] := rfl

@[simp] theorem keeps_cons : keeps (c :: m) = .keep c :: keeps m := rfl

@[simp] theorem keeps_append : keeps (m ++ mark) = keeps m ++ keeps mark := List.map_append

@[simp] theorem source_keeps : source (keeps m) = m := by
  induction m with
  | nil => rfl
  | cons c m ih => rw [keeps_cons, source_keep, ih]

@[simp] theorem shown_keeps : shown (keeps m) = m := by
  induction m with
  | nil => rfl
  | cons c m ih => rw [keeps_cons, shown_keep, ih]

end

/-! ## What stands around -/

/-- Holds of every stretch replaced, with what stands behind it, last first, and ahead of it. -/
def AtSwaps (P : List α → List α → List α → Prop) : List α → List (Patch α) → Prop
  | _, [] => True
  | b, .keep c :: ps => AtSwaps P (c :: b) ps
  | b, .swap m _ :: ps => P b m (source ps) ∧ AtSwaps P (m.reverse ++ b) ps

/-- Holds at every character that stays, of what stands behind it and what begins with it. -/
def AtKeeps (Q : List α → List (Patch α) → Prop) : List α → List (Patch α) → Prop
  | _, [] => True
  | b, .keep c :: ps => Q b (.keep c :: ps) ∧ AtKeeps Q (c :: b) ps
  | b, .swap m _ :: ps => AtKeeps Q (m.reverse ++ b) ps

section
variable {P : List α → List α → List α → Prop} {Q : List α → List (Patch α) → Prop}
  {ps : List (Patch α)} {b m mark : List α} {c : α}

theorem atSwaps_keeps : AtSwaps P b (keeps m ++ ps) ↔ AtSwaps P (m.reverse ++ b) ps := by
  induction m generalizing b with
  | nil => rfl
  | cons c m ih =>
    rw [keeps_cons, List.cons_append, AtSwaps, ih]
    simp

theorem AtSwaps.after {pa : List (Patch α)} (h : AtSwaps P b (pa ++ ps)) :
    AtSwaps P ((source pa).reverse ++ b) ps := by
  induction pa generalizing b with
  | nil => exact h
  | cons x pa ih =>
    cases x with
    | keep c =>
      rw [List.cons_append, AtSwaps] at h
      simpa using ih h
    | swap m mark =>
      rw [List.cons_append, AtSwaps] at h
      simpa using ih h.2

theorem AtKeeps.after {pa : List (Patch α)} (h : AtKeeps Q b (pa ++ ps)) :
    AtKeeps Q ((source pa).reverse ++ b) ps := by
  induction pa generalizing b with
  | nil => exact h
  | cons x pa ih =>
    cases x with
    | keep c =>
      rw [List.cons_append, AtKeeps] at h
      simpa using ih h.2
    | swap m mark =>
      rw [List.cons_append, AtKeeps] at h
      simpa using ih h

theorem atKeeps_of_forall
    (h : ∀ b' qs, b.reverse ++ source ps = b'.reverse ++ source qs → Q b' qs) : AtKeeps Q b ps := by
  induction ps generalizing b with
  | nil => trivial
  | cons x ps ih =>
    cases x with
    | keep c =>
      refine ⟨h b _ rfl, ih ?_⟩
      simpa using h
    | swap m mark =>
      refine ih ?_
      simpa using h

theorem atKeeps_keeps (hkeeps : ∀ w t, m = w ++ t → t ≠ [] → Q (w.reverse ++ b) (keeps t ++ ps))
    (h : AtKeeps Q (m.reverse ++ b) ps) : AtKeeps Q b (keeps m ++ ps) := by
  induction m generalizing b with
  | nil => exact h
  | cons c m ih =>
    refine ⟨hkeeps [] (c :: m) rfl (by simp), ih ?_ (by simpa using h)⟩
    intro w t hm ht
    have hlater := hkeeps (c :: w) t (by simp [hm]) ht
    simpa using hlater

end

/-! ## Where a stretch of the result comes from -/

/-- A mark is one of the bodies between `o` and `z`. -/
def Marked (o z : α) (bodies : List (List α)) (ps : List (Patch α)) : Prop :=
  ∀ m mark, Patch.swap m mark ∈ ps → ∃ body ∈ bodies, mark = o :: (body ++ [z])

section
variable {o z : α} {bodies : List (List α)} {ps : List (Patch α)} {M y : List α}

theorem exists_keeps (hmarked : Marked o z bodies ps) (ho : o ∉ M) (h : shown ps = M ++ y) :
    ∃ py, ps = keeps M ++ py ∧ shown py = y := by
  induction M generalizing ps with
  | nil => exact ⟨ps, rfl, h⟩
  | cons c M ih =>
    have hc : c ≠ o := fun h => ho (h ▸ List.mem_cons_self)
    have hrest : o ∉ M := fun h => ho (List.mem_cons_of_mem c h)
    cases ps with
    | nil => simp at h
    | cons x ps =>
      cases x with
      | keep d =>
        rw [shown_keep, List.cons_append, List.cons_eq_cons] at h
        obtain ⟨rfl, h⟩ := h
        obtain ⟨py, rfl, hy⟩ := ih (fun m mark hmem => hmarked m mark (List.mem_cons_of_mem _ hmem)) hrest h
        exact ⟨py, rfl, hy⟩
      | swap m mark =>
        obtain ⟨body, -, rfl⟩ := hmarked m mark List.mem_cons_self
        rw [shown_swap, List.cons_append, List.cons_append, List.cons_eq_cons] at h
        exact absurd h.1.symm hc

/-- A stretch of the result that no mark contains and that contains no end of a mark has stayed. -/
theorem exists_align (hmarked : Marked o z bodies ps) (hM : M ≠ []) (ho : o ∉ M) (hz : z ∉ M)
    (hbody : ∀ body ∈ bodies, ¬M <:+: body) {a : List α} (h : shown ps = a ++ (M ++ y)) :
    ∃ pa py, ps = pa ++ (keeps M ++ py) ∧ shown pa = a ∧ shown py = y := by
  induction ps generalizing a with
  | nil =>
    have hnil := List.append_eq_nil_iff.mp h.symm
    exact absurd (List.append_eq_nil_iff.mp hnil.2).1 hM
  | cons x ps ih =>
    have hrest : Marked o z bodies ps :=
      fun m mark hmem => hmarked m mark (List.mem_cons_of_mem _ hmem)
    cases a with
    | nil =>
      obtain ⟨py, hps, hy⟩ := exists_keeps hmarked ho h
      exact ⟨[], py, hps, rfl, hy⟩
    | cons d a =>
      cases x with
      | keep c =>
        rw [shown_keep, List.cons_append, List.cons_eq_cons] at h
        obtain ⟨rfl, h⟩ := h
        obtain ⟨pa, py, rfl, rfl, hy⟩ := ih hrest h
        exact ⟨.keep c :: pa, py, rfl, rfl, hy⟩
      | swap m mark =>
        obtain ⟨body, hmem, rfl⟩ := hmarked m mark List.mem_cons_self
        rw [shown_swap, List.cons_append, List.cons_append, List.cons_eq_cons] at h
        obtain ⟨rfl, h⟩ := h
        rcases List.append_eq_append_iff.mp h with ⟨a', rfl, hlater⟩ | ⟨e, hmark, hlater⟩
        · -- The mark lies before the stretch.
          obtain ⟨pa, py, rfl, rfl, hy⟩ := ih hrest hlater
          exact ⟨.swap m _ :: pa, py, rfl, by simp, hy⟩
        · rcases List.eq_nil_or_concat e with rfl | ⟨e, w, rfl⟩
          · rw [List.append_nil] at hmark
            obtain ⟨pa, py, rfl, hpa, hy⟩ := ih hrest (a := []) hlater.symm
            exact ⟨.swap m _ :: pa, py, rfl, by simp [hpa, ← hmark], hy⟩
          · -- The stretch begins within the mark: it ends in it, or goes over its end.
            rw [List.concat_eq_append, ← List.append_assoc] at hmark
            obtain ⟨rfl, hw⟩ := List.append_inj' hmark rfl
            have hzw : z = w := by simpa using hw
            subst hzw
            rw [List.concat_eq_append, List.append_assoc] at hlater
            rcases List.append_eq_append_iff.mp hlater with ⟨e', rfl, -⟩ | ⟨e', rfl, hover⟩
            · exact absurd ⟨a, e', by simp⟩ (hbody _ hmem)
            · cases e' with
              | nil => exact absurd ⟨a, [], by simp⟩ (hbody _ hmem)
              | cons v e' =>
                obtain ⟨rfl, -⟩ := List.cons_eq_cons.mp hover
                exact absurd (by simp) hz

end

end Splice
