import Mathlib.Data.List.Sort
import SocTalk.Lib.Raise

/-! A log of numbered rows folded up to a high-water mark: the state remembers the last number it
has seen, and a pass folds the rows behind it. -/
namespace Cursor

variable {E F Err : Type} (seq : E → ℕ) (cursor : F → ℕ) (apply : F → E → Except Err F)

def inOrder (rows : List E) : List E := rows.insertionSort fun a b => seq a ≤ seq b

/-- The rows that a state with this mark has seen, and those behind the mark. -/
def upTo (mark : ℕ) (rows : List E) : List E := inOrder seq (rows.filter fun e => seq e ≤ mark)

def after (mark : ℕ) (rows : List E) : List E := inOrder seq (rows.filter fun e => mark < seq e)

@[simp] theorem mem_inOrder {rows : List E} {e : E} : e ∈ inOrder seq rows ↔ e ∈ rows :=
  List.mem_insertionSort _

theorem mem_upTo {mark : ℕ} {rows : List E} {e : E} :
    e ∈ upTo seq mark rows ↔ e ∈ rows ∧ seq e ≤ mark := by
  simp [upTo]

theorem mem_after {mark : ℕ} {rows : List E} {e : E} :
    e ∈ after seq mark rows ↔ e ∈ rows ∧ mark < seq e := by
  simp [after]

section

variable {seq} {xs ys : List E} {e : E}

theorem orderedInsert_left (h : ∀ y ∈ ys, seq e ≤ seq y) :
    (xs ++ ys).orderedInsert (fun a b => seq a ≤ seq b) e =
      xs.orderedInsert (fun a b => seq a ≤ seq b) e ++ ys := by
  induction xs with
  | nil =>
    cases ys with
    | nil => rfl
    | cons y ys => exact List.orderedInsert_cons_of_le _ _ (h y (by simp))
  | cons x xs ih =>
    rw [List.cons_append, List.orderedInsert_cons, List.orderedInsert_cons, ih]
    split <;> rfl

theorem orderedInsert_right (h : ∀ x ∈ xs, seq x < seq e) :
    (xs ++ ys).orderedInsert (fun a b => seq a ≤ seq b) e =
      xs ++ ys.orderedInsert (fun a b => seq a ≤ seq b) e := by
  induction xs with
  | nil => rfl
  | cons x xs ih =>
    have hx := h x (by simp)
    rw [List.cons_append, List.orderedInsert_of_not_le _ _ (by omega),
      ih fun y hy => h y (by simp [hy]), List.cons_append]

/-- What has been seen comes before what has not. -/
theorem upTo_append_after (mark : ℕ) (rows : List E) :
    upTo seq mark rows ++ after seq mark rows = inOrder seq rows := by
  induction rows with
  | nil => rfl
  | cons e rows ih =>
    have hcons : inOrder seq (e :: rows) =
        (inOrder seq rows).orderedInsert (fun a b => seq a ≤ seq b) e := rfl
    rw [hcons, ← ih]
    unfold upTo after
    by_cases he : seq e ≤ mark
    · rw [List.filter_cons_of_pos (by simpa using he), List.filter_cons_of_neg (by simpa using he)]
      refine (orderedInsert_left fun y hy => ?_).symm
      have hy' := ((mem_after seq).mp hy).2
      omega
    · rw [List.filter_cons_of_neg (by simpa using he), List.filter_cons_of_pos (by simpa using he)]
      refine (orderedInsert_right fun x hx => ?_).symm
      have hx' := ((mem_upTo seq).mp hx).2
      omega

/-- Selecting behind the mark and then sorting, or the other way round. -/
theorem filter_inOrder (mark : ℕ) (rows : List E) :
    (inOrder seq rows).filter (fun e => mark < seq e) = after seq mark rows := by
  rw [← upTo_append_after mark rows, List.filter_append]
  have hseen : (upTo seq mark rows).filter (fun e => mark < seq e) = [] := by
    refine List.filter_eq_nil_iff.mpr fun e he => ?_
    have he' := ((mem_upTo seq).mp he).2
    simpa using he'
  have hbehind : (after seq mark rows).filter (fun e => mark < seq e) = after seq mark rows := by
    refine List.filter_eq_self.mpr fun e he => ?_
    simpa using ((mem_after seq).mp he).2
  rw [hseen, hbehind, List.nil_append]

theorem after_eq_nil {mark : ℕ} {rows : List E} (h : ∀ e ∈ rows, seq e ≤ mark) :
    after seq mark rows = [] := by
  refine List.eq_nil_iff_forall_not_mem.mpr fun e he => ?_
  obtain ⟨hmem, hlt⟩ := (mem_after seq).mp he
  have hle := h e hmem
  omega

end

/-! ## States that follow the log -/

/-- The state is the fold, from the initial one, of the rows up to its mark. -/
def Follows (init : F) (rows : List E) (f : F) : Prop :=
  (upTo seq (cursor f) rows).foldlM apply init = .ok f

section

variable {seq cursor apply} {init f f' : F} {rows rows' : List E}

/-- Rows behind the mark do not matter. -/
theorem Follows.congr (h : Follows seq cursor apply init rows f)
    (hrows : rows'.filter (fun e => seq e ≤ cursor f) = rows.filter (fun e => seq e ≤ cursor f)) :
    Follows seq cursor apply init rows' f := by
  unfold Follows upTo at h ⊢
  rw [hrows]
  exact h

/-- New rows behind the mark, wherever they come among the others. -/
theorem Follows.insert {own : List E} (h : Follows seq cursor apply init (rows ++ own) f)
    {new : List E} (hnew : ∀ e ∈ new, cursor f < seq e) :
    Follows seq cursor apply init (rows ++ new ++ own) f := by
  have hnone : new.filter (fun e => seq e ≤ cursor f) = [] := by
    refine List.filter_eq_nil_iff.mpr fun e he => ?_
    simpa using hnew e he
  refine h.congr ?_
  rw [List.filter_append, List.filter_append, hnone, List.append_nil, List.filter_append]

theorem Follows.append (h : Follows seq cursor apply init rows f) {new : List E}
    (hnew : ∀ e ∈ new, cursor f < seq e) : Follows seq cursor apply init (rows ++ new) f := by
  rw [← List.append_nil rows] at h
  simpa using h.insert hnew

/-- Folding what is behind the mark makes up the fold of the whole log. -/
theorem Follows.foldlM_after (h : Follows seq cursor apply init rows f) :
    (after seq (cursor f) rows).foldlM apply f = (inOrder seq rows).foldlM apply init := by
  rw [← upTo_append_after (cursor f) rows, List.foldlM_append, h]
  rfl

/-- The state that a pass leaves follows the log if its mark has moved over all of it. -/
theorem Follows.advance (h : Follows seq cursor apply init rows f)
    (hfold : (after seq (cursor f) rows).foldlM apply f = .ok f')
    (hall : ∀ e ∈ rows, seq e ≤ cursor f') : Follows seq cursor apply init rows f' := by
  rw [h.foldlM_after, ← upTo_append_after (cursor f') rows, after_eq_nil hall,
    List.append_nil] at hfold
  exact hfold

end

end Cursor
