import Mathlib.Order.Lattice
import Mathlib.Data.List.Basic
import Mathlib.Order.Defs.LinearOrder
import Mathlib.Order.Basic

/-! Keyset pages: a sorted list read on from a mark at the end of a page. -/
namespace Keyset

variable {α κ : Type} [LinearOrder κ] {key : α → κ} {l : List α}

/-- The mark parts the first `n` elements of the list from those behind them. -/
structure CutAt (key : α → κ) (l : List α) (n : ℕ) (mark : κ) : Prop where
  page : ∀ y ∈ l.take n, key y ≤ mark
  rest : ∀ y ∈ l.drop n, mark < key y

/-- In a sorted list the last key of a page is its greatest. -/
theorem le_last (hsorted : l.Pairwise fun a b => key a ≤ key b) {n : ℕ} {x : α}
    (hlast : (l.take n).getLast? = some x) : ∀ y ∈ l.take n, key y ≤ key x := by
  intro y hy
  have hpage : (l.take n).Pairwise fun a b => key a ≤ key b := hsorted.sublist (List.take_sublist _ _)
  obtain ⟨before, hsplit⟩ := List.getLast?_eq_some_iff.mp hlast
  rw [hsplit] at hy hpage
  rcases List.mem_append.mp hy with hold | hnew
  · exact (List.pairwise_append.mp hpage).2.2 y hold x (List.mem_singleton.mpr rfl)
  · rw [List.mem_singleton.mp hnew]

/-- In a sorted list a mark between the last key of a page and the next key is a cut. -/
theorem CutAt.of_last (hsorted : l.Pairwise fun a b => key a ≤ key b) {n : ℕ} {x : α} {mark : κ}
    (hlast : (l.take n).getLast? = some x) (hle : key x ≤ mark)
    (hrest : ∀ y ∈ l.drop n, mark < key y) : CutAt key l n mark where
  page y hy := (le_last hsorted hlast y hy).trans hle
  rest := hrest

/-- What is no longer read after a cut is the page. -/
theorem CutAt.filter_not_lt {n : ℕ} {mark : κ} (hcut : CutAt key l n mark) :
    l.filter (fun y => !decide (mark < key y)) = l.take n := by
  have hpage : (l.take n).filter (fun y => !decide (mark < key y)) = l.take n := by
    refine List.filter_eq_self.mpr fun y hy => ?_
    simpa using hcut.page y hy
  have hrest : (l.drop n).filter (fun y => !decide (mark < key y)) = [] := by
    refine List.filter_eq_nil_iff.mpr fun y hy => ?_
    simpa using hcut.rest y hy
  have hsplit : l.filter (fun y => !decide (mark < key y)) =
      (l.take n).filter (fun y => !decide (mark < key y)) ++
        (l.drop n).filter (fun y => !decide (mark < key y)) := by
    rw [← List.filter_append, List.take_append_drop]
  rw [hsplit, hpage, hrest, List.append_nil]

end Keyset
