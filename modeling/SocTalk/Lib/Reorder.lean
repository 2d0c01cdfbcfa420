import Mathlib.Order.Lattice
import Mathlib.Order.Defs.LinearOrder
import SocTalk.Lib.Raise

/-! What loops over a list give when its elements are reordered or repeated. A loop that stops
early may raise in one order and return in another, and only then does the order show. -/
namespace Reorder
open Py

variable {α β ε : Type}

/-- The same elements, in any order and any number of times. -/
def Same (xs ys : List α) : Prop := ∀ x, x ∈ xs ↔ x ∈ ys

section

variable {xs ys : List α}

theorem Same.symm (h : Same xs ys) : Same ys xs := fun x => (h x).symm

theorem same_cons {x : α} (h : x ∈ xs) : Same xs (x :: xs) := by
  intro y
  rw [List.mem_cons]
  constructor
  · exact Or.inr
  · rintro (rfl | hy)
    · exact h
    · exact hy

theorem same_append (zs : List α) (h : ∀ z ∈ zs, z ∈ xs) : Same xs (zs ++ xs) := by
  intro y
  rw [List.mem_append]
  exact ⟨Or.inr, fun hy => hy.elim (h y) id⟩

theorem Same.filter (h : Same xs ys) (p : α → Bool) : Same (xs.filter p) (ys.filter p) := by
  intro x
  rw [List.mem_filter, List.mem_filter, h x]

theorem Same.filterMap (h : Same xs ys) (f : α → Option β) :
    Same (xs.filterMap f) (ys.filterMap f) := by
  intro y
  simp only [List.mem_filterMap, h _]

theorem Same.any (h : Same xs ys) (p : α → Bool) : xs.any p = ys.any p := by
  rw [Bool.eq_iff_iff, List.any_eq_true, List.any_eq_true]
  simp only [h _]

theorem Same.isEmpty (h : Same xs ys) : xs.isEmpty = ys.isEmpty := by
  rw [Bool.eq_iff_iff, List.isEmpty_iff, List.isEmpty_iff, List.eq_nil_iff_forall_not_mem,
    List.eq_nil_iff_forall_not_mem]
  simp only [h _]

end

/-! ## Computations that raise one exception only -/

/-- Whatever the computation raises is `e`. -/
def RaisesOnly (e : ε) (x : Except ε α) : Prop := ∀ e', x = .error e' → e' = e

theorem raisesOnly_ok (e : ε) (a : α) : RaisesOnly e (.ok a) := by
  intro e' h
  cases h

theorem raisesOnly_error (e : ε) : RaisesOnly e (.error e : Except ε α) := by
  intro e' h
  cases h
  rfl

theorem RaisesOnly.bind {e : ε} {x : Except ε α} {f : α → Except ε β} (hx : RaisesOnly e x)
    (hf : ∀ a, RaisesOnly e (f a)) : RaisesOnly e (x >>= f) := by
  intro e' h
  cases x with
  | error e₀ => exact hx e' (by simpa [Bind.bind, Except.bind] using h)
  | ok a => exact hf a e' h

theorem raisesOnly_ite {e : ε} {c : Prop} [Decidable c] {x y : Except ε α}
    (hx : RaisesOnly e x) (hy : RaisesOnly e y) : RaisesOnly e (if c then x else y) := by
  split
  · exact hx
  · exact hy

theorem RaisesOnly.eq_error {e : ε} {x : Except ε α} (h : RaisesOnly e x) (hn : ¬Returns x) :
    x = .error e := by
  cases x with
  | ok a => exact absurd ⟨a, rfl⟩ hn
  | error e' => rw [h e' rfl]

theorem raisesOnly_anyM {e : ε} {p : α → Except ε Bool} (h : ∀ x, RaisesOnly e (p x))
    (xs : List α) : RaisesOnly e (xs.anyM p) := by
  induction xs with
  | nil => exact raisesOnly_ok e false
  | cons x xs ih =>
    rw [List.anyM_cons]
    refine (h x).bind fun b => ?_
    cases b with
    | true => exact raisesOnly_ok e true
    | false => exact ih

theorem raisesOnly_filterM {e : ε} {p : α → Except ε Bool} (h : ∀ x, RaisesOnly e (p x))
    (xs : List α) : RaisesOnly e (xs.filterM p) := by
  have haux : ∀ (xs acc : List α), RaisesOnly e (List.filterAuxM p xs acc) := by
    intro xs
    induction xs with
    | nil => intro acc; exact raisesOnly_ok e acc
    | cons x xs ih =>
      intro acc
      rw [List.filterAuxM]
      exact (h x).bind fun b => ih _
  exact (haux xs []).bind fun ys => raisesOnly_ok e _

/-! ## Short-circuiting loops -/

/-- Some test is true. -/
def Holds (p : α → Except ε Bool) (xs : List α) : Prop := ∃ x ∈ xs, p x = .ok true

/-- Some test raises. -/
def Raises (p : α → Except ε Bool) (xs : List α) : Prop := ∃ x ∈ xs, ¬Returns (p x)

/-- No order of the list keeps `any` from raising. -/
def Stuck (p : α → Except ε Bool) (xs : List α) : Prop := Raises p xs ∧ ¬Holds p xs

section

variable {p : α → Except ε Bool} {xs ys : List α}

theorem Same.holds (h : Same xs ys) : Holds p xs ↔ Holds p ys := by
  simp only [Holds, h _]

/-- A test stays true where its witnesses go over. -/
theorem Holds.mono {q : α → Except ε Bool} (h : Holds p xs)
    (hsub : ∀ x ∈ xs, p x = .ok true → x ∈ ys ∧ q x = .ok true) : Holds q ys := by
  obtain ⟨x, hx, hpx⟩ := h
  exact ⟨x, hsub x hx hpx⟩

theorem Same.raises (h : Same xs ys) : Raises p xs ↔ Raises p ys := by
  simp only [Raises, h _]

theorem Same.stuck (h : Same xs ys) : Stuck p xs ↔ Stuck p ys := by
  rw [Stuck, Stuck, h.raises, h.holds]

theorem returns_anyM_of_not_raises (hr : ¬Raises p xs) : Returns (xs.anyM p) :=
  returns_anyM fun x hx => by_contra fun hn => hr ⟨x, hx, hn⟩

theorem anyM_true (hr : ¬Raises p xs) (hh : Holds p xs) : xs.anyM p = .ok true := by
  obtain ⟨b, hb⟩ := returns_anyM_of_not_raises hr
  obtain ⟨x, hx, hpx⟩ := hh
  cases b with
  | true => exact hb
  | false => rw [anyM_eq_ok_false hb x hx] at hpx; cases hpx

theorem anyM_false (hr : ¬Raises p xs) (hh : ¬Holds p xs) : xs.anyM p = .ok false := by
  obtain ⟨b, hb⟩ := returns_anyM_of_not_raises hr
  cases b with
  | true => exact absurd (anyM_eq_ok_true hb) hh
  | false => exact hb

/-- A loop that returns tells whether some test is true. -/
theorem anyM_eq_ok_iff {b : Bool} (h : xs.anyM p = .ok b) : b = true ↔ Holds p xs := by
  cases b with
  | true => exact iff_of_true rfl (anyM_eq_ok_true h)
  | false =>
    refine iff_of_false Bool.false_ne_true ?_
    rintro ⟨x, hx, hpx⟩
    rw [anyM_eq_ok_false h x hx] at hpx
    cases hpx

theorem not_returns_anyM (h : Stuck p xs) : ¬Returns (xs.anyM p) := by
  rintro ⟨b, hb⟩
  cases b with
  | true => exact h.2 (anyM_eq_ok_true hb)
  | false =>
    obtain ⟨x, hx, hn⟩ := h.1
    exact hn ⟨false, anyM_eq_ok_false hb x hx⟩

theorem anyM_cons_true {x : α} (h : p x = .ok true) : (x :: xs).anyM p = .ok true := by
  rw [List.anyM_cons, h]
  rfl

theorem not_returns_anyM_cons {x : α} (h : ¬Returns (p x)) : ¬Returns ((x :: xs).anyM p) := by
  rw [List.anyM_cons, returns_bind_iff]
  rintro ⟨b, hb, -⟩
  exact h ⟨b, hb⟩

/-- Where no test is true beside one that raises, the order does not show. -/
theorem Same.anyM (h : Same xs ys) {e : ε} (he : ∀ x, RaisesOnly e (p x))
    (hone : ¬Raises p xs ∨ ¬Holds p xs) : xs.anyM p = ys.anyM p := by
  by_cases hr : Raises p xs
  · have hstuck : Stuck p xs := ⟨hr, hone.resolve_left fun hn => hn hr⟩
    rw [(raisesOnly_anyM he xs).eq_error (not_returns_anyM hstuck),
      (raisesOnly_anyM he ys).eq_error (not_returns_anyM (h.stuck.mp hstuck))]
  · by_cases hh : Holds p xs
    · rw [anyM_true hr hh, anyM_true (mt h.raises.mpr hr) (h.holds.mp hh)]
    · rw [anyM_false hr hh, anyM_false (mt h.raises.mpr hr) (mt h.holds.mpr hh)]

/-- `filter` tests every element: what it keeps are those whose test is true. -/
theorem mem_of_filterM_eq_ok {zs : List α} (h : xs.filterM p = .ok zs) (z : α) :
    z ∈ zs ↔ z ∈ xs ∧ p z = .ok true := by
  have haux : ∀ (xs acc zs : List α), List.filterAuxM p xs acc = .ok zs →
      (z ∈ zs ↔ z ∈ acc ∨ z ∈ xs ∧ p z = .ok true) := by
    intro xs
    induction xs with
    | nil =>
      intro acc zs h
      obtain rfl : acc = zs := by simpa [List.filterAuxM] using h
      simp
    | cons x xs ih =>
      intro acc zs h
      rw [List.filterAuxM, bind_eq_ok] at h
      obtain ⟨b, hb, h⟩ := h
      rw [ih _ _ h, List.mem_cons]
      cases b with
      | true =>
        simp only [cond_true, List.mem_cons]
        constructor
        · rintro ((rfl | hacc) | ⟨hz, hp⟩)
          · exact Or.inr ⟨Or.inl rfl, hb⟩
          · exact Or.inl hacc
          · exact Or.inr ⟨Or.inr hz, hp⟩
        · rintro (hacc | ⟨rfl | hz, hp⟩)
          · exact Or.inl (Or.inr hacc)
          · exact Or.inl (Or.inl rfl)
          · exact Or.inr ⟨hz, hp⟩
      | false =>
        simp only [cond_false]
        constructor
        · rintro (hacc | ⟨hz, hp⟩)
          · exact Or.inl hacc
          · exact Or.inr ⟨Or.inr hz, hp⟩
        · rintro (hacc | ⟨rfl | hz, hp⟩)
          · exact Or.inl hacc
          · rw [hb] at hp
            cases hp
          · exact Or.inr ⟨hz, hp⟩
  unfold List.filterM at h
  obtain ⟨ws, hws, h⟩ := (bind_eq_ok _ _ _).mp h
  obtain rfl : ws.reverse = zs := by simpa using h
  rw [List.mem_reverse, haux xs [] ws hws]
  simp

theorem not_returns_filterM (h : Raises p xs) : ¬Returns (xs.filterM p) := by
  have haux : ∀ (xs acc : List α), Raises p xs → ¬Returns (List.filterAuxM p xs acc) := by
    intro xs
    induction xs with
    | nil =>
      rintro acc ⟨x, hx, -⟩
      simp at hx
    | cons x xs ih =>
      rintro acc ⟨y, hy, hn⟩ hret
      rw [List.filterAuxM, returns_bind_iff] at hret
      obtain ⟨b, hb, hret⟩ := hret
      rcases List.mem_cons.mp hy with rfl | hy
      · exact hn ⟨b, hb⟩
      · exact ih _ ⟨y, hy, hn⟩ hret
  unfold List.filterM
  rw [returns_bind_iff]
  rintro ⟨ws, hws, -⟩
  exact haux xs [] h ⟨ws, hws⟩

end

/-! ## The first of the greatest -/

section

variable {κ : Type} [LinearOrder κ] {key : α → κ} {below : α → α → Bool}
  (hbelow : ∀ a b, below a b = true ↔ key a < key b)
include hbelow

theorem foldl_max_mem (x : α) (xs : List α) :
    xs.foldl (fun best y => if below best y then y else best) x ∈ x :: xs ∧
      ∀ y ∈ x :: xs, key y ≤ key (xs.foldl (fun best y => if below best y then y else best) x) := by
  induction xs generalizing x with
  | nil => simp
  | cons y ys ih =>
    rw [List.foldl_cons]
    cases hb : below x y with
    | true =>
      rw [if_pos rfl]
      obtain ⟨hmem, hmax⟩ := ih y
      refine ⟨List.mem_cons_of_mem x hmem, fun z hz => ?_⟩
      rcases List.mem_cons.mp hz with rfl | hz
      · exact le_trans (le_of_lt ((hbelow _ _).mp hb)) (hmax y (by simp))
      · exact hmax z hz
    | false =>
      rw [if_neg (by simp)]
      obtain ⟨hmem, hmax⟩ := ih x
      constructor
      · rcases List.mem_cons.mp hmem with h | h
        · rw [h]
          simp
        · exact List.mem_cons_of_mem x (List.mem_cons_of_mem y h)
      · intro z hz
        have hle : key y ≤ key x := not_lt.mp fun hlt => by simp [(hbelow x y).mpr hlt] at hb
        rcases List.mem_cons.mp hz with rfl | hz
        · exact hmax z (by simp)
        · rcases List.mem_cons.mp hz with rfl | hz
          · exact le_trans hle (hmax x (by simp))
          · exact hmax z (List.mem_cons_of_mem x hz)

/-- A greatest element in front is the one taken. -/
theorem foldl_max_head {x : α} {xs : List α} (h : ∀ y ∈ xs, key y ≤ key x) :
    xs.foldl (fun best y => if below best y then y else best) x = x := by
  induction xs with
  | nil => rfl
  | cons y ys ih =>
    have hb : below x y = false := by
      rw [← Bool.not_eq_true, hbelow]
      exact not_lt.mpr (h y (by simp))
    rw [List.foldl_cons, hb, if_neg (by simp)]
    exact ih fun z hz => h z (List.mem_cons_of_mem y hz)

end

end Reorder
