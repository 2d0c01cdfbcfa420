import Mathlib.Algebra.Order.BigOperators.Group.List
import SocTalk.Lib.Float

/-! Fixed-point texts of floats, and texts joined from parts that the separator cannot occur in. -/
namespace Py

/-- The digits of `n` with a point before the last `p` of them. -/
def fixedDigits (p n : ℕ) : List Char :=
  let ds := Nat.toDigits 10 n
  let padded := List.replicate (p + 1 - ds.length) '0' ++ ds
  let whole := padded.length - p
  padded.take whole ++ '.' :: padded.drop whole

theorem mem_fixedDigits {p n : ℕ} {c : Char} (h : c ∈ fixedDigits p n) :
    c = '.' ∨ c.isDigit = true := by
  have hpadded : ∀ c ∈ List.replicate (p + 1 - (Nat.toDigits 10 n).length) '0' ++
      Nat.toDigits 10 n, c.isDigit = true := by
    intro c hc
    rcases List.mem_append.mp hc with hc | hc
    · rw [List.eq_of_mem_replicate hc]
      decide
    · exact Nat.isDigit_of_mem_toDigits (by omega) (by omega) hc
  rcases List.mem_append.mp h with h | h
  · exact .inr (hpadded c (List.mem_of_mem_take h))
  · rcases List.mem_cons.mp h with h | h
    · exact .inl h
    · exact .inr (hpadded c (List.mem_of_mem_drop h))

/-- `f"{x:.pf}"`, for a positive `p`. -/
def FloatVal.fixed (p : ℕ) : FloatVal → List Char
  | .fin q =>
    (if q < 0 then ['-'] else []) ++ fixedDigits p (FloatVal.roundHalfEven (|q| * 10 ^ p)).toNat
  | .posInf => ['i', 'n', 'f']
  | .negInf => ['-', 'i', 'n', 'f']
  | .nan => ['n', 'a', 'n']

theorem FloatVal.mem_fixed {p : ℕ} {x : FloatVal} {c : Char} (h : c ∈ x.fixed p) :
    c ∈ ['-', '.', 'i', 'n', 'f', 'a'] ∨ c.isDigit = true := by
  cases x with
  | fin q =>
    rcases List.mem_append.mp h with h | h
    · have hc : c = '-' := by
        split at h
        · simpa using h
        · simp at h
      simp [hc]
    · rcases mem_fixedDigits h with rfl | h
      · simp
      · exact .inr h
  | posInf | negInf | nan =>
    left
    simp only [FloatVal.fixed, List.mem_cons, List.not_mem_nil, or_false] at h ⊢
    tauto

/-- A text up to the first `c` and the text after it are determined by the whole. -/
theorem append_cons_inj {α : Type} {c : α} {a a' b b' : List α} (ha : c ∉ a) (ha' : c ∉ a')
    (h : a ++ c :: b = a' ++ c :: b') : a = a' ∧ b = b' := by
  induction a generalizing a' with
  | nil =>
    cases a' with
    | nil => exact ⟨rfl, (List.cons.inj h).2⟩
    | cons x a' =>
      have hx : c = x := (List.cons.inj h).1
      exact absurd (hx ▸ List.mem_cons_self) ha'
  | cons x a ih =>
    cases a' with
    | nil =>
      have hx : x = c := (List.cons.inj h).1
      exact absurd (hx ▸ List.mem_cons_self) ha
    | cons y a' =>
      obtain ⟨hxy, hrest⟩ := List.cons.inj h
      obtain ⟨hxs, hb⟩ := ih (fun hc => ha (List.mem_cons_of_mem _ hc))
        (fun hc => ha' (List.mem_cons_of_mem _ hc)) hrest
      exact ⟨by rw [hxy, hxs], hb⟩

/-- The last separator splits a list in one way. -/
theorem append_separator_inj {α : Type} {c : α} {xs ys us vs : List α} (hx : c ∉ xs)
    (hy : c ∉ ys) (h : us ++ c :: xs = vs ++ c :: ys) : us = vs ∧ xs = ys := by
  induction us generalizing vs with
  | nil =>
    cases vs with
    | nil => exact ⟨rfl, (List.cons.inj h).2⟩
    | cons v vs =>
      have hmem : c ∈ xs := by
        rw [(List.cons.inj h).2]
        exact List.mem_append_right _ List.mem_cons_self
      exact absurd hmem hx
  | cons u us ih =>
    cases vs with
    | nil =>
      have hmem : c ∈ ys := by
        rw [← (List.cons.inj h).2]
        exact List.mem_append_right _ List.mem_cons_self
      exact absurd hmem hy
    | cons v vs =>
      obtain ⟨hhead, htail⟩ := List.cons.inj h
      obtain ⟨hus, hxs⟩ := ih htail
      exact ⟨by rw [hhead, hus], hxs⟩

/-- Parts that do not hold the first character of the separator are determined by their join. -/
theorem intercalate_inj {α : Type} {c : α} {sep : List α} {xs ys : List (List α)}
    (hx : ∀ x ∈ xs, c ∉ x) (hy : ∀ y ∈ ys, c ∉ y) (hxs : xs ≠ []) (hys : ys ≠ [])
    (h : (c :: sep).intercalate xs = (c :: sep).intercalate ys) : xs = ys := by
  have hcons : ∀ (a b : List α) (l : List (List α)), (c :: sep).intercalate (a :: b :: l) =
      a ++ c :: (sep ++ (c :: sep).intercalate (b :: l)) := by
    intro a b l
    simp [List.intercalate_cons_cons]
  induction xs generalizing ys with
  | nil => exact absurd rfl hxs
  | cons a xs ih =>
    obtain ⟨b, ys, rfl⟩ := List.exists_cons_of_ne_nil hys
    have ha := hx a List.mem_cons_self
    have hb := hy b List.mem_cons_self
    cases xs with
    | nil =>
      cases ys with
      | nil => simpa using h
      | cons b' ys =>
        rw [List.intercalate_singleton, hcons] at h
        exact absurd (h ▸ by simp) ha
    | cons a' xs =>
      cases ys with
      | nil =>
        rw [List.intercalate_singleton, hcons] at h
        exact absurd (h.symm ▸ by simp) hb
      | cons b' ys =>
        rw [hcons, hcons] at h
        obtain ⟨hab, hrest⟩ := append_cons_inj ha hb h
        have hrest := ih (fun x hmem => hx x (List.mem_cons_of_mem _ hmem))
          (fun y hmem => hy y (List.mem_cons_of_mem _ hmem)) (by simp) (by simp)
          (List.append_cancel_left hrest)
        rw [hab, hrest]

theorem mem_intercalate {α : Type} {c : α} {sep : List α} {xs : List (List α)}
    (h : c ∈ sep.intercalate xs) : c ∈ sep ∨ ∃ x ∈ xs, c ∈ x := by
  induction xs with
  | nil => simp at h
  | cons x xs ih =>
    cases xs with
    | nil =>
      rw [List.intercalate_singleton] at h
      exact .inr ⟨x, List.mem_cons_self, h⟩
    | cons y xs =>
      rw [List.intercalate_cons_cons, List.mem_append, List.mem_append] at h
      rcases h with (h | h) | h
      · exact .inr ⟨x, List.mem_cons_self, h⟩
      · exact .inl h
      · rcases ih h with h | ⟨z, hz, hc⟩
        · exact .inl h
        · exact .inr ⟨z, List.mem_cons_of_mem _ hz, hc⟩

theorem count_intercalate {α : Type} [DecidableEq α] {c : α} (x : List α) (xs : List (List α)) :
    ([c].intercalate (x :: xs)).count c = ((x :: xs).map (List.count c)).sum + xs.length := by
  induction xs generalizing x with
  | nil => simp
  | cons y xs ih =>
    rw [List.intercalate_cons_cons, List.count_append, List.count_append, ih]
    simp only [List.map_cons, List.sum_cons, List.length_cons, List.count_singleton_self]
    omega

/-- Parts without the separator are determined by their join among all joins of as many parts. -/
theorem intercalate_inj_of_length {α : Type} [DecidableEq α] {c : α} {xs ys : List (List α)}
    (hx : ∀ x ∈ xs, c ∉ x) (hlen : ys.length = xs.length)
    (h : [c].intercalate xs = [c].intercalate ys) : xs = ys := by
  cases xs with
  | nil => exact (List.length_eq_zero_iff.mp hlen).symm
  | cons x xs =>
    obtain ⟨y, ys, rfl⟩ := List.exists_cons_of_length_eq_add_one hlen
    have hcount := congrArg (List.count c) h
    rw [count_intercalate, count_intercalate] at hcount
    have hzero : ((x :: xs).map (List.count c)).sum = 0 := by
      apply List.sum_eq_zero
      intro n hn
      obtain ⟨z, hz, rfl⟩ := List.mem_map.mp hn
      exact List.count_eq_zero.mpr (hx z hz)
    simp only [List.length_cons] at hlen
    have hy : ∀ z ∈ y :: ys, c ∉ z := by
      intro z hz
      have hle := List.single_le_sum (fun _ _ => Nat.zero_le _) _
        (List.mem_map_of_mem (f := List.count c) hz)
      exact List.count_eq_zero.mp (by omega)
    exact intercalate_inj hx hy (List.cons_ne_nil _ _) (List.cons_ne_nil _ _) h

/-! ## Decimal texts of integers -/

theorem isDigit_of_mem_repr {n : ℕ} {c : Char} (h : c ∈ (toString n).toList) :
    c.isDigit = true := by
  have hrepr : (toString n).toList = Nat.toDigits 10 n := Nat.toList_repr
  exact Nat.isDigit_of_mem_toDigits (by decide) (by decide) (hrepr ▸ h)

theorem notMem_toString_nat {n : ℕ} {c : Char} (hc : c.isDigit = false) :
    c ∉ (toString n).toList := by
  intro h
  rw [isDigit_of_mem_repr h] at hc
  cases hc

theorem toList_toString_negSucc (n : ℕ) :
    (toString (Int.negSucc n)).toList = '-' :: (toString (n + 1)).toList := by
  simp [toString, Int.repr]

theorem notMem_toString_int {n : ℤ} {c : Char} (hc : c.isDigit = false) (hminus : c ≠ '-') :
    c ∉ (toString n).toList := by
  cases n with
  | ofNat n => exact notMem_toString_nat hc
  | negSucc n =>
    rw [toList_toString_negSucc, List.mem_cons]
    intro h
    rcases h with h | h
    · exact hminus h
    · exact notMem_toString_nat hc h

theorem toString_nat_inj {m n : ℕ} (h : toString m = toString n) : m = n := by
  have hdigits : Nat.toDigits 10 m = Nat.toDigits 10 n := by
    rw [← Nat.toList_repr, ← Nat.toList_repr]
    exact congrArg String.toList h
  have hm : Nat.ofDigitChars 10 (Nat.toDigits 10 m) 0 = m :=
    Nat.ofDigitChars_toDigits (by omega) (by omega)
  rw [← hm, hdigits]
  exact Nat.ofDigitChars_toDigits (by omega) (by omega)

/-- The sign and the digits tell the integer. -/
theorem toString_int_inj {m n : ℤ} (h : toString m = toString n) : m = n := by
  have hsign : ∀ k l : ℕ, toString (k : ℤ) ≠ toString (Int.negSucc l) := by
    intro k l heq
    have hmem : '-' ∈ (toString (k : ℤ)).toList := by
      rw [heq, toList_toString_negSucc]
      exact List.mem_cons_self
    exact notMem_toString_nat (by decide) hmem
  cases m with
  | ofNat m =>
    cases n with
    | ofNat n => exact congrArg Int.ofNat (toString_nat_inj h)
    | negSucc n => exact absurd h (hsign m n)
  | negSucc m =>
    cases n with
    | ofNat n => exact absurd h.symm (hsign n m)
    | negSucc n =>
      have hlist := congrArg String.toList h
      rw [toList_toString_negSucc, toList_toString_negSucc] at hlist
      have hsucc := toString_nat_inj (String.toList_inj.mp (List.cons.inj hlist).2)
      rw [Nat.succ.inj hsucc]

end Py
