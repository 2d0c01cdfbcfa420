import Mathlib.Data.List.Basic

/-! Computations that return or raise: how a returned result splits along binds,
short-circuiting loops and filters. -/
namespace Py

variable {ε α β : Type}

/-- The computation returns, with whatever result. -/
def Returns (x : Except ε α) : Prop := ∃ a, x = .ok a

@[simp] theorem returns_ok (a : α) : Returns (.ok a : Except ε α) := ⟨a, rfl⟩

@[simp] theorem returns_pure (a : α) : Returns (pure a : Except ε α) := ⟨a, rfl⟩

@[simp] theorem not_returns_error (e : ε) : ¬Returns (.error e : Except ε α) := by
  rintro ⟨a, h⟩
  cases h

theorem bind_eq_ok (x : Except ε α) (f : α → Except ε β) (b : β) :
    (x >>= f) = .ok b ↔ ∃ a, x = .ok a ∧ f a = .ok b := by
  cases x <;> simp [bind, Except.bind]

@[simp] theorem pure_eq_ok (a b : α) : (pure a : Except ε α) = .ok b ↔ a = b := by
  simp [pure, Except.pure]

/-- A bind returns when the first part does and the rest does on its result. -/
theorem returns_bind_iff (x : Except ε α) (f : α → Except ε β) :
    Returns (x >>= f) ↔ ∃ a, x = .ok a ∧ Returns (f a) := by
  cases x <;> simp [bind, Except.bind]

theorem Returns.bind {x : Except ε α} {f : α → Except ε β} (hx : Returns x)
    (hf : ∀ a, x = .ok a → Returns (f a)) : Returns (x >>= f) := by
  obtain ⟨a, ha⟩ := hx
  exact (returns_bind_iff x f).mpr ⟨a, ha, hf a ha⟩

theorem returns_ite {c : Prop} [Decidable c] {x y : Except ε α} (hx : c → Returns x)
    (hy : ¬c → Returns y) : Returns (if c then x else y) := by
  split
  · exact hx ‹_›
  · exact hy ‹_›

/-! ## Short-circuiting `any` -/

theorem anyM_eq_ok_true {p : α → Except ε Bool} {xs : List α} (h : xs.anyM p = .ok true) :
    ∃ x ∈ xs, p x = .ok true := by
  induction xs with
  | nil => simp [pure, Except.pure] at h
  | cons x xs ih =>
    rw [List.anyM_cons, bind_eq_ok] at h
    obtain ⟨b, hb, hrest⟩ := h
    cases b with
    | true => exact ⟨x, by simp, hb⟩
    | false =>
      obtain ⟨y, hy, hpy⟩ := ih (by simpa using hrest)
      exact ⟨y, by simp [hy], hpy⟩

theorem anyM_eq_ok_false {p : α → Except ε Bool} {xs : List α} (h : xs.anyM p = .ok false) :
    ∀ x ∈ xs, p x = .ok false := by
  induction xs with
  | nil => simp
  | cons x xs ih =>
    rw [List.anyM_cons, bind_eq_ok] at h
    obtain ⟨b, hb, hrest⟩ := h
    cases b with
    | true => simp at hrest
    | false =>
      intro y hy
      rcases List.mem_cons.mp hy with rfl | hy
      · exact hb
      · exact ih (by simpa using hrest) y hy

/-- A test whose answers tell `q`, and which answers wherever `q` is, answers yes exactly there. -/
theorem eq_ok_true_iff {x : Except ε Bool} {q : Prop} (hspec : ∀ b, x = .ok b → (b = true ↔ q))
    (hreturns : q → Returns x) : x = .ok true ↔ q := by
  constructor
  · exact fun h => (hspec true h).mp rfl
  · intro hq
    obtain ⟨b, hb⟩ := hreturns hq
    have htrue : b = true := (hspec b hb).mpr hq
    rw [hb, htrue]

theorem eq_ok_false_iff {x : Except ε Bool} {q : Prop} (hspec : ∀ b, x = .ok b → (b = true ↔ q))
    (hreturns : Returns x) : x = .ok false ↔ ¬q := by
  obtain ⟨b, hb⟩ := hreturns
  have hq := hspec b hb
  rw [hb]
  cases b <;> simp_all

/-- Every bad element of a list comes after one that stops the scan. -/
def GuardedBy (stop bad : α → Prop) : List α → Prop
  | [] => True
  | x :: xs => ¬bad x ∧ (stop x ∨ GuardedBy stop bad xs)

/-- A scan returns exactly if it stops before each turn that raises. -/
theorem returns_anyM_iff (p : α → Except ε Bool) (xs : List α) :
    Returns (xs.anyM p) ↔ GuardedBy (fun x => p x = .ok true) (fun x => ¬Returns (p x)) xs := by
  induction xs with
  | nil => simp [GuardedBy]
  | cons x xs ih =>
    rw [List.anyM_cons, returns_bind_iff, GuardedBy, not_not]
    constructor
    · rintro ⟨b, hb, hrest⟩
      refine ⟨⟨b, hb⟩, ?_⟩
      cases b with
      | true => exact Or.inl hb
      | false => exact Or.inr (ih.mp (by simpa using hrest))
    · rintro ⟨⟨b, hb⟩, hstop⟩
      refine ⟨b, hb, ?_⟩
      cases b with
      | true => simp
      | false =>
        rcases hstop with htrue | hrest
        · rw [hb] at htrue
          cases htrue
        · simpa using ih.mpr hrest

/-- The same for a scan that stops at the first turn which fails its test. -/
theorem returns_allM_iff (p : α → Except ε Bool) (xs : List α) :
    Returns (xs.allM p) ↔ GuardedBy (fun x => p x = .ok false) (fun x => ¬Returns (p x)) xs := by
  induction xs with
  | nil => simp [GuardedBy]
  | cons x xs ih =>
    rw [List.allM_cons, returns_bind_iff, GuardedBy, not_not]
    constructor
    · rintro ⟨b, hb, hrest⟩
      refine ⟨⟨b, hb⟩, ?_⟩
      cases b with
      | false => exact Or.inl hb
      | true => exact Or.inr (ih.mp (by simpa using hrest))
    · rintro ⟨⟨b, hb⟩, hstop⟩
      refine ⟨b, hb, ?_⟩
      cases b with
      | false => simp
      | true =>
        rcases hstop with hfalse | hrest
        · rw [hb] at hfalse
          cases hfalse
        · simpa using ih.mpr hrest

theorem allM_eq_ok {p : α → Except ε Bool} {xs : List α} {b : Bool} (h : xs.allM p = .ok b) :
    b = true ↔ ∀ x ∈ xs, p x = .ok true := by
  induction xs with
  | nil =>
    have hb : true = b := by simpa using h
    simp [← hb]
  | cons x xs ih =>
    rw [List.allM_cons, bind_eq_ok] at h
    obtain ⟨c, hc, hrest⟩ := h
    cases c with
    | true => simp [hc, ih (by simpa using hrest)]
    | false =>
      have hb : false = b := by simpa using hrest
      simp [← hb, hc]

theorem anyM_eq_ok {p : α → Except ε Bool} {xs : List α} {b : Bool} (h : xs.anyM p = .ok b) :
    b = true ↔ ∃ x ∈ xs, p x = .ok true := by
  cases b with
  | true => simpa using anyM_eq_ok_true h
  | false =>
    have hall := anyM_eq_ok_false h
    simp only [Bool.false_eq_true, false_iff, not_exists, not_and]
    intro x hx htrue
    rw [hall x hx] at htrue
    cases htrue

theorem GuardedBy.congr {stop stop' bad bad' : α → Prop} {xs : List α}
    (hstop : ∀ x ∈ xs, ¬bad x → (stop x ↔ stop' x)) (hbad : ∀ x ∈ xs, bad x ↔ bad' x) :
    GuardedBy stop bad xs ↔ GuardedBy stop' bad' xs := by
  induction xs with
  | nil => rfl
  | cons x xs ih =>
    have htail := ih (fun y hy => hstop y (by simp [hy])) fun y hy => hbad y (by simp [hy])
    have hhead := hbad x (by simp)
    unfold GuardedBy
    constructor
    · rintro ⟨hx, h⟩
      exact ⟨fun h' => hx (hhead.mpr h'), h.imp (hstop x (by simp) hx).mp htail.mp⟩
    · rintro ⟨hx, h⟩
      have hx' : ¬bad x := fun h' => hx (hhead.mp h')
      exact ⟨hx', h.imp (hstop x (by simp) hx').mpr htail.mpr⟩

/-- A loop whose turns all return, returns. -/
theorem returns_anyM {p : α → Except ε Bool} {xs : List α} (h : ∀ x ∈ xs, Returns (p x)) :
    Returns (xs.anyM p) := by
  induction xs with
  | nil => simp
  | cons x xs ih =>
    rw [List.anyM_cons]
    refine (h x (by simp)).bind fun b _ => ?_
    cases b with
    | true => simp
    | false => simpa using ih fun y hy => h y (by simp [hy])

theorem returns_mapM {f : α → Except ε β} {xs : List α} (h : ∀ x ∈ xs, Returns (f x)) :
    Returns (xs.mapM f) := by
  induction xs with
  | nil => simp
  | cons x xs ih =>
    rw [List.mapM_cons]
    refine (h x (by simp)).bind fun y _ => ?_
    exact (ih fun z hz => h z (by simp [hz])).bind fun ys _ => by simp

/-- Results of a map that returns come from its elements. -/
theorem mem_of_mapM_eq_ok {f : α → Except ε β} {xs : List α} {ys : List β}
    (h : xs.mapM f = .ok ys) (y : β) : y ∈ ys ↔ ∃ x ∈ xs, f x = .ok y := by
  induction xs generalizing ys with
  | nil =>
    have hys : [] = ys := by simpa using h
    simp [← hys]
  | cons x xs ih =>
    rw [List.mapM_cons, bind_eq_ok] at h
    obtain ⟨z, hz, hrest⟩ := h
    obtain ⟨zs, hzs, hys⟩ := (bind_eq_ok _ _ _).mp hrest
    obtain rfl : z :: zs = ys := by simpa using hys
    rw [List.mem_cons, ih hzs]
    constructor
    · rintro (rfl | ⟨w, hw, hfw⟩)
      · exact ⟨x, by simp, hz⟩
      · exact ⟨w, by simp [hw], hfw⟩
    · rintro ⟨w, hw, hfw⟩
      rcases List.mem_cons.mp hw with rfl | hw
      · rw [hz] at hfw
        exact Or.inl (by simpa using hfw.symm)
      · exact Or.inr ⟨w, hw, hfw⟩

/-- A map that returns has returned on every element. -/
theorem returns_of_mapM_eq_ok {f : α → Except ε β} {xs : List α} {ys : List β}
    (h : xs.mapM f = .ok ys) : ∀ x ∈ xs, Returns (f x) := by
  induction xs generalizing ys with
  | nil => simp
  | cons x xs ih =>
    rw [List.mapM_cons, bind_eq_ok] at h
    obtain ⟨z, hz, hrest⟩ := h
    obtain ⟨zs, hzs, -⟩ := (bind_eq_ok _ _ _).mp hrest
    intro w hw
    rcases List.mem_cons.mp hw with rfl | hw
    · exact ⟨z, hz⟩
    · exact ih hzs w hw

theorem returns_filterM {p : α → Except ε Bool} {xs : List α} (h : ∀ x ∈ xs, Returns (p x)) :
    Returns (xs.filterM p) := by
  have hgo : ∀ (xs acc : List α), (∀ x ∈ xs, Returns (p x)) →
      Returns (List.filterAuxM p xs acc) := by
    intro xs
    induction xs with
    | nil => simp [List.filterAuxM]
    | cons x xs ih =>
      intro acc hx
      rw [List.filterAuxM]
      exact (hx x (by simp)).bind fun b _ => ih _ fun y hy => hx y (by simp [hy])
  unfold List.filterM
  exact (hgo xs [] h).bind fun ys _ => by simp

theorem anyM_congr {p q : α → Except ε Bool} {xs : List α} (h : ∀ x ∈ xs, p x = q x) :
    xs.anyM p = xs.anyM q := by
  induction xs with
  | nil => rfl
  | cons x xs ih =>
    have htail : xs.anyM p = xs.anyM q := ih fun y hy => h y (by simp [hy])
    rw [List.anyM_cons, List.anyM_cons, h x (by simp), htail]

theorem filterM_congr {p q : α → Except ε Bool} {xs : List α} (h : ∀ x ∈ xs, p x = q x) :
    xs.filterM p = xs.filterM q := by
  have hgo : ∀ (xs acc : List α), (∀ x ∈ xs, p x = q x) →
      List.filterAuxM p xs acc = List.filterAuxM q xs acc := by
    intro xs
    induction xs with
    | nil => exact fun _ _ => rfl
    | cons x xs ih =>
      intro acc hx
      have htail := fun b => ih (bif b then x :: acc else acc) fun y hy => hx y (by simp [hy])
      rw [List.filterAuxM, List.filterAuxM, hx x (by simp)]
      simp only [htail]
  unfold List.filterM
  rw [hgo xs [] h]

/-- A fold that returns keeps what every turn of it keeps. -/
theorem foldlM_inv {f : β → α → Except ε β} {P : β → Prop}
    (step : ∀ b a b', P b → f b a = .ok b' → P b') {xs : List α} {b b' : β} (hb : P b)
    (h : xs.foldlM f b = .ok b') : P b' := by
  induction xs generalizing b with
  | nil =>
    have hbb : b = b' := by simpa using h
    exact hbb ▸ hb
  | cons x xs ih =>
    rw [List.foldlM_cons, bind_eq_ok] at h
    obtain ⟨c, hc, h⟩ := h
    exact ih (step b x c hb hc) h

end Py
