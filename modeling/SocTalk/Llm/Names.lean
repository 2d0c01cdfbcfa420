import SocTalk.Llm.Config

/-! The family of a model's name, over all digits of Unicode: when taking it twice gives the same. -/
namespace SocTalk.Llm.Names

/-- Which characters `\d` takes. -/
structure Digits where
  isDecimal : Char → Bool
  isDecimal_ascii : ∀ c : Char, c.toNat < 128 → isDecimal c = c.isDigit

variable (u : Digits)

/-- Does a text have the shape, in which `d` is a digit. -/
def hasShape (shape : String) (cs : List Char) : Bool :=
  cs.length = shape.length &&
    (cs.zip shape.toList).all fun (c, s) => if s = 'd' then u.isDecimal c else c = s

/-- The longest of the suffixes begins first. -/
def stripVersion (cs : List Char) : List Char :=
  match versionShapes.find? fun shape => hasShape u shape (cs.drop (cs.length - shape.length)) with
  | some shape => cs.take (cs.length - shape.length)
  | none => cs

/-- The pattern ends at the end of the text or before a final newline. -/
def stripEnd (cs : List Char) : List Char :=
  if cs.getLast? = some '\n' then stripVersion u cs.dropLast ++ ['\n'] else stripVersion u cs

def baseModelId : Option String → String
  | none => ""
  | some model => if model = "" then "" else String.ofList (stripEnd u model.toList)

/-! ## Version suffixes -/

def IsVersion (cs : List Char) : Prop := ∃ shape ∈ versionShapes, hasShape u shape cs = true

/-- What may follow the suffix. -/
def tails : List (List Char) := [[], ['\n']]

section
variable {u}

theorem hasShape_iff {shape : String} {cs : List Char} : hasShape u shape cs = true ↔
    List.Forall₂ (fun c s => (if s = 'd' then u.isDecimal c else decide (c = s)) = true) cs shape.toList := by
  rw [List.forall₂_iff_zip, hasShape, Bool.and_eq_true, decide_eq_true_eq, List.all_eq_true,
    String.length_toList]
  constructor
  · rintro ⟨hlength, hall⟩
    exact ⟨hlength, fun {c s} hmem => hall (c, s) hmem⟩
  · rintro ⟨hlength, hall⟩
    exact ⟨hlength, fun p hp => hall hp⟩

theorem Digits.not_decimal (u : Digits) {c : Char} (hascii : c.toNat < 128) (hdigit : c.isDigit = false) :
    u.isDecimal c = false := by
  rw [u.isDecimal_ascii c hascii, hdigit]

/-- The last characters tell the shapes apart. -/
theorem version_cases {cs : List Char} (h : IsVersion u cs) :
    (∃ front a b c, cs = front ++ [a, b, c] ∧ cs.length = 11 ∧ a = '-' ∧ u.isDecimal c = true) ∨
    (∃ front a b c, cs = front ++ [a, b, c] ∧ cs.length = 9 ∧ u.isDecimal a = true ∧
      u.isDecimal c = true) ∨
    ∃ front a b c, cs = front ++ [a, b, c] ∧ cs.length = 7 ∧ c = 't' := by
  obtain ⟨shape, hshape, hcs⟩ := h
  rw [hasShape_iff] at hcs
  simp only [versionShapes, List.mem_cons, List.not_mem_nil, or_false] at hshape
  rcases hshape with rfl | rfl | rfl
  · simp [List.forall₂_cons_right_iff] at hcs
    obtain ⟨y₁, y₂, y₃, y₄, m₁, m₂, d₁, d₂, ⟨-, -, -, -, -, -, -, hd⟩, rfl⟩ := hcs
    exact .inl ⟨['-', y₁, y₂, y₃, y₄, '-', m₁, m₂], '-', d₁, d₂, rfl, rfl, rfl, hd⟩
  · simp [List.forall₂_cons_right_iff] at hcs
    obtain ⟨y₁, y₂, y₃, y₄, m₁, m₂, d₁, d₂, ⟨-, -, -, -, -, hm, -, hd⟩, rfl⟩ := hcs
    exact .inr (.inl ⟨['-', y₁, y₂, y₃, y₄, m₁], m₂, d₁, d₂, rfl, rfl, hm, hd⟩)
  · simp [List.forall₂_cons_right_iff] at hcs
    obtain rfl : cs = ['-', 'l', 'a', 't', 'e', 's', 't'] := hcs
    exact .inr (.inr ⟨['-', 'l', 'a', 't'], 'e', 's', 't', rfl, rfl, rfl⟩)

/-- A text has one version suffix at most. -/
theorem version_unique {f g s t : List Char} (hs : IsVersion u s) (ht : IsVersion u t)
    (h : f ++ s = g ++ t) : f = g ∧ s = t := by
  have hdash : u.isDecimal '-' = false := u.not_decimal (by decide) (by decide)
  have htee : u.isDecimal 't' = false := u.not_decimal (by decide) (by decide)
  have hlength : s.length = t.length := by
    rcases version_cases hs with ⟨x, a, b, c, rfl, hl, ha, hc⟩ | ⟨x, a, b, c, rfl, hl, ha, hc⟩ |
        ⟨x, a, b, c, rfl, hl, hc⟩ <;>
      rcases version_cases ht with ⟨y, a', b', c', rfl, hl', ha', hc'⟩ |
        ⟨y, a', b', c', rfl, hl', ha', hc'⟩ | ⟨y, a', b', c', rfl, hl', hc'⟩ <;>
      rw [← List.append_assoc, ← List.append_assoc] at h <;>
      obtain ⟨-, hends⟩ := List.append_inj' h rfl <;>
      obtain ⟨rfl, rfl, rfl⟩ : a = a' ∧ b = b' ∧ c = c' := by simpa using hends
    all_goals first | exact hl.trans hl'.symm | simp_all
  exact List.append_inj' h hlength

theorem newline_not_mem {s : List Char} (hs : IsVersion u s) : s ≠ [] ∧ s.getLast? ≠ some '\n' := by
  have hline : u.isDecimal '\n' = false := u.not_decimal (by decide) (by decide)
  rcases version_cases hs with ⟨x, a, b, c, rfl, -, -, hc⟩ | ⟨x, a, b, c, rfl, -, -, hc⟩ |
      ⟨x, a, b, c, rfl, -, hc⟩
  · refine ⟨by simp, ?_⟩
    rintro hlast
    obtain rfl : c = '\n' := by simpa using hlast
    simp [hline] at hc
  · refine ⟨by simp, ?_⟩
    rintro hlast
    obtain rfl : c = '\n' := by simpa using hlast
    simp [hline] at hc
  · simp [hc]

theorem stripVersion_append {f s : List Char} (hs : IsVersion u s) : stripVersion u (f ++ s) = f := by
  unfold stripVersion
  split
  · rename_i shape hfind
    have hshape := List.find?_some hfind
    have hmem := List.mem_of_find?_eq_some hfind
    have hsplit := List.take_append_drop ((f ++ s).length - shape.length) (f ++ s)
    exact (version_unique ⟨shape, hmem, hshape⟩ hs hsplit).1
  · rename_i hnone
    obtain ⟨shape, hmem, hshape⟩ := hs
    have hlength : s.length = shape.length := by
      rw [hasShape, Bool.and_eq_true, decide_eq_true_eq] at hshape
      exact hshape.1
    have hno := List.find?_eq_none.mp hnone shape hmem
    rw [← hlength, List.length_append, Nat.add_sub_cancel, List.drop_left] at hno
    exact absurd hshape hno

theorem stripVersion_eq_self {cs : List Char} (h : ∀ f s, IsVersion u s → cs ≠ f ++ s) :
    stripVersion u cs = cs := by
  unfold stripVersion
  split
  · rename_i shape hfind
    have hshape := List.find?_some hfind
    have hmem := List.mem_of_find?_eq_some hfind
    exact absurd (List.take_append_drop _ cs).symm (h _ _ ⟨shape, hmem, hshape⟩)
  · rfl

/-! ## The end of a name -/

/-- The name ends in a version suffix, before a final newline if it has one. -/
def Versioned (u : Digits) (cs : List Char) : Prop :=
  ∃ f s t, cs = f ++ (s ++ t) ∧ IsVersion u s ∧ t ∈ tails

theorem stripEnd_of_versioned {f s t : List Char} (hs : IsVersion u s) (ht : t ∈ tails) :
    stripEnd u (f ++ (s ++ t)) = f ++ t := by
  have htail : t = [] ∨ t = ['\n'] := by simpa [tails] using ht
  rcases htail with rfl | rfl
  · have hlast : (f ++ s).getLast? ≠ some '\n' := by
      obtain ⟨hne, hlast⟩ := newline_not_mem hs
      rw [List.getLast?_append_of_ne_nil _ hne]
      exact hlast
    rw [List.append_nil, List.append_nil, stripEnd, if_neg hlast, stripVersion_append hs]
  · have hlast : (f ++ (s ++ ['\n'])).getLast? = some '\n' := by simp
    have hinit : (f ++ (s ++ ['\n'])).dropLast = f ++ s := by
      rw [← List.append_assoc, List.dropLast_concat]
    rw [stripEnd, if_pos hlast, hinit, stripVersion_append hs]

theorem stripEnd_eq_self_iff {cs : List Char} : stripEnd u cs = cs ↔ ¬Versioned u cs := by
  constructor
  · rintro h ⟨f, s, t, rfl, hs, ht⟩
    rw [stripEnd_of_versioned hs ht, List.append_cancel_left_eq] at h
    exact (newline_not_mem hs).1 (List.self_eq_append_left.mp h)
  · intro h
    unfold stripEnd
    split_ifs with hlast
    · obtain ⟨init, rfl⟩ : ∃ init, cs = init ++ ['\n'] := List.getLast?_eq_some_iff.mp hlast
      rw [List.dropLast_concat, stripVersion_eq_self]
      rintro f s hs rfl
      exact h ⟨f, s, ['\n'], by simp, hs, by simp [tails]⟩
    · refine stripVersion_eq_self ?_
      rintro f s hs rfl
      exact h ⟨f, s, [], by simp, hs, by simp [tails]⟩

/-- Two version suffixes one after another, with one newline at most: between them or behind both. -/
def Stacked (u : Digits) (model : String) : Prop :=
  ∃ f s₁ t₁ s₂ t₂, model.toList = f ++ (s₁ ++ (t₁ ++ (s₂ ++ t₂))) ∧ IsVersion u s₁ ∧ IsVersion u s₂ ∧
    t₁ ++ t₂ ∈ tails

/-- What is left without a suffix ends in another. -/
theorem versioned_rest {f t : List Char} (ht : t ∈ tails) : Versioned u (f ++ t) ↔
    ∃ g s t₁, f = g ++ (s ++ t₁) ∧ IsVersion u s ∧ t₁ ++ t ∈ tails := by
  have htail : t = [] ∨ t = ['\n'] := by simpa [tails] using ht
  constructor
  · rintro ⟨g, s, t', h, hs, ht'⟩
    rcases htail with rfl | rfl
    · exact ⟨g, s, t', by simpa using h, hs, by simpa using ht'⟩
    · have htail' : t' = [] ∨ t' = ['\n'] := by simpa [tails] using ht'
      rcases htail' with rfl | rfl
      · obtain ⟨hne, hlast⟩ := newline_not_mem hs
        have hend := congrArg List.getLast? h
        rw [List.append_nil, List.getLast?_append_of_ne_nil _ hne] at hend
        exact absurd (hend.symm.trans (by simp)) hlast
      · rw [← List.append_assoc] at h
        obtain ⟨rfl, -⟩ := List.append_inj' h rfl
        exact ⟨g, s, [], by simp, hs, ht⟩
  · rintro ⟨g, s, t₁, rfl, hs, ht'⟩
    exact ⟨g, s, t₁ ++ t, by simp, hs, ht'⟩

theorem baseModelId_some (model : String) :
    baseModelId u (some model) = String.ofList (stripEnd u model.toList) := by
  unfold baseModelId
  dsimp only
  split_ifs with hempty
  · have hnot : ¬Versioned u [] := by
      rintro ⟨f, s, t, h, hs, -⟩
      simp only [List.nil_eq, List.append_eq_nil_iff] at h
      exact (newline_not_mem hs).1 h.2.1
    rw [hempty, String.toList_empty, stripEnd_eq_self_iff.mpr hnot]
  · rfl

theorem last_of_tail {f s t : List Char} (hs : IsVersion u s) (ht : t ∈ tails) :
    t = ['\n'] ↔ (f ++ (s ++ t)).getLast? = some '\n' := by
  have htail : t = [] ∨ t = ['\n'] := by simpa [tails] using ht
  rcases htail with rfl | rfl
  · obtain ⟨hne, hlast⟩ := newline_not_mem hs
    rw [List.append_nil, List.getLast?_append_of_ne_nil _ hne]
    exact iff_of_false (by simp) hlast
  · simp

theorem versioned_unique {f s t g s' t' : List Char} (hs : IsVersion u s) (ht : t ∈ tails)
    (hs' : IsVersion u s') (ht' : t' ∈ tails) (h : f ++ (s ++ t) = g ++ (s' ++ t')) : f = g ∧ t = t' := by
  have hline : t = ['\n'] ↔ t' = ['\n'] := by rw [last_of_tail hs ht, h, ← last_of_tail hs' ht']
  have hsame : t = t' := by
    have htail : t = [] ∨ t = ['\n'] := by simpa [tails] using ht
    have htail' : t' = [] ∨ t' = ['\n'] := by simpa [tails] using ht'
    rcases htail with rfl | rfl
    · exact (htail'.resolve_right fun h' => by simp [h'] at hline).symm
    · exact (hline.mp rfl).symm
  subst hsame
  rw [← List.append_assoc, ← List.append_assoc] at h
  exact ⟨(version_unique hs hs' (List.append_cancel_right h)).1, rfl⟩

theorem tail_of_append {t₁ t₂ : List Char} (h : t₁ ++ t₂ ∈ tails) : t₂ ∈ tails := by
  have hcases : t₁ ++ t₂ = [] ∨ t₁ ++ t₂ = ['\n'] := by simpa [tails] using h
  rcases hcases with hnil | hone
  · simp [tails, (List.append_eq_nil_iff.mp hnil).2]
  · rcases List.append_eq_singleton_iff.mp hone with ⟨-, h₂⟩ | ⟨-, h₂⟩
    · simp [tails, h₂]
    · simp [tails, h₂]

theorem stripEnd_stripEnd_iff (model : String) :
    stripEnd u (stripEnd u model.toList) = stripEnd u model.toList ↔ ¬Stacked u model := by
  have hregroup : ∀ f s₁ t₁ s₂ t₂ : List Char,
      f ++ (s₁ ++ (t₁ ++ (s₂ ++ t₂))) = (f ++ (s₁ ++ t₁)) ++ (s₂ ++ t₂) := by simp
  by_cases h : Versioned u model.toList
  · obtain ⟨f, s, t, hmodel, hs, ht⟩ := h
    rw [hmodel, stripEnd_of_versioned hs ht, stripEnd_eq_self_iff, versioned_rest ht, not_iff_not]
    constructor
    · rintro ⟨g, s₁, t₁, rfl, hs₁, ht₁⟩
      exact ⟨g, s₁, t₁, s, t, by rw [hmodel, hregroup], hs₁, hs, ht₁⟩
    · rintro ⟨g, s₁, t₁, s₂, t₂, hmodel', hs₁, hs₂, ht₁⟩
      rw [hmodel, hregroup] at hmodel'
      obtain ⟨rfl, rfl⟩ := versioned_unique hs ht hs₂ (tail_of_append ht₁) hmodel'
      exact ⟨g, s₁, t₁, rfl, hs₁, ht₁⟩
  · have hsame := stripEnd_eq_self_iff.mpr h
    rw [hsame]
    refine iff_of_true hsame ?_
    rintro ⟨f, s₁, t₁, s₂, t₂, hmodel, -, hs₂, ht⟩
    exact h ⟨f ++ (s₁ ++ t₁), s₂, t₂, by rw [hmodel, hregroup], hs₂, tail_of_append ht⟩

end

/-- Taking the family twice gives the family exactly if no two version suffixes are stacked. -/
theorem baseModelId_idempotent_iff (model : Option String) :
    baseModelId u (some (baseModelId u model)) = baseModelId u model ↔
      ¬∃ name ∈ model, Stacked u name := by
  cases model with
  | none => simp [baseModelId]
  | some name =>
    rw [baseModelId_some, baseModelId_some, String.toList_ofList, String.ofList_inj,
      stripEnd_stripEnd_iff]
    simp

/-! ## Names with ASCII digits -/

def ascii : Digits := ⟨Char.isDigit, fun _ _ => rfl⟩

theorem baseModelId_ascii (name : String) : baseModelId ascii (some name) = Llm.baseModelId name := by
  rw [baseModelId_some, Llm.baseModelId]
  unfold stripEnd
  split_ifs
  · rfl
  · rfl

/-- The alias goes first and leaves the date. -/
theorem baseModelId_dated_latest :
    baseModelId ascii (some "gpt-4o-2024-08-06-latest") = "gpt-4o-2024-08-06" ∧
      baseModelId ascii (some (baseModelId ascii (some "gpt-4o-2024-08-06-latest"))) ≠
        baseModelId ascii (some "gpt-4o-2024-08-06-latest") := by
  decide +kernel

end SocTalk.Llm.Names
