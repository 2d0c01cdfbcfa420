import Mathlib.Data.List.Infix

/-! Shell patterns as `fnmatch.fnmatchcase` reads them. -/
namespace Fnmatch

/-- One element of a translated pattern; a set holds inclusive ranges. -/
inductive Tok where
  | star
  | any
  | set (negated : Bool) (ranges : List (Char × Char))
  | lit (c : Char)
  deriving DecidableEq

/-- The ranges between the brackets, left to right; a range with its ends swapped is empty. -/
def ranges : List Char → List (Char × Char)
  | lo :: '-' :: hi :: cs => (lo, hi) :: ranges cs
  | c :: cs => (c, c) :: ranges cs
  | [] => []

/-- The text up to the closing bracket and the text after it. A bracket in first
place does not close the set. -/
def splitSet (cs : List Char) : Option (Bool × List Char × List Char) :=
  let (negated, body) : Bool × List Char := match cs with
    | '!' :: cs => (true, cs)
    | cs => (false, cs)
  let (head, tail) : List Char × List Char := match body with
    | ']' :: cs => ([']'], cs)
    | cs => ([], cs)
  match tail.dropWhile (· ≠ ']') with
  | _ :: rest => some (negated, head ++ tail.takeWhile (· ≠ ']'), rest)
  | [] => none

/-- `fnmatch.translate`; every step consumes a character, so the length is fuel enough. -/
def translate : ℕ → List Char → List Tok
  | 0, _ => []
  | _, [] => []
  | n + 1, '*' :: cs => .star :: translate n cs
  | n + 1, '?' :: cs => .any :: translate n cs
  | n + 1, '[' :: cs =>
    match splitSet cs with
    | some (negated, body, rest) => .set negated (ranges body) :: translate n rest
    | none => .lit '[' :: translate n cs
  | n + 1, c :: cs => .lit c :: translate n cs

def Tok.accepts (c : Char) : Tok → Bool
  | .star => false
  | .any => true
  | .set negated rs => (rs.any fun r => r.1 ≤ c && c ≤ r.2) != negated
  | .lit d => c == d

def run : List Tok → List Char → Bool
  | [], cs => cs.isEmpty
  | .star :: ts, cs => cs.tails.any fun s => run ts s
  | _ :: _, [] => false
  | t :: ts, c :: cs => t.accepts c && run ts cs

/-- `fnmatch(name, pat)` on a case-sensitive system. -/
def fnmatch (name pat : String) : Bool :=
  run (translate pat.length pat.toList) name.toList

example : fnmatch "/etc/passwd" "/etc/*" = true := by decide
example : fnmatch "/etc/x" "/etc/[!a-w]" = true := by decide

/-! ## Patterns that match one name only -/

/-- The pattern has no `*`, no `?` and no bracket that opens a set. -/
def Plain (pat : List Char) : Prop :=
  '*' ∉ pat ∧ '?' ∉ pat ∧ ∀ cs, '[' :: cs <:+ pat → splitSet cs = none

theorem Plain.tail {c : Char} {cs : List Char} (h : Plain (c :: cs)) : Plain cs := by
  obtain ⟨hstar, hany, hset⟩ := h
  refine ⟨fun hm => hstar (by simp [hm]), fun hm => hany (by simp [hm]), fun rest hrest => ?_⟩
  exact hset rest (hrest.trans (List.suffix_cons c cs))

/-- Every character of a plain pattern stands for itself. -/
theorem translate_plain {n : ℕ} {pat : List Char} (hn : pat.length ≤ n) (h : Plain pat) :
    translate n pat = pat.map Tok.lit := by
  induction n generalizing pat with
  | zero =>
    have hnil : pat = [] := List.length_eq_zero_iff.mp (by omega)
    rw [hnil]
    rfl
  | succ n ih =>
    cases pat with
    | nil => rfl
    | cons c cs =>
      have htail := ih (by simpa using hn) h.tail
      obtain ⟨hstar, hany, hset⟩ := h
      have hc : c ≠ '*' := fun hc => hstar (by simp [hc])
      have hc' : c ≠ '?' := fun hc => hany (by simp [hc])
      by_cases hb : c = '['
      · subst hb
        have hnone := hset cs (List.suffix_refl _)
        simp [translate, hnone, htail]
      · simp [translate, htail]

theorem run_lit (pat cs : List Char) : run (pat.map Tok.lit) cs = true ↔ cs = pat := by
  induction pat generalizing cs with
  | nil => cases cs <;> simp [run]
  | cons d pat ih =>
    cases cs with
    | nil => simp [run]
    | cons c cs => simp [run, Tok.accepts, ih]

/-- A star or a question mark lets a second name match. -/
theorem exists_other_match {ts : List Tok} (h : Tok.star ∈ ts ∨ Tok.any ∈ ts) {cs : List Char}
    (hrun : run ts cs = true) : ∃ cs', cs' ≠ cs ∧ run ts cs' = true := by
  induction ts generalizing cs with
  | nil => simp at h
  | cons t ts ih =>
    by_cases hstar : t = .star
    · subst hstar
      refine ⟨'x' :: cs, by simp, ?_⟩
      simp only [run, List.any_eq_true] at hrun ⊢
      obtain ⟨s, hs, hrun⟩ := hrun
      exact ⟨s, by simp [List.tails, hs], hrun⟩
    · cases cs with
      | nil => cases t <;> simp [run] at hstar hrun
      | cons c cs =>
        have hsplit : t.accepts c = true ∧ run ts cs = true := by
          cases t <;> simp_all [run]
        by_cases hany : t = .any
        · subst hany
          refine ⟨(if c = 'x' then 'y' else 'x') :: cs, ?_, by simp [run, Tok.accepts, hsplit.2]⟩
          split
          · simp_all
          · simpa using Ne.symm ‹_›
        · have htail : Tok.star ∈ ts ∨ Tok.any ∈ ts := by
            simpa [Ne.symm hstar, Ne.symm hany] using h
          obtain ⟨cs', hne, hrun'⟩ := ih htail hsplit.2
          refine ⟨c :: cs', by simpa using hne, ?_⟩
          cases t <;> simp_all [run]

/-- Without stars a match is as long as the pattern has tokens. -/
theorem length_of_run {ts : List Tok} (h : Tok.star ∉ ts) {cs : List Char}
    (hrun : run ts cs = true) : cs.length = ts.length := by
  induction ts generalizing cs with
  | nil => simpa [run] using hrun
  | cons t ts ih =>
    have htail : Tok.star ∉ ts := fun hm => h (by simp [hm])
    cases cs with
    | nil => cases t <;> simp [run] at h hrun
    | cons c cs =>
      have hrun : run ts cs = true := by cases t <;> simp_all [run]
      simp [ih htail hrun]

/-- What follows a closed set is shorter than what follows its opening bracket. -/
theorem length_rest {cs body rest : List Char} {negated : Bool}
    (h : splitSet cs = some (negated, body, rest)) : rest.length + 1 ≤ cs.length := by
  have hdrop : ∀ tail : List Char, (tail.dropWhile (· ≠ ']')).length ≤ tail.length := fun tail =>
    (List.dropWhile_suffix _).length_le
  unfold splitSet at h
  dsimp only at h
  split at h
  · rename_i c rest' heq
    cases h
    have hlen := congrArg List.length heq
    rw [List.length_cons] at hlen
    have hle := hdrop (match (match cs with
        | '!' :: cs => (true, cs)
        | cs => (false, cs)).2 with
      | ']' :: cs => ([']'], cs)
      | cs => ([], cs)).2
    have hbody : (match cs with
        | '!' :: cs => (true, cs)
        | cs => (false, cs)).2.length ≤ cs.length := by
      split <;> simp
    have htail : ∀ body : List Char, (match body with
        | ']' :: cs => ([']'], cs)
        | cs => ([], cs)).2.length ≤ body.length := by
      intro body
      split <;> simp
    have := htail (match cs with
        | '!' :: cs => (true, cs)
        | cs => (false, cs)).2
    omega
  · cases h

/-- One step takes one character, or a closed set. -/
theorem translate_cons (n : ℕ) (c : Char) (cs : List Char) :
    (∃ t, translate (n + 1) (c :: cs) = t :: translate n cs ∧ (c = '*' → t = .star) ∧
      (c = '?' → t = .any) ∧ (c = '[' → splitSet cs = none)) ∨
    ∃ t rest, translate (n + 1) (c :: cs) = t :: translate n rest ∧ rest.length + 1 ≤ cs.length := by
  by_cases hs : c = '*'
  · subst hs
    exact Or.inl ⟨.star, by simp [translate], by simp, by simp, by simp⟩
  by_cases hq : c = '?'
  · subst hq
    exact Or.inl ⟨.any, by simp [translate], by simp, by simp, by simp⟩
  by_cases hb : c = '['
  · subst hb
    cases hset : splitSet cs with
    | none => exact Or.inl ⟨.lit '[', by simp [translate, hset], by simp, by simp, fun _ => rfl⟩
    | some split =>
      obtain ⟨negated, body, rest⟩ := split
      exact Or.inr ⟨.set negated (ranges body), rest, by simp [translate, hset], length_rest hset⟩
  · exact Or.inl ⟨.lit c, by simp [translate], by simp [hs], by simp [hq], by simp [hb]⟩

theorem length_translate_le (n : ℕ) (pat : List Char) : (translate n pat).length ≤ pat.length := by
  induction n generalizing pat with
  | zero => simp [translate]
  | succ n ih =>
    cases pat with
    | nil => simp [translate]
    | cons c cs =>
      rcases translate_cons n c cs with ⟨t, heq, -⟩ | ⟨t, rest, heq, hlen⟩
      · rw [heq]
        simpa using ih cs
      · have hrest := ih rest
        rw [heq, List.length_cons, List.length_cons]
        omega

/-- Tokens as many as characters, and none of them wild: the pattern is plain. -/
theorem plain_of_translate {n : ℕ} {pat : List Char} (hn : pat.length ≤ n)
    (hlen : pat.length ≤ (translate n pat).length) (hstar : Tok.star ∉ translate n pat)
    (hany : Tok.any ∉ translate n pat) : Plain pat := by
  induction n generalizing pat with
  | zero =>
    have hnil : pat = [] := List.length_eq_zero_iff.mp (by omega)
    subst hnil
    exact ⟨by simp, by simp, by simp⟩
  | succ n ih =>
    cases pat with
    | nil => exact ⟨by simp, by simp, by simp⟩
    | cons c cs =>
      rcases translate_cons n c cs with ⟨t, heq, hs, hq, hb⟩ | ⟨t, rest, heq, hrest⟩
      · rw [heq] at hlen hstar hany
        obtain ⟨hstar', hany', hset'⟩ := @ih cs (by simpa using hn) (by simpa using hlen)
          (fun hm => hstar (by simp [hm])) (fun hm => hany (by simp [hm]))
        have hs' : '*' ≠ c := fun hc => hstar (by simp [hs hc.symm])
        have hq' : '?' ≠ c := fun hc => hany (by simp [hq hc.symm])
        refine ⟨by simp [hstar', hs'], by simp [hany', hq'], fun rest hrest => ?_⟩
        rcases List.suffix_cons_iff.mp hrest with hfirst | hsuffix
        · obtain ⟨hc, rfl⟩ := List.cons.inj hfirst
          exact hb hc.symm
        · exact hset' rest hsuffix
      · have hle := length_translate_le n rest
        rw [heq, List.length_cons, List.length_cons] at hlen
        omega

/-- A pattern matches its own text and no other exactly if it is plain. -/
theorem matches_self_only_iff (pat : String) :
    (∀ name, fnmatch name pat = true ↔ name = pat) ↔ Plain pat.toList := by
  have hlength : pat.toList.length ≤ pat.length := le_of_eq String.length_toList
  constructor
  · intro h
    have hself : run (translate pat.length pat.toList) pat.toList = true := (h pat).mpr rfl
    have hwild : ¬(Tok.star ∈ translate pat.length pat.toList ∨
        Tok.any ∈ translate pat.length pat.toList) := by
      intro hwild
      obtain ⟨cs, hne, hrun⟩ := exists_other_match hwild hself
      have hname : fnmatch (String.ofList cs) pat = true := by
        unfold fnmatch
        rwa [String.toList_ofList]
      have heq := congrArg String.toList ((h _).mp hname)
      rw [String.toList_ofList] at heq
      exact hne heq
    obtain ⟨hstar, hany⟩ := not_or.mp hwild
    exact plain_of_translate hlength (length_of_run hstar hself).le hstar hany
  · intro h name
    unfold fnmatch
    rw [translate_plain hlength h, run_lit]
    exact String.toList_inj

end Fnmatch
