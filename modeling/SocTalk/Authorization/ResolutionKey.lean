import SocTalk.Authorization.Engine

/-! What a resolution key tells about a record: two records of one kind and trust with the same
key agree on every attribute, once defaults are filled in. -/
namespace SocTalk.Authorization
open Py

/-- Whatever follows them, the two texts begin alike only if they are equal. -/
def Delimited (x y : List Char) : Prop := ∀ r r', x ++ r = y ++ r' → x = y

theorem Delimited.prepend {x y : List Char} (h : Delimited x y) (c : List Char) :
    Delimited (c ++ x) (c ++ y) := by
  intro r r' he
  rw [List.append_assoc, List.append_assoc] at he
  rw [h r r' (List.append_cancel_left he)]

theorem dumpText_inj {s t : String} {r r' : List Char}
    (h : Json.dumpText s ++ r = Json.dumpText t ++ r') : s = t := by
  have hs := Json.readText_dump s r
  have ht := Json.readText_dump t r'
  simp only [Json.dumpText, List.cons_append, List.append_assoc, List.nil_append,
    List.cons.injEq, true_and] at h
  rw [h, ht] at hs
  exact (by simpa using hs.symm : s = t ∧ r = r').1

theorem delimited_jsonString (s t : String) :
    Delimited (jsonString s).toList (jsonString t).toList := by
  intro r r' h
  rw [toList_jsonString, toList_jsonString] at h ⊢
  rw [dumpText_inj h]

theorem jsonString_inj {s t : String} (h : jsonString s = jsonString t) : s = t := by
  have hl := congrArg String.toList h
  rw [toList_jsonString, toList_jsonString] at hl
  have hnil : Json.dumpText s ++ [] = Json.dumpText t ++ [] := by rw [hl]
  exact dumpText_inj hnil

theorem delimited_jsonBool (a b : Bool) :
    Delimited (jsonBool a).toList (jsonBool b).toList := by
  intro r r' h
  cases a <;> cases b <;> simp_all [jsonBool]

theorem jsonBool_inj {a b : Bool} (h : jsonBool a = jsonBool b) : a = b := by
  cases a <;> cases b <;> first | rfl | exact absurd h (by decide)

/-! ## Lists of strings -/

def listTexts (xs : List String) : List Char := [','].intercalate (xs.map Json.dumpText)

theorem toList_jsonList (xs : List String) : (jsonList xs).toList = '[' :: listTexts xs ++ [']'] := by
  unfold jsonList listTexts
  rw [String.toList_append, String.toList_append, String.toList_intercalate, List.map_map]
  simp only [Function.comp_def, toList_jsonString]
  rfl

theorem dumpText_head (s : String) : ∃ cs, Json.dumpText s = '"' :: cs := ⟨_, rfl⟩

theorem listTexts_cons (x : String) (xs : List String) (r : List Char) :
    listTexts (x :: xs) ++ ']' :: r = Json.dumpText x ++
      match xs with
      | [] => ']' :: r
      | y :: ys => ',' :: (listTexts (y :: ys) ++ ']' :: r) := by
  cases xs with
  | nil => simp [listTexts]
  | cons y ys => simp [listTexts, List.intercalate_cons_cons]

theorem listTexts_inj {xs ys : List String} {r r' : List Char}
    (h : listTexts xs ++ ']' :: r = listTexts ys ++ ']' :: r') : xs = ys := by
  induction xs generalizing ys with
  | nil =>
    cases ys with
    | nil => rfl
    | cons y ys =>
      obtain ⟨cs, hcs⟩ := dumpText_head y
      rw [listTexts_cons, hcs] at h
      simp [listTexts] at h
  | cons x xs ih =>
    cases ys with
    | nil =>
      obtain ⟨cs, hcs⟩ := dumpText_head x
      rw [listTexts_cons, hcs] at h
      simp [listTexts] at h
    | cons y ys =>
      rw [listTexts_cons, listTexts_cons] at h
      obtain rfl := dumpText_inj h
      have h := List.append_cancel_left h
      cases xs <;> cases ys <;> simp only [List.cons.injEq, true_and] at h ⊢
      · exact absurd h.1 (by decide)
      · exact absurd h.1 (by decide)
      · exact List.cons.inj (ih h)

theorem delimited_jsonList (xs ys : List String) :
    Delimited (jsonList xs).toList (jsonList ys).toList := by
  intro r r' h
  rw [toList_jsonList, toList_jsonList] at h ⊢
  simp only [List.cons_append, List.append_assoc, List.nil_append, List.cons.injEq, true_and] at h
  rw [listTexts_inj h]

theorem jsonList_inj {xs ys : List String} (h : jsonList xs = jsonList ys) : xs = ys := by
  have hl := congrArg String.toList h
  rw [toList_jsonList, toList_jsonList] at hl
  simp only [List.cons_append, List.cons.injEq, true_and] at hl
  exact listTexts_inj hl

/-! ## Records -/

/-- One member of the key's object. -/
def memberText (p : String × String) : List Char := Json.dumpText p.1 ++ ':' :: p.2.toList

def membersText (ps : List (String × String)) : List Char := [','].intercalate (ps.map memberText)

/-- The same name, and texts that end where they end. -/
def SameMember (p q : String × String) : Prop := p.1 = q.1 ∧ Delimited p.2.toList q.2.toList

theorem SameMember.eq {p q : String × String} (h : SameMember p q) {r r' : List Char}
    (he : memberText p ++ r = memberText q ++ r') : p = q := by
  obtain ⟨k, v⟩ := p
  obtain ⟨k', w⟩ := q
  obtain ⟨rfl, hd⟩ : k = k' ∧ Delimited v.toList w.toList := h
  simp only [memberText, List.append_assoc, List.cons_append] at he
  have he := (List.cons.inj (List.append_cancel_left he)).2
  rw [String.toList_inj.mp (hd r r' he)]

theorem members_eq {ps qs : List (String × String)} (h : List.Forall₂ SameMember ps qs)
    {r r' : List Char} (he : membersText ps ++ r = membersText qs ++ r') : ps = qs := by
  induction h with
  | nil => rfl
  | @cons p q ps qs hpq hrest ih =>
    cases hrest with
    | nil =>
      simp only [membersText, List.map_cons, List.map_nil, List.intercalate_singleton] at he
      rw [hpq.eq he]
    | @cons p' q' ps' qs' hpq' hrest' =>
      have hcons : ∀ (a b : String × String) (cs : List (String × String)) (t : List Char),
          membersText (a :: b :: cs) ++ t = memberText a ++ ',' :: (membersText (b :: cs) ++ t) := by
        intro a b cs t
        simp [membersText, List.intercalate_cons_cons]
      rw [hcons, hcons] at he
      obtain rfl := hpq.eq he
      rw [ih (List.cons.inj (List.append_cancel_left he)).2]

theorem toList_entityResolutionKey (fact : EntityContextFact) :
    (entityResolutionKey fact).toList =
      '\x7b' :: membersText (entityKeyFields fact ++ [("trust", toString fact.trust)]) ++ ['\x7d'] := by
  unfold entityResolutionKey membersText
  simp only [String.toList_append, String.toList_intercalate, List.map_map]
  have hm : (String.toList ∘ fun p : String × String => jsonString p.1 ++ ":" ++ p.2) = memberText := by
    funext p
    simp only [Function.comp_apply, String.toList_append, toList_jsonString, memberText,
      List.append_assoc]
    rfl
  rw [hm]
  rfl

theorem sameMember_string (k s t : String) : SameMember (k, jsonString s) (k, jsonString t) :=
  ⟨rfl, delimited_jsonString s t⟩

theorem sameMember_bool (k : String) (a b : Bool) : SameMember (k, jsonBool a) (k, jsonBool b) :=
  ⟨rfl, delimited_jsonBool a b⟩

theorem sameMember_list (k : String) (xs ys : List String) :
    SameMember (k, jsonList xs) (k, jsonList ys) := ⟨rfl, delimited_jsonList xs ys⟩

theorem sameMembers_entityKeyFields {f g : EntityContextFact} (ht : f.entityType = g.entityType) :
    List.Forall₂ SameMember (entityKeyFields f) (entityKeyFields g) := by
  simp only [entityKeyFields]
  rw [← ht]
  cases f.entityType with
  | asset =>
    simp only [List.forall₂_cons, List.forall₂_nil_left_iff, sameMember_string, and_self]
  | watchedPath =>
    simp only [List.forall₂_cons, List.forall₂_nil_left_iff, sameMember_string, and_self]
  | account =>
    simp only [List.forall₂_cons, List.forall₂_nil_left_iff, sameMember_string, sameMember_bool,
      and_self]
  | org =>
    simp only [List.forall₂_cons, List.forall₂_nil_left_iff, sameMember_string, sameMember_list,
      and_self]

/-- The key tells the attributes. -/
theorem entityKeyFields_eq {f g : EntityContextFact} (ht : f.entityType = g.entityType)
    (htrust : f.trust = g.trust) (hkey : entityResolutionKey f = entityResolutionKey g) :
    entityKeyFields f = entityKeyFields g := by
  have hl := congrArg String.toList hkey
  rw [toList_entityResolutionKey, toList_entityResolutionKey, htrust] at hl
  simp only [List.cons_append, List.cons.injEq, true_and] at hl
  have hlast : List.Forall₂ SameMember [("trust", toString g.trust)] [("trust", toString g.trust)] :=
    .cons ⟨rfl, fun _ _ _ => rfl⟩ .nil
  exact List.append_cancel_right
    (members_eq (List.rel_append (sameMembers_entityKeyFields ht) hlast) hl)

end SocTalk.Authorization
