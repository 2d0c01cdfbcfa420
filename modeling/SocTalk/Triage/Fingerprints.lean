import SocTalk.Lib.Format
import SocTalk.Lib.Sha256
import SocTalk.Triage.Event

/-! What the coalescing signature and the memoization key say of the alert they are computed from:
both join their fields with separators that the fields may hold as well. -/
namespace SocTalk.Triage
open Py

/-! ## Signatures of alerts -/

/-- The arguments of `alert_signature`. -/
structure FiredAlert where
  ruleId : Option String
  assetIds : List String
  ts : ℤ

def FiredAlert.rule (a : FiredAlert) : String := a.ruleId.getD ""

def FiredAlert.bucket (a : FiredAlert) : ℤ := a.ts / 300000000

def FiredAlert.signature (ctx : Context) (a : FiredAlert) : String :=
  alertSignature ctx a.ruleId a.assetIds a.ts

/-- The same rule, the same assets with their multiplicities and the same time bucket. -/
structure FiredAlert.Same (a b : FiredAlert) : Prop where
  rule : a.rule = b.rule
  assets : a.assetIds.Perm b.assetIds
  bucket : a.bucket = b.bucket

/-- One asset that no list of assets spells, and no `|` in the fields. -/
def FiredAlert.Unambiguous (a : FiredAlert) : Prop :=
  '|' ∉ a.rule.toList ∧ ∃ asset, a.assetIds = [asset] ∧ asset ≠ "" ∧ '|' ∉ asset.toList ∧
    ∀ x y, asset = x ++ "," ++ y → y < x

/-- No separator in the fields, and some asset. -/
structure FiredAlert.Plain (a : FiredAlert) : Prop where
  rule : '|' ∉ a.rule.toList
  assets : ∀ asset ∈ a.assetIds, '|' ∉ asset.toList ∧ ',' ∉ asset.toList
  some_asset : a.assetIds ≠ []

def FiredAlert.assetKey (a : FiredAlert) : String := String.intercalate "," (sortedTexts a.assetIds)

/-- The text that is hashed. -/
def FiredAlert.basis (a : FiredAlert) : String :=
  a.rule ++ "|" ++ a.assetKey ++ "|" ++ toString a.bucket

theorem signature_eq_iff {ctx : Context} (hsha : Function.Injective ctx.sha256)
    (a b : FiredAlert) : a.signature ctx = b.signature ctx ↔ a.basis = b.basis :=
  hsha.eq_iff

theorem toList_assetKey (a : FiredAlert) :
    a.assetKey.toList = [','].intercalate ((sortedTexts a.assetIds).map String.toList) :=
  String.toList_intercalate

theorem toList_basis (a : FiredAlert) : a.basis.toList =
    ['|'].intercalate [a.rule.toList, a.assetKey.toList, (toString a.bucket).toList] := by
  have hbar : ("|" : String).toList = ['|'] := rfl
  unfold FiredAlert.basis
  simp only [String.toList_append, List.append_assoc, hbar, List.intercalate_cons_cons,
    List.intercalate_singleton]

theorem perm_sortedTexts (xs : List String) : (sortedTexts xs).Perm xs :=
  List.perm_insertionSort _ xs

theorem sortedTexts_singleton (x : String) : sortedTexts [x] = [x] := rfl

theorem sortedTexts_pair {x y : String} (h : x ≤ y) : sortedTexts [x, y] = [x, y] := by
  simp [sortedTexts, h]

/-- The bars of the hashed text are those between the fields when the fields hold none. -/
theorem basis_inj {a b : FiredAlert} (hrule : '|' ∉ a.rule.toList)
    (hassets : '|' ∉ a.assetKey.toList) (h : a.basis = b.basis) :
    a.rule = b.rule ∧ a.assetKey = b.assetKey ∧ a.bucket = b.bucket := by
  have hjoin := congrArg String.toList h
  rw [toList_basis, toList_basis] at hjoin
  have hbars : ∀ x ∈ [a.rule.toList, a.assetKey.toList, (toString a.bucket).toList], '|' ∉ x := by
    intro x hx
    simp only [List.mem_cons, List.not_mem_nil, or_false] at hx
    rcases hx with rfl | rfl | rfl
    · exact hrule
    · exact hassets
    · exact notMem_toString_int (by decide) (by decide)
  have hparts : [a.rule.toList, a.assetKey.toList, (toString a.bucket).toList] =
      [b.rule.toList, b.assetKey.toList, (toString b.bucket).toList] :=
    intercalate_inj_of_length hbars rfl hjoin
  simp only [List.cons.injEq, String.toList_inj, and_true] at hparts
  exact ⟨hparts.1, hparts.2.1, toString_int_inj hparts.2.2⟩

theorem basis_congr {a b : FiredAlert} (hrule : a.rule = b.rule) (hassets : a.assetKey = b.assetKey)
    (hbucket : a.bucket = b.bucket) : a.basis = b.basis := by
  simp only [FiredAlert.basis, hrule, hassets, hbucket]

/-! ### Which signatures identify their alert -/

theorem le_intercalate (x : String) (xs : List String) : x ≤ String.intercalate "," (x :: xs) := by
  rw [← String.not_lt, String.lt_iff]
  have hirrefl : Std.Irrefl (α := Char) (· < ·) := ⟨Char.lt_irrefl⟩
  cases xs with
  | nil =>
    rw [String.intercalate_singleton]
    exact List.lt_irrefl _
  | cons y xs =>
    rw [String.intercalate_cons_cons, String.toList_append, String.toList_append,
      List.append_assoc]
    exact List.not_lt.mpr List.le_append_left

theorem sorted_sortedTexts (xs : List String) : (sortedTexts xs).Pairwise (· ≤ ·) := by
  have htotal : Std.Total (fun x y : String => x ≤ y) := ⟨String.le_total⟩
  have htrans : IsTrans String (fun x y : String => x ≤ y) := ⟨fun _ _ _ => String.le_trans⟩
  exact List.pairwise_insertionSort _ xs

/-- A single asset that no two sorted texts spell is the only list with its key. -/
theorem assets_of_assetKey {a b : FiredAlert} {asset : String} (ha : a.assetIds = [asset])
    (hne : asset ≠ "") (hspell : ∀ x y, asset = x ++ "," ++ y → y < x)
    (h : a.assetKey = b.assetKey) : a.assetIds.Perm b.assetIds := by
  have hkey : asset = String.intercalate "," (sortedTexts b.assetIds) := by
    have hsingle : a.assetKey = asset := by
      rw [FiredAlert.assetKey, ha, sortedTexts_singleton, String.intercalate_singleton]
    rw [← hsingle, h, FiredAlert.assetKey]
  have hsorted := sorted_sortedTexts b.assetIds
  have hperm := perm_sortedTexts b.assetIds
  generalize sortedTexts b.assetIds = sorted at hkey hsorted hperm
  cases sorted with
  | nil => exact absurd hkey hne
  | cons x rest =>
    cases rest with
    | nil =>
      rw [String.intercalate_singleton] at hkey
      rw [ha, hkey]
      exact hperm
    | cons y rest =>
      rw [String.intercalate_cons_cons] at hkey
      have hlt := hspell _ _ hkey
      have hxy : x ≤ y := (List.pairwise_cons.mp hsorted).1 y List.mem_cons_self
      exact absurd hlt (String.not_lt.mpr (String.le_trans hxy (le_intercalate y rest)))

theorem append_bar_ne (x y : String) : x ≠ x ++ "|" ++ y := by
  intro h
  have hlen := congrArg (fun s => s.toList.length) h
  simp at hlen

theorem exists_bar {s : String} (h : '|' ∈ s.toList) : ∃ x y, s = x ++ "|" ++ y := by
  obtain ⟨x, y, hxy⟩ := List.append_of_mem h
  refine ⟨String.ofList x, String.ofList y, ?_⟩
  rw [← String.toList_inj, hxy]
  simp

/-- What follows a bar of the rule may stand before the assets. -/
theorem basis_split_rule {a : FiredAlert} {x y : String} (h : a.rule = x ++ "|" ++ y) :
    a.basis = FiredAlert.basis ⟨some x, [y ++ "|" ++ a.assetKey], a.ts⟩ := by
  have hright : FiredAlert.basis ⟨some x, [y ++ "|" ++ a.assetKey], a.ts⟩ =
      x ++ "|" ++ (y ++ "|" ++ a.assetKey) ++ "|" ++ toString a.bucket := rfl
  rw [hright, FiredAlert.basis, h]
  simp only [String.append_assoc]

/-- What precedes a bar of the assets may stand behind the rule. -/
theorem basis_split_assets {a : FiredAlert} {x y : String} (h : a.assetKey = x ++ "|" ++ y) :
    a.basis = FiredAlert.basis ⟨some (a.rule ++ "|" ++ x), [y], a.ts⟩ := by
  have hright : FiredAlert.basis ⟨some (a.rule ++ "|" ++ x), [y], a.ts⟩ =
      a.rule ++ "|" ++ x ++ "|" ++ y ++ "|" ++ toString a.bucket := rfl
  rw [hright, FiredAlert.basis, h]
  simp only [String.append_assoc]

/-- Other assets with the same key. -/
theorem exists_basis_eq_of_assets {a : FiredAlert} {assets : List String}
    (hkey : a.assetKey = String.intercalate "," (sortedTexts assets))
    (hlen : a.assetIds.length ≠ assets.length) :
    ∃ b : FiredAlert, a.basis = b.basis ∧ ¬a.Same b := by
  refine ⟨⟨a.ruleId, assets, a.ts⟩, basis_congr rfl hkey rfl, ?_⟩
  intro hsame
  exact hlen hsame.assets.length_eq

/-- An alert whose fields are ambiguous shares its hashed text with another one. -/
theorem exists_basis_eq {a : FiredAlert} (h : ¬a.Unambiguous) :
    ∃ b : FiredAlert, a.basis = b.basis ∧ ¬a.Same b := by
  by_cases hrule : '|' ∈ a.rule.toList
  · obtain ⟨x, y, hxy⟩ := exists_bar hrule
    refine ⟨_, basis_split_rule hxy, ?_⟩
    intro hsame
    exact append_bar_ne x y (hsame.rule.symm.trans hxy)
  by_cases hbar : '|' ∈ a.assetKey.toList
  · obtain ⟨x, y, hxy⟩ := exists_bar hbar
    refine ⟨_, basis_split_assets hxy, ?_⟩
    intro hsame
    exact append_bar_ne a.rule x hsame.rule
  by_cases hlen : a.assetIds.length = 1
  · obtain ⟨asset, hassets⟩ := List.length_eq_one_iff.mp hlen
    have hkey : a.assetKey = asset := by
      rw [FiredAlert.assetKey, hassets, sortedTexts_singleton, String.intercalate_singleton]
    by_cases hempty : asset = ""
    · have hnil : a.assetKey = String.intercalate "," (sortedTexts []) := by
        rw [hkey, hempty]
        rfl
      exact exists_basis_eq_of_assets hnil (by simp [hlen])
    by_cases hspell : ∃ x y, asset = x ++ "," ++ y ∧ x ≤ y
    · obtain ⟨x, y, hxy, hle⟩ := hspell
      have htwo : a.assetKey = String.intercalate "," (sortedTexts [x, y]) := by
        rw [hkey, hxy, sortedTexts_pair hle, String.intercalate_cons_cons,
          String.intercalate_singleton]
      exact exists_basis_eq_of_assets htwo (by simp [hlen])
    · have hlt : ∀ x y, asset = x ++ "," ++ y → y < x := by
        intro x y hxy
        by_contra hge
        exact hspell ⟨x, y, hxy, String.not_lt.mp hge⟩
      exact absurd ⟨hrule, asset, hassets, hempty, hkey ▸ hbar, hlt⟩ h
  · have hone : a.assetKey = String.intercalate "," (sortedTexts [a.assetKey]) := by
      rw [sortedTexts_singleton, String.intercalate_singleton]
    exact exists_basis_eq_of_assets hone (by simpa using hlen)

theorem FiredAlert.Unambiguous.same {a b : FiredAlert} (ha : a.Unambiguous)
    (h : a.basis = b.basis) : a.Same b := by
  obtain ⟨hrule, asset, hassets, hne, hbar, hspell⟩ := ha
  have hkey : a.assetKey = asset := by
    rw [FiredAlert.assetKey, hassets, sortedTexts_singleton, String.intercalate_singleton]
  obtain ⟨hsame, hassetKey, hbucket⟩ := basis_inj hrule (hkey ▸ hbar) h
  exact ⟨hsame, assets_of_assetKey hassets hne hspell hassetKey, hbucket⟩

theorem FiredAlert.Plain.bar {a : FiredAlert} (ha : a.Plain) : '|' ∉ a.assetKey.toList := by
  rw [toList_assetKey]
  intro h
  rcases mem_intercalate h with h | ⟨x, hx, h⟩
  · exact absurd h (by decide)
  · obtain ⟨asset, hasset, rfl⟩ := List.mem_map.mp hx
    exact (ha.assets asset ((perm_sortedTexts _).mem_iff.mp hasset)).1 h

theorem FiredAlert.Plain.comma {a : FiredAlert} (ha : a.Plain) :
    ∀ x ∈ (sortedTexts a.assetIds).map String.toList, ',' ∉ x := by
  intro x hx
  obtain ⟨asset, hasset, rfl⟩ := List.mem_map.mp hx
  exact (ha.assets asset ((perm_sortedTexts _).mem_iff.mp hasset)).2

theorem FiredAlert.Plain.sorted_ne_nil {a : FiredAlert} (ha : a.Plain) :
    (sortedTexts a.assetIds).map String.toList ≠ [] := by
  intro h
  have hperm := perm_sortedTexts a.assetIds
  rw [List.map_eq_nil_iff.mp h] at hperm
  exact ha.some_asset hperm.nil_eq.symm

theorem FiredAlert.Plain.same {a b : FiredAlert} (ha : a.Plain) (hb : b.Plain)
    (h : a.basis = b.basis) : a.Same b := by
  obtain ⟨hrule, hassetKey, hbucket⟩ := basis_inj ha.rule ha.bar h
  have hjoin := congrArg String.toList hassetKey
  rw [toList_assetKey, toList_assetKey] at hjoin
  have hlists := intercalate_inj ha.comma hb.comma ha.sorted_ne_nil hb.sorted_ne_nil hjoin
  have hsorted : sortedTexts a.assetIds = sortedTexts b.assetIds :=
    List.map_injective_iff.mpr (fun _ _ => String.toList_inj.mp) hlists
  have hperm : a.assetIds.Perm b.assetIds := by
    have hleft := (perm_sortedTexts a.assetIds).symm
    rw [hsorted] at hleft
    exact hleft.trans (perm_sortedTexts b.assetIds)
  exact ⟨hrule, hperm, hbucket⟩

/-! ## Memoization keys -/

/-- The arguments of `shape_key`. -/
structure AlertForm where
  source : Option String
  decoder : Option String
  templateHash : Option String
  templateVersion : Option String
  deriving DecidableEq

/-- What folding does to a text with a bar: a bar is no letter and decides no letter's case. -/
structure Folding (lower : String → String) : Prop where
  empty : lower "" = ""
  bar : ∀ x y, lower (x ++ "|" ++ y) = lower x ++ "|" ++ lower y
  no_bar : ∀ x, '|' ∉ x.toList → '|' ∉ (lower x).toList

theorem toLower_eq_bar {c : Char} (h : c.toLower = '|') : c = '|' := by
  unfold Char.toLower at h
  split at h
  · rename_i hupper
    have hval := congrArg Char.val h
    have hle : c.val ≤ 90 := hupper.2
    have hsum : c.val + 32 = 124 := hval
    grind
  · exact h

theorem folding_lower : Folding Py.lower where
  empty := rfl
  bar x y := by
    rw [← String.toList_inj]
    simp [Py.lower]
  no_bar x h := by
    intro hbar
    rw [Py.lower, String.toList_ofList] at hbar
    obtain ⟨c, hc, heq⟩ := List.mem_map.mp hbar
    exact h (toLower_eq_bar heq ▸ hc)

namespace AlertForm
variable {lower : String → String}

/-- `shape_key` for a given `str.lower`. -/
def key (lower : String → String) (s : AlertForm) : Option String :=
  match s.templateHash with
  | none => none
  | some hash =>
    if hash = "" then none
    else some (String.intercalate "|"
      [lower (s.source.getD ""), lower (s.decoder.getD ""), hash, s.templateVersion.getD ""])

theorem key_lower (s : AlertForm) :
    s.key Py.lower = shapeKey s.source s.decoder s.templateHash s.templateVersion := rfl

def src (s : AlertForm) : String := s.source.getD ""

def dec (s : AlertForm) : String := s.decoder.getD ""

def hash (s : AlertForm) : String := s.templateHash.getD ""

def version (s : AlertForm) : String := s.templateVersion.getD ""

/-- The same folded source and decoder, the same template hash and version. -/
structure Same (lower : String → String) (s t : AlertForm) : Prop where
  source : lower s.src = lower t.src
  decoder : lower s.dec = lower t.dec
  hash : s.hash = t.hash
  version : s.version = t.version

/-- No bar in a field; the hash may be a bar alone, since no key has an empty hash. -/
structure Unambiguous (s : AlertForm) : Prop where
  source : '|' ∉ s.src.toList
  decoder : '|' ∉ s.dec.toList
  version : '|' ∉ s.version.toList
  hash : s.hash = "|" ∨ '|' ∉ s.hash.toList

theorem key_eq_some_iff {s : AlertForm} {k : String} : s.key lower = some k ↔
    s.hash ≠ "" ∧ k = String.intercalate "|" [lower s.src, lower s.dec, s.hash, s.version] := by
  unfold key hash
  cases s.templateHash with
  | none => simp
  | some hash =>
    by_cases hempty : hash = ""
    · simp [hempty]
    · simp [hempty, src, dec, version, eq_comm]

/-- The pieces of a key's text between its bars. -/
theorem pieces_eq (w x y z : List Char) :
    (['|'].intercalate [w, x, y, z]).splitOn '|' =
      w.splitOn '|' ++ (x.splitOn '|' ++ (y.splitOn '|' ++ z.splitOn '|')) := by
  simp only [List.intercalate_cons_cons, List.intercalate_singleton, List.append_assoc,
    List.singleton_append, List.splitOn_append_cons_self]

/-- Of the four groups of the pieces around a bar, the third is the one with two. -/
theorem groups_eq {w x : List Char} {z : List Char} {as bs cs ds : List (List Char)}
    (ha : as ≠ []) (hb : bs ≠ []) (hc : cs ≠ []) (hd : ds ≠ []) (hempty : cs ≠ [[]])
    (h : [w, x, [], [], z] = as ++ (bs ++ (cs ++ ds))) :
    as = [w] ∧ bs = [x] ∧ cs = [[], []] ∧ ds = [z] := by
  obtain ⟨a, as, rfl⟩ := List.exists_cons_of_ne_nil ha
  obtain ⟨b, bs, rfl⟩ := List.exists_cons_of_ne_nil hb
  obtain ⟨c, cs, rfl⟩ := List.exists_cons_of_ne_nil hc
  obtain ⟨d, ds, rfl⟩ := List.exists_cons_of_ne_nil hd
  have hlen : as.length + bs.length + cs.length + ds.length = 1 := by
    have htotal := congrArg List.length h
    simp only [List.length_cons, List.length_append, List.length_nil] at htotal
    omega
  -- One group has a second piece; in front of or behind the third one it would leave it empty.
  rcases as with _ | ⟨a', as⟩ <;> rcases bs with _ | ⟨b', bs⟩ <;>
    rcases cs with _ | ⟨c', cs⟩ <;> rcases ds with _ | ⟨d', ds⟩ <;>
    simp only [List.length_cons, List.length_nil] at hlen <;> first | omega | grind

/-- A text of one piece is that piece. -/
theorem eq_of_splitOn {s t : String} (h : s.toList.splitOn '|' = [t.toList]) : s = t := by
  have hjoined : ['|'].intercalate (s.toList.splitOn '|') = s.toList := List.intercalate_splitOn '|'
  rw [h, List.intercalate_singleton] at hjoined
  exact String.toList_inj.mp hjoined.symm

theorem toList_key (w x y z : String) : (String.intercalate "|" [w, x, y, z]).toList =
    ['|'].intercalate [w.toList, x.toList, y.toList, z.toList] :=
  String.toList_intercalate

theorem Unambiguous.same (hlower : Folding lower) {s t : AlertForm} {k : String}
    (hs : s.Unambiguous) (hkey : s.key lower = some k) (hkey' : t.key lower = some k) :
    s.Same lower t := by
  obtain ⟨-, hk⟩ := key_eq_some_iff.mp hkey
  obtain ⟨hne, hk'⟩ := key_eq_some_iff.mp hkey'
  have hjoin := congrArg String.toList (hk.symm.trans hk')
  rw [toList_key, toList_key] at hjoin
  have hsource := hlower.no_bar _ hs.source
  have hdecoder := hlower.no_bar _ hs.decoder
  rcases hs.hash with hhash | hhash
  · have hpieces := congrArg (List.splitOn '|') hjoin
    rw [pieces_eq, pieces_eq, List.splitOn_eq_singleton hsource,
      List.splitOn_eq_singleton hdecoder, List.splitOn_eq_singleton hs.version, hhash] at hpieces
    have hbar : ("|" : String).toList.splitOn '|' = [[], []] := by decide
    rw [hbar] at hpieces
    have hempty : t.hash.toList.splitOn '|' ≠ [[]] := fun heq => hne (eq_of_splitOn heq)
    obtain ⟨hw, hx, hy, hz⟩ := groups_eq (List.splitOn_ne_nil _ _) (List.splitOn_ne_nil _ _)
      (List.splitOn_ne_nil _ _) (List.splitOn_ne_nil _ _) hempty hpieces
    have hhash' : t.hash = "|" := by
      have hjoined : ['|'].intercalate (t.hash.toList.splitOn '|') = t.hash.toList :=
        List.intercalate_splitOn '|'
      rw [hy] at hjoined
      exact String.toList_inj.mp hjoined.symm
    exact ⟨(eq_of_splitOn hw).symm, (eq_of_splitOn hx).symm, hhash.trans hhash'.symm,
      (eq_of_splitOn hz).symm⟩
  · have hbars : ∀ x ∈ [(lower s.src).toList, (lower s.dec).toList, s.hash.toList,
        s.version.toList], '|' ∉ x := by
      intro x hx
      simp only [List.mem_cons, List.not_mem_nil, or_false] at hx
      rcases hx with rfl | rfl | rfl | rfl
      · exact hsource
      · exact hdecoder
      · exact hhash
      · exact hs.version
    have hparts : [(lower s.src).toList, (lower s.dec).toList, s.hash.toList, s.version.toList] =
        [(lower t.src).toList, (lower t.dec).toList, t.hash.toList, t.version.toList] :=
      intercalate_inj_of_length hbars rfl hjoin
    simp only [List.cons.injEq, String.toList_inj, and_true] at hparts
    exact ⟨hparts.1, hparts.2.1, hparts.2.2.1, hparts.2.2.2⟩

/-- A bar of a field may stand between the fields instead. -/
theorem exists_key_eq (hlower : Folding lower) {s : AlertForm} {k : String}
    (hkey : s.key lower = some k) (h : ¬s.Unambiguous) :
    ∃ t : AlertForm, t.key lower = some k ∧ ¬s.Same lower t := by
  obtain ⟨hne, rfl⟩ := key_eq_some_iff.mp hkey
  by_cases hsource : '|' ∈ s.src.toList
  · obtain ⟨x, y, hxy⟩ := exists_bar hsource
    refine ⟨⟨some x, some (y ++ "|" ++ s.dec), some s.hash, some s.version⟩, ?_, ?_⟩
    · refine key_eq_some_iff.mpr ⟨hne, ?_⟩
      simp only [src, dec, hash, version, Option.getD_some] at hxy ⊢
      simp only [hxy, hlower.bar]
      simp only [String.intercalate_cons_cons, String.append_assoc]
    · intro hsame
      have heq := hsame.source
      rw [hxy, hlower.bar] at heq
      exact append_bar_ne _ _ heq.symm
  by_cases hdecoder : '|' ∈ s.dec.toList
  · obtain ⟨x, y, hxy⟩ := exists_bar hdecoder
    refine ⟨⟨some (s.src ++ "|" ++ x), some y, some s.hash, some s.version⟩, ?_, ?_⟩
    · refine key_eq_some_iff.mpr ⟨hne, ?_⟩
      simp only [src, dec, hash, version, Option.getD_some] at hxy ⊢
      simp only [hxy, hlower.bar]
      simp only [String.intercalate_cons_cons, String.append_assoc]
    · intro hsame
      have heq := hsame.source
      simp only [src, Option.getD_some, hlower.bar] at heq
      exact append_bar_ne _ _ heq
  by_cases hversion : '|' ∈ s.version.toList
  · obtain ⟨x, y, hxy⟩ := exists_bar hversion
    refine ⟨⟨some s.src, some s.dec, some (s.hash ++ "|" ++ x), some y⟩, ?_, ?_⟩
    · refine key_eq_some_iff.mpr ⟨by simp [hash], ?_⟩
      simp only [src, dec, hash, version, Option.getD_some] at hxy ⊢
      simp only [hxy, String.intercalate_cons_cons, String.intercalate_singleton,
        String.append_assoc]
    · intro hsame
      exact append_bar_ne _ _ hsame.hash
  have hhash : '|' ∈ s.hash.toList := by
    by_contra hfree
    exact h ⟨hsource, hdecoder, hversion, .inr hfree⟩
  obtain ⟨x, y, hxy⟩ := exists_bar hhash
  by_cases hx : x = ""
  · refine ⟨⟨some s.src, some (s.dec ++ "|" ++ ""), some y, some s.version⟩, ?_, ?_⟩
    · refine key_eq_some_iff.mpr ⟨?_, ?_⟩
      · intro hy
        have hy : y = "" := hy
        have hbar : s.hash = "|" := by
          rw [hxy, hx, hy]
          rfl
        exact h ⟨hsource, hdecoder, hversion, .inl hbar⟩
      · simp only [src, dec, hash, version, Option.getD_some] at hxy ⊢
        simp only [hxy, hx, hlower.bar, hlower.empty]
        simp only [String.intercalate_cons_cons, String.append_assoc, String.empty_append]
    · intro hsame
      have heq := hsame.decoder
      simp only [dec, Option.getD_some, hlower.bar] at heq
      exact append_bar_ne _ _ heq
  · refine ⟨⟨some s.src, some s.dec, some x, some (y ++ "|" ++ s.version)⟩, ?_, ?_⟩
    · refine key_eq_some_iff.mpr ⟨hx, ?_⟩
      simp only [src, dec, hash, version, Option.getD_some] at hxy ⊢
      simp only [hxy, String.intercalate_cons_cons, String.intercalate_singleton,
        String.append_assoc]
    · intro hsame
      exact append_bar_ne x y (hsame.hash.symm.trans hxy)

end AlertForm

/-! ## The two fingerprints -/

/-- With a hash without collisions, which alerts and which forms their fingerprints identify. -/
theorem fingerprints_identify_iff (ctx : Context) (hsha : Function.Injective ctx.sha256)
    (hlower : Folding ctx.lower) :
    (∀ a : FiredAlert,
      (∀ b : FiredAlert, a.signature ctx = b.signature ctx → a.Same b) ↔ a.Unambiguous) ∧
    (∀ a b : FiredAlert, a.Plain → b.Plain → a.signature ctx = b.signature ctx → a.Same b) ∧
    ∀ (s : AlertForm) (k : String), s.key ctx.lower = some k →
      ((∀ t : AlertForm, t.key ctx.lower = some k → s.Same ctx.lower t) ↔ s.Unambiguous) := by
  refine ⟨?_, ?_, ?_⟩
  · intro a
    constructor
    · intro hall
      by_contra h
      obtain ⟨b, hbasis, hne⟩ := exists_basis_eq h
      exact hne (hall b ((signature_eq_iff hsha a b).mpr hbasis))
    · intro ha b hsig
      exact ha.same ((signature_eq_iff hsha a b).mp hsig)
  · intro a b ha hb hsig
    exact ha.same hb ((signature_eq_iff hsha a b).mp hsig)
  · intro s k hkey
    constructor
    · intro hall
      by_contra h
      obtain ⟨t, hkey', hne⟩ := AlertForm.exists_key_eq hlower hkey h
      exact hne (hall t hkey')
    · intro hs t hkey'
      exact hs.same hlower hkey hkey'

/-- A hash without collisions, with SHA-256's value at one text. -/
def digestAt (text s : String) : String := if s = text then Sha256.hexdigest text else "#" ++ s

def digestContext (text : String) : Context :=
  ⟨fun _ => none, 0, [], digestAt text, fun s => lower (strip s), lower, upper, fun _ _ => false⟩

def sshAlert : FiredAlert := ⟨some "5710", ["web-1"], 1700000000000000⟩

theorem head_hexdigest_sshAlert :
    (Sha256.hexdigest "5710|web-1|5666666").toList.head? ≠ some '#' := by
  decide +kernel

theorem digestAt_sshAlert_injective : Function.Injective (digestAt "5710|web-1|5666666") := by
  have hhead : ∀ s, Sha256.hexdigest "5710|web-1|5666666" ≠ "#" ++ s := by
    intro s h
    have hstart := head_hexdigest_sshAlert
    rw [h, String.toList_append] at hstart
    exact hstart rfl
  intro s t h
  unfold digestAt at h
  split at h
  · rename_i hs
    split at h
    · rename_i ht
      exact hs.trans ht.symm
    · exact absurd h (hhead t)
  · split at h
    · exact absurd h.symm (hhead s)
    · exact (String.append_right_inj "#").mp h

theorem sshAlert_unambiguous : sshAlert.Unambiguous := by
  refine ⟨by decide, "web-1", rfl, by decide, by decide, ?_⟩
  intro x y h
  have hcomma : ',' ∈ (x ++ "," ++ y).toList := by simp
  rw [← h] at hcomma
  exact absurd hcomma (by decide)

theorem fingerprints_identify_sshAlert :
    sshAlert.Unambiguous ∧
    ((∀ b : FiredAlert, sshAlert.signature (digestContext "5710|web-1|5666666") =
        b.signature (digestContext "5710|web-1|5666666") → sshAlert.Same b) ↔
      sshAlert.Unambiguous) :=
  ⟨sshAlert_unambiguous, (fingerprints_identify_iff (digestContext "5710|web-1|5666666")
    digestAt_sshAlert_injective folding_lower).1 sshAlert⟩

/-- One asset with a comma in its name and two assets; a bar that changes its field. -/
theorem fingerprints_collide :
    (FiredAlert.signature (digestContext "5710|web-1,web-2|0")
          ⟨some "5710", ["web-1,web-2"], 0⟩ =
        FiredAlert.signature (digestContext "5710|web-1,web-2|0")
          ⟨some "5710", ["web-1", "web-2"], 0⟩ ∧
      ¬FiredAlert.Same ⟨some "5710", ["web-1,web-2"], 0⟩ ⟨some "5710", ["web-1", "web-2"], 0⟩) ∧
    shapeKey (some "wazuh") (some "sshd|pam") (some "h1") (some "2") =
        shapeKey (some "wazuh|sshd") (some "pam") (some "h1") (some "2") ∧
      ¬AlertForm.Same lower ⟨some "wazuh", some "sshd|pam", some "h1", some "2"⟩
        ⟨some "wazuh|sshd", some "pam", some "h1", some "2"⟩ := by
  refine ⟨⟨?_, ?_⟩, ?_, ?_⟩
  · have hbasis : FiredAlert.basis ⟨some "5710", ["web-1,web-2"], 0⟩ =
        FiredAlert.basis ⟨some "5710", ["web-1", "web-2"], 0⟩ := by decide +kernel
    exact congrArg (digestAt "5710|web-1,web-2|0") hbasis
  · intro hsame
    exact absurd hsame.assets.length_eq (by decide)
  · decide +kernel
  · intro hsame
    exact absurd hsame.source (by decide +kernel)

end SocTalk.Triage
