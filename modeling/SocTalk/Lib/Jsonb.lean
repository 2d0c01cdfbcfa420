import SocTalk.Lib.Value
import Mathlib.Data.List.Sort
import Mathlib.Data.Prod.Lex
import Mathlib.Data.String.Basic

/-! What a value becomes on its way through a JSONB column: dumped as JSON text, cast by the
database and loaded again. Text with U+0000, which the cast refuses as well, is left out. -/
namespace Py

/-- `repr` writes a number of at least `10 ^ 16` with an exponent; the column expands it and
the reader sees an integer. Infinities and NaN are not JSON. -/
def FloatVal.stored : FloatVal → Option Value
  | .fin q =>
    if |q| < 10 ^ 16 then some (.float (.fin q))
    else
      let (m, p) := shortest |q| 17
      some (.int (if q < 0 then -(m * 10 ^ p.toNat) else m * 10 ^ p.toNat))
  | _ => none

/-- Object keys are kept by byte length, then by bytes. -/
def keyLe (a b : String × Value) : Prop :=
  toLex (a.1.utf8ByteSize, a.1) ≤ toLex (b.1.utf8ByteSize, b.1)

instance : DecidableRel keyLe := fun a b =>
  inferInstanceAs (Decidable (toLex (a.1.utf8ByteSize, a.1) ≤ toLex (b.1.utf8ByteSize, b.1)))

instance : Std.Total keyLe := ⟨fun _ _ => le_total _ _⟩

instance : IsTrans (String × Value) keyLe := ⟨fun _ _ _ => le_trans⟩

def byKey (d : Dict) : Dict := d.insertionSort keyLe

mutual

/-- The value read back after the write of `v`, if the cast takes it. -/
def Value.stored : Value → Option Value
  | .none => some .none
  | .bool b => some (.bool b)
  | .int n => some (.int n)
  | .float x => x.stored
  | .str s => some (.str s)
  | .enum v => some (.str v)
  | .list xs => (Value.storedItems xs).map .list
  | .dict kvs => (Value.storedPairs kvs).map fun d => .dict (byKey d)

def Value.storedItems : List Value → Option (List Value)
  | [] => some []
  | x :: xs => (Value.stored x).bind fun y => (Value.storedItems xs).map (y :: ·)

def Value.storedPairs : List (String × Value) → Option (List (String × Value))
  | [] => some []
  | (k, v) :: kvs => (Value.stored v).bind fun w => (Value.storedPairs kvs).map ((k, w) :: ·)

end

/-- A value as the column returns it. -/
def Value.Stored (v : Value) : Prop := v.stored = some v

theorem FloatVal.stored_stored {x : FloatVal} {v : Value} (h : x.stored = some v) : v.Stored := by
  cases x with
  | fin q =>
    by_cases hq : |q| < 10 ^ 16
    · have hv : some (Value.float (.fin q)) = some v := by rw [← h, FloatVal.stored, if_pos hq]
      obtain rfl := Option.some.inj hv
      simp [Value.Stored, Value.stored, FloatVal.stored, hq]
    · rw [FloatVal.stored, if_neg hq] at h
      obtain rfl := Option.some.inj h
      rfl
  | posInf => cases h
  | negInf => cases h
  | nan => cases h

theorem Value.storedItems_eq_self {xs : List Value} (h : ∀ x ∈ xs, x.Stored) :
    Value.storedItems xs = some xs := by
  induction xs with
  | nil => rfl
  | cons x xs ih =>
    have hx : x.stored = some x := h x (by simp)
    have hxs := ih fun y hy => h y (by simp [hy])
    simp [Value.storedItems, hx, hxs]

theorem Value.storedPairs_eq_self {d : Dict} (h : ∀ p ∈ d, p.2.Stored) :
    Value.storedPairs d = some d := by
  induction d with
  | nil => rfl
  | cons p d ih =>
    have hp : p.2.stored = some p.2 := h p (by simp)
    have hd := ih fun q hq => h q (by simp [hq])
    simp [Value.storedPairs, hp, hd]

theorem byKey_byKey (d : Dict) : byKey (byKey d) = byKey d :=
  (List.pairwise_insertionSort keyLe d).insertionSort_eq

theorem mem_byKey {p : String × Value} {d : Dict} : p ∈ byKey d ↔ p ∈ d :=
  List.mem_insertionSort keyLe

mutual

/-- What the column returns goes through it unchanged the next time. -/
theorem Value.stored_stored : ∀ {v w : Value}, v.stored = some w → w.Stored
  | .none, _, h => by cases h; rfl
  | .bool _, _, h => by cases h; rfl
  | .int _, _, h => by cases h; rfl
  | .str _, _, h => by cases h; rfl
  | .enum _, _, h => by cases h; rfl
  | .float _, _, h => FloatVal.stored_stored (by simpa [Value.stored] using h)
  | .list xs, w, h => by
    obtain ⟨ys, hys, rfl⟩ := Option.map_eq_some_iff.mp (by simpa only [Value.stored] using h)
    have hall := Value.storedItems_stored hys
    simp [Value.Stored, Value.stored, Value.storedItems_eq_self hall]
  | .dict kvs, w, h => by
    obtain ⟨d, hd, rfl⟩ := Option.map_eq_some_iff.mp (by simpa only [Value.stored] using h)
    have hall := Value.storedPairs_stored hd
    have hsort : ∀ p ∈ byKey d, p.2.Stored := fun p hp => hall p (mem_byKey.mp hp)
    simp [Value.Stored, Value.stored, Value.storedPairs_eq_self hsort, byKey_byKey]

theorem Value.storedItems_stored : ∀ {xs ys : List Value}, Value.storedItems xs = some ys →
    ∀ y ∈ ys, y.Stored
  | [], _, h => by cases h; simp
  | x :: xs, ys, h => by
    obtain ⟨z, hz, hrest⟩ := Option.bind_eq_some_iff.mp h
    obtain ⟨zs, hzs, rfl⟩ := Option.map_eq_some_iff.mp hrest
    intro y hy
    rcases List.mem_cons.mp hy with rfl | hy
    · exact Value.stored_stored hz
    · exact Value.storedItems_stored hzs y hy

theorem Value.storedPairs_stored : ∀ {d e : Dict}, Value.storedPairs d = some e →
    ∀ p ∈ e, p.2.Stored
  | [], _, h => by cases h; simp
  | (k, v) :: d, e, h => by
    obtain ⟨w, hw, hrest⟩ := Option.bind_eq_some_iff.mp h
    obtain ⟨e', he', rfl⟩ := Option.map_eq_some_iff.mp hrest
    intro p hp
    rcases List.mem_cons.mp hp with rfl | hp
    · exact Value.stored_stored hw
    · exact Value.storedPairs_stored he' p hp

end

/-- The values of a stored object are stored values. -/
theorem Value.Stored.lookup {d : Dict} (h : (Value.dict d).Stored) {k : String} {v : Value}
    (hv : d.lookup k = some v) : v.Stored := by
  obtain ⟨e, he, hd⟩ := Option.map_eq_some_iff.mp (by simpa only [Value.Stored, Value.stored] using h)
  have hmem : (k, v) ∈ d := by
    obtain ⟨l₁, l₂, rfl, -⟩ := List.lookup_eq_some_iff.mp hv
    simp
  have hsame : byKey e = d := by simpa using hd
  rw [← hsame, mem_byKey] at hmem
  exact Value.storedPairs_stored he _ hmem

end Py
