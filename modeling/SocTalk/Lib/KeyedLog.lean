import Mathlib.Data.List.Nodup
import Mathlib.Data.Nat.Notation

/-! An append-only log with a unique key: an entry whose key is taken is dropped. What a sequence of
appends leaves, and when none of a part of it is dropped. -/

structure KeyedLog (K E : Type) where
  entries : List (K × E)
  nodup : (entries.map Prod.fst).Nodup

namespace KeyedLog

variable {K E : Type}

def empty : KeyedLog K E := ⟨[], List.nodup_nil⟩

def keys (l : KeyedLog K E) : List K := l.entries.map Prod.fst

variable [DecidableEq K]

def append (l : KeyedLog K E) (k : K) (e : E) : KeyedLog K E :=
  if h : k ∈ l.keys then l
  else
    { entries := l.entries ++ [(k, e)]
      nodup := by
        rw [List.map_append]
        exact l.nodup.append (List.nodup_singleton k) (List.disjoint_singleton.mpr h) }

def appendAll (l : KeyedLog K E) (es : List (K × E)) : KeyedLog K E :=
  es.foldl (fun l e => l.append e.1 e.2) l

section

variable {l : KeyedLog K E} {k : K} {e : E}

theorem append_of_mem (h : k ∈ l.keys) (e : E) : l.append k e = l := dif_pos h

theorem entries_append (h : k ∉ l.keys) (e : E) : (l.append k e).entries = l.entries ++ [(k, e)] := by
  unfold append
  rw [dif_neg h]

theorem mem_keys_append (l : KeyedLog K E) (k : K) (e : E) : k ∈ (l.append k e).keys := by
  by_cases h : k ∈ l.keys
  · rw [append_of_mem h]
    exact h
  · unfold keys
    rw [entries_append h]
    simp

theorem mem_keys_append_of_mem (k : K) (e : E) {k' : K} (h : k' ∈ l.keys) :
    k' ∈ (l.append k e).keys := by
  by_cases hk : k ∈ l.keys
  · rw [append_of_mem hk]
    exact h
  · unfold keys
    rw [entries_append hk, List.map_append]
    exact List.mem_append_left _ h

end

theorem appendAll_append (l : KeyedLog K E) (es fs : List (K × E)) :
    l.appendAll (es ++ fs) = (l.appendAll es).appendAll fs := by
  unfold appendAll
  rw [List.foldl_append]

/-- No entry of the part `p` finds its key taken when its turn comes. -/
def Fresh (p : K × E → Bool) (l : KeyedLog K E) : List (K × E) → Prop
  | [] => True
  | e :: es => (p e = true → e.1 ∉ l.keys) ∧ Fresh p (l.append e.1 e.2) es

variable (p : K × E → Bool)

theorem length_filter_append_le (l : KeyedLog K E) (e : K × E) :
    ((l.append e.1 e.2).entries.filter p).length ≤ (l.entries.filter p).length + if p e then 1 else 0 := by
  by_cases hkey : e.1 ∈ l.keys
  · rw [append_of_mem hkey]
    omega
  · rw [entries_append hkey, List.filter_append, List.length_append]
    cases hp : p e <;> simp [hp]

theorem length_filter_appendAll_le (l : KeyedLog K E) (es : List (K × E)) :
    ((l.appendAll es).entries.filter p).length ≤ (l.entries.filter p).length + (es.filter p).length := by
  induction es generalizing l with
  | nil => exact Nat.le_add_right _ _
  | cons e es ih =>
    have hrest := ih (l.append e.1 e.2)
    have hone := length_filter_append_le p l e
    have hcount : ((e :: es).filter p).length = (if p e then 1 else 0) + (es.filter p).length := by
      cases hp : p e <;> simp [hp, Nat.add_comm]
    unfold appendAll at hrest ⊢
    rw [List.foldl_cons]
    omega

/-- What is fresh of the part `p` is all there, in order. -/
theorem filter_appendAll_of_fresh {l : KeyedLog K E} {es : List (K × E)} (h : Fresh p l es) :
    (l.appendAll es).entries.filter p = l.entries.filter p ++ es.filter p := by
  induction es generalizing l with
  | nil => simp [appendAll]
  | cons e es ih =>
    obtain ⟨hfresh, hrest⟩ := h
    have hnext := ih hrest
    show ((l.append e.1 e.2).appendAll es).entries.filter p = _
    rw [hnext]
    by_cases hkey : e.1 ∈ l.keys
    · have hp : ¬p e = true := fun hp => hfresh hp hkey
      rw [append_of_mem hkey, List.filter_cons_of_neg hp]
    · rw [entries_append hkey, List.filter_append, List.append_assoc, ← List.filter_append]
      rfl

/-- A dropped entry is missed in the count. -/
theorem fresh_of_length {l : KeyedLog K E} {es : List (K × E)}
    (h : ((l.appendAll es).entries.filter p).length =
      (l.entries.filter p).length + (es.filter p).length) : Fresh p l es := by
  induction es generalizing l with
  | nil => trivial
  | cons e es ih =>
    have hrest := length_filter_appendAll_le p (l.append e.1 e.2) es
    have hone := length_filter_append_le p l e
    have hcount : ((e :: es).filter p).length = (if p e then 1 else 0) + (es.filter p).length := by
      cases hp : p e <;> simp [hp, Nat.add_comm]
    have hall : (((l.append e.1 e.2).appendAll es).entries.filter p).length =
        (l.entries.filter p).length + ((e :: es).filter p).length := h
    constructor
    · intro hp hkey
      rw [append_of_mem hkey] at hrest hall
      rw [if_pos hp] at hcount
      omega
    · exact ih (by omega)

/-- The part `p` of the log is what was there and all that was appended of it, in order, exactly if
each entry of that was fresh. -/
theorem map_filter_appendAll_eq_iff {β : Type} (f : K × E → β) (l : KeyedLog K E)
    (es : List (K × E)) :
    ((l.appendAll es).entries.filter p).map f = (l.entries.filter p).map f ++ (es.filter p).map f ↔
      Fresh p l es := by
  constructor
  · intro h
    have hlength := congrArg List.length h
    rw [List.length_append, List.length_map, List.length_map, List.length_map] at hlength
    exact fresh_of_length p hlength
  · intro h
    rw [filter_appendAll_of_fresh p h, List.map_append]

end KeyedLog
