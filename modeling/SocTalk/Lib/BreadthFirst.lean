import Mathlib.Data.Int.Notation
import Mathlib.Data.List.Nodup
import Mathlib.Data.List.Pairwise

/-! Breadth-first search up to a number of edges: what it answers is a walk of the fewest edges. -/
namespace BreadthFirst

variable {α κ β : Type}

/-- A walk from `s`, its number of edges and what is carried along it. -/
inductive Walk (next : α → List (α × κ)) (carry : β → κ → β) (s : α) (b : β) : ℕ → α → β → Prop
  | start : Walk next carry s b 0 s b
  | edge {n : ℕ} {u v : α} {c : β} {k : κ} : Walk next carry s b n u c → (v, k) ∈ next u →
      Walk next carry s b (n + 1) v (carry c k)

structure Entry (α β : Type) where
  node : α
  dist : ℕ
  carried : β

def nodes (queue : List (Entry α β)) : List α := queue.map Entry.node

section
variable (e : Entry α β) (queue new : List (Entry α β))

@[simp] theorem nodes_nil : nodes ([] : List (Entry α β)) = [] := rfl

@[simp] theorem nodes_cons : nodes (e :: queue) = e.node :: nodes queue := rfl

@[simp] theorem nodes_append : nodes (queue ++ new) = nodes queue ++ nodes new := List.map_append

end

section
variable [DecidableEq α] (next : α → List (α × κ)) (carry : β → κ → β) (goal : α) (limit : ℤ)

/-- The neighbours not seen yet go to the end of the queue. -/
def visit (e : Entry α β) : List (α × κ) → List (Entry α β) × List α → List (Entry α β) × List α
  | [], s => s
  | (v, k) :: vs, (queue, seen) =>
    if v ∈ seen then visit e vs (queue, seen)
    else visit e vs (queue ++ [⟨v, e.dist + 1, carry e.carried k⟩], v :: seen)

/-- `some none` where the queue runs empty. -/
def search : ℕ → List (Entry α β) × List α → Option (Option (Entry α β))
  | 0, _ => none
  | _ + 1, ([], _) => some none
  | fuel + 1, (e :: queue, seen) =>
    if e.node = goal ∧ 0 < e.dist then some (some e)
    else if limit ≤ e.dist then search fuel (queue, seen)
    else search fuel (visit carry e (next e.node) (queue, seen))

end

/-! ## The neighbours of a node -/

section
variable [DecidableEq α] (carry : β → κ → β) (e : Entry α β)

theorem visit_spec (vs : List (α × κ)) (queue : List (Entry α β)) (seen : List α) :
    ∃ new seen', visit carry e vs (queue, seen) = (queue ++ new, seen') ∧
      (∀ v, v ∈ seen' ↔ v ∈ seen ∨ v ∈ nodes new) ∧ (nodes new).Nodup ∧
      (∀ x ∈ new, x.dist = e.dist + 1 ∧ x.node ∉ seen ∧
        ∃ k, (x.node, k) ∈ vs ∧ x.carried = carry e.carried k) ∧ ∀ p ∈ vs, p.1 ∈ seen' := by
  induction vs generalizing queue seen with
  | nil => exact ⟨[], seen, by simp [visit], by simp, by simp, by simp, by simp⟩
  | cons p vs ih =>
    obtain ⟨v, k⟩ := p
    rw [visit]
    split_ifs with hv
    · obtain ⟨new, seen', hvisit, hseen, hnodup, hnew, hvs⟩ := ih queue seen
      refine ⟨new, seen', hvisit, hseen, hnodup, ?_, ?_⟩
      · intro x hx
        obtain ⟨hdist, hnot, k', hk', hcarried⟩ := hnew x hx
        exact ⟨hdist, hnot, k', List.mem_cons_of_mem _ hk', hcarried⟩
      · intro p hp
        rcases List.mem_cons.mp hp with rfl | hp
        · exact (hseen v).mpr (.inl hv)
        · exact hvs p hp
    · obtain ⟨new, seen', hvisit, hseen, hnodup, hnew, hvs⟩ :=
        ih (queue ++ [⟨v, e.dist + 1, carry e.carried k⟩]) (v :: seen)
      have hfresh : v ∉ nodes new := by
        intro hmem
        obtain ⟨x, hx, rfl⟩ := List.mem_map.mp hmem
        exact (hnew x hx).2.1 List.mem_cons_self
      refine ⟨⟨v, e.dist + 1, carry e.carried k⟩ :: new, seen', by rw [hvisit]; simp, ?_, ?_, ?_, ?_⟩
      · intro w
        rw [hseen, nodes_cons, List.mem_cons, List.mem_cons, or_assoc, or_left_comm]
      · rw [nodes_cons]
        exact List.nodup_cons.mpr ⟨hfresh, hnodup⟩
      · intro x hx
        rcases List.mem_cons.mp hx with rfl | hx
        · exact ⟨rfl, hv, k, List.mem_cons_self, rfl⟩
        · obtain ⟨hdist, hnot, k', hk', hcarried⟩ := hnew x hx
          exact ⟨hdist, fun h => hnot (List.mem_cons_of_mem _ h), k', List.mem_cons_of_mem _ hk', hcarried⟩
      · intro p hp
        rcases List.mem_cons.mp hp with rfl | hp
        · exact (hseen v).mpr (.inl List.mem_cons_self)
        · exact hvs p hp

end

/-! ## The levels -/

/-- Each node seen has a level; the levels of the queue go up by one at most, and what a node out of the
queue leads to is seen, one level on at most. -/
structure Levels (next : α → List (α × κ)) (carry : β → κ → β) (goal : α) (limit : ℤ) (s : α) (b : β)
    (queue : List (Entry α β)) (seen : List α) (level : α → ℕ) : Prop where
  start_seen : s ∈ seen
  level_eq_zero : ∀ v ∈ seen, level v = 0 ↔ v = s
  seen_of_queue : ∀ e ∈ queue, e.node ∈ seen
  level_of_queue : ∀ e ∈ queue, level e.node = e.dist
  walk : ∀ e ∈ queue, Walk next carry s b e.dist e.node e.carried
  bounded : ∀ e ∈ queue, 0 < e.dist → (e.dist : ℤ) ≤ limit
  nodup : (nodes queue).Nodup
  sorted : queue.Pairwise fun e e' => e.dist ≤ e'.dist
  close : ∀ e ∈ queue, ∀ e' ∈ queue, e'.dist ≤ e.dist + 1
  behind : ∀ u ∈ seen, u ∉ nodes queue → ∀ e ∈ queue, level u ≤ e.dist
  spread : ∀ u ∈ seen, u ∉ nodes queue → (level u : ℤ) < limit → ∀ p ∈ next u,
    p.1 ∈ seen ∧ level p.1 ≤ level u + 1
  answered : goal ∈ seen → goal ∉ nodes queue → goal = s

section
variable {next : α → List (α × κ)} {carry : β → κ → β} {goal : α} {limit : ℤ} {s : α} {b : β}
  {queue : List (Entry α β)} {seen : List α} {level : α → ℕ} {e : Entry α β}

theorem levels_start : Levels next carry goal limit s b [⟨s, 0, b⟩] [s] fun _ => 0 where
  start_seen := List.mem_cons_self
  level_eq_zero v hv := by simpa using hv
  seen_of_queue e he := by simp [List.mem_singleton.mp he]
  level_of_queue e he := by rw [List.mem_singleton.mp he]
  walk e he := by
    rw [List.mem_singleton.mp he]
    exact .start
  bounded e he hpos := by
    rw [List.mem_singleton.mp he] at hpos
    simp at hpos
  nodup := by simp
  sorted := List.pairwise_singleton _ _
  close e he e' he' := by
    rw [List.mem_singleton.mp he, List.mem_singleton.mp he']
    omega
  behind u hu hout := absurd (by simpa using hu) hout
  spread u hu hout := absurd (by simpa using hu) hout
  answered hseen hout := absurd (by simpa using hseen) hout

namespace Levels

/-- Up to the level of the queue's head every walk leads to a node seen, at no higher level. -/
theorem of_walk (h : Levels next carry goal limit s b queue seen level) {k : ℕ}
    (hk : ∀ e ∈ queue, k ≤ e.dist) {n : ℕ} {v : α} {c : β} (hwalk : Walk next carry s b n v c)
    (hn : n ≤ k) (hlimit : (n : ℤ) ≤ limit) : v ∈ seen ∧ level v ≤ n := by
  induction hwalk with
  | start => exact ⟨h.start_seen, Nat.le_of_eq ((h.level_eq_zero s h.start_seen).mpr rfl)⟩
  | @edge n u v c k' hwalk hmem ih =>
    obtain ⟨hu, hlevel⟩ := ih (by omega) (by omega)
    have hout : u ∉ nodes queue := by
      intro hin
      obtain ⟨e, he, rfl⟩ := List.mem_map.mp hin
      have hdist := hk e he
      rw [h.level_of_queue e he] at hlevel
      omega
    obtain ⟨hv, hnext⟩ := h.spread u hu hout (by omega) _ hmem
    dsimp only at hv hnext
    exact ⟨hv, by omega⟩

theorem head_le (h : Levels next carry goal limit s b (e :: queue) seen level) :
    ∀ x ∈ queue, e.dist ≤ x.dist :=
  fun _ hx => List.rel_of_pairwise_cons h.sorted hx

theorem level_le_head (h : Levels next carry goal limit s b (e :: queue) seen level) {u : α}
    (hu : u ∈ seen) (hout : u ∉ nodes queue) : level u ≤ e.dist := by
  by_cases hhead : u = e.node
  · exact Nat.le_of_eq (hhead ▸ h.level_of_queue e List.mem_cons_self)
  · exact h.behind u hu (by simp [hhead, hout]) e List.mem_cons_self

/-- The node at the head is on no shorter walk. -/
theorem head_least (h : Levels next carry goal limit s b (e :: queue) seen level) (hpos : 0 < e.dist)
    {n : ℕ} {c : β} (hwalk : Walk next carry s b n e.node c) : e.dist ≤ n := by
  by_contra hlt
  have hhead : ∀ e' ∈ e :: queue, e.dist ≤ e'.dist := by
    intro e' he'
    rcases List.mem_cons.mp he' with rfl | he'
    · exact Nat.le_refl _
    · exact h.head_le e' he'
  have hbound := h.bounded e List.mem_cons_self hpos
  obtain ⟨-, hlevel⟩ := h.of_walk hhead hwalk (by omega) (by omega)
  rw [h.level_of_queue e List.mem_cons_self] at hlevel
  omega

theorem head_ne_start (h : Levels next carry goal limit s b (e :: queue) seen level) (hpos : 0 < e.dist) :
    e.node ≠ s := by
  intro hs
  have hzero := (h.level_eq_zero _ (h.seen_of_queue e List.mem_cons_self)).mpr hs
  rw [h.level_of_queue e List.mem_cons_self] at hzero
  omega

theorem out_of_queue (h : Levels next carry goal limit s b (e :: queue) seen level) :
    e.node ∉ nodes queue := by
  have hnodup := h.nodup
  rw [nodes_cons, List.nodup_cons] at hnodup
  exact hnodup.1

theorem goal_of_head (h : Levels next carry goal limit s b (e :: queue) seen level)
    (hpop : ¬(e.node = goal ∧ 0 < e.dist)) (hgoal : goal = e.node) : goal = s := by
  have hzero : e.dist = 0 := by
    by_contra hne
    exact hpop ⟨hgoal.symm, by omega⟩
  rw [hgoal]
  rw [← h.level_of_queue e List.mem_cons_self] at hzero
  exact (h.level_eq_zero _ (h.seen_of_queue e List.mem_cons_self)).mp hzero

/-- A head at the limit leaves the queue. -/
theorem skip (h : Levels next carry goal limit s b (e :: queue) seen level)
    (hpop : ¬(e.node = goal ∧ 0 < e.dist)) (hlimit : limit ≤ e.dist) :
    Levels next carry goal limit s b queue seen level where
  start_seen := h.start_seen
  level_eq_zero := h.level_eq_zero
  seen_of_queue x hx := h.seen_of_queue x (List.mem_cons_of_mem _ hx)
  level_of_queue x hx := h.level_of_queue x (List.mem_cons_of_mem _ hx)
  walk x hx := h.walk x (List.mem_cons_of_mem _ hx)
  bounded x hx := h.bounded x (List.mem_cons_of_mem _ hx)
  nodup := by
    have hnodup := h.nodup
    rw [nodes_cons, List.nodup_cons] at hnodup
    exact hnodup.2
  sorted := h.sorted.of_cons
  close x hx y hy := h.close x (List.mem_cons_of_mem _ hx) y (List.mem_cons_of_mem _ hy)
  behind u hu hout x hx := Nat.le_trans (h.level_le_head hu hout) (h.head_le x hx)
  spread u hu hout hlevel := by
    refine h.spread u hu ?_ hlevel
    rw [nodes_cons, List.mem_cons, not_or]
    refine ⟨?_, hout⟩
    rintro rfl
    rw [h.level_of_queue e List.mem_cons_self] at hlevel
    omega
  answered hseen hout := by
    by_cases hgoal : goal = e.node
    · exact h.goal_of_head hpop hgoal
    · exact h.answered hseen (by simp [hgoal, hout])

variable [DecidableEq α]

/-- The neighbours of a head below the limit are one level on. -/
theorem expand (h : Levels next carry goal limit s b (e :: queue) seen level)
    (hpop : ¬(e.node = goal ∧ 0 < e.dist)) (hlimit : (e.dist : ℤ) < limit) :
    ∃ level', Levels next carry goal limit s b (visit carry e (next e.node) (queue, seen)).1
      (visit carry e (next e.node) (queue, seen)).2 level' := by
  obtain ⟨new, seen', hvisit, hseen, hnodup, hnew, hvs⟩ :=
    visit_spec carry e (next e.node) queue seen
  rw [hvisit]
  have hold : ∀ v ∈ seen, (if v ∈ seen then level v else e.dist + 1) = level v := fun v hv => if_pos hv
  have hadded : ∀ v, v ∉ seen → (if v ∈ seen then level v else e.dist + 1) = e.dist + 1 :=
    fun v hv => if_neg hv
  have hdists : ∀ x ∈ queue ++ new, e.dist ≤ x.dist ∧ x.dist ≤ e.dist + 1 := by
    intro x hx
    rcases List.mem_append.mp hx with hx | hx
    · exact ⟨h.head_le x hx, h.close e List.mem_cons_self x (List.mem_cons_of_mem _ hx)⟩
    · rw [(hnew x hx).1]
      omega
  have hseen_queue : ∀ x ∈ queue, x.node ∈ seen := fun x hx => h.seen_of_queue x (List.mem_cons_of_mem _ hx)
  have hdone : ∀ u ∈ seen', u ∉ nodes (queue ++ new) → u ∈ seen ∧ u ∉ nodes queue := by
    intro u hu hout
    rw [nodes_append, List.mem_append, not_or] at hout
    exact ⟨((hseen u).mp hu).resolve_right hout.2, hout.1⟩
  refine ⟨fun v => if v ∈ seen then level v else e.dist + 1, ?_⟩
  constructor
  case start_seen => exact (hseen s).mpr (.inl h.start_seen)
  case level_eq_zero =>
    intro v _
    by_cases hv : v ∈ seen
    · rw [hold v hv]
      exact h.level_eq_zero v hv
    · rw [hadded v hv]
      refine iff_of_false (by omega) ?_
      rintro rfl
      exact hv h.start_seen
  case seen_of_queue =>
    intro x hx
    rcases List.mem_append.mp hx with hx | hx
    · exact (hseen _).mpr (.inl (hseen_queue x hx))
    · exact (hseen _).mpr (.inr (List.mem_map_of_mem hx))
  case level_of_queue =>
    intro x hx
    rcases List.mem_append.mp hx with hx | hx
    · rw [hold _ (hseen_queue x hx)]
      exact h.level_of_queue x (List.mem_cons_of_mem _ hx)
    · rw [hadded _ (hnew x hx).2.1, (hnew x hx).1]
  case walk =>
    intro x hx
    rcases List.mem_append.mp hx with hx | hx
    · exact h.walk x (List.mem_cons_of_mem _ hx)
    · obtain ⟨hdist, -, k, hk, hcarried⟩ := hnew x hx
      rw [hdist, hcarried]
      exact .edge (h.walk e List.mem_cons_self) hk
  case bounded =>
    intro x hx _
    have hdist := (hdists x hx).2
    omega
  case nodup =>
    have hqueue := h.nodup
    rw [nodes_cons, List.nodup_cons] at hqueue
    rw [nodes_append]
    refine List.nodup_append.mpr ⟨hqueue.2, hnodup, ?_⟩
    intro v hv w hw
    obtain ⟨x, hx, rfl⟩ := List.mem_map.mp hv
    obtain ⟨y, hy, rfl⟩ := List.mem_map.mp hw
    intro heq
    exact (hnew y hy).2.1 (heq ▸ hseen_queue x hx)
  case sorted =>
    refine List.pairwise_append.mpr ⟨h.sorted.of_cons, ?_, ?_⟩
    · refine List.pairwise_of_forall_mem_list ?_
      intro x hx y hy
      exact Nat.le_of_eq ((hnew x hx).1.trans (hnew y hy).1.symm)
    · intro x hx y hy
      rw [(hnew y hy).1]
      exact (hdists x (List.mem_append_left _ hx)).2
  case close =>
    intro x hx y hy
    have hx' := hdists x hx
    have hy' := hdists y hy
    omega
  case behind =>
    intro u hu hout x hx
    obtain ⟨hu', hout'⟩ := hdone u hu hout
    rw [hold u hu']
    exact Nat.le_trans (h.level_le_head hu' hout') (hdists x hx).1
  case spread =>
    intro u hu hout hlevel p hp
    obtain ⟨hu', hout'⟩ := hdone u hu hout
    rw [hold u hu'] at hlevel ⊢
    by_cases hhead : u = e.node
    · subst hhead
      refine ⟨hvs p hp, ?_⟩
      rw [h.level_of_queue e List.mem_cons_self]
      by_cases hv : p.1 ∈ seen
      · rw [hold _ hv]
        by_cases hin : p.1 ∈ nodes queue
        · obtain ⟨x, hx, heq⟩ := List.mem_map.mp hin
          rw [← heq, h.level_of_queue x (List.mem_cons_of_mem _ hx)]
          exact (hdists x (List.mem_append_left _ hx)).2
        · have hle := h.level_le_head hv hin
          omega
      · exact Nat.le_of_eq (hadded _ hv)
    · obtain ⟨hv, hle⟩ := h.spread u hu' (by simp [hhead, hout']) hlevel p hp
      rw [hold _ hv]
      exact ⟨(hseen _).mpr (.inl hv), hle⟩
  case answered =>
    intro hgoal hout
    obtain ⟨hgoal', hout'⟩ := hdone goal hgoal hout
    by_cases hhead : goal = e.node
    · exact h.goal_of_head hpop hhead
    · exact h.answered hgoal' (by simp [hhead, hout'])

/-- What a search answers from a queue with levels. -/
theorem search_spec (h : Levels next carry goal limit s b queue seen level) {fuel : ℕ}
    {r : Option (Entry α β)} (hrun : search next carry goal limit fuel (queue, seen) = some r) :
    (∀ e ∈ r, goal ≠ s ∧ e.node = goal ∧ 0 < e.dist ∧ (e.dist : ℤ) ≤ limit ∧
      Walk next carry s b e.dist goal e.carried ∧ ∀ n c, Walk next carry s b n goal c → e.dist ≤ n) ∧
    (r = none → goal ≠ s → ∀ n c, Walk next carry s b n goal c → limit < n) := by
  induction fuel generalizing queue seen level with
  | zero => simp [search] at hrun
  | succ fuel ih =>
    cases queue with
    | nil =>
      obtain rfl : none = r := by simpa [search] using hrun
      refine ⟨by simp, ?_⟩
      intro _ hne n c hwalk
      by_contra hle
      obtain ⟨hgoal, -⟩ := h.of_walk (k := n) (by simp) hwalk (Nat.le_refl n) (by omega)
      exact hne (h.answered hgoal (by simp))
    | cons e queue =>
      rw [search] at hrun
      split_ifs at hrun with hpop hlimit
      · obtain rfl := Option.some.inj hrun
        obtain ⟨rfl, hpos⟩ := hpop
        refine ⟨?_, by simp⟩
        intro x hx
        obtain rfl := Option.some.inj hx
        exact ⟨h.head_ne_start hpos, rfl, hpos, h.bounded e List.mem_cons_self hpos,
          h.walk e List.mem_cons_self, fun n c hwalk => h.head_least hpos hwalk⟩
      · exact ih (h.skip hpop hlimit) hrun
      · obtain ⟨level', h'⟩ := h.expand hpop (by omega)
        exact ih h' hrun

end Levels

end

/-! ## The end of a search -/

section
variable [DecidableEq α] {next : α → List (α × κ)} {carry : β → κ → β} {goal : α} {limit : ℤ}

def unseen (targets seen : List α) : ℕ := (targets.filter (· ∉ seen)).length

theorem unseen_cons {targets seen : List α} {v : α} (hv : v ∈ targets) (hout : v ∉ seen) :
    unseen targets (v :: seen) + 1 ≤ unseen targets seen := by
  have hsplit : (targets.filter (· ∉ v :: seen)) = (targets.filter (· ∉ seen)).filter (· ≠ v) := by
    rw [List.filter_filter]
    congr 1
    funext w
    simp
  have hmem : v ∈ targets.filter (· ∉ seen) := List.mem_filter.mpr ⟨hv, by simpa using hout⟩
  unfold unseen
  rw [hsplit]
  exact List.length_filter_lt_length_iff_exists.mpr ⟨v, hmem, by simp⟩

theorem visit_length (carry : β → κ → β) (e : Entry α β) {targets : List α} {vs : List (α × κ)}
    (hvs : ∀ p ∈ vs, p.1 ∈ targets) (queue : List (Entry α β)) (seen : List α) :
    (visit carry e vs (queue, seen)).1.length + unseen targets (visit carry e vs (queue, seen)).2 ≤
      queue.length + unseen targets seen := by
  induction vs generalizing queue seen with
  | nil => exact Nat.le_refl _
  | cons p vs ih =>
    obtain ⟨v, k⟩ := p
    have hrest : ∀ p ∈ vs, p.1 ∈ targets := fun p hp => hvs p (List.mem_cons_of_mem _ hp)
    rw [visit]
    split_ifs with hv
    · exact ih hrest queue seen
    · have hlater := ih hrest (queue ++ [⟨v, e.dist + 1, carry e.carried k⟩]) (v :: seen)
      have hcons : unseen targets (v :: seen) + 1 ≤ unseen targets seen :=
        unseen_cons (hvs _ List.mem_cons_self) hv
      rw [List.length_append, List.length_singleton] at hlater
      omega

/-- A search ends: each node comes into the queue once. -/
theorem exists_search {targets : List α} (hnext : ∀ u, ∀ p ∈ next u, p.1 ∈ targets) {fuel : ℕ}
    {queue : List (Entry α β)} {seen : List α} (hfuel : queue.length + unseen targets seen < fuel) :
    ∃ r, search next carry goal limit fuel (queue, seen) = some r := by
  induction fuel generalizing queue seen with
  | zero => omega
  | succ fuel ih =>
    cases queue with
    | nil => exact ⟨none, rfl⟩
    | cons e queue =>
      rw [List.length_cons] at hfuel
      rw [search]
      split_ifs with hpop hlimit
      · exact ⟨some e, rfl⟩
      · exact ih (by omega)
      · have hvisit := visit_length carry e (hnext e.node) queue seen
        exact ih (by omega)

theorem search_mono {fuel fuel' : ℕ} (hle : fuel ≤ fuel') {state : List (Entry α β) × List α}
    {r : Option (Entry α β)} (h : search next carry goal limit fuel state = some r) :
    search next carry goal limit fuel' state = some r := by
  induction fuel generalizing fuel' state with
  | zero => simp [search] at h
  | succ fuel ih =>
    obtain ⟨fuel', rfl⟩ : ∃ k, fuel' = k + 1 := ⟨fuel' - 1, by omega⟩
    obtain ⟨queue, seen⟩ := state
    cases queue with
    | nil => exact h
    | cons e queue =>
      rw [search] at h ⊢
      split_ifs at h ⊢ with hpop hlimit
      · exact h
      · exact ih (by omega) h
      · exact ih (by omega) h

end

end BreadthFirst
