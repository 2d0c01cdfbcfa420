import Mathlib.Data.List.Induction
import SocTalk.Lib.BreadthFirst

/-! Routes over the topology of a tenant's network. -/
namespace SocTalk.Campaign
open BreadthFirst

/-- A row of `topology_edges`, as far as the search reads it. -/
structure TopologyEdge where
  tenantId : String
  srcHost : String
  dstHost : String
  adjacency : String
  supersededAt : Option ℕ

structure AttackPath where
  pathExists : Bool
  hops : Option ℕ
  anyObserved : Bool
  deriving DecidableEq

section
variable (rows : List TopologyEdge) (tenantId : String)

def liveEdges : List TopologyEdge :=
  rows.filter fun e => e.tenantId = tenantId && e.supersededAt.isNone

/-- The dictionary of the neighbours, with what links them. -/
def adj (edges : List TopologyEdge) : String → List (String × String) :=
  edges.foldl (fun adj e host =>
    if host = e.srcHost then adj host ++ [(e.dstHost, e.adjacency)] else adj host) fun _ => []

def observes (obs : Bool) (kind : String) : Bool := obs || kind == "observed"

/-- The loop ends within the fuel, or there is no answer. -/
def attackPathExists (lower : String → String) (fromHost toHost : String) (maxHops : ℤ) (fuel : ℕ) :
    Option AttackPath :=
  let start := lower fromHost
  let goal := lower toHost
  (search (adj (liveEdges rows tenantId)) observes goal maxHops fuel ([⟨start, 0, false⟩], [start])).map
    fun
    | some e => ⟨true, some e.dist, e.carried⟩
    | none => ⟨false, none, false⟩

end

/-! ## Routes -/

/-- The edges lead one after another from a host to a host. -/
def Leads : String → List TopologyEdge → String → Prop
  | a, [], b => a = b
  | a, e :: es, b => e.srcHost = a ∧ Leads e.dstHost es b

/-- A walk over live edges. -/
structure Route (edges : List TopologyEdge) (a : String) (es : List TopologyEdge) (b : String) : Prop where
  live : es ⊆ edges
  leads : Leads a es b

/-- A route of at least one and at most so many edges. -/
def Within (edges : List TopologyEdge) (a b : String) (maxHops : ℤ) (es : List TopologyEdge) : Prop :=
  Route edges a es b ∧ 1 ≤ es.length ∧ (es.length : ℤ) ≤ maxHops

/-- A path is reported exactly if there is one, with the least number of edges. -/
def Faithful (edges : List TopologyEdge) (a b : String) (maxHops : ℤ) (r : AttackPath) : Prop :=
  (r.pathExists = true ↔ ∃ es, Within edges a b maxHops es) ∧
    (r.pathExists = true → ∃ n, r.hops = some n ∧ (∃ es, Within edges a b maxHops es ∧ es.length = n) ∧
      ∀ es, Within edges a b maxHops es → n ≤ es.length) ∧
    (r.pathExists = false → r.hops = none)

theorem leads_concat {a b : String} {es : List TopologyEdge} {e : TopologyEdge} :
    Leads a (es ++ [e]) b ↔ Leads a es e.srcHost ∧ e.dstHost = b := by
  induction es generalizing a with
  | nil => simp [Leads, eq_comm]
  | cons x es ih => rw [List.cons_append, Leads, ih, Leads, and_assoc]

theorem mem_adj {edges : List TopologyEdge} {host dst kind : String} :
    (dst, kind) ∈ adj edges host ↔
      ∃ e ∈ edges, e.srcHost = host ∧ e.dstHost = dst ∧ e.adjacency = kind := by
  have hfold : ∀ acc : String → List (String × String), (dst, kind) ∈ edges.foldl (fun adj e host =>
      if host = e.srcHost then adj host ++ [(e.dstHost, e.adjacency)] else adj host) acc host ↔
      (dst, kind) ∈ acc host ∨ ∃ e ∈ edges, e.srcHost = host ∧ e.dstHost = dst ∧ e.adjacency = kind := by
    induction edges with
    | nil => simp
    | cons e edges ih =>
      intro acc
      rw [List.foldl_cons, ih, List.exists_mem_cons_iff]
      by_cases hhost : host = e.srcHost
      · rw [if_pos hhost, List.mem_append, List.mem_singleton, Prod.mk.injEq]
        constructor
        · rintro ((h | ⟨rfl, rfl⟩) | h)
          · exact .inl h
          · exact .inr (.inl ⟨hhost.symm, rfl, rfl⟩)
          · exact .inr (.inr h)
        · rintro (h | ⟨-, rfl, rfl⟩ | h)
          · exact .inl (.inl h)
          · exact .inl (.inr ⟨rfl, rfl⟩)
          · exact .inr h
      · rw [if_neg hhost]
        have hnot : ¬(e.srcHost = host ∧ e.dstHost = dst ∧ e.adjacency = kind) := fun h => hhost h.1.symm
        simp [hnot]
  rw [adj, hfold]
  simp

section
variable {edges : List TopologyEdge} {a b : String}

/-- The walks of the search are the routes, with the flag of the edges gone over. -/
theorem walk_iff {n : ℕ} {obs : Bool} : Walk (adj edges) observes a false n b obs ↔
    ∃ es, Route edges a es b ∧ es.length = n ∧ obs = es.any fun e => e.adjacency == "observed" := by
  constructor
  · intro h
    induction h with
    | start => exact ⟨[], ⟨List.nil_subset _, rfl⟩, rfl, rfl⟩
    | edge _ hmem ih =>
      obtain ⟨es, ⟨hlive, hleads⟩, rfl, rfl⟩ := ih
      obtain ⟨e, he, rfl, rfl, rfl⟩ := mem_adj.mp hmem
      refine ⟨es ++ [e], ⟨?_, leads_concat.mpr ⟨hleads, rfl⟩⟩, by simp, by simp [observes]⟩
      exact List.append_subset.mpr ⟨hlive, by simpa using he⟩
  · rintro ⟨es, ⟨hlive, hleads⟩, rfl, rfl⟩
    induction es using List.reverseRecOn generalizing b with
    | nil =>
      obtain rfl : a = b := hleads
      exact .start
    | append_singleton es e ih =>
      obtain ⟨hleads', rfl⟩ := leads_concat.mp hleads
      obtain ⟨hlive', he⟩ := List.append_subset.mp hlive
      rw [List.length_append, List.length_singleton, List.any_append]
      have hedge := Walk.edge (ih hlive' hleads') (mem_adj.mpr ⟨e, by simpa using he, rfl, rfl, rfl⟩)
      simpa [observes] using hedge

end

/-! ## The search -/

theorem exists_within {edges : List TopologyEdge} {a b : String} {n : ℕ} {obs : Bool} {maxHops : ℤ}
    (h : Walk (adj edges) observes a false n b obs) (hpos : 0 < n) (hle : (n : ℤ) ≤ maxHops) :
    ∃ es, Within edges a b maxHops es ∧ es.length = n := by
  obtain ⟨es, hroute, rfl, -⟩ := walk_iff.mp h
  exact ⟨es, ⟨hroute, hpos, hle⟩, rfl⟩

theorem walk_of_within {edges : List TopologyEdge} {a b : String} {es : List TopologyEdge} {maxHops : ℤ}
    (h : Within edges a b maxHops es) :
    Walk (adj edges) observes a false es.length b (es.any fun e => e.adjacency == "observed") :=
  walk_iff.mpr ⟨es, h.1, rfl, rfl⟩

section
variable (rows : List TopologyEdge) (tenantId : String) (lower : String → String)
  (fromHost toHost : String) (maxHops : ℤ)

/-- The search answers with enough fuel, and with any more alike. -/
theorem exists_answer : ∃ r, ∀ fuel, rows.length + 2 ≤ fuel →
    search (adj (liveEdges rows tenantId)) observes (lower toHost) maxHops fuel
      ([⟨lower fromHost, 0, false⟩], [lower fromHost]) = some r := by
  have hnext : ∀ u, ∀ p ∈ adj (liveEdges rows tenantId) u, p.1 ∈ rows.map TopologyEdge.dstHost := by
    rintro u ⟨dst, kind⟩ hp
    obtain ⟨e, he, -, rfl, -⟩ := mem_adj.mp hp
    exact List.mem_map_of_mem (List.mem_filter.mp he).1
  have hunseen : unseen (rows.map TopologyEdge.dstHost) [lower fromHost] ≤ rows.length := by
    have hlength := List.length_filter_le (· ∉ [lower fromHost]) (rows.map TopologyEdge.dstHost)
    rw [List.length_map] at hlength
    exact hlength
  have hfuel : [(⟨lower fromHost, 0, false⟩ : Entry String Bool)].length +
      unseen (rows.map TopologyEdge.dstHost) [lower fromHost] < rows.length + 2 := by
    rw [List.length_singleton]
    omega
  obtain ⟨r, hr⟩ := exists_search hnext hfuel
  exact ⟨r, fun fuel hle => search_mono hle hr⟩

/-- A path is reported as it is unless it leads back to the host it starts from: the search has seen that
host before it begins. -/
theorem attackPathExists_iff :
    ∃ r, (∀ fuel, rows.length + 2 ≤ fuel →
        attackPathExists rows tenantId lower fromHost toHost maxHops fuel = some r) ∧
      (Faithful (liveEdges rows tenantId) (lower fromHost) (lower toHost) maxHops r ↔
        ¬(lower fromHost = lower toHost ∧
          ∃ es, Within (liveEdges rows tenantId) (lower fromHost) (lower toHost) maxHops es)) := by
  obtain ⟨answer, hanswer⟩ := exists_answer rows tenantId lower fromHost toHost maxHops
  have hspec := levels_start.search_spec (hanswer _ (Nat.le_refl _))
  cases answer with
  | some e =>
    obtain ⟨hne, -, hpos, hlimit, hwalk, hleast⟩ := hspec.1 e rfl
    refine ⟨⟨true, some e.dist, e.carried⟩, ?_, ?_⟩
    · intro fuel hfuel
      rw [attackPathExists, hanswer fuel hfuel]
      rfl
    · have hroute := exists_within hwalk hpos hlimit
      refine iff_of_true ⟨?_, ?_, by simp⟩ fun h => hne h.1.symm
      · exact iff_of_true rfl ⟨_, hroute.choose_spec.1⟩
      · exact fun _ => ⟨e.dist, rfl, hroute, fun es hes => hleast _ _ (walk_of_within hes)⟩
  | none =>
    refine ⟨⟨false, none, false⟩, ?_, ?_⟩
    · intro fuel hfuel
      rw [attackPathExists, hanswer fuel hfuel]
      rfl
    · constructor
      · intro hfaithful h
        have htrue := hfaithful.1.mpr h.2
        simp at htrue
      · intro h
        refine ⟨iff_of_false (by simp) ?_, by simp, by simp⟩
        rintro ⟨es, hes⟩
        by_cases hsame : lower toHost = lower fromHost
        · exact h ⟨hsame.symm, es, hes⟩
        · have hfar := hspec.2 rfl hsame _ _ (walk_of_within hes)
          have hnear := hes.2.2
          omega

variable {rows tenantId lower fromHost toHost maxHops}

/-- The flag is that of one of the routes with the reported number of edges. -/
theorem anyObserved_eq {fuel : ℕ} {r : AttackPath}
    (h : attackPathExists rows tenantId lower fromHost toHost maxHops fuel = some r)
    (hpath : r.pathExists = true) :
    ∃ es, Within (liveEdges rows tenantId) (lower fromHost) (lower toHost) maxHops es ∧
      r.hops = some es.length ∧ r.anyObserved = es.any fun e => e.adjacency == "observed" := by
  obtain ⟨answer, hanswer, rfl⟩ := Option.map_eq_some_iff.mp h
  cases answer with
  | none => simp at hpath
  | some e =>
    obtain ⟨-, -, hpos, hlimit, hwalk, -⟩ := (levels_start.search_spec hanswer).1 e rfl
    obtain ⟨es, hroute, hlength, hobs⟩ := walk_iff.mp hwalk
    rw [← hlength] at hpos hlimit
    exact ⟨es, ⟨hroute, hpos, hlimit⟩, congrArg some hlength.symm, hobs⟩

end

def thereAndBack : List TopologyEdge :=
  [⟨"t", "a", "b", "observed", none⟩, ⟨"t", "b", "a", "observed", none⟩]

/-- The route from a host back to itself is not found. -/
theorem not_faithful_thereAndBack :
    attackPathExists thereAndBack "t" id "a" "a" 5 4 = some ⟨false, none, false⟩ ∧
      ¬Faithful (liveEdges thereAndBack "t") "a" "a" 5 ⟨false, none, false⟩ := by
  refine ⟨rfl, ?_⟩
  have hlive : liveEdges thereAndBack "t" = thereAndBack := rfl
  have hroute : Within (liveEdges thereAndBack "t") "a" "a" 5 thereAndBack := by
    refine ⟨⟨?_, rfl, rfl, rfl⟩, by decide, by decide⟩
    rw [hlive]
    exact List.Subset.refl thereAndBack
  intro hfaithful
  have htrue := hfaithful.1.mpr ⟨thereAndBack, hroute⟩
  simp at htrue

end SocTalk.Campaign
