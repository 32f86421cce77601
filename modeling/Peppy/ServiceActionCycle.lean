-- The search for cycles of service and action calls, in which nodes wait for each
-- other for ever. Topics add no edge.
import Mathlib.Data.List.Sort
import Peppy.Lib.Digraph
import Peppy.NodeConfig

open digraph peppy.node_config List

namespace peppy.service_action_cycle

structure CycleCheckNode where
  name : String
  tag : String
  config : NodeConfig

structure ServiceActionCycle where
  nodes : List String
  closing_dependency : String
  kind : InterfaceKind

structure Edge where
  caller : Nat
  provider : Nat
  kind : InterfaceKind
  label : String

/-- The consumed link ids, with the kind. Services come first. -/
def caller_driven_link_ids (interfaces : Interfaces) : List (String × InterfaceKind) :=
  (interfaces.consumed .Service).map (fun c => (c.link_id, .Service)) ++
    (interfaces.consumed .Action).map (fun c => (c.link_id, .Action))

/-- The position of each identity. A later node stands before an earlier one. -/
def identity_to_index (nodes : List CycleCheckNode) : List ((String × String) × Nat) :=
  (nodes.zipIdx.map fun n => ((n.1.name, n.1.tag), n.2)).reverse

def contract_edges (nodes : List CycleCheckNode) (caller_idx : Nat)
    (caller_driven : List (String × InterfaceKind)) (dep : ContractDependency) : List Edge :=
  match caller_driven.lookup dep.link_id with
  | none => []
  | some kind =>
    (nodes.zipIdx.filter fun provider =>
        node_implements provider.1.config dep.name.as_str dep.tag).map fun provider =>
      ⟨caller_idx, provider.2, kind, dep.name.as_str ++ ":" ++ dep.tag⟩

def node_edges (identity_to_index : List ((String × String) × Nat)) (caller_idx : Nat)
    (caller_driven : List (String × InterfaceKind)) (dep : NodeDependency) : List Edge :=
  match caller_driven.lookup dep.link_id with
  | none => []
  | some kind =>
    match identity_to_index.lookup (dep.name.as_str, dep.tag) with
    | none => []
    | some provider_idx =>
      [⟨caller_idx, provider_idx, kind, dep.name.as_str ++ ":" ++ dep.tag⟩]

/-- The edges of one caller, the body of the loop of
`build_caller_driven_edges`. -/
def caller_edges (nodes : List CycleCheckNode) (identity_to_index : List ((String × String) × Nat))
    (caller : CycleCheckNode) (caller_idx : Nat) : List Edge :=
  let caller_driven := caller_driven_link_ids caller.config.interfaces
  if caller_driven.isEmpty then []
  else
    match caller.config.manifest.depends_on with
    | none => []
    | some depends_on =>
      depends_on.contracts.flatMap (contract_edges nodes caller_idx caller_driven) ++
        depends_on.nodes.flatMap (node_edges identity_to_index caller_idx caller_driven)

def build_caller_driven_edges (nodes : List CycleCheckNode)
    (identity_to_index : List ((String × String) × Nat)) : List Edge :=
  nodes.zipIdx.flatMap fun caller => caller_edges nodes identity_to_index caller.1 caller.2

def label_of (nodes : List CycleCheckNode) (idx : Nat) : String :=
  match nodes[idx]? with
  | some node => node.name ++ ":" ++ node.tag
  | none => ""

/-- `Iterator::min_by_key`: the first of the elements of the least key. -/
def min_by_key {α : Type} (key : α → String × String) : List α → Option α
  | [] => none
  | a :: as =>
    match min_by_key key as with
    | none => some a
    | some m =>
      if (key m).1 < (key a).1 ∨ ((key m).1 = (key a).1 ∧ (key m).2 < (key a).2) then some m
      else some a

/-- The cycle that a strongly connected component holds, if it holds one. -/
def cycle_from_component (members : List Nat) (edges : List Edge)
    (nodes : List CycleCheckNode) : Option ServiceActionCycle :=
  if members.length = 1 ∧
      !(edges.any fun e => members.head? == some e.caller && members.head? == some e.provider) then
    none
  else
    (min_by_key (fun e => (label_of nodes e.caller, label_of nodes e.provider))
        (edges.filter fun e => e.caller ∈ members && e.provider ∈ members)).map fun closing =>
      { nodes := (members.map (label_of nodes)).insertionSort (· ≤ ·)
        closing_dependency := closing.label
        kind := closing.kind }

def has_edge (edges : List Edge) (a b : Nat) : Bool :=
  edges.any fun e => e.caller == a && e.provider == b

/-- The first call cycle, by the components in the order of `tarjan_scc`. -/
def find_service_action_cycle (tarjan_scc : SccAlgorithm Nat) (nodes : List CycleCheckNode) :
    Option ServiceActionCycle :=
  let edges := build_caller_driven_edges nodes (identity_to_index nodes)
  (tarjan_scc.components (List.range nodes.length) (has_edge edges)).findSome? fun members =>
    cycle_from_component members edges nodes

/-! ## What the edges are -/

def calledContracts (config : NodeConfig) : List (String × String) :=
  match config.manifest.depends_on with
  | none => []
  | some depends_on =>
    (depends_on.contracts.filter fun dep =>
        ((caller_driven_link_ids config.interfaces).lookup dep.link_id).isSome).map fun dep =>
      (dep.name.as_str, dep.tag)

def calledNodes (config : NodeConfig) : List (String × String) :=
  match config.manifest.depends_on with
  | none => []
  | some depends_on =>
    (depends_on.nodes.filter fun dep =>
        ((caller_driven_link_ids config.interfaces).lookup dep.link_id).isSome).map fun dep =>
      (dep.name.as_str, dep.tag)

/-- The first node calls the second. -/
def CallEdge (nodes : List CycleCheckNode) (a b : Nat) : Prop :=
  ∃ caller, nodes[a]? = some caller ∧
    ((∃ contract ∈ calledContracts caller.config, ∃ provider, nodes[b]? = some provider ∧
        node_implements provider.config contract.1 contract.2 = true) ∨
      ∃ node ∈ calledNodes caller.config, (identity_to_index nodes).lookup node = some b)

variable {a b i : Nat} {nodes : List CycleCheckNode}

variable {cd : List (String × InterfaceKind)} {ids : List ((String × String) × Nat)}
  {members : List Nat}

theorem mem_contract_edges {dep : ContractDependency} :
    (∃ e ∈ contract_edges nodes i cd dep, e.caller = a ∧ e.provider = b) ↔
    (cd.lookup dep.link_id).isSome ∧ i = a ∧ ∃ provider, nodes[b]? = some provider ∧
        node_implements provider.config dep.name.as_str dep.tag = true := by
  unfold contract_edges
  cases cd.lookup dep.link_id with
  | none => simp
  | some kind =>
    simp only [mem_map, mem_filter, Option.isSome_some, true_and]
    constructor
    · rintro ⟨e, ⟨⟨p, j⟩, ⟨hp, hi⟩, rfl⟩, rfl, rfl⟩
      exact ⟨rfl, p, mem_zipIdx_iff_getElem?.mp hp, hi⟩
    · rintro ⟨rfl, p, hp, hi⟩
      exact ⟨_, ⟨(p, b), ⟨mem_zipIdx_iff_getElem?.mpr hp, hi⟩, rfl⟩, rfl, rfl⟩

theorem mem_node_edges {dep : NodeDependency} :
    (∃ e ∈ node_edges ids i cd dep, e.caller = a ∧ e.provider = b) ↔
    (cd.lookup dep.link_id).isSome ∧ i = a ∧ ids.lookup (dep.name.as_str, dep.tag) = some b := by
  unfold node_edges
  cases cd.lookup dep.link_id with
  | none => simp
  | some kind =>
    cases ids.lookup (dep.name.as_str, dep.tag) with
    | none => simp
    | some j => simp

theorem exists_mem_flatMap_edges {δ : Type} {l : List δ} {f : δ → List Edge} :
    (∃ e ∈ l.flatMap f, e.caller = a ∧ e.provider = b) ↔
      ∃ d ∈ l, ∃ e ∈ f d, e.caller = a ∧ e.provider = b := by
  simp only [mem_flatMap]
  constructor
  · rintro ⟨e, ⟨d, hd, he⟩, h⟩
    exact ⟨d, hd, e, he, h⟩
  · rintro ⟨d, hd, e, he, h⟩
    exact ⟨e, ⟨d, hd, he⟩, h⟩

theorem mem_caller_edges {caller : CycleCheckNode} :
    (∃ e ∈ caller_edges nodes ids caller i, e.caller = a ∧ e.provider = b) ↔
      i = a ∧ ((∃ contract ∈ calledContracts caller.config, ∃ provider, nodes[b]? = some provider ∧
            node_implements provider.config contract.1 contract.2 = true) ∨
        ∃ node ∈ calledNodes caller.config, ids.lookup node = some b) := by
  unfold caller_edges calledContracts calledNodes
  cases hd : caller.config.manifest.depends_on with
  | none => simp
  | some d =>
    -- a caller that calls nothing has no edge by the first test, and none by the loops
    by_cases hcd : (caller_driven_link_ids caller.config.interfaces).isEmpty
    · rw [List.isEmpty_iff] at hcd
      simp [hcd]
    simp only [hcd, Bool.false_eq_true, if_false, mem_append, or_and_right, exists_or,
      exists_mem_flatMap_edges, mem_contract_edges, mem_node_edges, mem_map,
      mem_filter]
    constructor
    · rintro (⟨dep, hdep, hl, rfl, hp⟩ | ⟨dep, hdep, hl, rfl, hp⟩)
      · exact ⟨rfl, .inl ⟨_, ⟨dep, ⟨hdep, hl⟩, rfl⟩, hp⟩⟩
      · exact ⟨rfl, .inr ⟨_, ⟨dep, ⟨hdep, hl⟩, rfl⟩, hp⟩⟩
    · rintro ⟨rfl, ⟨_, ⟨dep, ⟨hdep, hl⟩, rfl⟩, hp⟩ | ⟨_, ⟨dep, ⟨hdep, hl⟩, rfl⟩, hp⟩⟩
      · exact .inl ⟨dep, hdep, hl, rfl, hp⟩
      · exact .inr ⟨dep, hdep, hl, rfl, hp⟩

theorem mem_build_caller_driven_edges :
    (∃ e ∈ build_caller_driven_edges nodes (identity_to_index nodes),
      e.caller = a ∧ e.provider = b) ↔ CallEdge nodes a b := by
  unfold build_caller_driven_edges CallEdge
  rw [exists_mem_flatMap_edges]
  constructor
  · rintro ⟨⟨caller, i⟩, hc, he⟩
    obtain ⟨rfl, h⟩ := mem_caller_edges.mp he
    exact ⟨caller, mem_zipIdx_iff_getElem?.mp hc, h⟩
  · rintro ⟨caller, hc, h⟩
    exact ⟨(caller, a), mem_zipIdx_iff_getElem?.mpr hc, mem_caller_edges.mpr ⟨rfl, h⟩⟩

theorem has_edge_iff :
    has_edge (build_caller_driven_edges nodes (identity_to_index nodes)) a b = true ↔
      CallEdge nodes a b := by
  rw [← mem_build_caller_driven_edges]
  simp [has_edge]

/-! ## What the search finds -/

theorem min_by_key_eq_none {α : Type} {key : α → String × String} {l : List α} :
    min_by_key key l = none ↔ l = [] := by
  cases l with
  | nil => simp [min_by_key]
  | cons a as =>
    simp only [min_by_key, reduceCtorEq, iff_false]
    split
    · simp
    · split <;> simp

theorem identity_lookup_some {id : String × String}
    (h : (identity_to_index nodes).lookup id = some b) :
    ∃ node, nodes[b]? = some node ∧ (node.name, node.tag) = id := by
  obtain ⟨l1, l2, hl, _⟩ := lookup_eq_some_iff.mp h
  have hmem : (id, b) ∈ identity_to_index nodes := by rw [hl]; simp
  simp only [identity_to_index, mem_reverse, mem_map] at hmem
  obtain ⟨⟨node, i⟩, hn, heq⟩ := hmem
  obtain ⟨rfl, rfl⟩ := Prod.mk.inj heq
  exact ⟨node, mem_zipIdx_iff_getElem?.mp hn, rfl⟩

def CycleCheckNode.identity (node : CycleCheckNode) : String × String := (node.name, node.tag)

theorem identity_lookup_of_nodup {node : CycleCheckNode}
    (hu : (nodes.map (·.identity)).Nodup) (hn : node ∈ nodes) :
    ∃ b, nodes[b]? = some node ∧ (identity_to_index nodes).lookup node.identity = some b := by
  obtain ⟨b, hb, hbn⟩ := getElem_of_mem hn
  have hb? : nodes[b]? = some node := List.getElem?_eq_some_iff.mpr ⟨hb, hbn⟩
  refine ⟨b, hb?, ?_⟩
  cases hl : (identity_to_index nodes).lookup node.identity with
  | none =>
    have hmem : (node.identity, b) ∈ identity_to_index nodes := by
      simp only [identity_to_index, mem_reverse, mem_map]
      exact ⟨(node, b), mem_zipIdx_iff_getElem?.mpr hb?, rfl⟩
    have := lookup_eq_none_iff.mp hl _ hmem
    simp at this
  | some b' =>
    obtain ⟨node', hn', hid⟩ := identity_lookup_some hl
    obtain ⟨hb', hbn'⟩ := List.getElem?_eq_some_iff.mp hn'
    have hlen : (nodes.map (·.identity)).length = nodes.length := length_map _
    have hlt' : b' < (nodes.map (·.identity)).length := hlen ▸ hb'
    have hlt : b < (nodes.map (·.identity)).length := hlen ▸ hb
    have hmap : (nodes.map (·.identity))[b'] = (nodes.map (·.identity))[b] := by
      simp only [getElem_map, hbn', hbn]
      exact hid
    rw [(List.Nodup.getElem_inj_iff hu).mp hmap]

theorem callEdge_lt (h : CallEdge nodes a b) : a < nodes.length ∧ b < nodes.length := by
  have hlt : ∀ {i n}, nodes[i]? = some n → i < nodes.length := fun h =>
    (List.getElem?_eq_some_iff.mp h).1
  obtain ⟨caller, hc, ⟨_, _, p, hp, _⟩ | ⟨_, _, hl⟩⟩ := h
  · exact ⟨hlt hc, hlt hp⟩
  · obtain ⟨p, hp, _⟩ := identity_lookup_some hl
    exact ⟨hlt hc, hlt hp⟩

theorem closing_edge_eq_none {key : Edge → String × String} :
    min_by_key key ((build_caller_driven_edges nodes (identity_to_index nodes)).filter
      fun e => e.caller ∈ members && e.provider ∈ members) = none ↔
      ∀ a ∈ members, ∀ b ∈ members, ¬ CallEdge nodes a b := by
  rw [min_by_key_eq_none, filter_eq_nil_iff]
  constructor
  · intro h a ha b hb hab
    obtain ⟨e, he, rfl, rfl⟩ := mem_build_caller_driven_edges.mpr hab
    exact h e he (by simp [ha, hb])
  · intro h e he hin
    simp only [Bool.and_eq_true, decide_eq_true_eq] at hin
    exact h _ hin.1 _ hin.2 (mem_build_caller_driven_edges.mp ⟨e, he, rfl, rfl⟩)

theorem cycle_from_component_eq_none
    (hin : ∀ a ∈ members, ∀ b ∈ members, a ≠ b → ∃ c ∈ members, CallEdge nodes a c) :
    cycle_from_component members (build_caller_driven_edges nodes (identity_to_index nodes))
      nodes = none ↔ ¬ Cyclic (CallEdge nodes) members := by
  unfold cycle_from_component
  split
  · rename_i hone
    obtain ⟨hlen, hself⟩ := hone
    obtain ⟨a, rfl⟩ := length_eq_one_iff.mp hlen
    have hno : ¬ CallEdge nodes a a := by
      intro h
      obtain ⟨e, he, hc, hp⟩ := mem_build_caller_driven_edges.mpr h
      simp only [head?_cons, Bool.not_eq_true', List.any_eq_false] at hself
      exact hself e he (by simp [hc, hp])
    simp [Cyclic, hno]
  · rw [Option.map_eq_none_iff, closing_edge_eq_none]
    constructor
    · rintro h (⟨a, ha, b, hb, hne⟩ | ⟨a, ha, haa⟩)
      · obtain ⟨c, hc, hac⟩ := hin a ha b hb hne
        exact h a ha c hc hac
      · exact h a ha a ha haa
    · intro h a ha b hb hab
      rcases eq_or_ne a b with rfl | hne
      · exact h (.inr ⟨a, ha, hab⟩)
      · exact h (.inl ⟨a, ha, b, hb, hne⟩)

/-- The search finds no cycle exactly when there is none. -/
theorem find_service_action_cycle_eq_none {tarjan_scc : SccAlgorithm Nat} :
    find_service_action_cycle tarjan_scc nodes = none ↔ Acyclic (CallEdge nodes) := by
  have hrange : ∀ a b, CallEdge nodes a b →
      a ∈ List.range nodes.length ∧ b ∈ List.range nodes.length := fun a b h => by
    simpa using callEdge_lt h
  have hscc : IsScc (List.range nodes.length) (CallEdge nodes)
      (tarjan_scc.components (List.range nodes.length)
        (has_edge (build_caller_driven_edges nodes (identity_to_index nodes)))) := by
    have := tarjan_scc.correct (List.range nodes.length)
      (has_edge (build_caller_driven_edges nodes (identity_to_index nodes)))
      fun a b h => hrange a b (has_edge_iff.mp h)
    simpa only [has_edge_iff] using this
  rw [hscc.acyclic_iff hrange, find_service_action_cycle, findSome?_eq_none_iff]
  refine forall₂_congr fun members hm => cycle_from_component_eq_none ?_
  -- inside a component the walk to another member starts with an edge inside it
  intro a ha b hb hne
  rcases (hscc.strong members hm a ha b (hscc.within members hm b hb)).mp hb with rfl | ⟨hab, hba⟩
  · exact absurd rfl hne
  · exact hscc.next_inside hrange hm ha hab hba

end peppy.service_action_cycle
