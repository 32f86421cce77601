-- A directed graph whose node indices stay the same while other nodes come and go.
-- The index of a removed node may be used again.
import Mathlib.Data.List.AList
import Mathlib.Data.List.Sort

namespace stable_graph

variable {W : Type}

/-- Nodes by index, and edges as added. An edge may be there twice. -/
structure StableDiGraph (W : Type) where
  nodes : AList (fun _ : Nat => W)
  edges : List (Nat × Nat)

namespace StableDiGraph

def empty : StableDiGraph W := ⟨∅, []⟩

variable (g : StableDiGraph W) (i : Nat)

def node_weight : Option W := g.nodes.lookup i

def node_indices : List Nat := g.nodes.keys.insertionSort (· ≤ ·)

def node_weights : List W := g.node_indices.filterMap g.node_weight

/-- The new node takes the index `i`. The caller gives an index that no
live node has. -/
def add_node (w : W) : StableDiGraph W :=
  { g with nodes := g.nodes.insert i w }

/-- The weight of the live node `i` becomes `w`. -/
def set_weight (w : W) : StableDiGraph W :=
  { g with nodes := g.nodes.insert i w }

def remove_node : StableDiGraph W :=
  ⟨g.nodes.erase i, g.edges.filter fun e => e.1 ≠ i ∧ e.2 ≠ i⟩

def find_edge (a b : Nat) : Bool := (a, b) ∈ g.edges

def add_edge (a b : Nat) : StableDiGraph W :=
  { g with edges := g.edges ++ [(a, b)] }

def remove_outgoing_edges : StableDiGraph W :=
  { g with edges := g.edges.filter fun e => e.1 ≠ i }

/-- The sources of the edges to `i`. -/
def incoming_neighbors : List Nat :=
  (g.edges.filter fun e => e.2 = i).map (·.1)

@[simp] theorem node_weight_empty : (empty : StableDiGraph W).node_weight i = none := rfl

@[simp] theorem edges_empty : (empty : StableDiGraph W).edges = [] := rfl

theorem node_weight_add_node (i j : Nat) (w : W) :
    (g.add_node i w).node_weight j = if j = i then some w else g.node_weight j := by
  by_cases h : j = i
  · subst h
    simp [node_weight, add_node, AList.lookup_insert]
  · simp [node_weight, add_node, AList.lookup_insert_ne h, h]

theorem node_weight_set_weight (i j : Nat) (w : W) :
    (g.set_weight i w).node_weight j = if j = i then some w else g.node_weight j :=
  node_weight_add_node g i j w

theorem node_weight_remove_node (i j : Nat) :
    (g.remove_node i).node_weight j = if j = i then none else g.node_weight j := by
  by_cases h : j = i
  · subst h
    simp [node_weight, remove_node]
  · simp [node_weight, remove_node, AList.lookup_erase_ne h, h]

@[simp] theorem node_weight_add_edge (a b j : Nat) :
    (g.add_edge a b).node_weight j = g.node_weight j := rfl

@[simp] theorem node_weight_remove_outgoing_edges (i j : Nat) :
    (g.remove_outgoing_edges i).node_weight j = g.node_weight j := rfl

@[simp] theorem edges_add_node (w : W) : (g.add_node i w).edges = g.edges := rfl

@[simp] theorem edges_set_weight (w : W) : (g.set_weight i w).edges = g.edges := rfl

variable {e : Nat × Nat} {i : Nat} {g : StableDiGraph W}

theorem mem_edges_remove_node : e ∈ (g.remove_node i).edges ↔ e ∈ g.edges ∧ e.1 ≠ i ∧ e.2 ≠ i := by
  simp [remove_node]

theorem mem_edges_remove_outgoing_edges :
    e ∈ (g.remove_outgoing_edges i).edges ↔ e ∈ g.edges ∧ e.1 ≠ i := by
  simp [remove_outgoing_edges]

theorem mem_incoming_neighbors {a : Nat} : a ∈ g.incoming_neighbors i ↔ (a, i) ∈ g.edges := by
  simp [incoming_neighbors]

theorem mem_node_indices : i ∈ g.node_indices ↔ ∃ w, g.node_weight i = some w := by
  rw [node_indices, List.mem_insertionSort, ← AList.mem_keys, ← AList.lookup_isSome,
    Option.isSome_iff_exists]
  rfl

theorem node_indices_nodup (g : StableDiGraph W) : g.node_indices.Nodup :=
  (List.perm_insertionSort (· ≤ ·) g.nodes.keys).nodup_iff.mpr g.nodes.keys_nodup

end StableDiGraph

end stable_graph
