-- The laws of the wiring. A node that names a dependency has an edge to it when it is
-- in the stack, and waits for it when it is not.
import Peppy.Lib.Runs
import Peppy.NodeStack

open digraph stable_graph runs List
open peppy.node_config peppy.pairing peppy.supervision peppy.entity peppy.service_action_cycle

namespace peppy.node_stack

open NodeStackInner StableDiGraph

/-! ## The relation -/

/-- The node depends on the key. -/
def Needs (s : NodeStackInner) (i : Nat) (k : NodeKey) : Prop :=
  ∃ h, s.graph.node_weight i = some h ∧ k ∈ dependency_keys h.entity.config

/-- The node waits for the key. -/
def Waits (s : NodeStackInner) (k : NodeKey) (i : Nat) : Prop :=
  ∃ l, s.pending_requirements k = some l ∧ i ∈ l

/-- No entry of the pending requirements is empty or names a node twice. -/
def PendingOk (s : NodeStackInner) : Prop :=
  ∀ k l, s.pending_requirements k = some l → l.Nodup ∧ l ≠ []

/-- The root depends on nothing. -/
def RootFree (s : NodeStackInner) : Prop :=
  ∀ i h, s.graph.node_weight i = some h → key_from_entity h.entity = s.root_key →
    dependency_keys h.entity.config = []

/-- The edges are the dependencies that are met. -/
structure Wired (s : NodeStackInner) : Prop where
  keys : ∀ k i, s.key_to_index k = some i ↔
    ∃ h, s.graph.node_weight i = some h ∧ key_from_entity h.entity = k
  edges : ∀ a b, (a, b) ∈ s.graph.edges ↔ ∃ k, Needs s a k ∧ s.key_to_index k = some b
  edges_nodup : s.graph.edges.Nodup
  pending : ∀ k i, Waits s k i ↔ Needs s i k ∧ s.key_to_index k = none
  pending_ok : PendingOk s
  root_free : RootFree s

/-- Only edges and pending requirements differ. -/
structure SameNodes (s s' : NodeStackInner) : Prop where
  keys : s'.key_to_index = s.key_to_index
  nodes : s'.graph.nodes = s.graph.nodes
  root : s'.root_key = s.root_key
  pairs : s'.pairing_registry = s.pairing_registry

theorem SameNodes.refl (s : NodeStackInner) : SameNodes s s := ⟨rfl, rfl, rfl, rfl⟩

variable {s : NodeStackInner} {k : NodeKey} {i j : Nat} {fresh : Fresh} {entity : NodeEntity}
  {allow : Bool} {tarjan_scc : SccAlgorithm Nat}

theorem SameNodes.trans {t u : NodeStackInner} (h : SameNodes s t) (h' : SameNodes t u) :
    SameNodes s u :=
  ⟨h'.keys.trans h.keys, h'.nodes.trans h.nodes, h'.root.trans h.root, h'.pairs.trans h.pairs⟩

variable {s' : NodeStackInner}

theorem SameNodes.node_weight (h : SameNodes s s') (i : Nat) :
    s'.graph.node_weight i = s.graph.node_weight i := by
  simp only [StableDiGraph.node_weight, h.nodes]

theorem SameNodes.needs (h : SameNodes s s') (i : Nat) (k : NodeKey) :
    Needs s' i k ↔ Needs s i k := by
  simp only [Needs, h.node_weight]

/-! ## The pending requirements -/

theorem waits_clear : Waits (s.clear_pending_requirements_for i) k j ↔ Waits s k j ∧ j ≠ i := by
  cases h : s.pending_requirements k with
  | none => simp [Waits, clear_pending_requirements_for, h]
  | some l =>
    simp only [Waits, clear_pending_requirements_for, h]
    split
    · rename_i hempty
      rw [List.isEmpty_iff, filter_eq_nil_iff] at hempty
      simp only [reduceCtorEq, false_and, exists_false, false_iff, not_and]
      rintro ⟨l', hl', hj⟩ hne
      cases hl'
      exact hempty j hj (by simpa using hne)
    · simp

theorem pendingOk_clear (h : PendingOk s) : PendingOk (s.clear_pending_requirements_for i) := by
  intro k l hl
  simp only [clear_pending_requirements_for] at hl
  cases hp : s.pending_requirements k with
  | none => simp [hp] at hl
  | some p =>
    simp only [hp] at hl
    split at hl
    · cases hl
    · rename_i hne
      cases hl
      exact ⟨(h k p hp).1.filter _, by simpa [List.isEmpty_iff] using hne⟩

variable (s i)

theorem sameNodes_clear : SameNodes s (s.clear_pending_requirements_for i) := ⟨rfl, rfl, rfl, rfl⟩

theorem edges_clear : (s.clear_pending_requirements_for i).graph.edges = s.graph.edges := rfl

variable {s i}

variable {key : NodeKey} {b0 : Nat} {handle : EntityHandle} {res : Except Error Unit} {r : RootNode}

theorem waits_register :
    Waits (s.register_pending_requirement key i) k j ↔ Waits s k j ∨ (k = key ∧ j = i) := by
  unfold Waits register_pending_requirement
  by_cases hk : k = key
  · subst hk
    cases hp : s.pending_requirements k with
    | none => simp
    | some p =>
      by_cases hi : i ∈ p
      · simp only [Function.update_self, Option.getD_some, hi, if_true, Option.some.injEq,
          exists_eq_left', true_and]
        exact ⟨.inl, fun h => h.elim id fun h => h ▸ hi⟩
      · simp [hi]
  · simp [hk]

theorem pendingOk_register (h : PendingOk s) :
    PendingOk (s.register_pending_requirement key i) := by
  intro k l hl
  by_cases hk : k = key
  · subst hk
    simp only [register_pending_requirement, Function.update_self, Option.some.injEq] at hl
    subst hl
    have hnd : ((s.pending_requirements k).getD []).Nodup := by
      cases hp : s.pending_requirements k with
      | none => simp
      | some p => exact (h k p hp).1
    split
    · rename_i hi
      exact ⟨hnd, ne_nil_of_mem hi⟩
    · rename_i hi
      exact ⟨nodup_append.mpr ⟨hnd, by simp, by rintro a ha b hb rfl; simp_all⟩, by simp⟩
  · simp only [register_pending_requirement, Function.update_of_ne hk] at hl
    exact h k l hl

variable (s key)

theorem sameNodes_register (i : Nat) :
    SameNodes s (s.register_pending_requirement key i) := ⟨rfl, rfl, rfl, rfl⟩

/-! ## The edges -/

variable {s}

/-- `try_attach_edge` answers whether the key is there, and then so is the edge. -/
theorem try_attach_edge_some {b : Nat} (h : s.key_to_index k = some b) :
    ∃ s', s.try_attach_edge i k = (true, s') ∧ SameNodes s s' ∧
      s'.pending_requirements = s.pending_requirements ∧
    (∀ e, e ∈ s'.graph.edges ↔ e ∈ s.graph.edges ∨ e = (i, b)) ∧
    (s.graph.edges.Nodup → s'.graph.edges.Nodup) := by
  simp only [try_attach_edge, h]
  split
  · rename_i hin
    have hin : (i, b) ∈ s.graph.edges := by simpa [find_edge] using hin
    refine ⟨s, rfl, SameNodes.refl s, rfl, fun e => ?_, id⟩
    exact ⟨.inl, fun he => he.elim id fun he => he ▸ hin⟩
  · rename_i hnot
    have hnot : (i, b) ∉ s.graph.edges := by simpa [find_edge] using hnot
    refine ⟨_, rfl, ⟨rfl, rfl, rfl, rfl⟩, rfl, fun e => by simp [add_edge], fun hnd => ?_⟩
    exact nodup_append.mpr ⟨hnd, by simp, by rintro a ha b hb rfl; simp_all⟩

theorem attach_spec (keys : List NodeKey) (s : NodeStackInner) :
    let s' := keys.foldl (attach_dependency i) s
    SameNodes s s' ∧
      (∀ a b, (a, b) ∈ s'.graph.edges ↔
        (a, b) ∈ s.graph.edges ∨ (a = i ∧ ∃ k ∈ keys, s.key_to_index k = some b)) ∧
      (∀ k j, Waits s' k j ↔
        Waits s k j ∨ (j = i ∧ k ∈ keys ∧ s.key_to_index k = none)) ∧
      (s.graph.edges.Nodup → s'.graph.edges.Nodup) ∧ (PendingOk s → PendingOk s') := by
  induction keys generalizing s with
  | nil => exact ⟨SameNodes.refl s, by simp, by simp, id, id⟩
  | cons key keys ih =>
    simp only [foldl_cons]
    cases hk : s.key_to_index key with
    | none =>
      -- the key is not in the stack, so the node waits for it
      have hstep : attach_dependency i s key = s.register_pending_requirement key i := by
        simp [attach_dependency, try_attach_edge, hk]
      rw [hstep]
      obtain ⟨hsame, hedges, hwaits, hnd, hok⟩ := ih (s.register_pending_requirement key i)
      have hkeys := (sameNodes_register s key i).keys
      refine ⟨(sameNodes_register s key i).trans hsame, fun a b => ?_, fun k j => ?_, hnd,
        fun h => hok (pendingOk_register h)⟩
      · rw [hedges, hkeys]
        refine or_congr Iff.rfl (and_congr_right fun _ => ?_)
        simp [hk]
      rw [hwaits, waits_register, hkeys]
      constructor
      · rintro ((h | ⟨rfl, rfl⟩) | ⟨rfl, h1, h2⟩)
        · exact .inl h
        · exact .inr ⟨rfl, by simp, hk⟩
        · exact .inr ⟨rfl, by simp [h1], h2⟩
      · rintro (h | ⟨rfl, h1, h2⟩)
        · exact .inl (.inl h)
        · rcases mem_cons.mp h1 with rfl | h1
          · exact .inl (.inr ⟨rfl, rfl⟩)
          · exact .inr ⟨rfl, h1, h2⟩
    | some b0 =>
      obtain ⟨t, ht, hst, hpt, het, hndt⟩ := try_attach_edge_some (i := i) hk
      have hstep : attach_dependency i s key = t := by simp [attach_dependency, ht]
      rw [hstep]
      obtain ⟨hsame, hedges, hwaits, hnd, hok⟩ := ih t
      refine ⟨hst.trans hsame, fun a b => ?_, fun k j => ?_, fun h => hnd (hndt h), fun h => ?_⟩
      · rw [hedges, het, hst.keys]
        simp only [Prod.mk.injEq, mem_cons, exists_eq_or_imp, hk, Option.some.injEq, or_assoc]
        refine or_congr Iff.rfl ?_
        rw [and_or_left, eq_comm (a := b)]
      · rw [hwaits, hst.keys]
        simp only [Waits, hpt]
        refine or_congr Iff.rfl (and_congr_right fun _ => ?_)
        constructor
        · rintro ⟨h1, h2⟩
          exact ⟨by simp [h1], h2⟩
        rintro ⟨h1, h2⟩
        rcases mem_cons.mp h1 with rfl | h1
        · rw [hk] at h2
          cases h2
        · exact ⟨h1, h2⟩
      · apply hok
        intro k l hl
        exact h k l (hpt ▸ hl)

/-- The node is wired anew, and the other nodes stay. -/
theorem rewire_spec {h : EntityHandle} (hi : s.graph.node_weight i = some h) :
    let s' := s.rewire_dependencies i
    SameNodes s s' ∧
      (∀ a b, (a, b) ∈ s'.graph.edges ↔
        (a ≠ i ∧ (a, b) ∈ s.graph.edges) ∨
          (a = i ∧ ∃ k ∈ dependency_keys h.entity.config, s.key_to_index k = some b)) ∧
      (∀ k j, Waits s' k j ↔
        (j ≠ i ∧ Waits s k j) ∨
          (j = i ∧ k ∈ dependency_keys h.entity.config ∧ s.key_to_index k = none)) ∧
      (s.graph.edges.Nodup → s'.graph.edges.Nodup) ∧ (PendingOk s → PendingOk s') := by
  set t : NodeStackInner := { s with graph := s.graph.remove_outgoing_edges i } with ht
  have hst : SameNodes s t := ⟨rfl, rfl, rfl, rfl⟩
  have hrw : s.rewire_dependencies i = (dependency_keys h.entity.config).foldl
      (attach_dependency i) (t.clear_pending_requirements_for i) := by
    simp only [rewire_dependencies, attach_dependencies, node_weight_remove_outgoing_edges, hi, ht]
  obtain ⟨hsame, hedges, hwaits, hnd, hok⟩ :=
    attach_spec (i := i) (dependency_keys h.entity.config) (t.clear_pending_requirements_for i)
  rw [← hrw] at hsame hedges hwaits hnd hok
  refine ⟨hst.trans ((sameNodes_clear t i).trans hsame), fun a b => ?_, fun k j => ?_,
    fun hs => hnd (hs.filter _), fun hs => hok (pendingOk_clear hs)⟩
  · rw [hedges, edges_clear, ht, mem_edges_remove_outgoing_edges, and_comm]
    rfl
  · rw [hwaits, waits_clear, and_comm]
    rfl

theorem attach_pending_spec (pending : List Nat)
    (s : NodeStackInner) (remaining : List Nat) (hk : s.key_to_index key = some b0) :
    ∃ s', attach_pending key pending s remaining = (s', remaining) ∧ SameNodes s s' ∧
      s'.pending_requirements = s.pending_requirements ∧
    (∀ a b, (a, b) ∈ s'.graph.edges ↔ (a, b) ∈ s.graph.edges ∨ (a ∈ pending ∧ b = b0)) ∧
    (s.graph.edges.Nodup → s'.graph.edges.Nodup) := by
  induction pending generalizing s with
  | nil => exact ⟨s, rfl, SameNodes.refl s, rfl, by simp, id⟩
  | cons j pending ih =>
    obtain ⟨t, ht, hst, hpt, het, hndt⟩ := try_attach_edge_some (i := j) hk
    obtain ⟨s', hs', hsame, hp, he, hnd⟩ := ih t (by rw [hst.keys]; exact hk)
    refine ⟨s', by simp [attach_pending, ht, hs'], hst.trans hsame, hp.trans hpt, fun a b => ?_,
      fun h => hnd (hndt h)⟩
    rw [he, het]
    simp only [Prod.mk.injEq, mem_cons, or_assoc]
    refine or_congr Iff.rfl ?_
    rw [or_and_right]

variable {key}

theorem resolve_spec (hk : s.key_to_index key = some b0) :
    let s' := s.resolve_pending_requirements key
    SameNodes s s' ∧
      (∀ a b, (a, b) ∈ s'.graph.edges ↔ (a, b) ∈ s.graph.edges ∨ (Waits s key a ∧ b = b0)) ∧
      (∀ k j, Waits s' k j ↔ Waits s k j ∧ k ≠ key) ∧
      (s.graph.edges.Nodup → s'.graph.edges.Nodup) ∧ (PendingOk s → PendingOk s') := by
  cases hp : s.pending_requirements key with
  | none =>
    have hrs : s.resolve_pending_requirements key = s := by
      simp [resolve_pending_requirements, hk, hp]
    have hnone : ∀ j, ¬ Waits s key j := fun j ⟨l, hl, _⟩ => by simp [hp] at hl
    rw [hrs]
    refine ⟨SameNodes.refl s, fun a b => by simp [hnone], fun k j => ?_, id, id⟩
    exact ⟨fun h => ⟨h, fun hkk => hnone j (hkk ▸ h)⟩, And.left⟩
  | some pending =>
    set t : NodeStackInner :=
      { s with pending_requirements := Function.update s.pending_requirements key none } with ht
    obtain ⟨s', hs', hsame, hp', he, hnd⟩ := attach_pending_spec key pending t [] hk
    have hrs : s.resolve_pending_requirements key = s' := by
      simp [resolve_pending_requirements, hk, hp, ← ht, hs']
    rw [hrs]
    refine ⟨⟨hsame.keys, hsame.nodes, hsame.root, hsame.pairs⟩, fun a b => ?_, fun k j => ?_,
      hnd, fun hok k l hl => ?_⟩
    · rw [he]
      simp [Waits, hp, ht]
    · simp only [Waits, hp', ht]
      by_cases hkk : k = key
      · simp [hkk]
      · simp [hkk]
    · rw [hp', ht] at hl
      by_cases hkk : k = key
      · simp [hkk] at hl
      · exact hok k l (by simpa [hkk] using hl)

/-! ## The operations keep the wiring -/

theorem Wired.key_of_live (h : Wired s) (hi : s.graph.node_weight i = some handle) :
    s.key_to_index (key_from_entity handle.entity) = some i :=
  (h.keys _ _).mpr ⟨handle, hi, rfl⟩

theorem Wired.live_of_key (h : Wired s) (hk : s.key_to_index k = some i) :
    ∃ handle, s.graph.node_weight i = some handle ∧ key_from_entity handle.entity = k :=
  (h.keys k i).mp hk

def withNode (s : NodeStackInner) (entity : NodeEntity) (fresh : Fresh) : NodeStackInner :=
  { s with
    graph := s.graph.add_node fresh.index ⟨fresh.arc, entity⟩
    key_to_index := Function.update s.key_to_index (key_from_entity entity) (some fresh.index) }

variable (s entity)

theorem insert_new_entity_eq (fresh : Fresh) : s.insert_new_entity entity fresh =
      ((withNode s entity fresh).rewire_dependencies fresh.index).resolve_pending_requirements
        (key_from_entity entity) := rfl

theorem node_weight_withNode (fresh : Fresh) (j : Nat) :
    (withNode s entity fresh).graph.node_weight j =
      if j = fresh.index then some ⟨fresh.arc, entity⟩ else s.graph.node_weight j :=
  node_weight_add_node s.graph fresh.index j _

theorem key_withNode (fresh : Fresh) (k : NodeKey) : (withNode s entity fresh).key_to_index k =
      if k = key_from_entity entity then some fresh.index else s.key_to_index k := by
  unfold withNode
  simp only [Function.update_apply]

variable {s entity}

theorem needs_withNode : Needs (withNode s entity fresh) j k ↔
    (j = fresh.index ∧ k ∈ dependency_keys entity.config) ∨ (j ≠ fresh.index ∧ Needs s j k) := by
  unfold Needs
  rw [node_weight_withNode]
  by_cases hj : j = fresh.index <;> simp [hj]

/-- A new node takes the place that its key had among the pending
requirements. -/
theorem insert_spec (entity : NodeEntity) (fresh : Fresh) :
    let s' := s.insert_new_entity entity fresh
    SameNodes (withNode s entity fresh) s' ∧
      (∀ a b, (a, b) ∈ s'.graph.edges ↔
        (a ≠ fresh.index ∧ ((a, b) ∈ s.graph.edges ∨
          (Waits s (key_from_entity entity) a ∧ b = fresh.index))) ∨
        (a = fresh.index ∧ ∃ k ∈ dependency_keys entity.config,
          (withNode s entity fresh).key_to_index k = some b)) ∧
      (∀ k j, Waits s' k j ↔
        (j ≠ fresh.index ∧ Waits s k j ∧ k ≠ key_from_entity entity) ∨
        (j = fresh.index ∧ k ∈ dependency_keys entity.config ∧
          (withNode s entity fresh).key_to_index k = none)) ∧
      (s.graph.edges.Nodup → s'.graph.edges.Nodup) ∧ (PendingOk s → PendingOk s') := by
  have hlive : (withNode s entity fresh).graph.node_weight fresh.index =
      some ⟨fresh.arc, entity⟩ := by simp [node_weight_withNode]
  have hkey : (withNode s entity fresh).key_to_index (key_from_entity entity) =
      some fresh.index := by simp [key_withNode]
  obtain ⟨hs1, he1, hw1, hn1, ho1⟩ := rewire_spec hlive
  have hkey1 : ((withNode s entity fresh).rewire_dependencies fresh.index).key_to_index
      (key_from_entity entity) = some fresh.index := by
    rw [hs1.keys]
    exact hkey
  obtain ⟨hs2, he2, hw2, hn2, ho2⟩ := resolve_spec hkey1
  rw [← insert_new_entity_eq] at hs2 he2 hw2 hn2 ho2
  have hwaits : ∀ k j, Waits (withNode s entity fresh) k j ↔ Waits s k j := fun _ _ => Iff.rfl
  refine ⟨hs1.trans hs2, fun a b => ?_, fun k j => ?_, fun h => hn2 (hn1 h), fun h => ho2 (ho1 h)⟩
  · rw [he2, he1, hw1, hkey]
    simp only [reduceCtorEq, and_false, or_false, hwaits]
    rw [or_right_comm, and_assoc, ← and_or_left]
    rfl
  · rw [hw2, hw1, hwaits]
    constructor
    · rintro ⟨⟨hne, hw⟩ | ⟨rfl, hd, hk⟩, hkk⟩
      · exact .inl ⟨hne, hw, hkk⟩
      · exact .inr ⟨rfl, hd, hk⟩
    rintro (⟨hne, hw, hkk⟩ | ⟨rfl, hd, hk⟩)
    · exact ⟨.inl ⟨hne, hw⟩, hkk⟩
    · refine ⟨.inr ⟨rfl, hd, hk⟩, ?_⟩
      rintro rfl
      rw [hkey] at hk
      cases hk

theorem wired_insert (h : Wired s) (hfresh : s.graph.node_weight fresh.index = none)
    (hkey : s.key_to_index (key_from_entity entity) = none)
    (hroot : key_from_entity entity = s.root_key → dependency_keys entity.config = []) :
    Wired (s.insert_new_entity entity fresh) := by
  obtain ⟨hs, he, hw, hn, ho⟩ := insert_spec (s := s) entity fresh
  refine ⟨fun k i => ?_, fun a b => ?_, hn h.edges_nodup, fun k i => ?_, ho h.pending_ok,
    fun i handle hi hr => ?_⟩
  · rw [hs.keys, key_withNode]
    simp only [hs.node_weight, node_weight_withNode]
    by_cases hk : k = key_from_entity entity
    · rw [if_pos hk, Option.some.injEq]
      constructor
      · rintro rfl
        exact ⟨_, if_pos rfl, hk.symm⟩
      rintro ⟨handle, hh, hkk⟩
      by_contra hne
      rw [if_neg (Ne.symm hne)] at hh
      rw [← hk, ← hkk, h.key_of_live hh] at hkey
      cases hkey
    · rw [if_neg hk, h.keys]
      by_cases hi : i = fresh.index
      · rw [if_pos hi, hi, hfresh]
        simp only [reduceCtorEq, false_and, exists_false, Option.some.injEq, exists_eq_left',
          false_iff]
        exact fun hkk => hk hkk.symm
      · rw [if_neg hi]
  · rw [he, hs.keys]
    simp only [hs.needs, needs_withNode]
    by_cases ha : a = fresh.index
    · simp [ha]
    simp only [ha, ne_eq, not_false_eq_true, true_and, false_and, or_false, false_or,
      key_withNode, h.edges, h.pending]
    constructor
    · rintro (⟨k, hk, hb⟩ | ⟨⟨hk, _⟩, rfl⟩)
      · refine ⟨k, hk, ?_⟩
        rw [if_neg]
        · exact hb
        · rintro rfl
          rw [hkey] at hb
          cases hb
      · exact ⟨_, hk, if_pos rfl⟩
    · rintro ⟨k, hk, hb⟩
      by_cases hkk : k = key_from_entity entity
      · subst hkk
        rw [if_pos rfl] at hb
        exact .inr ⟨⟨hk, hkey⟩, (Option.some.inj hb).symm⟩
      · rw [if_neg hkk] at hb
        exact .inl ⟨k, hk, hb⟩
  · rw [hw, hs.needs, needs_withNode, hs.keys, h.pending, key_withNode]
    by_cases hi : i = fresh.index
    · simp [hi]
    · by_cases hk : k = key_from_entity entity
      · simp [hk, hi]
      · simp [hk, hi]
  · rw [hs.node_weight, node_weight_withNode] at hi
    rw [hs.root] at hr
    by_cases hii : i = fresh.index
    · rw [if_pos hii] at hi
      cases hi
      exact hroot hr
    · rw [if_neg hii] at hi
      exact h.root_free i handle hi hr

theorem node_weight_replace (s : NodeStackInner) (i : Nat) (handle : EntityHandle)
    (entity : NodeEntity) (j : Nat) : (s.replace_entity i handle entity).graph.node_weight j =
      if j = i then some { handle with entity } else s.graph.node_weight j :=
  node_weight_set_weight s.graph i j _

theorem needs_replace : Needs (s.replace_entity i handle entity) j k ↔
    (j = i ∧ k ∈ dependency_keys entity.config) ∨ (j ≠ i ∧ Needs s j k) := by
  unfold Needs
  rw [node_weight_replace]
  by_cases hj : j = i <;> simp [hj]

section Replace

variable {s : NodeStackInner} {i : Nat} {handle : EntityHandle} {entity : NodeEntity}

theorem keys_replace (h : Wired s) (hi : s.graph.node_weight i = some handle)
    (hkey : key_from_entity entity = key_from_entity handle.entity) : s.key_to_index k = some j ↔
      ∃ handle', (s.replace_entity i handle entity).graph.node_weight j = some handle' ∧
        key_from_entity handle'.entity = k := by
  rw [h.keys, node_weight_replace]
  by_cases hj : j = i
  · subst hj
    simp [hi, hkey]
  · rw [if_neg hj]

theorem rootFree_replace (h : Wired s)
    (hroot : key_from_entity entity = s.root_key → dependency_keys entity.config = []) :
    RootFree (s.replace_entity i handle entity) := by
  intro j handle' hj hr
  rw [node_weight_replace] at hj
  by_cases hji : j = i
  · rw [if_pos hji] at hj
    cases hj
    exact hroot hr
  · rw [if_neg hji] at hj
    exact h.root_free j handle' hj hr

theorem wired_replace (h : Wired s) (hi : s.graph.node_weight i = some handle)
    (hkey : key_from_entity entity = key_from_entity handle.entity)
    (hdeps : dependency_keys entity.config = dependency_keys handle.entity.config) :
    Wired (s.replace_entity i handle entity) := by
  have hneeds : ∀ j k, Needs (s.replace_entity i handle entity) j k ↔ Needs s j k := by
    intro j k
    rw [needs_replace, hdeps]
    by_cases hj : j = i
    · subst hj
      simp [Needs, hi]
    · simp [hj]
  refine ⟨fun k j => keys_replace h hi hkey, fun a b => ?_, h.edges_nodup, fun k j => ?_,
    h.pending_ok, rootFree_replace h fun hr => ?_⟩
  · simp only [hneeds]
    exact h.edges a b
  · rw [hneeds]
    exact h.pending k j
  · rw [hdeps]
    exact h.root_free i handle hi (hkey ▸ hr)

theorem wired_replace_rewire (h : Wired s) (hi : s.graph.node_weight i = some handle)
    (hkey : key_from_entity entity = key_from_entity handle.entity)
    (hroot : key_from_entity entity = s.root_key → dependency_keys entity.config = []) :
    Wired ((s.replace_entity i handle entity).rewire_dependencies i) := by
  have hlive : (s.replace_entity i handle entity).graph.node_weight i =
      some { handle with entity } := by simp [node_weight_replace]
  obtain ⟨hs, he, hw, hn, ho⟩ := rewire_spec hlive
  have hfree : RootFree (s.replace_entity i handle entity) := rootFree_replace h hroot
  refine ⟨fun k j => ?_, fun a b => ?_, hn h.edges_nodup, fun k j => ?_, ho h.pending_ok,
    fun j handle' hj hr => ?_⟩
  · rw [hs.keys]
    simp only [hs.node_weight]
    exact keys_replace h hi hkey
  · rw [he, hs.keys]
    simp only [hs.needs, needs_replace]
    have hold : (a, b) ∈ (s.replace_entity i handle entity).graph.edges ↔
        ∃ k, Needs s a k ∧ s.key_to_index k = some b := h.edges a b
    by_cases ha : a = i
    · simp [ha]
    · simp only [ha, hold, ne_eq, not_false_eq_true, true_and, false_and, or_false, false_or]
      rfl
  · rw [hw, hs.needs, needs_replace, hs.keys]
    have hold : Waits (s.replace_entity i handle entity) k j ↔
        Needs s j k ∧ s.key_to_index k = none := h.pending k j
    by_cases hj : j = i
    · simp [hj]
    · simp only [hj, hold, ne_eq, not_false_eq_true, true_and, false_and, or_false, false_or]
      rfl
  · rw [hs.node_weight] at hj
    rw [hs.root] at hr
    exact hfree j handle' hj hr

end Replace

theorem waits_register_all (key : NodeKey) (dependants : List Nat) (s : NodeStackInner) :
    let s' := dependants.foldl (fun s d => s.register_pending_requirement key d) s
    SameNodes s s' ∧ s'.graph.edges = s.graph.edges ∧
      (∀ k j, Waits s' k j ↔ Waits s k j ∨ (k = key ∧ j ∈ dependants)) ∧
      (PendingOk s → PendingOk s') := by
  induction dependants generalizing s with
  | nil => exact ⟨SameNodes.refl s, rfl, by simp, id⟩
  | cons d dependants ih =>
    obtain ⟨hs, he, hw, ho⟩ := ih (s.register_pending_requirement key d)
    refine ⟨(sameNodes_register s key d).trans hs, he, fun k j => ?_,
      fun h => ho (pendingOk_register h)⟩
    simp only [foldl_cons]
    rw [hw, waits_register, or_assoc, ← and_or_left, mem_cons]

theorem wired_remove (h : Wired s) (key : NodeKey) : Wired (s.remove_entity key) := by
  cases hk : s.key_to_index key with
  | none => simpa [remove_entity, hk] using h
  | some i =>
    set t : NodeStackInner :=
      { s with
        key_to_index := Function.update s.key_to_index key none
        graph := s.graph.remove_node i } with ht
    obtain ⟨hs1, he1, hw1, ho1⟩ := waits_register_all key
      ((s.graph.incoming_neighbors i).filter (· ≠ i)) (t.clear_pending_requirements_for i)
    have heq : s.remove_entity key =
        ((s.graph.incoming_neighbors i).filter (· ≠ i)).foldl
          (fun s d => s.register_pending_requirement key d)
          (t.clear_pending_requirements_for i) := by
      simp [remove_entity, hk, ← ht]
    rw [← heq] at hs1 he1 hw1 ho1
    have hs := (sameNodes_clear t i).trans hs1
    have htw : ∀ j, t.graph.node_weight j = if j = i then none else s.graph.node_weight j :=
      node_weight_remove_node s.graph i
    have htk : ∀ k, t.key_to_index k = if k = key then none else s.key_to_index k :=
      Function.update_apply _ _ _
    have hneeds : ∀ j k, Needs t j k ↔ j ≠ i ∧ Needs s j k := by
      intro j k
      unfold Needs
      rw [htw]
      by_cases hj : j = i <;> simp [hj]
    -- the key of the removed node is the only key at its index
    have honly : ∀ k, s.key_to_index k = some i → k = key := by
      intro k hki
      obtain ⟨handle, hh, rfl⟩ := h.live_of_key hk
      obtain ⟨handle', hh', rfl⟩ := h.live_of_key hki
      rw [hh] at hh'
      cases hh'
      rfl
    refine ⟨fun k j => ?_, fun a b => ?_, ?_, fun k j => ?_, ho1 (pendingOk_clear h.pending_ok),
      fun j handle hj hr => ?_⟩
    · rw [hs.keys, htk]
      simp only [hs.node_weight, htw]
      by_cases hj : j = i
      · subst hj
        simp only [if_true, reduceCtorEq, false_and, exists_false, iff_false]
        split
        · simp
        · rename_i hne
          exact fun hkj => hne (honly k hkj)
      · rw [if_neg hj, ← h.keys]
        split
        · rename_i heq
          subst heq
          simp only [reduceCtorEq, hk, Option.some.injEq, false_iff]
          exact fun hij => hj hij.symm
        · rfl
    · rw [he1, edges_clear, hs.keys]
      simp only [hs.needs, hneeds, htk]
      rw [show t.graph.edges = (s.graph.remove_node i).edges from rfl, mem_edges_remove_node,
        h.edges]
      constructor
      · rintro ⟨⟨k, hn, hkb⟩, ha, hb⟩
        refine ⟨k, ⟨ha, hn⟩, ?_⟩
        rw [if_neg]
        · exact hkb
        · rintro rfl
          rw [hk] at hkb
          exact hb (Option.some.inj hkb).symm
      · rintro ⟨k, ⟨ha, hn⟩, hkb⟩
        by_cases hkk : k = key
        · rw [if_pos hkk] at hkb
          cases hkb
        · rw [if_neg hkk] at hkb
          refine ⟨⟨k, hn, hkb⟩, ha, ?_⟩
          rintro rfl
          exact hkk (honly k hkb)
    · rw [he1]
      exact h.edges_nodup.filter _
    · rw [hw1, waits_clear, hs.needs, hneeds, hs.keys, htk]
      have hold : Waits t k j ↔ Needs s j k ∧ s.key_to_index k = none := h.pending k j
      rw [hold]
      simp only [mem_filter, mem_incoming_neighbors, h.edges, decide_eq_true_eq]
      by_cases hkk : k = key
      · subst hkk
        simp only [hk, reduceCtorEq, and_false, false_and, false_or, true_and, if_true, and_true]
        constructor
        · rintro ⟨⟨k', hn, hk'⟩, hj⟩
          rw [honly k' hk'] at hn
          exact ⟨hj, hn⟩
        · rintro ⟨hj, hn⟩
          exact ⟨⟨k, hn, hk⟩, hj⟩
      · simp only [hkk, if_false, false_and, or_false]
        tauto
    · rw [hs.node_weight, htw] at hj
      rw [hs.root] at hr
      by_cases hji : j = i
      · rw [if_pos hji] at hj
        cases hj
      · rw [if_neg hji] at hj
        exact h.root_free j handle hj hr

theorem wired_single (i : Nat) (handle : EntityHandle)
    (hw : ∀ j, s.graph.node_weight j = if j = i then some handle else none)
    (hk : ∀ k, s.key_to_index k = if k = key_from_entity handle.entity then some i else none)
    (he : s.graph.edges = []) (hp : ∀ k, s.pending_requirements k = none)
    (hd : dependency_keys handle.entity.config = []) : Wired s := by
  have hneeds : ∀ j k, ¬ Needs s j k := by
    rintro j k ⟨handle', hh, hmem⟩
    rw [hw] at hh
    split at hh
    · cases hh
      rw [hd] at hmem
      cases hmem
    · cases hh
  refine ⟨fun k j => ?_, fun a b => by simp [he, hneeds], by simp [he], fun k j => ?_,
    fun k l hl => ?_, fun j handle' hj _ => ?_⟩
  · rw [hk, hw]
    by_cases hj : j = i
    · subst hj
      simp [eq_comm]
    · simp [hj, Ne.symm hj]
  · simp [hneeds, Waits, hp]
  · simp [hp] at hl
  rw [hw] at hj
  split at hj
  · cases hj
    exact hd
  · cases hj

theorem wired_clear {index : Nat} (h : Wired s) (hc : s.clear index = some s') : Wired s' := by
  unfold NodeStackInner.clear at hc
  split at hc
  · cases hc
  rename_i handle hroot
  cases hc
  unfold NodeStackInner.find at hroot
  obtain ⟨i, hk, hi⟩ := Option.bind_eq_some_iff.mp hroot
  obtain ⟨handle', hi', hkey⟩ := h.live_of_key hk
  rw [hi] at hi'
  cases hi'
  refine wired_single index handle (fun j => ?_) (fun k => ?_) rfl
    (fun _ => rfl) (h.root_free i handle hi hkey)
  · rw [node_weight_add_node]
    rfl
  · rw [hkey]
    simp only [Function.update_apply]

/-! ## Push -/

theorem push_entity_cases
    (h : s.push_entity tarjan_scc entity allow fresh = some (res, s')) : s' = s ∨
    (res = .ok () ∧ key_from_entity entity ≠ s.root_key ∧
        s.key_to_index (key_from_entity entity) = none ∧
        s.validate_candidate tarjan_scc entity allow = .ok () ∧
        s' = s.insert_new_entity entity fresh) ∨
      ∃ i handle, res = .ok () ∧ key_from_entity entity ≠ s.root_key ∧
        s.key_to_index (key_from_entity entity) = some i ∧ s.graph.node_weight i = some handle ∧
        ((s.validate_candidate tarjan_scc entity allow = .ok () ∧
            s' = (s.replace_entity i handle entity).rewire_dependencies i) ∨
          (handle.entity.config.interfaces = entity.config.interfaces ∧
            dependency_keys handle.entity.config = dependency_keys entity.config ∧
            s' = s.replace_entity i handle entity)) := by
  unfold push_entity at h
  simp only at h
  split at h
  · cases h
    exact .inl rfl
  rename_i hroot
  have hroot : key_from_entity entity ≠ s.root_key := by
    intro hr
    exact hroot (by simp [is_root, hr])
  split at h
  · rename_i hk
    split at h
    · cases h
      exact .inl rfl
    · rename_i hv
      cases h
      exact .inr (.inl ⟨rfl, hroot, hk, hv, rfl⟩)
  · rename_i i hk
    split at h
    · cases h
      exact .inl rfl
    rename_i handle hi
    split at h
    · cases h
      exact .inl rfl
    split at h
    · cases h
      exact .inl rfl
    split at h
    · split at h
      · cases h
      split at h
      · cases h
        exact .inl rfl
      · rename_i hv
        cases h
        exact .inr (.inr ⟨i, handle, rfl, hroot, hk, hi, .inl ⟨hv, rfl⟩⟩)
    · rename_i hsame
      rw [not_or, not_not, not_not] at hsame
      cases h
      exact .inr (.inr ⟨i, handle, rfl, hroot, hk, hi,
        Or.inr ⟨hsame.1, hsame.2, rfl⟩⟩)

theorem push_entity_error {err : Error}
    (h : s.push_entity tarjan_scc entity allow fresh = some (.error err, s')) : s' = s := by
  rcases push_entity_cases h with h | ⟨h, _⟩ | ⟨_, _, h, _⟩
  · exact h
  · cases h
  · cases h

theorem wired_push (h : Wired s) (hfresh : s.graph.node_weight fresh.index = none)
    (hp : s.push_entity tarjan_scc entity allow fresh = some (res, s')) : Wired s' := by
  rcases push_entity_cases hp with rfl | ⟨_, hroot, hk, _, rfl⟩ | ⟨i, handle, _, hroot, hk, hi, hc⟩
  · exact h
  · exact wired_insert h hfresh hk fun hr => absurd hr hroot
  obtain ⟨handle', hi', hkey⟩ := h.live_of_key hk
  rw [hi] at hi'
  cases hi'
  rcases hc with ⟨_, rfl⟩ | ⟨_, hdeps, rfl⟩
  · exact wired_replace_rewire h hi hkey.symm fun hr => absurd hr hroot
  · exact wired_replace h hi hkey.symm hdeps.symm

/-! ## Runs -/

/-- The operations inside the stack. A node may get a new stage. -/
inductive InnerOp where
  | push_entity (entity : NodeEntity) (allow_missing_dependencies : Bool) (fresh : Fresh)
  | remove_entity (key : NodeKey)
  | clear (index : Nat)
  | set_stage (index : Nat) (stage : NodeStage)

def NodeStackInner.set_stage (s : NodeStackInner) (index : Nat) (stage : NodeStage) :
    NodeStackInner :=
  match s.graph.node_weight index with
  | none => s
  | some handle => s.replace_entity index handle { handle.entity with stage }

/-- The graph gives a new node an index that no live node has. -/
def innerStep (tarjan_scc : SccAlgorithm Nat) (s : NodeStackInner) : InnerOp → Option NodeStackInner
  | .push_entity entity allow fresh =>
    match s.graph.node_weight fresh.index with
    | some _ => none
    | none => (s.push_entity tarjan_scc entity allow fresh).map (·.2)
  | .remove_entity key => some (s.remove_entity key)
  | .clear index => s.clear index
  | .set_stage index stage => some (s.set_stage index stage)

theorem wired_set_stage (h : Wired s) (index : Nat) (stage : NodeStage) :
    Wired (s.set_stage index stage) := by
  unfold NodeStackInner.set_stage
  split
  · exact h
  · rename_i handle hi
    exact wired_replace h hi rfl rfl

theorem wired_step (s : NodeStackInner) (op : InnerOp)
    (s' : NodeStackInner) (h : Wired s) (hs : innerStep tarjan_scc s op = some s') : Wired s' := by
  cases op with
  | push_entity entity allow fresh =>
    simp only [innerStep] at hs
    split at hs
    · cases hs
    · rename_i hfresh
      obtain ⟨⟨res, t⟩, ht, rfl⟩ := Option.map_eq_some_iff.mp hs
      exact wired_push h hfresh ht
  | remove_entity key =>
    cases hs
    exact wired_remove h key
  | clear index => exact wired_clear h hs
  | set_stage index stage =>
    cases hs
    exact wired_set_stage h index stage

theorem RootNode.dependency_keys (r : RootNode) :
    node_stack.dependency_keys r.entity.config = [] := by
  simp [node_stack.dependency_keys, collect_dependency_specs, RootNode.entity, NodeEntity.root,
    r.no_dependencies]

theorem wired_empty (root_key : NodeKey) : Wired (NodeStackInner.empty root_key) := by
  refine ⟨fun k i => ?_, fun a b => ?_, ?_, fun k i => ?_, fun k l hl => ?_, fun i h hi => ?_⟩
  all_goals simp_all [NodeStackInner.empty, Needs, Waits]

theorem wired_new (h : NodeStackInner.new tarjan_scc r fresh = some s) : Wired s := by
  unfold NodeStackInner.new at h
  simp only at h
  split at h
  · cases h
  · cases h
    exact wired_insert (wired_empty _) rfl rfl fun _ => r.dependency_keys

theorem wired_run {s₀ : NodeStackInner} {ops : List InnerOp}
    (h₀ : NodeStackInner.new tarjan_scc r fresh = some s₀)
    (h : run (innerStep tarjan_scc) s₀ ops = some s) : Wired s :=
  run_keeps wired_step (wired_new h₀) h

/-- In every run keys and live indices are one to one, an edge stands exactly for a
dependency in the stack, and a pending requirement for one that is not. A push that fails
changes nothing. -/
theorem the_wiring_follows_the_manifests (tarjan_scc : SccAlgorithm Nat) (r : RootNode)
    (fresh : Fresh) (s₀ s : NodeStackInner) (ops : List InnerOp)
    (h₀ : NodeStackInner.new tarjan_scc r fresh = some s₀)
    (h : run (innerStep tarjan_scc) s₀ ops = some s) :
    (Set.BijOn s.key_to_index {k | s.key_to_index k ≠ none}
        {o | ∃ i handle, o = some i ∧ s.graph.node_weight i = some handle} ∧
      ∀ k i, s.key_to_index k = some i →
        ∃ handle, s.graph.node_weight i = some handle ∧ key_from_entity handle.entity = k) ∧
    ((∀ d k, (d, k) ∈ s.graph.edges ↔ ∃ hd hk, s.graph.node_weight d = some hd ∧
        s.graph.node_weight k = some hk ∧
        key_from_entity hk.entity ∈ dependency_keys hd.entity.config) ∧
      s.graph.edges.Nodup) ∧
    (∀ key, (∀ i, (∃ l, s.pending_requirements key = some l ∧ i ∈ l) ↔ s.key_to_index key = none ∧
        ∃ handle, s.graph.node_weight i = some handle ∧
          key ∈ dependency_keys handle.entity.config) ∧
      ∀ l, s.pending_requirements key = some l → l.Nodup ∧ l ≠ []) ∧
    (∀ entity allow fresh err s',
      s.push_entity tarjan_scc entity allow fresh = some (.error err, s') → s' = s) := by
  have hw : Wired s := wired_run h₀ h
  refine ⟨⟨⟨?_, ?_, ?_⟩, fun k i hk => hw.live_of_key hk⟩, ⟨fun d k => ?_, hw.edges_nodup⟩,
    fun key => ⟨fun i => ?_, fun l hl => hw.pending_ok key l hl⟩,
    fun entity allow fresh err s' hp => push_entity_error hp⟩
  · intro k hk
    obtain ⟨i, hi⟩ := Option.ne_none_iff_exists'.mp hk
    obtain ⟨handle, hh, _⟩ := hw.live_of_key hi
    exact ⟨i, handle, hi, hh⟩
  · intro k hk k' _ heq
    obtain ⟨i, hi⟩ := Option.ne_none_iff_exists'.mp hk
    obtain ⟨handle, hh, rfl⟩ := hw.live_of_key hi
    obtain ⟨handle', hh', rfl⟩ := hw.live_of_key (heq ▸ hi)
    rw [hh] at hh'
    cases hh'
    rfl
  · rintro _ ⟨i, handle, rfl, hh⟩
    have hk := hw.key_of_live hh
    exact ⟨_, by simp [hk], hk⟩
  · rw [hw.edges]
    constructor
    · rintro ⟨key, ⟨hd, hhd, hmem⟩, hk⟩
      obtain ⟨hk', hhk, rfl⟩ := hw.live_of_key hk
      exact ⟨hd, hk', hhd, hhk, hmem⟩
    · rintro ⟨hd, hk, hhd, hhk, hmem⟩
      exact ⟨_, ⟨hd, hhd, hmem⟩, hw.key_of_live hhk⟩
  · exact (hw.pending key i).trans and_comm

def coreRoot : RootNode where
  config := { manifest := { name := { as_str := "core" }, tag := "v1" } }
  root := { instance_id := { as_str := "core" }, cell := 0, state := .Running, incarnation := 0 }
  generation := 0
  no_dependencies := rfl

def cameraConfig : NodeConfig where
  manifest := { name := { as_str := "camera" }, tag := "v1" }
  interfaces := { topics := some { emits := some [.Native "frames" "u8"] } }

def brainConfig : NodeConfig where
  manifest :=
    { name := { as_str := "brain" }
      tag := "v1"
      depends_on := some
        { nodes := [{ name := { as_str := "camera" }, tag := "v1", link_id := "cam",
                      cardinality := .One }] } }
  interfaces :=
    { topics := some { consumes := some [{ link_id := "cam", name := "frames" }] } }

def cameraRun : List InnerOp :=
  [.push_entity (.new brainConfig 1) true ⟨1, 1⟩, .push_entity (.new cameraConfig 2) false ⟨2, 2⟩,
    .remove_entity (.new "camera" "v1"), .push_entity (.new cameraConfig 3) false ⟨2, 3⟩]

theorem the_wiring_of_a_camera_that_rejoins :
    ∃ s₀ s, NodeStackInner.new walkScc coreRoot ⟨0, 0⟩ = some s₀ ∧
      run (innerStep walkScc) s₀ cameraRun = some s ∧ s.graph.edges = [(1, 2)] ∧
      (∀ d k, (d, k) ∈ s.graph.edges ↔ ∃ hd hk, s.graph.node_weight d = some hd ∧
        s.graph.node_weight k = some hk ∧
        key_from_entity hk.entity ∈ dependency_keys hd.entity.config) := by
  obtain ⟨s₀, h₀⟩ : ∃ s₀, NodeStackInner.new walkScc coreRoot ⟨0, 0⟩ = some s₀ :=
    ⟨_, rfl⟩
  obtain ⟨s, hs, he⟩ : ∃ s, run (innerStep walkScc) s₀ cameraRun = some s ∧
      s.graph.edges = [(1, 2)] := by
    cases h₀
    exact ⟨_, rfl, rfl⟩
  exact ⟨s₀, s, h₀, hs, he,
    (the_wiring_follows_the_manifests walkScc coreRoot ⟨0, 0⟩ s₀ s cameraRun h₀ hs).2.1.1⟩

end peppy.node_stack
