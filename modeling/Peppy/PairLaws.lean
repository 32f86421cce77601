-- The laws of the pairs. A pair joins two slots of one pairing in two roles, and a
-- slot that takes one pair holds one at most, through every death and return of an
-- instance.
import Peppy.StackOps

open digraph stable_graph runs List
open peppy.node_config peppy.pairing peppy.supervision peppy.entity

namespace peppy.pairing

/-! ## What a pair joins -/

structure Declaration where
  name : String
  tag : String
  role : String
  cardinality : Cardinality
  deriving DecidableEq

variable {p : Pairing} {slot : SlotAddr} {core_node instance_id : String}

namespace Pairing

/-- The slot is an end of the pair. -/
def Holds (p : Pairing) (slot : SlotAddr) : Prop := p.a.slot = slot ∨ p.b.slot = slot

instance (p : Pairing) (slot : SlotAddr) : Decidable (p.Holds slot) :=
  inferInstanceAs (Decidable (_ ∨ _))

/-- The two pairs join the same slots. -/
def Joins (p q : Pairing) : Prop :=
  p.a.slot = q.a.slot ∧ p.b.slot = q.b.slot ∨ p.a.slot = q.b.slot ∧ p.b.slot = q.a.slot

/-- The pair has an end on the instance. -/
def Touches (p : Pairing) (core_node instance_id : String) : Prop :=
  ∃ slot, p.Holds slot ∧ slot.core_node = core_node ∧ slot.instance_id = instance_id

/-- The pair is one of the pairing that both slots declare, with their two
roles. -/
structure Follows (decl : SlotAddr → Declaration) (p : Pairing) : Prop where
  name_a : (decl p.a.slot).name = p.pairing_name
  name_b : (decl p.b.slot).name = p.pairing_name
  tag_a : (decl p.a.slot).tag = p.pairing_tag
  tag_b : (decl p.b.slot).tag = p.pairing_tag
  role_a : (decl p.a.slot).role = p.a.role
  role_b : (decl p.b.slot).role = p.b.role
  roles : p.a.role ≠ p.b.role

theorem endpoint_isSome : (p.endpoint slot).isSome = true ↔ p.Holds slot := by
  unfold endpoint Holds
  by_cases ha : p.a.slot = slot
  · simp [ha]
  · by_cases hb : p.b.slot = slot
    · simp [ha, hb]
    · simp [ha, hb]

theorem is_between_of_joins {q : Pairing} (h : p.Joins q) :
    p.is_between q.a.slot q.b.slot = true := by
  rw [is_between, Bool.and_eq_true, endpoint_isSome, endpoint_isSome]
  rcases h with ⟨ha, hb⟩ | ⟨ha, hb⟩
  · exact ⟨.inl ha, .inr hb⟩
  · exact ⟨.inr hb, .inl ha⟩

theorem involves_iff :
    p.involves core_node instance_id = true ↔ p.Touches core_node instance_id := by
  unfold involves Touches Holds
  simp only [any_cons, any_nil, Bool.or_false, Bool.or_eq_true, Bool.and_eq_true,
    beq_iff_eq]
  constructor
  · rintro (⟨hcore, hid⟩ | ⟨hcore, hid⟩)
    · exact ⟨p.a.slot, .inl rfl, hcore, hid⟩
    · exact ⟨p.b.slot, .inr rfl, hcore, hid⟩
  · rintro ⟨slot, rfl | rfl, hcore, hid⟩
    · exact .inl ⟨hcore, hid⟩
    · exact .inr ⟨hcore, hid⟩

theorem has_live_local_endpoints_iff {is_live : String → Bool} :
    p.has_live_local_endpoints core_node is_live = true ↔
      ∀ id, p.Touches core_node id → is_live id = true := by
  unfold has_live_local_endpoints SlotAddr.is_on
  simp only [all_cons, all_nil, Bool.and_true, Bool.and_eq_true, Bool.or_eq_true,
    Bool.not_eq_true', beq_eq_false_iff_ne]
  constructor
  · rintro ⟨ha, hb⟩ id ⟨slot, rfl | rfl, hcore, rfl⟩
    · exact ha.resolve_left fun hne => hne hcore
    · exact hb.resolve_left fun hne => hne hcore
  intro h
  refine ⟨?_, ?_⟩
  · by_cases hcore : p.a.slot.core_node = core_node
    · exact .inr (h _ ⟨p.a.slot, .inl rfl, hcore, rfl⟩)
    · exact .inl hcore
  · by_cases hcore : p.b.slot.core_node = core_node
    · exact .inr (h _ ⟨p.b.slot, .inr rfl, hcore, rfl⟩)
    · exact .inl hcore

end Pairing

/-! ## The rules of a registry -/

/-- The rules of the pairs of a registry, under the declarations of the
slots. -/
structure Paired (decl : SlotAddr → Declaration) (pairs : List Pairing) : Prop where
  follows : ∀ p ∈ pairs, p.Follows decl
  joins : pairs.Pairwise fun p q => ¬ p.Joins q
  scalar : ∀ slot, (decl slot).cardinality.is_scalar = true →
    pairs.countP (fun p => p.Holds slot) ≤ 1

section
variable {decl : SlotAddr → Declaration} {pairs : List Pairing}

theorem Paired.nil : Paired decl [] := ⟨by simp, .nil, by simp⟩

theorem Paired.sublist {pairs' : List Pairing} (h : Paired decl pairs)
    (hsub : pairs'.Sublist pairs) : Paired decl pairs' :=
  ⟨fun p hp => h.follows p (hsub.subset hp), h.joins.sublist hsub,
    fun slot hslot => hsub.countP_le.trans (h.scalar slot hslot)⟩

theorem countP_holds_of_find_by_slot (h : PairingRegistry.find_by_slot ⟨pairs⟩ slot = none) :
    pairs.countP (fun p => p.Holds slot) = 0 := by
  rw [countP_eq_zero]
  intro p hp hholds
  apply find?_eq_none.mp h p hp
  rw [Pairing.endpoint_isSome]
  simpa using hholds

theorem Paired.insert (h : Paired decl pairs) (hp : p.Follows decl)
    (hfree : PairingRegistry.find_pair ⟨pairs⟩ p.a.slot p.b.slot = none)
    (hscalar : ∀ slot, p.Holds slot → (decl slot).cardinality.is_scalar = true →
      PairingRegistry.find_by_slot ⟨pairs⟩ slot = none) : Paired decl (pairs ++ [p]) := by
  refine ⟨?_, ?_, ?_⟩
  · intro q hq
    rw [mem_append, mem_singleton] at hq
    rcases hq with hq | rfl
    · exact h.follows q hq
    · exact hp
  · rw [pairwise_append]
    refine ⟨h.joins, pairwise_singleton _ _, ?_⟩
    intro q hq q' hq' hjoins
    rw [mem_singleton] at hq'
    subst hq'
    exact find?_eq_none.mp hfree q hq (Pairing.is_between_of_joins hjoins)
  · intro slot hslot
    rw [countP_append, countP_singleton]
    by_cases hholds : p.Holds slot
    · rw [countP_holds_of_find_by_slot (hscalar slot hholds hslot)]
      split <;> omega
    · rw [if_neg (by simpa using hholds)]
      exact h.scalar slot hslot

end

end peppy.pairing

namespace peppy.node_stack

open NodeStackInner

/-! ## The pairs of the stack -/

variable {s : NodeStackInner}

theorem prune_dead_pairs_pairs : s.prune_dead_pairs.pairing_registry.pairs =
      s.pairing_registry.pairs.filter fun pair =>
        pair.has_live_local_endpoints s.root_core_node_name
          fun id => id ∈ s.live_instance_ids_for_pairing := by
  unfold prune_dead_pairs
  split
  · rename_i hempty
    rw [isEmpty_iff.mp hempty]
    rfl
  · rfl

theorem free_of_scalar_slot_taken {r : PairingRegistry} {m : EndpointMeta}
    (h : scalar_slot_taken r slot m = none) (hscalar : m.cardinality.is_scalar = true) :
    r.find_by_slot slot = none := by
  unfold scalar_slot_taken at h
  rw [if_pos hscalar] at h
  split at h
  · assumption
  · cases h

theorem record_pair_cases (s : NodeStackInner) (a : SlotAddr) (dep_a : EndpointMeta)
    (b : SlotAddr) (dep_b : EndpointMeta) : let r := s.prune_dead_pairs.pairing_registry
    let r' := (pair_slots_impl.record_pair s a dep_a b dep_b).2.pairing_registry
    r' = r ∨
      (r.find_pair a b = none ∧ scalar_slot_taken r a dep_a = none ∧
        scalar_slot_taken r b dep_b = none ∧
        r' = r.insert ⟨dep_a.name, dep_a.tag, ⟨a, dep_a.role, dep_a.copy⟩,
          ⟨b, dep_b.role, dep_b.copy⟩⟩) := by
  unfold pair_slots_impl.record_pair
  simp only
  split
  · exact .inl rfl
  rename_i hfree
  split
  · exact .inl rfl
  rename_i ha
  split
  · exact .inl rfl
  · rename_i hb
    exact .inr ⟨hfree, ha, hb, rfl⟩

variable {a b : SlotAddr} {a_remote_meta b_remote_meta : Option RemoteSlotMeta}

theorem pair_slots_impl_cases {a : SlotAddr} :
    (s.pair_slots_impl a a_remote_meta b b_remote_meta).2 = s ∨
      ∃ dep_a dep_b, s.resolve_endpoint_meta a a_remote_meta = .ok dep_a ∧
        s.resolve_endpoint_meta b b_remote_meta = .ok dep_b ∧ dep_a.name = dep_b.name ∧
        dep_a.tag = dep_b.tag ∧ dep_a.role ≠ dep_b.role ∧
        s.pair_slots_impl a a_remote_meta b b_remote_meta =
          pair_slots_impl.record_pair s a dep_a b dep_b := by
  unfold pair_slots_impl
  split
  · exact .inl rfl
  rename_i dep_a ha
  split
  · exact .inl rfl
  rename_i dep_b hb
  split
  · exact .inl rfl
  rename_i hsame
  rw [not_or, not_not, not_not] at hsame
  split
  · exact .inl rfl
  rename_i hrole
  split
  · split
    · exact .inl rfl
    · exact .inr ⟨dep_a, dep_b, ha, hb, hsame.1, hsame.2, hrole, rfl⟩
  · exact .inr ⟨dep_a, dep_b, ha, hb, hsame.1, hsame.2, hrole, rfl⟩

/-- What the call to pair reads of the slot is what the slot declares. -/
def SlotDeclares (decl : SlotAddr → Declaration) (s : NodeStackInner) (slot : SlotAddr)
    (remote_meta : Option RemoteSlotMeta) : Prop :=
  match s.resolve_endpoint_meta slot remote_meta with
  | .error _ => True
  | .ok m => decl slot = ⟨m.name, m.tag, m.role, m.cardinality⟩

/-- Each slot keeps one declaration: the call to pair reads no other. -/
def Declares (decl : SlotAddr → Declaration) (s : NodeStackInner) : Op → Prop
  | .pair_slots a b => SlotDeclares decl s a none ∧ SlotDeclares decl s b none
  | .pair_slot_with_remote own remote remote_meta =>
    SlotDeclares decl s own none ∧ SlotDeclares decl s remote (some remote_meta)
  | _ => True

instance (decl : SlotAddr → Declaration) (s : NodeStackInner) (slot : SlotAddr)
    (remote_meta : Option RemoteSlotMeta) : Decidable (SlotDeclares decl s slot remote_meta) := by
  unfold SlotDeclares
  split <;> infer_instance

instance (decl : SlotAddr → Declaration) (s : NodeStackInner) (op : Op) :
    Decidable (Declares decl s op) := by
  unfold Declares
  split <;> infer_instance

variable {tarjan_scc : SccAlgorithm Nat} {fresh : Fresh}

section
variable {decl : SlotAddr → Declaration} {s s' : NodeStackInner}

theorem paired_prune (h : Paired decl s.pairing_registry.pairs) :
    Paired decl s.prune_dead_pairs.pairing_registry.pairs := by
  rw [prune_dead_pairs_pairs]
  exact h.sublist filter_sublist

theorem dissolve_pairs : s.dissolve_pairs_for_remote_instance core_node instance_id =
      (s.pairing_registry.pairs.filter (·.involves core_node instance_id),
        { s with pairing_registry :=
          ⟨s.pairing_registry.pairs.filter (!·.involves core_node instance_id)⟩ }) := by
  unfold dissolve_pairs_for_remote_instance PairingRegistry.remove_for_instance
  simp only [partition_eq_filter_filter]
  rfl

theorem paired_dissolve (h : Paired decl s.pairing_registry.pairs) : Paired decl
      (s.dissolve_pairs_for_remote_instance core_node instance_id).2.pairing_registry.pairs := by
  rw [dissolve_pairs]
  exact h.sublist filter_sublist

theorem paired_pair_slots_impl (h : Paired decl s.pairing_registry.pairs)
    (ha : SlotDeclares decl s a a_remote_meta) (hb : SlotDeclares decl s b b_remote_meta) :
    Paired decl (s.pair_slots_impl a a_remote_meta b b_remote_meta).2.pairing_registry.pairs := by
  rcases pair_slots_impl_cases with
    heq | ⟨dep_a, dep_b, hdep_a, hdep_b, hname, htag, hrole, heq⟩
  · rw [heq]
    exact h
  rw [heq]
  simp only [SlotDeclares, hdep_a] at ha
  simp only [SlotDeclares, hdep_b] at hb
  rcases record_pair_cases s a dep_a b dep_b with heq | ⟨hfree, hfree_a, hfree_b, heq⟩
  · rw [heq]
    exact paired_prune h
  rw [heq]
  refine (paired_prune h).insert ?_ hfree ?_
  · exact ⟨by rw [ha], by rw [hb]; exact hname.symm, by rw [ha], by rw [hb]; exact htag.symm,
      by rw [ha], by rw [hb], hrole⟩
  rintro slot (rfl | rfl) hscalar
  · rw [ha] at hscalar
    exact free_of_scalar_slot_taken hfree_a hscalar
  · rw [hb] at hscalar
    exact free_of_scalar_slot_taken hfree_b hscalar

theorem pairs_push {entity : NodeEntity} {allow : Bool} {res : Except Error Unit}
    (h : s.push_entity tarjan_scc entity allow fresh = some (res, s')) :
    s'.pairing_registry = s.pairing_registry := by
  rcases push_entity_cases h with rfl | ⟨_, _, _, _, rfl⟩ | ⟨i, handle, _, _, _, hi, hc⟩
  · rfl
  · exact (insert_spec entity fresh).1.pairs
  rcases hc with ⟨_, rfl⟩ | ⟨_, _, rfl⟩
  · have hlive : (s.replace_entity i handle entity).graph.node_weight i =
        some { handle with entity } := by
      rw [node_weight_replace s i handle entity i, if_pos rfl]
    exact (rewire_spec hlive).1.pairs
  · rfl

theorem pairs_remove {key : NodeKey} :
    (s.remove_entity key).pairing_registry = s.pairing_registry := by
  unfold remove_entity
  split
  · rfl
  · exact (waits_register_all key _ _).1.pairs

theorem pairs_clear {index : Nat} (h : s.clear index = some s') :
    s'.pairing_registry.pairs = [] := by
  unfold clear at h
  split at h
  · cases h
  · cases h
    rfl

theorem paired_step {op : Op}
    (h : Paired decl s.pairing_registry.pairs) (hdecl : Declares decl s op)
    (hs : step tarjan_scc s op = some s') : Paired decl s'.pairing_registry.pairs := by
  cases op with
  | push_config | push_built_in =>
    simp only [step] at hs
    split at hs
    · cases hs
    · obtain ⟨⟨res, t⟩, hp, rfl⟩ := Option.map_eq_some_iff.mp hs
      rw [pairs_push hp]
      exact h
  | remove_config name tag =>
    obtain rfl : (s.remove_config name tag).2 = s' := Option.some.inj hs
    rcases remove_config_eq s name tag with heq | ⟨_, heq⟩
    · rw [heq]
      exact h
    · rw [heq, pairs_remove]
      exact h
  | remove_config_if_matches name tag handle generation =>
    obtain rfl : (s.remove_config_if_matches name tag handle generation).2 = s' :=
      Option.some.inj hs
    rcases remove_config_if_matches_eq s name tag handle generation with heq | ⟨_, heq⟩
    · rw [heq]
      exact h
    · rw [heq, pairs_remove]
      exact h
  | reset index =>
    rw [pairs_clear hs]
    exact .nil
  | set_stage index stage =>
    cases hs
    unfold set_stage
    split
    · exact h
    · exact h
  | pair_slots a b | pair_slot_with_remote own remote remote_meta =>
    cases hs
    exact paired_pair_slots_impl h hdecl.1 hdecl.2
  | clear_pair a b =>
    cases hs
    exact h.sublist eraseP_sublist
  | pairs =>
    cases hs
    exact paired_prune h
  | dissolve_pairs_for_instance instance_id
  | dissolve_pairs_for_remote_instance core_node instance_id =>
    cases hs
    exact paired_dissolve h

theorem paired_new {r : RootNode} (h : new tarjan_scc r fresh = some s) :
    Paired decl s.pairing_registry.pairs := by
  unfold new at h
  simp only at h
  split at h
  · cases h
  cases h
  have hpairs : (insert_new_entity (.empty (key_from_entity r.entity)) r.entity
      fresh).pairing_registry.pairs = [] := by
    rw [(insert_spec r.entity fresh).1.pairs]
    rfl
  rw [hpairs]
  exact .nil

end

/-! ## The law of the pairs -/

/-- Of the pairs of `old`, exactly those that meet `leaves` are not in
`new`. -/
def Removes (leaves : Pairing → Prop) (old new : List Pairing) : Prop :=
  new.Sublist old ∧ ∀ p, p ∈ new ↔ p ∈ old ∧ ¬ leaves p

theorem removes_filter {leaves : Pairing → Prop} {pairs : List Pairing} {keep : Pairing → Bool}
    (h : ∀ p, keep p = true ↔ ¬ leaves p) : Removes leaves pairs (pairs.filter keep) :=
  ⟨filter_sublist, fun p => by rw [mem_filter, h]⟩

/-- While each slot keeps one declaration, no two pairs join the same slots, a scalar slot
holds one at most, and each pair is of the pairing of both slots, in two roles. Dissolving
and pruning remove the pairs that they name and no other. -/
theorem the_pairs_keep_to_their_slots (tarjan_scc : SccAlgorithm Nat) (r : RootNode)
    (fresh : Fresh) (s₀ : NodeStackInner) (hnew : NodeStackInner.new tarjan_scc r fresh = some s₀)
    (decl : SlotAddr → Declaration) (ops : List Op)
    (hdecl : Meets (step tarjan_scc) (Declares decl) s₀ ops) (s : NodeStackInner)
    (hrun : run (step tarjan_scc) s₀ ops = some s) :
    (s.pairing_registry.pairs.Pairwise fun p q => ¬ p.Joins q) ∧
    (∀ slot, (decl slot).cardinality.is_scalar = true →
      s.pairing_registry.pairs.countP (fun p => p.Holds slot) ≤ 1) ∧
    (∀ p ∈ s.pairing_registry.pairs, p.Follows decl) ∧
    (∀ core_node instance_id,
      (∀ p, p ∈ (s.dissolve_pairs_for_remote_instance core_node instance_id).1 ↔
        p ∈ s.pairing_registry.pairs ∧ p.Touches core_node instance_id) ∧
      Removes (·.Touches core_node instance_id) s.pairing_registry.pairs
        (s.dissolve_pairs_for_remote_instance core_node instance_id).2.pairing_registry.pairs) ∧
    (∀ instance_id, Removes (·.Touches s.root_core_node_name instance_id) s.pairing_registry.pairs
      (s.dissolve_pairs_for_instance instance_id).2.pairing_registry.pairs) ∧
    Removes (fun p => ∃ id, p.Touches s.root_core_node_name id ∧
        id ∉ s.live_instance_ids_for_pairing)
      s.pairing_registry.pairs s.prune_dead_pairs.pairing_registry.pairs := by
  have h : Paired decl s.pairing_registry.pairs :=
    run_keeps_where (fun _ _ _ h hdecl hs => paired_step h hdecl hs) (paired_new hnew) hdecl hrun
  have hdissolve : ∀ core_node instance_id,
      Removes (·.Touches core_node instance_id) s.pairing_registry.pairs
        (s.dissolve_pairs_for_remote_instance core_node instance_id).2.pairing_registry.pairs := by
    intro core_node instance_id
    rw [dissolve_pairs]
    apply removes_filter
    intro p
    rw [← Pairing.involves_iff]
    simp
  refine ⟨h.joins, h.scalar, h.follows, ?_, fun id => hdissolve _ id, ?_⟩
  · intro core_node instance_id
    refine ⟨fun p => ?_, hdissolve core_node instance_id⟩
    rw [dissolve_pairs, mem_filter, Pairing.involves_iff]
  rw [prune_dead_pairs_pairs]
  apply removes_filter
  intro p
  rw [Pairing.has_live_local_endpoints_iff]
  simp

def gripConfig (name : Name) (role : String) (cardinality : Cardinality) : NodeConfig where
  manifest :=
    { name
      tag := "v1"
      depends_on := some
        { pairings := [{ name := .grips, tag := "v1", role,
                         link_id := "grip", sha256 := none, cardinality }] } }

def gripSlot (core_node instance_id : String) : SlotAddr := ⟨core_node, instance_id, "grip"⟩

def gripInstance (id : Name) (state : InstanceState) : NodeStage :=
  .Ready [{ instance_id := id, cell := 0, state, incarnation := 0 }]

def gripDeclaration (slot : SlotAddr) : Declaration :=
  if slot.instance_id = "arm_1" then ⟨"grips", "v1", "arm", .One⟩
  else ⟨"grips", "v1", "tool", .ZeroOrMore⟩

def gripRun : List Op :=
  [.push_config (gripConfig .arm "arm" .One) false 1 ⟨1, 1⟩,
    .push_config (gripConfig { as_str := "tool" } "tool" .ZeroOrMore) false 2 ⟨2, 2⟩,
    .set_stage 1 (gripInstance .arm_1 .Running),
    .set_stage 2 (gripInstance { as_str := "tool_1" } .Running),
    .pair_slots (gripSlot "core" "arm_1") (gripSlot "core" "tool_1"),
    .set_stage 2 (gripInstance { as_str := "tool_1" } .Restarting),
    .pair_slot_with_remote (gripSlot "core" "arm_1") (gripSlot "edge" "tool_1")
      ⟨"grips", "v1", "tool", .ZeroOrMore, none⟩,
    .set_stage 2 (gripInstance { as_str := "tool_1" } .Running),
    .pair_slots (gripSlot "core" "arm_1") (gripSlot "core" "tool_1"),
    .dissolve_pairs_for_instance "tool_1"]

theorem the_pairs_of_an_arm_with_two_tools :
    ∃ s₀ s p, NodeStackInner.new walkScc coreRoot ⟨0, 0⟩ = some s₀ ∧
      run (step walkScc) s₀ gripRun = some s ∧ s.pairing_registry.pairs = [p] ∧
      p.b.slot = gripSlot "edge" "tool_1" ∧ p.Follows gripDeclaration := by
  obtain ⟨s₀, h₀⟩ : ∃ s₀, new walkScc coreRoot ⟨0, 0⟩ = some s₀ := ⟨_, rfl⟩
  have hdecl : Meets (step walkScc) (Declares gripDeclaration) s₀ gripRun := by
    cases h₀
    decide
  obtain ⟨s, p, hs, hp, hslot⟩ : ∃ s p, run (step walkScc) s₀ gripRun = some s ∧
      s.pairing_registry.pairs = [p] ∧ p.b.slot = gripSlot "edge" "tool_1" := by
    cases h₀
    exact ⟨_, _, rfl, rfl, rfl⟩
  have hlaw := the_pairs_keep_to_their_slots walkScc coreRoot ⟨0, 0⟩ s₀ h₀ gripDeclaration gripRun
    hdecl s hs
  exact ⟨s₀, s, p, h₀, hs, hp, hslot, hlaw.2.2.1 p (by simp [hp])⟩

end peppy.node_stack
