-- The law of call cycles: which pushes keep the stack free of nodes that call each
-- other in a circle. The stack is read here as a map from keys to configs.
import Peppy.StackOps

open digraph stable_graph runs List Option
open peppy.node_config peppy.pairing peppy.supervision peppy.entity peppy.service_action_cycle

namespace peppy.node_stack

open NodeStackInner StableDiGraph Function

/-! ## The calls between nodes -/

/-- The caller consumes a link that `provider` implements or is the node of. -/
def ConfigCalls (caller : NodeConfig) (key : NodeKey) (provider : NodeConfig) : Prop :=
  (∃ contract ∈ calledContracts caller,
    node_implements provider contract.1 contract.2 = true) ∨
  ∃ node ∈ calledNodes caller, NodeKey.new node.1 node.2 = key

/-- The first node calls the second. -/
def CallsIn (m : NodeKey → Option NodeConfig) (k₁ k₂ : NodeKey) : Prop :=
  ∃ c₁ c₂, m k₁ = some c₁ ∧ m k₂ = some c₂ ∧ ConfigCalls c₁ k₂ c₂

def configOf (s : NodeStackInner) (k : NodeKey) : Option NodeConfig :=
  (s.find k).map (·.entity.config)

def Calls (s : NodeStackInner) (k₁ k₂ : NodeKey) : Prop := CallsIn (configOf s) k₁ k₂

theorem callsIn_mono {m m' : NodeKey → Option NodeConfig}
    (h : ∀ k c, m k = some c → m' k = some c) {k₁ k₂ : NodeKey} (hc : CallsIn m k₁ k₂) :
    CallsIn m' k₁ k₂ := by
  obtain ⟨c₁, c₂, h₁, h₂, hcalls⟩ := hc
  exact ⟨c₁, c₂, h k₁ c₁ h₁, h k₂ c₂ h₂, hcalls⟩

/-! ## The stack as a map -/

variable {c : NodeConfig} {k : NodeKey} {s s' : NodeStackInner} {fresh : Fresh}
  {entity : NodeEntity} {i : Nat} {tarjan_scc : SccAlgorithm Nat} {allow : Bool}

theorem configOf_eq_some (h : Wired s) : configOf s k = some c ↔
      ∃ i handle, s.graph.node_weight i = some handle ∧ key_from_entity handle.entity = k ∧
        handle.entity.config = c := by
  unfold configOf find
  simp only [map_eq_some_iff, bind_eq_some_iff]
  constructor
  · rintro ⟨handle, ⟨i, hk, hi⟩, rfl⟩
    obtain ⟨handle', hi', hkey⟩ := h.live_of_key hk
    rw [hi] at hi'
    cases hi'
    exact ⟨i, handle, hi, hkey, rfl⟩
  · rintro ⟨i, handle, hi, rfl, rfl⟩
    exact ⟨handle, ⟨i, h.key_of_live hi, hi⟩, rfl⟩

theorem SameNodes.configOf (h : SameNodes s s') : configOf s' = configOf s := by
  funext k
  simp only [node_stack.configOf, find, h.keys]
  congr 2
  funext i
  exact h.node_weight i

theorem configOf_insert (h : Wired s) (hfresh : s.graph.node_weight fresh.index = none) :
    configOf (s.insert_new_entity entity fresh) =
      update (configOf s) (key_from_entity entity) (some entity.config) := by
  rw [(insert_spec (s := s) entity fresh).1.configOf]
  funext k
  rw [update_apply]
  unfold configOf find
  rw [key_withNode]
  split
  · simp [node_weight_withNode]
  cases hk : s.key_to_index k with
  | none => rfl
  | some i =>
    have hne : i ≠ fresh.index := by
      rintro rfl
      obtain ⟨handle, hi, _⟩ := h.live_of_key hk
      rw [hfresh] at hi
      cases hi
    simp [node_weight_withNode, hne]

variable {handle : EntityHandle}

theorem configOf_replace (h : Wired s) (hk : s.key_to_index (key_from_entity entity) = some i) :
    configOf (s.replace_entity i handle entity) =
      update (configOf s) (key_from_entity entity) (some entity.config) := by
  funext k
  rw [update_apply]
  unfold configOf find
  rw [show (s.replace_entity i handle entity).key_to_index k = s.key_to_index k from rfl]
  split
  · rename_i heq
    simp [heq, hk, node_weight_replace]
  rename_i hne
  cases hk' : s.key_to_index k with
  | none => rfl
  | some j =>
    have hji : j ≠ i := by
      rintro rfl
      obtain ⟨handle1, h₁, rfl⟩ := h.live_of_key hk'
      obtain ⟨handle2, h₂, hkey⟩ := h.live_of_key hk
      rw [h₁] at h₂
      cases h₂
      exact hne hkey
    simp [node_weight_replace, hji]

theorem configOf_replace_rewire (h : Wired s)
    (hk : s.key_to_index (key_from_entity entity) = some i) :
    configOf ((s.replace_entity i handle entity).rewire_dependencies i) =
      update (configOf s) (key_from_entity entity) (some entity.config) := by
  have hlive : (s.replace_entity i handle entity).graph.node_weight i =
      some { handle with entity } := by simp [node_weight_replace]
  rw [(rewire_spec hlive).1.configOf, configOf_replace h hk]

variable {key : NodeKey}

theorem configOf_remove (h : Wired s)
    (hc : configOf (s.remove_entity key) k = some c) : configOf s k = some c := by
  cases hk : s.key_to_index key with
  | none => simpa [remove_entity, hk] using hc
  | some i =>
    obtain ⟨j, handle, hj, hkey, hcfg⟩ := (configOf_eq_some (wired_remove h key)).mp hc
    refine (configOf_eq_some h).mpr ⟨j, handle, ?_, hkey, hcfg⟩
    have hs := (waits_register_all key ((s.graph.incoming_neighbors i).filter (· ≠ i))
      (clear_pending_requirements_for
        { s with
          key_to_index := update s.key_to_index key none
          graph := s.graph.remove_node i } i)).1
    have heq : (s.remove_entity key).graph.node_weight j =
        (s.graph.remove_node i).node_weight j := by
      simp only [remove_entity, hk]
      exact hs.node_weight j
    rw [heq, node_weight_remove_node] at hj
    split at hj
    · cases hj
    · exact hj

variable {index : Nat}

theorem configOf_clear (hc : s.clear index = some s') (hk : configOf s' k = some c) :
    k = s.root_key ∧ configOf s k = some c := by
  unfold clear at hc
  split at hc
  · cases hc
  rename_i handle hroot
  cases hc
  simp only [configOf, find, update_apply] at hk
  by_cases hkr : k = s.root_key
  · refine ⟨hkr, ?_⟩
    rw [if_pos hkr] at hk
    simp only [bind_some, node_weight_add_node, if_true, map_some] at hk
    rw [hkr, configOf, hroot]
    exact hk
  · simp [hkr] at hk

theorem configOf_set_stage {stage : NodeStage} :
    configOf (s.set_stage index stage) = configOf s := by
  unfold set_stage
  split
  · rfl
  rename_i handle hi
  funext k
  unfold configOf find
  cases hk : s.key_to_index k with
  | none => simp [replace_entity, hk]
  | some j =>
    by_cases hj : j = index
    · simp [replace_entity, hk, node_weight_set_weight, hj, hi]
    · simp [replace_entity, hk, node_weight_set_weight, hj]

/-! ## The cycle check -/

/-- The node of an index in the cycle check, unless it is the candidate's. -/
def viewNode (s : NodeStackInner) (entity : NodeEntity) (index : Nat) : Option CycleCheckNode :=
  if some index = s.key_to_index (key_from_entity entity) then none
  else
    (s.graph.node_weight index).map fun handle =>
      ⟨(key_from_entity handle.entity).name, (key_from_entity handle.entity).tag,
        handle.entity.config⟩

theorem cycle_view_eq : s.cycle_view entity = s.graph.node_indices.filterMap (viewNode s entity) ++
      [⟨(key_from_entity entity).name, (key_from_entity entity).tag, entity.config⟩] := rfl

theorem viewNode_eq_some {node : CycleCheckNode} (h : viewNode s entity i = some node) :
    some i ≠ s.key_to_index (key_from_entity entity) ∧
      ∃ handle, s.graph.node_weight i = some handle ∧
        node.identity = ((key_from_entity handle.entity).name, (key_from_entity handle.entity).tag) ∧
        node.config = handle.entity.config := by
  unfold viewNode at h
  split at h
  · cases h
  · rename_i hne
    obtain ⟨handle, hi, rfl⟩ := map_eq_some_iff.mp h
    exact ⟨hne, handle, hi, rfl, rfl⟩

theorem key_ext {k' : NodeKey} (h : (k.name, k.tag) = (k'.name, k'.tag)) : k = k' := by
  obtain ⟨h1, h2⟩ := Prod.mk.inj h
  cases k
  cases k'
  simp_all

theorem cycle_view_nodup (h : Wired s) (entity : NodeEntity) :
    ((s.cycle_view entity).map (·.identity)).Nodup := by
  rw [cycle_view_eq, map_append, map_filterMap]
  refine nodup_append.mpr ⟨?_, by simp, ?_⟩
  · refine s.graph.node_indices_nodup.filterMap fun i j id hi hj => ?_
    obtain ⟨n, hn, rfl⟩ := map_eq_some_iff.mp hi
    obtain ⟨n', hn', hid⟩ := map_eq_some_iff.mp hj
    obtain ⟨_, handle, hw, hid1, _⟩ := viewNode_eq_some hn
    obtain ⟨_, handle', hw', hid2, _⟩ := viewNode_eq_some hn'
    have hkey := key_ext (hid1.symm.trans (hid.symm.trans hid2))
    have := h.key_of_live hw
    rw [hkey, h.key_of_live hw'] at this
    exact (Option.some.inj this).symm
  · rintro id hid id' hid' rfl
    simp only [map_cons, map_nil, mem_singleton] at hid'
    obtain ⟨i, _, hi⟩ := mem_filterMap.mp hid
    obtain ⟨n, hn, hid1⟩ := map_eq_some_iff.mp hi
    obtain ⟨hne, handle, hw, hid2, _⟩ := viewNode_eq_some hn
    -- a node of the candidate's key is the one that the view leaves out
    have hkey := key_ext (hid2.symm.trans (hid1.trans hid'))
    exact hne (hkey ▸ h.key_of_live hw).symm

theorem mem_cycle_view (h : Wired s)
    (hk : update (configOf s) (key_from_entity entity) (some entity.config) k = some c) :
    (⟨k.name, k.tag, c⟩ : CycleCheckNode) ∈ s.cycle_view entity := by
  rw [cycle_view_eq, mem_append]
  rw [update_apply] at hk
  split at hk
  · rename_i heq
    cases hk
    subst heq
    exact .inr (by simp)
  · rename_i hne
    obtain ⟨i, handle, hi, rfl, rfl⟩ := (configOf_eq_some h).mp hk
    refine Or.inl (mem_filterMap.mpr ⟨i, mem_node_indices.mpr ⟨handle, hi⟩, ?_⟩)
    unfold viewNode
    rw [if_neg]
    · simp [hi]
    intro hi'
    obtain ⟨handle', hw, hkey⟩ := h.live_of_key hi'.symm
    rw [hi] at hw
    cases hw
    exact hne hkey

/-- The called tags have no white space at their ends. -/
def TrimmedCalls (c : NodeConfig) : Prop := ∀ node ∈ calledNodes c, trim node.2 = node.2

theorem trim_calledNodes {node : String × String} (h : node ∈ calledNodes c) :
    trim node.1 = node.1 := by
  unfold calledNodes at h
  split at h
  · cases h
  · obtain ⟨dep, _, rfl⟩ := mem_map.mp h
    exact trim_name dep.name

theorem acyclic_of_no_cycle (h : Wired s)
    (htrim : ∀ k c, update (configOf s) (key_from_entity entity) (some entity.config) k =
      some c → TrimmedCalls c)
    (hv : s.validate_no_service_action_cycle tarjan_scc entity = .ok ()) : Acyclic (CallsIn
    (update (configOf s) (key_from_entity entity) (some entity.config))) := by
  have hnone : find_service_action_cycle tarjan_scc (s.cycle_view entity) = none := by
    unfold validate_no_service_action_cycle at hv
    split at hv
    · cases hv
    · assumption
  have hac := find_service_action_cycle_eq_none.mp hnone
  have hpos := fun k c hk => identity_lookup_of_nodup (cycle_view_nodup h entity)
    (mem_cycle_view h (k := k) (c := c) hk)
  -- each key goes to the position of its node in the view
  refine hac.of_map (fun k => ((identity_to_index (s.cycle_view entity)).lookup
    (k.name, k.tag)).getD 0) ?_
  rintro k₁ k₂ ⟨c₁, c₂, h₁, h₂, hcalls⟩
  obtain ⟨i, hi, hli⟩ := hpos k₁ c₁ h₁
  obtain ⟨j, hj, hlj⟩ := hpos k₂ c₂ h₂
  simp only [CycleCheckNode.identity] at hli hlj
  rw [hli, hlj]
  refine ⟨_, hi, ?_⟩
  rcases hcalls with ⟨contract, hc, himpl⟩ | ⟨node, hn, hkey⟩
  · exact .inl ⟨contract, hc, _, hj, himpl⟩
  refine Or.inr ⟨node, hn, ?_⟩
  have hnode : node = (k₂.name, k₂.tag) := by
    rw [← hkey, NodeKey.new, trim_calledNodes hn, htrim k₁ c₁ h₁ node hn]
  rw [hnode]
  exact hlj

theorem validate_candidate_ok (h : s.validate_candidate tarjan_scc entity allow = .ok ()) :
    s.validate_no_service_action_cycle tarjan_scc entity = .ok () := by
  unfold validate_candidate at h
  split at h
  · exact h
  unfold validate_dependencies at h
  simp only at h
  split at h
  · cases h
  · exact h

/-! ## The pushes that the check covers -/

/-- The new config adds nothing to the calls and the implements list. -/
structure NoNewCalls (old new : NodeConfig) : Prop where
  contracts : ∀ contract ∈ calledContracts new, contract ∈ calledContracts old
  implemented : ∀ name tag, node_implements new name tag = true →
    node_implements old name tag = true
  nodes : ∀ node ∈ calledNodes new, ∃ node' ∈ calledNodes old,
    NodeKey.new node'.1 node'.2 = NodeKey.new node.1 node.2

theorem NoNewCalls.refl (c : NodeConfig) : NoNewCalls c c :=
  ⟨fun _ h => h, fun _ _ h => h, fun node h => ⟨node, h, rfl⟩⟩

theorem ConfigCalls.of_noNewCalls {old1 new1 old2 new2 : NodeConfig}
    (h₁ : NoNewCalls old1 new1) (h₂ : NoNewCalls old2 new2) (h : ConfigCalls new1 k new2) :
    ConfigCalls old1 k old2 := by
  rcases h with ⟨contract, hc, himpl⟩ | ⟨node, hn, hk⟩
  · exact .inl ⟨contract, h₁.contracts contract hc, h₂.implemented _ _ himpl⟩
  · obtain ⟨node', hn', hk'⟩ := h₁.nodes node hn
    exact .inr ⟨node', hn', hk'.trans hk⟩

theorem acyclic_update {m : NodeKey → Option NodeConfig} {old new : NodeConfig}
    (h : Acyclic (CallsIn m)) (hold : m key = some old) (hnew : NoNewCalls old new) :
    Acyclic (CallsIn (update m key (some new))) := by
  have hback : ∀ k c, update m key (some new) k = some c →
      ∃ c', m k = some c' ∧ NoNewCalls c' c := by
    intro k c hk
    rw [update_apply] at hk
    split at hk
    · rename_i heq
      cases hk
      exact ⟨old, heq ▸ hold, hnew⟩
    · exact ⟨c, hk, NoNewCalls.refl c⟩
  refine h.mono ?_
  rintro k₁ k₂ ⟨c₁, c₂, h₁, h₂, hcalls⟩
  obtain ⟨c₁', hm1, hn1⟩ := hback k₁ c₁ h₁
  obtain ⟨c₂', hm2, hn2⟩ := hback k₂ c₂ h₂
  exact ⟨c₁', c₂', hm1, hm2, hcalls.of_noNewCalls hn1 hn2⟩

def configKey (config : NodeConfig) : NodeKey :=
  NodeKey.new config.manifest.name.as_str config.manifest.tag

/-- Called tags need no trim, and a push that skips the check adds no call. -/
def PushChecked (s : NodeStackInner) (config : NodeConfig) : Prop :=
  TrimmedCalls config ∧
    ∀ stored, configOf s (configKey config) = some stored →
      stored.interfaces = config.interfaces →
      dependency_keys stored = dependency_keys config → NoNewCalls stored config

/-- The first push of a node is covered when its called tags need no trim. -/
theorem pushChecked_of_new {config : NodeConfig} (ht : TrimmedCalls config)
    (hnew : configOf s (configKey config) = none) : PushChecked s config := by
  refine ⟨ht, fun stored hs => ?_⟩
  rw [hnew] at hs
  cases hs

/-- The push is covered by the check. -/
def CheckedOp (s : NodeStackInner) : Op → Prop
  | .push_config config _ _ _ => PushChecked s config
  | .push_built_in config _ _ => PushChecked s config
  | _ => True

/-! ## Runs -/

/-- No node comes back to itself by its calls. -/
structure CycleFree (s : NodeStackInner) : Prop where
  wired : Wired s
  trimmed : ∀ k c, configOf s k = some c → TrimmedCalls c
  root_alone : ∀ c, configOf s s.root_key = some c → c.manifest.depends_on = none
  acyclic : Acyclic (Calls s)

theorem calls_of_no_dependencies (h : c.manifest.depends_on = none) :
    calledContracts c = [] ∧ calledNodes c = [] := by
  simp [calledContracts, calledNodes, h]

theorem not_configCalls_of_no_dependencies {c' : NodeConfig}
    (h : c.manifest.depends_on = none) : ¬ ConfigCalls c k c' := by
  obtain ⟨h₁, h₂⟩ := calls_of_no_dependencies h
  simp [ConfigCalls, h₁, h₂]

variable {res : Except Error Unit}

theorem configOf_push (h : Wired s) (hfresh : s.graph.node_weight fresh.index = none)
    (hp : s.push_entity tarjan_scc entity allow fresh = some (res, s')) : s' = s ∨
    (s'.root_key = s.root_key ∧ key_from_entity entity ≠ s.root_key ∧ configOf s' =
          update (configOf s) (key_from_entity entity) (some entity.config) ∧
        (s.validate_no_service_action_cycle tarjan_scc entity = .ok () ∨
          ∃ stored, configOf s (key_from_entity entity) = some stored ∧
            stored.interfaces = entity.config.interfaces ∧
            dependency_keys stored = dependency_keys entity.config)) := by
  rcases push_entity_cases hp with h' | ⟨_, hroot, _, hv, rfl⟩ | ⟨i, handle, _, hroot, hk, hi, hc⟩
  · exact .inl h'
  · exact .inr ⟨(insert_spec entity fresh).1.root, hroot, configOf_insert h hfresh,
      Or.inl (validate_candidate_ok hv)⟩
  refine Or.inr ?_
  rcases hc with ⟨hv, rfl⟩ | ⟨hint, hdeps, rfl⟩
  · have hlive : (s.replace_entity i handle entity).graph.node_weight i =
        some { handle with entity } := by simp [node_weight_replace]
    exact ⟨(rewire_spec hlive).1.root, hroot, configOf_replace_rewire h hk,
      Or.inl (validate_candidate_ok hv)⟩
  · obtain ⟨handle', hi', hkey⟩ := h.live_of_key hk
    rw [hi] at hi'
    cases hi'
    refine ⟨rfl, hroot, configOf_replace h hk, .inr ⟨handle.entity.config, ?_, hint, hdeps⟩⟩
    exact (configOf_eq_some h).mpr ⟨i, handle, hi, hkey, rfl⟩

theorem cycleFree_push (h : CycleFree s) (hfresh : s.graph.node_weight fresh.index = none)
    (hp : s.push_entity tarjan_scc entity allow fresh = some (res, s'))
    (hc : PushChecked s entity.config) : CycleFree s' := by
  rcases configOf_push h.wired hfresh hp with rfl | ⟨hrk, hroot, hmap, hwhy⟩
  · exact h
  have htrim : ∀ k c, update (configOf s) (key_from_entity entity)
      (some entity.config) k = some c → TrimmedCalls c := by
    intro k c hk
    rw [update_apply] at hk
    split at hk
    · cases hk
      exact hc.1
    · exact h.trimmed k c hk
  refine ⟨wired_push h.wired hfresh hp, fun k c hk => htrim k c (hmap ▸ hk), fun c hk => ?_, ?_⟩
  · rw [hrk, hmap, update_of_ne hroot.symm] at hk
    exact h.root_alone c hk
  unfold Calls
  rw [hmap]
  rcases hwhy with hv | ⟨stored, hstored, hint, hdeps⟩
  · exact acyclic_of_no_cycle h.wired htrim hv
  · exact acyclic_update h.acyclic hstored (hc.2 stored hstored hint hdeps)

theorem CycleFree.of_part (h : CycleFree s) (hw : Wired s') (hroot : s'.root_key = s.root_key)
    (hpart : ∀ k c, configOf s' k = some c → configOf s k = some c) : CycleFree s' := by
  refine ⟨hw, fun k c hk => h.trimmed k c (hpart k c hk), fun c hk => ?_,
    h.acyclic.mono fun k₁ k₂ hc => callsIn_mono hpart hc⟩
  exact h.root_alone c (hroot ▸ hpart _ c hk)

theorem root_key_remove : (s.remove_entity key).root_key = s.root_key := by
  unfold remove_entity
  split
  · rfl
  · exact (waits_register_all key _ _).1.root

theorem cycleFree_step (s : NodeStackInner) (op : Op)
    (s' : NodeStackInner) (h : CycleFree s) (hc : CheckedOp s op)
    (hs : step tarjan_scc s op = some s') : CycleFree s' := by
  have hw := wired_op s op s' h.wired hs
  rcases step_cases hs with ⟨entity, allow, fresh, res, hfresh, hp, hop⟩ | ⟨key, _, rfl⟩ |
    ⟨index, _, hcl⟩ | ⟨index, stage, rfl⟩ | ⟨r, rfl⟩
  · have hchecked : PushChecked s entity.config := by
      rcases hop with ⟨g, rfl⟩ | ⟨g, rfl⟩
      · exact hc
      · exact hc
    exact cycleFree_push h hfresh hp hchecked
  · exact h.of_part hw (root_key_remove) fun k c hk => configOf_remove h.wired hk
  · have hroot : s'.root_key = s.root_key := by
      unfold clear at hcl
      split at hcl
      · cases hcl
      · cases hcl
        rfl
    exact h.of_part hw hroot fun k c hk => (configOf_clear hcl hk).2
  · refine h.of_part hw ?_ fun k c hk => ?_
    · unfold set_stage
      split <;> rfl
    · rwa [configOf_set_stage] at hk
  · exact h.of_part hw rfl fun k c hk => hk

theorem cycleFree_new {r : RootNode} (h : new tarjan_scc r fresh = some s) : CycleFree s := by
  have hw := wired_new h
  have honly : ∀ k c, configOf s k = some c → c = r.config := by
    unfold new at h
    simp only at h
    split at h
    · cases h
    cases h
    intro k c hk
    rw [configOf_insert (wired_empty _) rfl, update_apply] at hk
    split at hk
    · exact (Option.some.inj hk).symm
    · cases hk
  have hnone : ∀ k c, configOf s k = some c → c.manifest.depends_on = none := fun k c hk =>
    honly k c hk ▸ r.no_dependencies
  refine ⟨hw, fun k c hk => ?_, fun c hk => hnone _ c hk, acyclic_of_no_edge ?_⟩
  · simp [TrimmedCalls, (calls_of_no_dependencies (hnone k c hk)).2]
  rintro k₁ k₂ ⟨c₁, c₂, h₁, _, hcalls⟩
  exact not_configCalls_of_no_dependencies (hnone k₁ c₁ h₁) hcalls

/-- In every run in which each push is one that the cycle check covers, no
nodes of the stack ever call each other in a circle. -/
theorem checked_pushes_leave_no_call_cycle (tarjan_scc : SccAlgorithm Nat) (r : RootNode)
    (fresh : Fresh) (s₀ s : NodeStackInner) (ops : List Op)
    (h₀ : NodeStackInner.new tarjan_scc r fresh = some s₀)
    (hc : Meets (step tarjan_scc) CheckedOp s₀ ops)
    (h : run (step tarjan_scc) s₀ ops = some s) : Acyclic (Calls s) :=
  (run_keeps_where cycleFree_step (cycleFree_new h₀) hc h).acyclic

/-! ## Pushes that the check does not cover -/

def armConfig (implemented : Name) : NodeConfig where
  manifest :=
    { name := .arm
      tag := "v1"
      implements := [{ name := implemented, tag := "v1", link_id := "grip", sha256 := none }]
      depends_on := some
        { contracts := [{ name := { as_str := "routes" }, tag := "v1", link_id := "route",
                          sha256 := none, cardinality := .One }] } }
  interfaces :=
    { services := some
        { exposes := some [.Linked { link_id := "grip", name := "close" }]
          consumes := some [{ link_id := "route", name := "plan" }] } }

def plannerConfig : NodeConfig where
  manifest :=
    { name := { as_str := "planner" }
      tag := "v1"
      implements := [{ name := { as_str := "routes" }, tag := "v1", link_id := "route",
                       sha256 := none }]
      depends_on := some
        { contracts := [{ name := .grips, tag := "v1", link_id := "grip",
                          sha256 := none, cardinality := .One }] } }
  interfaces :=
    { services := some
        { exposes := some [.Linked { link_id := "route", name := "plan" }]
          consumes := some [{ link_id := "grip", name := "close" }] } }

def askingConfig (own peer : Name) (peer_tag : String) : NodeConfig where
  manifest :=
    { name := own
      tag := "v1"
      depends_on := some
        { nodes := [{ name := peer, tag := peer_tag, link_id := "peer", cardinality := .One }] } }
  interfaces :=
    { services := some
        { exposes := some [.Native "ask" ""]
          consumes := some [{ link_id := "peer", name := "ask" }] } }

def plannerName : Name := { as_str := "planner" }

def armAndPlanner : List Op :=
  [.push_config (armConfig { as_str := "holds" }) false 1 ⟨1, 1⟩,
    .push_config plannerConfig false 2 ⟨2, 2⟩]

theorem no_call_cycle_of_arm_and_planner :
    ∃ s₀ s, NodeStackInner.new walkScc coreRoot ⟨0, 0⟩ = some s₀ ∧
      run (step walkScc) s₀ armAndPlanner = some s ∧
      Calls s ⟨"arm", "v1"⟩ ⟨"planner", "v1"⟩ ∧ Acyclic (Calls s) := by
  obtain ⟨s₀, h₀⟩ : ∃ s₀, new walkScc coreRoot ⟨0, 0⟩ = some s₀ := ⟨_, rfl⟩
  obtain ⟨s, hs, harm, hplanner⟩ : ∃ s, run (step walkScc) s₀ armAndPlanner = some s ∧
      configOf s ⟨"arm", "v1"⟩ = some (armConfig { as_str := "holds" }) ∧
      configOf s ⟨"planner", "v1"⟩ = some plannerConfig := by
    cases h₀
    exact ⟨_, rfl, rfl, rfl⟩
  refine ⟨s₀, s, h₀, hs, ⟨_, _, harm, hplanner, .inl ⟨("routes", "v1"), by decide, by decide⟩⟩,
    checked_pushes_leave_no_call_cycle walkScc coreRoot ⟨0, 0⟩ s₀ s armAndPlanner h₀ ?_ hs⟩
  cases h₀
  refine ⟨pushChecked_of_new (by simp [TrimmedCalls, calledNodes, armConfig]) rfl,
    fun s' hs' => ⟨?_, fun _ _ => trivial⟩⟩
  refine pushChecked_of_new (by simp [TrimmedCalls, calledNodes, plannerConfig]) ?_
  cases hs'
  rfl

theorem not_acyclic_of_two_calls (k₁ k₂ : NodeKey) (h₁ : Calls s k₁ k₂)
    (h₂ : Calls s k₂ k₁) : ¬ Acyclic (Calls s) :=
  fun h => h k₁ ((Relation.TransGen.single h₁).tail h₂)

/-- The arm is added again with another implements entry, which skips the check, and a node
names its peer with a blank before the tag. -/
theorem pushes_that_close_a_call_cycle :
    (∃ s₀ s₁ s, NodeStackInner.new walkScc coreRoot ⟨0, 0⟩ = some s₀ ∧
      run (step walkScc) s₀ armAndPlanner = some s₁ ∧
      s₁.push_config walkScc (armConfig { as_str := "grips" }) false 3 ⟨3, 3⟩ = some (.ok (), s) ∧
      ¬ Acyclic (Calls s)) ∧
    ∃ s₀ s₁ s, NodeStackInner.new walkScc coreRoot ⟨0, 0⟩ = some s₀ ∧
      run (step walkScc) s₀
        [.push_config (askingConfig .arm plannerName " v1") true 1 ⟨1, 1⟩] = some s₁ ∧
      s₁.push_config walkScc (askingConfig plannerName .arm "v1") false 2 ⟨2, 2⟩ =
        some (.ok (), s) ∧
      ¬ Acyclic (Calls s) := by
  refine ⟨⟨_, _, _, rfl, rfl, rfl, ?_⟩, ⟨_, _, _, rfl, rfl, rfl, ?_⟩⟩
  · refine not_acyclic_of_two_calls ⟨"arm", "v1"⟩ ⟨"planner", "v1"⟩ ?_ ?_
    · exact ⟨armConfig { as_str := "grips" }, plannerConfig, rfl, rfl,
        Or.inl ⟨("routes", "v1"), by decide, by decide⟩⟩
    · exact ⟨plannerConfig, armConfig { as_str := "grips" }, rfl, rfl,
        Or.inl ⟨("grips", "v1"), by decide, by decide⟩⟩
  · refine not_acyclic_of_two_calls ⟨"arm", "v1"⟩ ⟨"planner", "v1"⟩ ?_ ?_
    · exact ⟨askingConfig .arm plannerName " v1", askingConfig plannerName .arm "v1", rfl,
        rfl, .inr ⟨("planner", " v1"), by decide, by decide⟩⟩
    · exact ⟨askingConfig plannerName .arm "v1", askingConfig .arm plannerName " v1", rfl,
        rfl, .inr ⟨("arm", "v1"), by decide, by decide⟩⟩

end peppy.node_stack
