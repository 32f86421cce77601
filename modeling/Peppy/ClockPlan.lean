-- The clock that each instance of a plan reads, and the rule that a connection joins two
-- instances with one timeline.
import Mathlib.Data.List.Dedup
import Peppy.Lib.KeyMap
import Peppy.PlanObservations

open keymap List

namespace peppy.clock_plan

open launcher (ProducerRef Placements PlannedPairing PlannedObservation)

/-! ## Clocks -/

structure ClockDomainId where
  name : String
  core_node : String
  incarnation : Nat
  deriving DecidableEq

inductive ClockRole where
  | Publisher
  | Consumer (publisher : ProducerRef)

inductive ClockBinding where
  | Wall
  | Sim (domain : ClockDomainId) (role : ClockRole)

def ClockBinding.domain : ClockBinding → Option ClockDomainId
  | .Wall => none
  | .Sim domain _ => some domain

def ClockBinding.is_compatible_with : ClockBinding → ClockBinding → Bool
  | .Wall, .Wall => true
  | .Sim a _, .Sim b _ => a = b
  | .Wall, .Sim .. => false
  | .Sim .., .Wall => false

/-- A domain is compared as a whole, so compatible clocks are one timeline. -/
theorem is_compatible_with_iff {a b : ClockBinding} :
    a.is_compatible_with b = true ↔ a.domain = b.domain := by
  cases a <;> cases b <;> simp [ClockBinding.is_compatible_with, ClockBinding.domain]

inductive ClockDeclaration where
  | Wall
  | Sim (publisher : String)

def ClockDeclaration.publisher : ClockDeclaration → Option String
  | .Wall => none
  | .Sim publisher => some publisher

def WALL_CLOCK : String := "wall"

def PREVIEW_INCARNATION : Nat := 1

structure DeploymentInstance where
  instance_id : String
  clock : Option String

/-- A flattened plan: the declared domains and the instances of all deployments. -/
structure PeppyLauncher where
  clocks : KeyMap String ClockDeclaration
  instances : List DeploymentInstance

/-- The lists of names are joined in the texts. -/
inductive ParsingError where
  | ClockDomainReserved (domains : List String)
  | ClockPublisherUnknown (domain publisher : String) (instances : List String)
  | ClockPublisherWithoutDeployments (domain publisher : String)
  | ClockPublisherOfSeveral (instance_id : String) (domains : List String)
  | ClockPublisherBound (instance_id domain bound : String)
  | ClockDomainUnknown (instance_id clock : String) (declared : List String)
  | ClockMismatch (a : String) (a_clock : ClockBinding) (b : String) (b_clock : ClockBinding)
      (via : String)

/-! ## Resolution -/

section
variable (launcher : PeppyLauncher) (placements : Placements) (incarnations : String → Option Nat)

def instanceIds : List String := (launcher.instances.map (·.instance_id)).dedup.insertionSort (· ≤ ·)

def publishes (id : String) : List String :=
  if id ∈ instanceIds launcher then
    (launcher.clocks.entries.filter fun entry => entry.2.publisher = some id).map Prod.fst
  else []

def reserved_error : List ParsingError :=
  if WALL_CLOCK ∈ launcher.clocks.keys then [.ClockDomainReserved launcher.clocks.keys] else []

def publisher_errors : List ParsingError :=
  launcher.clocks.entries.filterMap fun entry =>
    match entry.2.publisher with
    | none => none
    | some publisher =>
      if publisher ∈ instanceIds launcher then none
      else if (instanceIds launcher).isEmpty then
        some (.ClockPublisherWithoutDeployments entry.1 publisher)
      else some (.ClockPublisherUnknown entry.1 publisher (instanceIds launcher))

def several_errors : List ParsingError :=
  (instanceIds launcher).filterMap fun id =>
    if 1 < (publishes launcher id).length then
      some (.ClockPublisherOfSeveral id (publishes launcher id))
    else none

def domain_id (domain publisher : String) : ClockDomainId where
  name := domain
  core_node := placements.of publisher
  incarnation := (incarnations domain).getD PREVIEW_INCARNATION

def instance_clock (inst : DeploymentInstance) : Except ParsingError ClockBinding :=
  match (publishes launcher inst.instance_id).head? with
  | some domain =>
    match inst.clock with
    | some bound => .error (.ClockPublisherBound inst.instance_id domain bound)
    | none => .ok (.Sim (domain_id placements incarnations domain inst.instance_id) .Publisher)
  | none =>
    match inst.clock with
    | none => .ok .Wall
    | some bound =>
      if bound = WALL_CLOCK then .ok .Wall
      else
        match launcher.clocks.get bound with
        | none => .error (.ClockDomainUnknown inst.instance_id bound
            (WALL_CLOCK :: launcher.clocks.keys))
        | some .Wall => .ok .Wall
        | some (.Sim publisher) => .ok (.Sim (domain_id placements incarnations bound publisher)
            (.Consumer ⟨placements.of publisher, publisher⟩))

def clock_errors : List ParsingError :=
  launcher.instances.filterMap fun inst =>
    match instance_clock launcher placements incarnations inst with
    | .error e => some e
    | .ok _ => none

end

structure ResolvedClocks where
  by_instance : String → Option ClockBinding

/-- An instance that the plan does not place reads wall time. -/
def ResolvedClocks.of (clocks : ResolvedClocks) (instance_id : String) : ClockBinding :=
  (clocks.by_instance instance_id).getD .Wall

section
variable (launcher : PeppyLauncher) (placements : Placements) (incarnations : String → Option Nat)

/-- The clock of the last instance with the id. -/
def inserted_clock (id : String) : Option ClockBinding :=
  (launcher.instances.filter fun inst => inst.instance_id = id).getLast?.bind fun inst =>
    (instance_clock launcher placements incarnations inst).toOption

def resolve_clocks : Except (List ParsingError) ResolvedClocks :=
  let errors := reserved_error launcher ++ publisher_errors launcher ++ several_errors launcher ++
    clock_errors launcher placements incarnations
  if errors = [] then .ok ⟨inserted_clock launcher placements incarnations⟩ else .error errors

end

abbrev PlanBindings := List (String × List (String × List ProducerRef))

/-- The connections that carry time, and how an error names them. -/
def connections (slot_bindings : PlanBindings) (pairings : List PlannedPairing)
    (observations : List PlannedObservation) : List (String × String × String) :=
  (slot_bindings.flatMap fun consumer => consumer.2.flatMap fun slot => slot.2.map fun producer =>
    (consumer.1, producer.instance_id, "binding `" ++ slot.1 ++ "`")) ++
  (pairings.map fun pairing => (pairing.a.instance_id, pairing.b.instance_id,
    "pairing `" ++ pairing.a.link_id ++ "`")) ++
  observations.map fun observation => (observation.observer_instance_id,
    observation.source.instance_id, "observation `" ++ observation.observer_link_id ++ "`")

def validate_clock_connections (clocks : ResolvedClocks) (slot_bindings : PlanBindings)
    (pairings : List PlannedPairing) (observations : List PlannedObservation) : List ParsingError :=
  (connections slot_bindings pairings observations).filterMap fun (a, b, via) =>
    if (clocks.of a).is_compatible_with (clocks.of b) then none
    else some (.ClockMismatch a (clocks.of a) b (clocks.of b) via)

/-! ## Publishers -/

variable {launcher : PeppyLauncher} {placements : Placements} {incarnations : String → Option Nat}
  {clocks : ResolvedClocks} {id domain : String}

theorem mem_instanceIds : id ∈ instanceIds launcher ↔ ∃ inst ∈ launcher.instances,
    inst.instance_id = id := by
  simp [instanceIds]

theorem mem_publishes : domain ∈ publishes launcher id ↔
    id ∈ instanceIds launcher ∧ launcher.clocks.get domain = some (.Sim id) := by
  unfold publishes
  split
  · next hid =>
    simp only [mem_map, mem_filter, decide_eq_true_eq, hid, true_and,
      KeyMap.get_eq_some_iff]
    constructor
    · rintro ⟨⟨name, declaration⟩, ⟨hmem, hpublisher⟩, rfl⟩
      cases declaration with
      | Wall => cases hpublisher
      | Sim publisher =>
        cases hpublisher
        exact hmem
    · intro hmem
      exact ⟨_, ⟨hmem, rfl⟩, rfl⟩
  · next hid => simp [hid]

/-- What an accepted launcher says of each clock. -/
structure Resolved (launcher : PeppyLauncher) (placements : Placements)
    (incarnations : String → Option Nat) (clocks : ResolvedClocks) : Prop where
  placed : ∀ domain publisher, launcher.clocks.get domain = some (.Sim publisher) →
    publisher ∈ instanceIds launcher
  one : ∀ id, (publishes launcher id).length ≤ 1
  resolves : ∀ inst ∈ launcher.instances, ∃ binding,
    instance_clock launcher placements incarnations inst = .ok binding
  clock : ∀ id binding, clocks.by_instance id = some binding → ∃ inst ∈ launcher.instances,
    inst.instance_id = id ∧ instance_clock launcher placements incarnations inst = .ok binding
  all : ∀ inst ∈ launcher.instances, (clocks.by_instance inst.instance_id).isSome = true

theorem resolved_of_ok (h : resolve_clocks launcher placements incarnations = .ok clocks) :
    Resolved launcher placements incarnations clocks := by
  unfold resolve_clocks at h
  dsimp only at h
  split at h
  · next hnone =>
    cases h
    simp only [append_eq_nil_iff] at hnone
    obtain ⟨⟨⟨-, hpublishers⟩, hseveral⟩, herrors⟩ := hnone
    have hresolves : ∀ inst ∈ launcher.instances, ∃ binding,
        instance_clock launcher placements incarnations inst = .ok binding := by
      intro inst hinst
      have hok := filterMap_eq_nil_iff.mp herrors inst hinst
      cases hclock : instance_clock launcher placements incarnations inst with
      | ok binding => exact ⟨binding, rfl⟩
      | error e => simp [hclock] at hok
    refine ⟨fun domain publisher hget => ?_, fun id => ?_, hresolves, ?_, ?_⟩
    · have hok := filterMap_eq_nil_iff.mp hpublishers _ (KeyMap.get_eq_some_iff.mp hget)
      by_contra hnot
      simp only [ClockDeclaration.publisher, hnot, if_false] at hok
      split at hok <;> cases hok
    · by_cases hid : id ∈ instanceIds launcher
      · have hok := filterMap_eq_nil_iff.mp hseveral id hid
        by_contra hlt
        simp [Nat.not_le.mp hlt] at hok
      · simp [publishes, hid]
    · intro id binding hget
      obtain ⟨inst, hlast, hok⟩ := Option.bind_eq_some_iff.mp hget
      obtain ⟨hinst, hid⟩ := mem_filter.mp (mem_of_getLast? hlast)
      obtain ⟨found, hfound⟩ := hresolves inst hinst
      rw [hfound] at hok
      cases hok
      exact ⟨inst, hinst, by simpa using hid, hfound⟩
    · intro inst hinst
      have hmem : inst ∈ launcher.instances.filter fun other =>
          other.instance_id = inst.instance_id := mem_filter.mpr ⟨hinst, by simp⟩
      have hlast := getLast?_eq_some_getLast (ne_nil_of_mem hmem)
      obtain ⟨binding, hbinding⟩ := hresolves _ (mem_filter.mp (getLast_mem _)).1
      show (inserted_clock launcher placements incarnations inst.instance_id).isSome = true
      rw [inserted_clock, hlast, Option.bind_some, hbinding]
      rfl
  · cases h

section
variable (h : Resolved launcher placements incarnations clocks)
include h

theorem Resolved.publishes_eq
    (hget : launcher.clocks.get domain = some (.Sim id)) : publishes launcher id = [domain] := by
  have hmem := mem_publishes.mpr ⟨h.placed domain id hget, hget⟩
  have hlength := h.one id
  match hlist : publishes launcher id with
  | [] => simp [hlist] at hmem
  | [only] => rw [hlist] at hmem; rw [mem_singleton.mp hmem]
  | _ :: _ :: _ => simp [hlist] at hlength

theorem Resolved.publisher_clock (hget : launcher.clocks.get domain = some (.Sim id)) :
    clocks.of id = .Sim (domain_id placements incarnations domain id) .Publisher ∧
      ∀ inst ∈ launcher.instances, inst.instance_id = id → inst.clock = none := by
  have hhead : (publishes launcher id).head? = some domain := by rw [h.publishes_eq hget]; rfl
  have hclock : ∀ inst ∈ launcher.instances, inst.instance_id = id → inst.clock = none ∧
      ∀ binding, instance_clock launcher placements incarnations inst = .ok binding →
        binding = .Sim (domain_id placements incarnations domain id) .Publisher := by
    intro inst hinst hid
    obtain ⟨binding, hbinding⟩ := h.resolves inst hinst
    unfold instance_clock at hbinding ⊢
    rw [hid, hhead] at hbinding ⊢
    cases hbound : inst.clock with
    | some bound => simp [hbound] at hbinding
    | none => exact ⟨rfl, fun binding hok => (Except.ok.inj hok).symm⟩
  obtain ⟨inst, hinst, rfl⟩ := mem_instanceIds.mp (h.placed domain id hget)
  obtain ⟨binding, hbinding⟩ := Option.isSome_iff_exists.mp (h.all inst hinst)
  obtain ⟨other, hother, hid, hok⟩ := h.clock _ _ hbinding
  refine ⟨?_, fun inst hinst hid => (hclock inst hinst hid).1⟩
  rw [ResolvedClocks.of, hbinding, (hclock other hother hid).2 binding hok]
  rfl

theorem Resolved.declared
    {found : ClockDomainId} {role : ClockRole} (hclock : clocks.of id = .Sim found role) :
    ∃ domain publisher, launcher.clocks.get domain = some (.Sim publisher) ∧
      found = domain_id placements incarnations domain publisher ∧
      (role = .Publisher ∧ publisher = id ∨
        role = .Consumer ⟨placements.of publisher, publisher⟩) := by
  cases hby : clocks.by_instance id with
  | none => simp [ResolvedClocks.of, hby] at hclock
  | some binding =>
    simp only [ResolvedClocks.of, hby, Option.getD_some] at hclock
    subst hclock
    obtain ⟨inst, -, rfl, hok⟩ := h.clock _ _ hby
    unfold instance_clock at hok
    split at hok
    · next domain hhead =>
      split at hok
      · cases hok
      · cases hok
        exact ⟨domain, _, (mem_publishes.mp (mem_of_mem_head? hhead)).2, rfl,
          .inl ⟨rfl, rfl⟩⟩
    · split at hok
      · cases hok
      next bound _ =>
      split at hok
      · cases hok
      split at hok
      · cases hok
      · cases hok
      · next publisher hget =>
        cases hok
        exact ⟨bound, publisher, hget, rfl, .inr rfl⟩

end

/-! ## Timelines -/

/-- Two instances that a slot, a pair or an observation connects. -/
def Connected (slot_bindings : PlanBindings) (pairings : List PlannedPairing)
    (observations : List PlannedObservation) (a b : String) : Prop :=
  ∃ via, (a, b, via) ∈ connections slot_bindings pairings observations

/-- Instances that a chain of connections joins read one timeline, and each simulated
domain that is read has one publisher of its own. -/
theorem one_timeline_for_connected_instances (launcher : PeppyLauncher) (placements : Placements)
    (incarnations : String → Option Nat) (clocks : ResolvedClocks) (slot_bindings : PlanBindings)
    (pairings : List PlannedPairing) (observations : List PlannedObservation)
    (hclocks : resolve_clocks launcher placements incarnations = .ok clocks)
    (hvalid : validate_clock_connections clocks slot_bindings pairings observations = []) :
    (∀ a b, Relation.EqvGen (Connected slot_bindings pairings observations) a b →
      (clocks.of a).domain = (clocks.of b).domain) ∧
    ∀ id domain role, clocks.of id = .Sim domain role → ∃ publisher,
      (∃ inst ∈ launcher.instances, inst.instance_id = publisher) ∧
      (role = .Publisher ∧ publisher = id ∨
        role = .Consumer ⟨placements.of publisher, publisher⟩) ∧
      (∀ other, clocks.of other = .Sim domain .Publisher ↔ other = publisher) ∧
      (∀ name, launcher.clocks.get name = some (.Sim publisher) ↔ name = domain.name) ∧
      ∀ inst ∈ launcher.instances, inst.instance_id = publisher → inst.clock = none := by
  have h := resolved_of_ok hclocks
  constructor
  · intro a b hjoined
    induction hjoined with
    | rel a b hconnected =>
      obtain ⟨via, hmem⟩ := hconnected
      have hok := filterMap_eq_nil_iff.mp hvalid _ hmem
      apply is_compatible_with_iff.mp
      by_contra hnot
      simp [hnot] at hok
    | refl a => rfl
    | symm a b _ ih => exact ih.symm
    | trans a b c _ _ ih ih' => exact ih.trans ih'
  · intro id found role hclock
    obtain ⟨domain, publisher, hget, rfl, hrole⟩ := h.declared hclock
    obtain ⟨hpublisher, hfree⟩ := h.publisher_clock hget
    refine ⟨publisher, mem_instanceIds.mp (h.placed _ _ hget), hrole, fun other => ?_, fun name => ?_,
      hfree⟩
    · constructor
      · intro hother
        -- the domain has the name of one declaration, which has one publisher
        obtain ⟨domain', publisher', hget', hsame, hrole'⟩ := h.declared hother
        obtain rfl : domain = domain' := congrArg ClockDomainId.name hsame
        cases hget.symm.trans hget'
        rcases hrole' with ⟨-, rfl⟩ | hrole'
        · rfl
        · cases hrole'
      · rintro rfl
        exact hpublisher
    · constructor
      · intro hname
        have hsame := (h.publishes_eq hname).symm.trans (h.publishes_eq hget)
        exact (List.cons.inj hsame).1
      · rintro rfl
        exact hget

def simulated : PeppyLauncher where
  clocks := ⟨[("simulation", .Sim "sim_1")], by decide⟩
  instances := [⟨"sim_1", none⟩, ⟨"arm_1", some "simulation"⟩]

def simulatedClocks : ResolvedClocks :=
  ⟨inserted_clock simulated ⟨fun _ => none, "core"⟩ fun _ => none⟩

theorem the_clock_of_a_simulated_arm :
    resolve_clocks simulated ⟨fun _ => none, "core"⟩ (fun _ => none) = .ok simulatedClocks ∧
      validate_clock_connections simulatedClocks [("arm_1", [("world", [⟨"core", "sim_1"⟩])])] [] [] =
        [] ∧
      (simulatedClocks.of "arm_1").domain = (simulatedClocks.of "sim_1").domain := by
  have hclocks : resolve_clocks simulated ⟨fun _ => none, "core"⟩ (fun _ => none) =
      .ok simulatedClocks := by
    rw [resolve_clocks]
    exact if_pos (by decide +kernel)
  have hvalid : validate_clock_connections simulatedClocks
      [("arm_1", [("world", [⟨"core", "sim_1"⟩])])] [] [] = [] := by decide +kernel
  exact ⟨hclocks, hvalid, (one_timeline_for_connected_instances simulated ⟨fun _ => none, "core"⟩
    (fun _ => none) simulatedClocks _ [] [] hclocks hvalid).1 _ _
      (.rel _ _ ⟨_, mem_singleton_self _⟩)⟩

end peppy.clock_plan
