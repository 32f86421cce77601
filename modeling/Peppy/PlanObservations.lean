-- The observations of a launch plan. An observer slot taps the topics of one role of a
-- pairing, either for every pair of a source or for one pair that its other end names.
import Peppy.PlanPairingLaws

open peppy.node_config stable_sort results List

namespace peppy.launcher

/-! ## The plan -/

structure PairingObserverDependency where
  name : Name
  tag : String
  role : String
  link_id : String
  sha256 : Option String
  cardinality : Cardinality

structure ObservingItem extends PairingValidationItem where
  observer_deps : List PairingObserverDependency

structure ProducerRef where
  core_node : String
  instance_id : String
  deriving DecidableEq

structure Placements where
  by_instance : String → Option String
  coordinator : String

def Placements.of (placements : Placements) (instance_id : String) : String :=
  (placements.by_instance instance_id).getD placements.coordinator

structure ObservedPeer where
  peer : ProducerRef
  peer_link_id : String
  deriving DecidableEq

structure PlannedObservation where
  observer_instance_id : String
  observer_link_id : String
  pairing_name : String
  pairing_tag : String
  observed_role : String
  source : ProducerRef
  source_link_id : String
  peer : Option ObservedPeer

def PlannedObservation.slot (observation : PlannedObservation) : Slot :=
  (observation.observer_instance_id, observation.observer_link_id)

def PlannedObservation.target (observation : PlannedObservation) :
    ProducerRef × String × Option ObservedPeer :=
  (observation.source, observation.source_link_id, observation.peer)

inductive ObservationError where
  | ArrayOnScalarSlot (owner_instance_id link : String) (cardinality : Cardinality)
  | ScalarOnMultiSlot (owner_instance_id link : String) (cardinality : Cardinality)
  | CardinalityUnmet (owner_instance_id link : String)
  | SingleSlotMultipleTargets (owner_instance_id link : String) (cardinality : Cardinality)
      (target_count : Nat)
  | UnknownInstanceId (owner_instance_id link instance_id : String)
  | TargetNotObservable (owner_instance_id key source_instance_id source_name source_tag
      pairing_name pairing_tag observed_role : String)
  | TargetAmbiguous (owner_instance_id key source_instance_id pairing_name pairing_tag
      candidate_role candidate_link_ids : String)
  | TargetUnpaired (owner_instance_id key target_instance_id target_link_id target_role
      pairing_name pairing_tag observed_role : String)
  | TargetHoldsSeveralPairs (owner_instance_id key target_instance_id target_link_id : String)
      (pair_count : Nat) (peers : String)
  | PairingSha256Mismatch (instance_a sha_a instance_b sha_b pairing_name pairing_tag : String)
  | DuplicateTarget (owner_instance_id link source_instance_id source_link_id : String)
  | SlotUncovered (instance_id link_id pairing_name pairing_tag role : String)
      (cardinality : Cardinality)

/-- The peers that each slot holds, in the running stack and in the plan. -/
def observable_pairs (planned : List PlannedPairing) (already_paired : AlreadyPairedSlots) :
    AlreadyPairedSlots := fun slot => already_paired slot ++ (claimsOf planned).get slot

def observer_shape_error (violation : CardinalityShapeViolation) (owner_id key : String) :
    ObservationError :=
  match violation with
  | .ArrayOnScalarSlot cardinality => .ArrayOnScalarSlot owner_id key cardinality
  | .ScalarOnMultiSlot cardinality => .ScalarOnMultiSlot owner_id key cardinality
  | .Unmet => .CardinalityUnmet owner_id key
  | .SingleSlotMultipleTargets cardinality count =>
    .SingleSlotMultipleTargets owner_id key cardinality count

/-! ## One slot -/

section
variable (owner_id : String) (own_dep : PairingObserverDependency) (key : String)

def on_pairing (dep : PairingParticipantDependency) : Bool :=
  dep.name = own_dep.name && dep.tag = own_dep.tag

variable (target_instance : String) (item : PairingValidationItem)
  (items : List PairingValidationItem) (placements : Placements) (pairs : AlreadyPairedSlots)

def not_observable : ObservationError :=
  .TargetNotObservable owner_id key target_instance item.node_name item.node_tag
    own_dep.name.as_str own_dep.tag own_dep.role

/-- The slots that a target without a link can mean. -/
def candidates : List PairingParticipantDependency :=
  let slots := item.pairing_deps.filter (on_pairing own_dep)
  let sources := slots.filter fun dep => dep.role = own_dep.role
  if sources.isEmpty then slots.filter fun dep => dep.role ≠ own_dep.role else sources

def resolve_end (requested_link : Option String)
    (item : PairingValidationItem) : Except ObservationError PairingParticipantDependency :=
  match requested_link with
  | some link =>
    match (item.pairing_deps.filter (on_pairing own_dep)).find? fun dep => dep.link_id = link with
    | some dep => .ok dep
    | none => .error (not_observable owner_id own_dep key target_instance item)
  | none =>
    match candidates own_dep item with
    | [] => .error (not_observable owner_id own_dep key target_instance item)
    | [single] => .ok single
    | first :: rest => .error (.TargetAmbiguous owner_id key target_instance own_dep.name.as_str
        own_dep.tag first.role (", ".intercalate ((first :: rest).map (·.link_id))))

structure ObservedEnd where
  slot : Slot
  sha256 : Option String
  peer : Option ObservedPeer

def observed_end (target_instance : String) (dep : PairingParticipantDependency) :
    Except ObservationError ObservedEnd :=
  if dep.role = own_dep.role then .ok ⟨(target_instance, dep.link_id), dep.sha256, none⟩
  else
    match pairs (target_instance, dep.link_id) with
    | [] => .error (.TargetUnpaired owner_id key target_instance dep.link_id dep.role
        own_dep.name.as_str own_dep.tag own_dep.role)
    | [pair] =>
      -- A peer that the plan does not see has no pin to compare.
      let peer_sha := ((build_instance_lookup items pair.1).bind fun item =>
        item.pairing_deps.find? fun dep => dep.link_id = pair.2).bind (·.sha256)
      .ok ⟨pair, peer_sha,
        some ⟨⟨placements.of target_instance, target_instance⟩, dep.link_id⟩⟩
    | several => .error (.TargetHoldsSeveralPairs owner_id key target_instance dep.link_id
        several.length (", ".intercalate (several.map fun pair => pair.1 ++ "/" ++ pair.2)))

def check_observed_pin (observed : ObservedEnd) : Except ObservationError Unit :=
  match own_dep.sha256, observed.sha256 with
  | some sha_own, some sha_source =>
    if sha_own = sha_source then .ok ()
    else .error (.PairingSha256Mismatch owner_id sha_own observed.slot.1 sha_source
      own_dep.name.as_str own_dep.tag)
  | _, _ => .ok ()

def resolve_observation (target : String) : Except ObservationError PlannedObservation := do
  let (target_instance, requested_link) := split_link_target target
  match build_instance_lookup items target_instance with
  | none => .error (.UnknownInstanceId owner_id key target_instance)
  | some item =>
    let dep ← resolve_end owner_id own_dep key target_instance requested_link item
    let observed ← observed_end owner_id own_dep key items placements pairs target_instance dep
    check_observed_pin owner_id own_dep observed
    .ok {
      observer_instance_id := owner_id
      observer_link_id := key
      pairing_name := own_dep.name.as_str
      pairing_tag := own_dep.tag
      observed_role := own_dep.role
      source := ⟨placements.of observed.slot.1, observed.slot.1⟩
      source_link_id := observed.slot.2
      peer := observed.peer }

def first_duplicate (seen : List (ProducerRef × String × Option ObservedPeer)) :
    List PlannedObservation → Option PlannedObservation
  | [] => none
  | observation :: rest =>
    if observation.target ∈ seen then some observation
    else first_duplicate (observation.target :: seen) rest

/-- The first observation of one pair of a slot that is also observed as a whole. -/
def first_overlap (planned : List PlannedObservation) : Option PlannedObservation :=
  planned.find? fun observation => observation.peer.isSome &&
    planned.any fun whole => whole.peer.isNone && whole.source = observation.source &&
      whole.source_link_id = observation.source_link_id

def errorsOf (results : List (Except ObservationError PlannedObservation)) :
    List ObservationError :=
  results.filterMap fun result => match result with
    | .error e => some e
    | .ok _ => none

def resolve_observation_slot (selection : Selection) (items : List PairingValidationItem)
    (placements : Placements) (pairs : AlreadyPairedSlots) :
    Except (List ObservationError) (List PlannedObservation) :=
  match check_cardinality_shape own_dep.cardinality selection with
  | .error violation => .error [observer_shape_error violation owner_id key]
  | .ok () =>
    let results := selection.targets.map
      (resolve_observation owner_id own_dep key items placements pairs)
    let planned := results.filterMap Except.toOption
    let duplicate (observation : PlannedObservation) : List ObservationError :=
      [.DuplicateTarget owner_id key observation.source.instance_id observation.source_link_id]
    if errorsOf results ≠ [] then .error (errorsOf results)
    else
      match first_duplicate [] planned with
      | some observation => .error (duplicate observation)
      | none =>
        match first_overlap planned with
        | some observation => .error (duplicate observation)
        | none => .ok planned

end

/-! ## All slots -/

def observer_coverage (item : ObservingItem) (entry : DeploymentInstance) : List ObservationError :=
  item.observer_deps.filterMap fun dep =>
    let covered := (entry.links.lookup dep.link_id).any fun value =>
      value.selection.isSome || dep.cardinality = .ZeroOrOne
    if covered || allows_empty dep.cardinality then none
    else some (.SlotUncovered entry.instance_id dep.link_id dep.name.as_str dep.tag dep.role
      dep.cardinality)

section
variable (items : List PairingValidationItem) (placements : Placements)
  (pairs : AlreadyPairedSlots)

/-- What one link of an instance adds, unless it is of another slot or vacant. -/
def link_observations (item : ObservingItem) (entry : DeploymentInstance)
    (link : String × LinkValue) : Except (List ObservationError) (List PlannedObservation) :=
  match item.observer_deps.find? fun dep => dep.link_id = link.1, link.2.selection with
  | some own_dep, some selection =>
    resolve_observation_slot entry.instance_id own_dep link.1 selection items placements pairs
  | _, _ => .ok []

def membersOf (result : Except (List ObservationError) (List PlannedObservation)) :
    List PlannedObservation :=
  match result with
  | .ok planned => planned
  | .error _ => []

def refusalsOf (result : Except (List ObservationError) (List PlannedObservation)) :
    List ObservationError :=
  match result with
  | .ok _ => []
  | .error errors => errors

end

structure ValidatedObservations where
  errors : List ObservationError
  planned : List PlannedObservation

def validate_observations (items : List ObservingItem) (placements : Placements)
    (pairs : AlreadyPairedSlots) : ValidatedObservations :=
  let lookup := items.map (·.toPairingValidationItem)
  let planned := items.filter fun item => !item.preexisting
  { errors := planned.flatMap fun item => item.instances.flatMap fun entry =>
      (entry.links.flatMap fun link =>
        refusalsOf (link_observations lookup placements pairs item entry link)) ++
      observer_coverage item entry
    planned := planned.flatMap fun item => item.instances.flatMap fun entry =>
      entry.links.flatMap fun link =>
        membersOf (link_observations lookup placements pairs item entry link) }

/-! ## Emissions -/

structure Emission where
  source : ProducerRef
  source_link_id : String
  peer : ObservedPeer

/-- A member without a peer covers its slot, one with a peer that pair alone. -/
def PlannedObservation.Subscribes (observation : PlannedObservation) (emission : Emission) : Prop :=
  observation.source = emission.source ∧ observation.source_link_id = emission.source_link_id ∧
    (observation.peer = none ∨ observation.peer = some emission.peer)

/-- No emission reaches a slot through both. -/
def Separate (x y : PlannedObservation) : Prop :=
  x.slot = y.slot → ∀ emission, ¬ (x.Subscribes emission ∧ y.Subscribes emission)

variable {items : List PairingValidationItem} {placements : Placements}
  {pairs : AlreadyPairedSlots} {owner_id key : String} {own_dep : PairingObserverDependency}
  {selection : Selection} {planned : List PlannedObservation} {observation : PlannedObservation}

theorem first_duplicate_eq_none {seen : List (ProducerRef × String × Option ObservedPeer)}
    (h : first_duplicate seen planned = none) :
    (∀ x ∈ planned, x.target ∉ seen) ∧ planned.Pairwise fun x y => x.target ≠ y.target := by
  induction planned generalizing seen with
  | nil => exact ⟨by simp, .nil⟩
  | cons x rest ih =>
    rw [first_duplicate] at h
    split at h
    · cases h
    next hnew =>
    obtain ⟨hseen, hrest⟩ := ih h
    refine ⟨forall_mem_cons.mpr ⟨hnew, fun y hy hin => ?_⟩, .cons (fun y hy heq => ?_) hrest⟩
    · exact hseen y hy (mem_cons_of_mem _ hin)
    · exact hseen y hy (by simp [heq])

theorem first_overlap_eq_none (h : first_overlap planned = none) {x y : PlannedObservation}
    (hx : x ∈ planned) (hy : y ∈ planned) (hsource : x.source = y.source)
    (hlink : x.source_link_id = y.source_link_id) (hpeer : x.peer = none) : y.peer = none := by
  by_contra hsome
  have hall := find?_eq_none.mp h y hy
  apply hall
  simp only [Bool.and_eq_true, Option.isSome_iff_ne_none, any_eq_true, Option.isNone_iff_eq_none,
    decide_eq_true_eq, ne_eq]
  exact ⟨hsome, x, hx, ⟨hpeer, hsource⟩, hlink⟩

theorem separate_of_checked (hduplicate : first_duplicate [] planned = none)
    (hoverlap : first_overlap planned = none) : planned.Pairwise Separate := by
  refine (first_duplicate_eq_none hduplicate).2.imp_of_mem fun {x y} hx hy hne => ?_
  rintro - emission ⟨⟨hsource, hlink, hpeer⟩, ⟨hsource', hlink', hpeer'⟩⟩
  have hsame : x.source = y.source := hsource.trans hsource'.symm
  have hsameLink : x.source_link_id = y.source_link_id := hlink.trans hlink'.symm
  apply hne
  -- the peers are both missing, or both the one that the emission addresses
  have heq : x.peer = y.peer := by
    rcases hpeer with hpeer | hpeer
    · rw [hpeer, first_overlap_eq_none hoverlap hx hy hsame hsameLink hpeer]
    · rcases hpeer' with hpeer' | hpeer'
      · rw [hpeer', first_overlap_eq_none hoverlap hy hx hsame.symm hsameLink.symm hpeer']
      · rw [hpeer, hpeer']
  rw [PlannedObservation.target, PlannedObservation.target, hsame, hsameLink, heq]

theorem resolve_observation_slot_ok
    (h : resolve_observation_slot owner_id own_dep key selection items placements pairs =
      .ok planned) : planned.Pairwise Separate ∧
      (∀ target ∈ selection.targets, ∃ observation ∈ planned,
        resolve_observation owner_id own_dep key items placements pairs target = .ok observation) ∧
      ∀ observation ∈ planned, ∃ target ∈ selection.targets,
        resolve_observation owner_id own_dep key items placements pairs target = .ok observation := by
  unfold resolve_observation_slot at h
  split at h
  · cases h
  dsimp only at h
  split at h
  · cases h
  next hnone =>
  split at h
  · cases h
  next hduplicate =>
  split at h
  · cases h
  next hoverlap =>
  cases h
  refine ⟨separate_of_checked hduplicate hoverlap, fun target htarget => ?_, ?_⟩
  · cases hresult : resolve_observation owner_id own_dep key items placements pairs target with
    | ok observation =>
      refine ⟨observation, mem_filterMap.mpr ⟨_, mem_map_of_mem htarget, ?_⟩, rfl⟩
      rw [hresult]
      rfl
    | error e =>
      have herror : e ∈ errorsOf (selection.targets.map
          (resolve_observation owner_id own_dep key items placements pairs)) :=
        mem_filterMap.mpr ⟨_, mem_map_of_mem htarget, by rw [hresult]⟩
      exact absurd (ne_nil_of_mem herror) hnone
  · intro observation hmem
    obtain ⟨result, hresult, hok⟩ := mem_filterMap.mp hmem
    obtain ⟨target, htarget, rfl⟩ := mem_map.mp hresult
    refine ⟨target, htarget, ?_⟩
    cases hcase : resolve_observation owner_id own_dep key items placements pairs target with
    | ok other =>
      rw [hcase] at hok
      cases hok
      rfl
    | error e =>
      rw [hcase] at hok
      cases hok

/-! ## Sources -/

theorem resolve_end_ok {target_instance : String} {requested : Option String}
    {item : PairingValidationItem} {dep : PairingParticipantDependency}
    (h : resolve_end owner_id own_dep key target_instance requested item = .ok dep) :
    dep ∈ item.pairing_deps ∧ dep.name = own_dep.name ∧ dep.tag = own_dep.tag := by
  have hslots : dep ∈ item.pairing_deps.filter (on_pairing own_dep) := by
    unfold resolve_end at h
    split at h
    · split at h
      · next hfind =>
        cases h
        exact mem_of_find?_eq_some hfind
      · cases h
    · split at h
      · cases h
      · next hsingle =>
        cases h
        have hmem : dep ∈ candidates own_dep item := by simp [hsingle]
        unfold candidates at hmem
        dsimp only at hmem
        split at hmem
        · exact (mem_filter.mp hmem).1
        · exact (mem_filter.mp hmem).1
      · cases h
  simpa [on_pairing] using hslots

theorem resolve_observation_ok {target : String}
    (h : resolve_observation owner_id own_dep key items placements pairs target = .ok observation) :
    observation.slot = (owner_id, key) ∧ observation.pairing_name = own_dep.name.as_str ∧
      observation.pairing_tag = own_dep.tag ∧ observation.observed_role = own_dep.role ∧
      ∃ dep observed, SlotOf items ((split_link_target target).1, dep.link_id) dep ∧
        dep.name = own_dep.name ∧ dep.tag = own_dep.tag ∧
        observed_end owner_id own_dep key items placements pairs (split_link_target target).1 dep =
          .ok observed ∧
        (observation.source.instance_id, observation.source_link_id) = observed.slot := by
  unfold resolve_observation at h
  dsimp only at h
  split at h
  · cases h
  next item hitem =>
  obtain ⟨dep, hdep, h⟩ := bind_ok.mp h
  obtain ⟨observed, hobserved, h⟩ := bind_ok.mp h
  obtain ⟨hmem, hname, htag⟩ := resolve_end_ok hdep
  obtain ⟨hin, entry, hentry, hid⟩ := lookup_mem hitem
  obtain ⟨-, -, h⟩ := bind_ok.mp h
  cases h
  exact ⟨rfl, rfl, rfl, rfl, dep, observed, ⟨item, hin, entry, hentry, hid, hmem, rfl⟩, hname,
    htag, hobserved, rfl⟩

/-- The running pairs and slots, which the plan may not all see. -/
structure RunningStack (items : List PairingValidationItem) where
  already_paired : AlreadyPairedSlots
  plays : Slot → Option (Name × String × String)
  seen : ∀ slot dep, SlotOf items slot dep → plays slot = some (dep.name, dep.tag, dep.role)
  held : ∀ slot, ∀ peer ∈ already_paired slot, ∀ name tag role, plays slot = some (name, tag, role) →
    ∃ role', plays peer = some (name, tag, role') ∧ role' ≠ role

variable (stack : RunningStack items)

/-- Each pairing has two roles. -/
def RunningStack.TwoRoles (roles : Name → String → String × String)
    (observers : List PairingObserverDependency) : Prop :=
  (∀ slot name tag role, stack.plays slot = some (name, tag, role) →
    role = (roles name tag).1 ∨ role = (roles name tag).2) ∧
  ∀ dep ∈ observers, dep.role = (roles dep.name dep.tag).1 ∨ dep.role = (roles dep.name dep.tag).2

theorem RunningStack.peer_plays {pairings : List PlannedPairing}
    (hjoins : ∀ pair ∈ pairings, Joins items pair) {slot peer : Slot}
    (hpeer : peer ∈ observable_pairs pairings stack.already_paired slot) {name : Name}
    {tag role : String} (hslot : stack.plays slot = some (name, tag, role)) :
    ∃ role', stack.plays peer = some (name, tag, role') ∧ role' ≠ role := by
  rcases mem_append.mp hpeer with hheld | hplanned
  · exact stack.held slot peer hheld name tag role hslot
  obtain ⟨pair, hpair, hbetween⟩ := mem_get_claimsOf.mp hplanned
  obtain ⟨own, other, hown, hother, ⟨hname, htag⟩, hrole, -⟩ := hjoins pair hpair
  have hown := stack.seen _ _ hown
  have hother := stack.seen _ _ hother
  rcases hbetween with ⟨rfl, rfl⟩ | ⟨rfl, rfl⟩
  · rw [hown] at hslot
    cases hslot
    exact ⟨other.role, by rw [hother, hname, htag], hrole.symm⟩
  · rw [hother] at hslot
    cases hslot
    exact ⟨own.role, by rw [hown, hname, htag], hrole⟩

theorem RunningStack.source_plays {pairings : List PlannedPairing}
    (hjoins : ∀ pair ∈ pairings, Joins items pair)
    {roles : Name → String → String × String} {observers : List PairingObserverDependency}
    (hroles : stack.TwoRoles roles observers) (hdep : own_dep ∈ observers) {target : String}
    (h : resolve_observation owner_id own_dep key items placements
      (observable_pairs pairings stack.already_paired) target = .ok observation) :
    stack.plays (observation.source.instance_id, observation.source_link_id) =
      some (own_dep.name, own_dep.tag, own_dep.role) := by
  obtain ⟨-, -, -, -, dep, observed, hslot, hname, htag, hobserved, hsource⟩ :=
    resolve_observation_ok h
  have hplays := stack.seen _ _ hslot
  rw [hname, htag] at hplays
  rw [hsource]
  unfold observed_end at hobserved
  split at hobserved
  · next hrole =>
    cases hobserved
    rw [hplays, hrole]
  next hrole =>
  split at hobserved
  · cases hobserved
  · next pair hheld =>
    cases hobserved
    have hin : pair ∈ observable_pairs pairings stack.already_paired
        ((split_link_target target).1, dep.link_id) := by simp [hheld]
    obtain ⟨role', hpeer, hne⟩ := stack.peer_plays hjoins hin hplays
    -- of the two roles, the peer plays the one that the far end does not
    have hends := hroles.1 _ _ _ _ hplays
    have hpeers := hroles.1 _ _ _ _ hpeer
    have hown := hroles.2 own_dep hdep
    rw [hpeer]
    grind
  · cases hobserved

/-! ## The plan as a whole -/

section
variable {plan : List ObservingItem} {item : ObservingItem} {entry : DeploymentInstance}
  {link : String × LinkValue}

theorem link_observations_slot
    (h : observation ∈ membersOf (link_observations items placements pairs item entry link)) :
    observation.slot = (entry.instance_id, link.1) ∧ ∃ own_dep ∈ item.observer_deps,
      ∃ target, resolve_observation entry.instance_id own_dep link.1 items placements pairs target =
        .ok observation := by
  unfold link_observations at h
  split at h
  · next own_dep selection hdep _ =>
    cases hresult : resolve_observation_slot entry.instance_id own_dep link.1 selection items
        placements pairs with
    | ok planned =>
      rw [hresult] at h
      obtain ⟨target, -, hok⟩ := (resolve_observation_slot_ok hresult).2.2 observation h
      exact ⟨(resolve_observation_ok hok).1, own_dep, mem_of_find?_eq_some hdep, target, hok⟩
    | error errors =>
      rw [hresult] at h
      cases h
  · cases h

theorem link_observations_separate :
    (membersOf (link_observations items placements pairs item entry link)).Pairwise Separate := by
  unfold link_observations
  split
  · next own_dep selection _ _ =>
    cases hresult : resolve_observation_slot entry.instance_id own_dep link.1 selection items
        placements pairs with
    | ok planned => exact (resolve_observation_slot_ok hresult).1
    | error errors => exact .nil
  · exact .nil

theorem mem_entry_slot (h : observation ∈ entry.links.flatMap fun link =>
      membersOf (link_observations items placements pairs item entry link)) :
    observation.slot.1 = entry.instance_id := by
  obtain ⟨link, -, hmem⟩ := mem_flatMap.mp h
  rw [(link_observations_slot hmem).1]

theorem mem_item_slot (h : observation ∈ item.instances.flatMap fun entry =>
      entry.links.flatMap fun link =>
        membersOf (link_observations items placements pairs item entry link)) :
    observation.slot.1 ∈ item.instances.map (·.instance_id) := by
  obtain ⟨entry, hentry, hmem⟩ := mem_flatMap.mp h
  rw [mem_entry_slot hmem]
  exact mem_map_of_mem hentry

theorem observations_separate (hids : (instanceIds (plan.map (·.toPairingValidationItem))).Nodup) :
    (validate_observations plan placements pairs).planned.Pairwise Separate := by
  rw [instanceIds, flatMap_map] at hids
  obtain ⟨hinside, hacross⟩ := nodup_flatMap.mp hids
  refine pairwise_flatMap.mpr ⟨fun item hitem => ?_, ?_⟩
  · refine pairwise_flatMap.mpr ⟨fun entry _ => ?_, ?_⟩
    · refine pairwise_flatMap.mpr ⟨fun link _ => link_observations_separate, ?_⟩
      refine (pairwise_map.mp entry.keys_nodup).imp fun hne x hx y hy hslot => ?_
      rw [(link_observations_slot hx).1, (link_observations_slot hy).1] at hslot
      exact absurd (congrArg Prod.snd hslot) hne
    · have hids := hinside item (mem_of_mem_filter hitem)
      refine (pairwise_map.mp hids).imp fun hne x hx y hy hslot => ?_
      rw [← mem_entry_slot hx, ← mem_entry_slot hy] at hne
      exact absurd (congrArg Prod.fst hslot) hne
  · refine (hacross.filter _).imp fun hdisjoint x hx y hy hslot => ?_
    exact absurd (mem_item_slot hy) (hslot ▸ hdisjoint (mem_item_slot hx))

theorem observation_of_link (hids : (instanceIds (plan.map (·.toPairingValidationItem))).Nodup)
    (h : observation ∈ (validate_observations plan placements pairs).planned) (hitem : item ∈ plan)
    (hentry : entry ∈ item.instances) (hlink : link ∈ entry.links)
    (hslot : observation.slot = (entry.instance_id, link.1)) :
    observation ∈ membersOf (link_observations (plan.map (·.toPairingValidationItem)) placements
      pairs item entry link) := by
  obtain ⟨item', hitem', h⟩ := mem_flatMap.mp h
  obtain ⟨entry', hentry', h⟩ := mem_flatMap.mp h
  obtain ⟨link', hlink', h⟩ := mem_flatMap.mp h
  have hsame := hslot.symm.trans (link_observations_slot h).1
  rw [instanceIds, flatMap_map] at hids
  obtain ⟨hinside, hacross⟩ := nodup_flatMap.mp hids
  have hitems : item = item' := by
    by_contra hne
    have : Std.Symm (Function.onFun List.Disjoint
        fun item : ObservingItem => item.instances.map (·.instance_id)) :=
      ⟨fun _ _ h => List.Disjoint.symm h⟩
    refine hacross.forall hitem (mem_of_mem_filter hitem') hne (mem_map_of_mem hentry) ?_
    rw [show entry.instance_id = entry'.instance_id from congrArg Prod.fst hsame]
    exact mem_map_of_mem hentry'
  subst hitems
  obtain rfl := inj_on_of_nodup_map (hinside item hitem) hentry hentry' (congrArg Prod.fst hsame)
  obtain rfl := inj_on_of_nodup_map entry.keys_nodup hlink hlink' (congrArg Prod.snd hsame)
  exact h

end

/-- No observer slot receives an emission through two members, each source plays the
observed role, and a slot with a target that fails has no member. -/
theorem no_emission_is_received_twice (plan : List ObservingItem) (placements : Placements)
    (externally_covered : ExternallyCoveredSlots)
    (stack : RunningStack (plan.map (·.toPairingValidationItem)))
    (hids : (instanceIds (plan.map (·.toPairingValidationItem))).Nodup) :
    let items := plan.map (·.toPairingValidationItem)
    let pairings := validate_pairings items stack.already_paired externally_covered
    let pairs := observable_pairs pairings.planned stack.already_paired
    let planned := (validate_observations plan placements pairs).planned
    planned.Pairwise Separate ∧
      (pairings.errors = [] → ∀ roles, stack.TwoRoles roles (plan.flatMap (·.observer_deps)) →
        ∀ observation ∈ planned, ∃ name : Name, name.as_str = observation.pairing_name ∧
          stack.plays (observation.source.instance_id, observation.source_link_id) =
            some (name, observation.pairing_tag, observation.observed_role)) ∧
      ∀ item ∈ plan, ∀ entry ∈ item.instances, ∀ link ∈ entry.links, ∀ own_dep selection,
        item.observer_deps.find? (fun dep => dep.link_id = link.1) = some own_dep →
        link.2.selection = some selection → ∀ target ∈ selection.targets, ∀ e,
        resolve_observation entry.instance_id own_dep link.1 items placements pairs target =
          .error e → ∀ observation ∈ planned, observation.slot ≠ (entry.instance_id, link.1) := by
  intro items pairings pairs planned
  refine ⟨observations_separate hids, ?_, ?_⟩
  · intro _ roles hroles observation hmem
    obtain ⟨item, hitem, hmem⟩ := mem_flatMap.mp hmem
    obtain ⟨entry, -, hmem⟩ := mem_flatMap.mp hmem
    obtain ⟨link, -, hmem⟩ := mem_flatMap.mp hmem
    obtain ⟨-, own_dep, hdep, target, hok⟩ := link_observations_slot hmem
    obtain ⟨-, hname, htag, hrole, -⟩ := resolve_observation_ok hok
    refine ⟨own_dep.name, hname.symm, ?_⟩
    rw [htag, hrole]
    exact stack.source_plays (sound_pairPlan hids).1.joins hroles
      (mem_flatMap.mpr ⟨item, mem_of_mem_filter hitem, hdep⟩) hok
  · intro item hitem entry hentry link hlink own_dep selection hfind hselection target htarget e
      herror observation hmem hslot
    have hlinkMem := observation_of_link hids hmem hitem hentry hlink hslot
    rw [link_observations, hfind, hselection] at hlinkMem
    dsimp only at hlinkMem
    cases hresult : resolve_observation_slot entry.instance_id own_dep link.1 selection items
        placements pairs with
    | error errors =>
      rw [hresult] at hlinkMem
      cases hlinkMem
    | ok members =>
      obtain ⟨_, -, hok⟩ := (resolve_observation_slot_ok hresult).2.1 target htarget
      cases herror.symm.trans hok

def playsIn (items : List PairingValidationItem) (slot : Slot) : Option (Name × String × String) :=
  ((build_instance_lookup items slot.1).bind fun item =>
    item.pairing_deps.find? fun dep => dep.link_id = slot.2).map
      fun dep => (dep.name, dep.tag, dep.role)

theorem playsIn_eq {items : List PairingValidationItem} (hids : (instanceIds items).Nodup)
    {slot : Slot} {dep : PairingParticipantDependency} (h : SlotOf items slot dep) :
    playsIn items slot = some (dep.name, dep.tag, dep.role) := by
  obtain ⟨item, hitem, entry, hentry, hid, hdep, hlink⟩ := h
  obtain ⟨found, hfound⟩ := lookup_isSome hitem hentry rfl
  obtain ⟨hin, entry', hentry', hid'⟩ := lookup_mem hfound
  obtain ⟨rfl, -⟩ := item_unique hids hin hitem hentry' hentry hid'
  simp only [playsIn, ← hid, hfound, Option.bind_some, ← hlink, find?_link_id hdep, Option.map_some]

def runningItems : List PairingValidationItem :=
  [{ node_name := "gripper", node_tag := "v2", instances := [⟨"gripper_2", [], nodup_nil⟩]
     pairing_deps := [mountSlot "tool" "mount" .One], link_ids_nodup := nodup_singleton "mount"
     preexisting := true },
   { node_name := "arm", node_tag := "v2", instances := [⟨"arm_2", [], nodup_nil⟩]
     pairing_deps := [mountSlot "carrier" "tool" .One], link_ids_nodup := nodup_singleton "tool"
     preexisting := true }]

/-- The recorder names the gripper of a pair of the plan and the arm of a running one. -/
def recordedPlan : List ObservingItem :=
  ((armPlan ++ runningItems).map fun item => { item with observer_deps := [] }) ++
  [{ node_name := "recorder", node_tag := "v1"
     instances := [⟨"recorder_1", [("grips", .Bound (.Array ["gripper_1", "arm_2"]))], by decide⟩]
     pairing_deps := [], preexisting := false
     observer_deps := [⟨mountName, "v1", "tool", "grips", none, .OneOrMore⟩] }]

def recordedItems : List PairingValidationItem := recordedPlan.map (·.toPairingValidationItem)

def runningPair : AlreadyPairedSlots := fun slot =>
  if slot = ("arm_2", "tool") then [("gripper_2", "mount")]
  else if slot = ("gripper_2", "mount") then [("arm_2", "tool")]
  else []

def recordedStack (hids : (instanceIds recordedItems).Nodup) : RunningStack recordedItems where
  already_paired := runningPair
  plays := playsIn recordedItems
  seen := fun _ _ => playsIn_eq hids
  held := by
    have harm : playsIn recordedItems ("arm_2", "tool") = some (mountName, "v1", "carrier") := by
      decide +kernel
    have hgripper : playsIn recordedItems ("gripper_2", "mount") =
        some (mountName, "v1", "tool") := by decide +kernel
    intro slot peer hpeer name tag role hplays
    unfold runningPair at hpeer
    split_ifs at hpeer with hslot hslot
    · cases mem_singleton.mp hpeer
      cases (hslot ▸ hplays).symm.trans harm
      exact ⟨_, hgripper, by decide⟩
    · cases mem_singleton.mp hpeer
      cases (hslot ▸ hplays).symm.trans hgripper
      exact ⟨_, harm, by decide⟩
    · cases hpeer

theorem the_recorder_of_a_gripper :
    let pairings := validate_pairings recordedItems runningPair []
    let planned := (validate_observations recordedPlan ⟨fun _ => none, "core"⟩
      (observable_pairs pairings.planned runningPair)).planned
    (instanceIds recordedItems).Nodup ∧ pairings.errors = [] ∧
      planned.map (·.target) = [(⟨"core", "gripper_1"⟩, "mount", none),
        (⟨"core", "gripper_2"⟩, "mount", some ⟨⟨"core", "arm_2"⟩, "tool"⟩)] ∧
      planned.Pairwise Separate ∧
      ∀ observation ∈ planned, ∃ name : Name, name.as_str = observation.pairing_name ∧
        playsIn recordedItems (observation.source.instance_id, observation.source_link_id) =
          some (name, observation.pairing_tag, observation.observed_role) := by
  intro pairings planned
  have hids : (instanceIds recordedItems).Nodup := by decide
  have herrors : pairings.errors = [] := by decide +kernel
  have hroles : (recordedStack hids).TwoRoles (fun _ _ => ("tool", "carrier"))
      (recordedPlan.flatMap (·.observer_deps)) := by
    refine ⟨fun slot name tag role hplays => ?_, by decide⟩
    obtain ⟨dep, hdep, heq⟩ := Option.map_eq_some_iff.mp hplays
    obtain ⟨item, hitem, hdep⟩ := Option.bind_eq_some_iff.mp hdep
    cases heq
    have hall : ∀ item ∈ recordedItems, ∀ dep ∈ item.pairing_deps,
        dep.role = "tool" ∨ dep.role = "carrier" := by decide
    exact hall item (lookup_mem hitem).1 dep (mem_of_find?_eq_some hdep)
  obtain ⟨hseparate, hplays, -⟩ := no_emission_is_received_twice recordedPlan
    ⟨fun _ => none, "core"⟩ [] (recordedStack hids) hids
  exact ⟨hids, herrors, by decide +kernel, hseparate, hplays herrors _ hroles⟩

end peppy.launcher
