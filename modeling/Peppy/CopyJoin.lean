-- The join of a copy to a running stack, which releases vacant slots and adds its
-- instances to set slots, and its removal, which takes them out and puts the
-- vacancies back.
import Peppy.CopyFold

open keymap results

namespace peppy.compose

open launcher (Selection LinkValue split_link_target)

variable {V : Type}

/-- A flat launcher by its instance ids, each with the source of its deployment. -/
structure FlatStack (V : Type) where
  instances : KeyMap String (String × DeploymentInstance V)
  core_nodes : List String
  deriving DecidableEq

/-- The instances of the bare stack by their ids. -/
def Expanded.running (bare : Expanded V) : KeyMap String (String × DeploymentInstance V) :=
  (bare.deployments.flatMap fun deployment => deployment.instances.map fun inst =>
    (inst.instance_id, deployment.source, inst)).foldl (fun m entry => m.insert entry.1 entry.2) {}

/-- A copy of its own ids over the bare stack, which alone it writes to. -/
structure JoinedCopy (V : Type) (bare : KeyMap String (String × DeploymentInstance V)) extends
    ComposedCopy V where
  own_link : core_nodes = [name]
  minted : ∀ id ∈ ids deployments, bare.get id = none
  writes : ∀ entry ∈ stack_writes, bare.get entry.instance_id ≠ none

variable {bare : KeyMap String (String × DeploymentInstance V)}

namespace JoinedCopy

variable (copy : JoinedCopy V bare)

def owns (target : String) : Bool :=
  (split_link_target target).1 ∈ ids copy.deployments

/-- Whether an instance of the copy links into the slot, or to the instance alone. -/
def pairs_into (instance_id slot : String) : Bool :=
  (instances copy.deployments).any fun inst => inst.links.entries.any fun link =>
    (link.2.selection.elim [] Selection.targets).any fun target =>
      (split_link_target target).1 = instance_id &&
        (split_link_target target).2.all fun named => named = slot

def set_members : List (String × String × String) :=
  copy.stack_writes.filterMap fun entry =>
    match entry.write with
    | .LinkAdded slot target => some (entry.instance_id, slot, target)
    | _ => none

def released_vacancies : List (String × String) :=
  copy.stack_writes.filterMap fun entry =>
    match entry.write with
    | .LinkRemoved slot _ => some (entry.instance_id, slot)
    | _ => none

end JoinedCopy

/-! ## The join -/

section
variable [DecidableEq V] (render : Rendering V) (copy : JoinedCopy V bare)

def held {α : Type} [DecidableEq α] (id : String) (inst : DeploymentInstance V) (field : String)
    (text : α → String) (old : Option α) (new : α) : Except CompositionError (DeploymentInstance V) :=
  if old = some new then .ok inst
  else .error (.JoinChangesExisting copy.name id
    (field ++ ": " ++ (old.map text).getD "(absent)" ++ " -> " ++ text new))

def held_link (id : String) (inst : DeploymentInstance V) (field slot : String) (new : LinkValue) :
    Except CompositionError (DeploymentInstance V) :=
  match inst.links.get slot with
  | some (.Vacant reason) =>
    if LinkValue.Vacant reason = new then .ok inst
    else .error (.JoinChangesExisting copy.name id (field ++
      " is vacant; pair into it from the copy's own instance `links` and release it with " ++
      "`unset_links`"))
  | old => held copy id inst field render.link old new

def attach_write (id : String) (inst : DeploymentInstance V) (write : AppliedChange V) :
    Except CompositionError (DeploymentInstance V) :=
  match write with
  | .Argument key _ new => held copy id inst write.field render.value (inst.arguments.get key) new
  | .LinkSet slot _ new => held_link render copy id inst write.field slot new
  | .LinkRemoved slot _ =>
    match inst.links.get slot with
    | none => .ok inst
    | some (.Vacant _) =>
      if copy.pairs_into id slot then
        .ok { inst with links := inst.links.remove slot }
      else .error (.JoinReleasesUnpairedVacancy copy.name id slot)
    | some bound => .error (.JoinChangesExisting copy.name id
        (write.field ++ ": " ++ render.link bound ++ " -> (absent)"))
  | .LinkAdded slot target =>
    if copy.owns target then apply_write inst write ("copy `" ++ copy.name ++ "`")
    else .error (.JoinAddsStackMember copy.name id slot target)
  | .Clock _ new => held copy id inst write.field (fun clock => clock) inst.clock new
  | .Restart _ new => held copy id inst write.field render.restart inst.restart new
  | .EnvFromLaunch _ new =>
    held copy id inst write.field render.launch_variables (some inst.env_from_launch) new
  | .DaemonScope daemon_target _ new =>
    held copy id inst write.field render.value (inst.daemon_scopes.get daemon_target) new

def attach_writes : KeyMap String (String × DeploymentInstance V) → List (StackWriteEntry V) →
    Except CompositionError (KeyMap String (String × DeploymentInstance V))
  | running, [] => .ok running
  | running, entry :: entries =>
    match running.get entry.instance_id with
    | none => .error (.JoinChangesExisting copy.name entry.instance_id "the instance is not running")
    | some (source, inst) => do
      let inst ← attach_write render copy entry.instance_id inst entry.write
      attach_writes (running.insert entry.instance_id (source, inst)) entries

def own_entries : List (String × String × DeploymentInstance V) :=
  copy.deployments.flatMap fun deployment => deployment.instances.map fun inst =>
    (inst.instance_id, deployment.source, inst)

def join (existing : FlatStack V) : Except CompositionError (FlatStack V) := do
  if copy.name ∈ existing.core_nodes then throw (.NameIsCoreNodeLink copy.name)
  let attached ← attach_writes render copy existing.instances copy.stack_writes
  match (ids copy.deployments).find? fun id => attached.contains id with
  | some id => .error (.PrefixedIdCollision copy.name id)
  | none => .ok {
      instances := (own_entries copy).foldl (fun m entry => m.insert entry.1 entry.2) attached
      core_nodes := copy.core_nodes.foldl add_core_node_link existing.core_nodes }

end

/-! ## The removal -/

def drop_member (inst : DeploymentInstance V) (slot target : String) :
    Except CompositionError (DeploymentInstance V) :=
  match inst.links.get slot with
  | some (.Bound (.Array targets)) => .ok { inst with
      links := inst.links.insert slot (.Bound (.Array (targets.filter fun t => t ≠ target))) }
  | _ => .error (.Panicked "the slot holds a member of a copy, so it holds an array")

def drop_members : KeyMap String (String × DeploymentInstance V) →
    List (String × String × String) →
    Except CompositionError (KeyMap String (String × DeploymentInstance V))
  | remaining, [] => .ok remaining
  | remaining, (id, slot, target) :: members =>
    match remaining.get id with
    | none => .error (.Panicked
        "a copy's members join bare-stack instances, which a removal never drops")
    | some (source, inst) => do
      let inst ← drop_member inst slot target
      drop_members (remaining.insert id (source, inst)) members

def linked (remaining : KeyMap String (String × DeploymentInstance V)) (removed : List String) :
    List String :=
  remaining.entries.flatMap fun entry => entry.2.2.links.entries.flatMap fun link =>
    ((link.2.selection.elim [] Selection.targets).filter fun target =>
      (split_link_target target).1 ∈ removed).map fun target =>
        entry.1 ++ "." ++ link.1 ++ " -> " ++ target

/-- The vacancies that the bare stack declares, but those that are released. -/
def vacancies (bare : KeyMap String (String × DeploymentInstance V))
    (released : List (String × String)) : List (String × String × LinkValue) :=
  bare.entries.flatMap fun entry => entry.2.2.links.entries.filterMap fun link =>
    if link.2.vacancy.isSome ∧ (entry.1, link.1) ∉ released then some (entry.1, link.1, link.2)
    else none

def restore_vacancy (remaining : KeyMap String (String × DeploymentInstance V))
    (vacancy : String × String × LinkValue) : KeyMap String (String × DeploymentInstance V) :=
  match remaining.get vacancy.1 with
  | none => remaining
  | some (source, inst) =>
    match inst.links.get vacancy.2.1 with
    | some _ => remaining
    | none => remaining.insert vacancy.1
        (source, { inst with links := inst.links.insert vacancy.2.1 vacancy.2.2 })

def restore_vacancies (remaining bare : KeyMap String (String × DeploymentInstance V))
    (released : List (String × String)) : KeyMap String (String × DeploymentInstance V) :=
  (vacancies bare released).foldl restore_vacancy remaining

def remove_ids (instances : KeyMap String (String × DeploymentInstance V)) (removed : List String) :
    KeyMap String (String × DeploymentInstance V) :=
  removed.foldl KeyMap.remove instances

def detach (existing : FlatStack V) (copy : JoinedCopy V bare) (released : List (String × String)) :
    Except CompositionError (FlatStack V) := do
  let removed := ids copy.deployments
  let remaining := remove_ids existing.instances removed
  let remaining ← drop_members remaining copy.set_members
  if (linked remaining removed).isEmpty then
    return {
      instances := restore_vacancies remaining bare released
      core_nodes := existing.core_nodes.filter fun link => link ≠ copy.name }
  else throw (.CopyStillLinked copy.name (linked remaining removed))

/-- The removal of a copy. `recomposed` are the others, composed from their records. -/
def remove (existing : FlatStack V) (copy : JoinedCopy V bare)
    (recomposed : List (JoinedCopy V bare)) : Except CompositionError (FlatStack V) :=
  detach existing copy (recomposed.flatMap JoinedCopy.released_vacancies)

end peppy.compose
