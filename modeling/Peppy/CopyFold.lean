-- The copies of a stack: one option of a copy axis composed under a name, its
-- ids minted under that name, and folded into the stack at launch.
import Peppy.Expansion

open changes keymap results

namespace peppy.compose

open launcher (Selection LinkValue split_link_target)
open supervision (RestartDeclaration)

variable {V : Type}

/-! ## The names of a copy -/

def instance_id_in_copy (copy id : String) : String := copy ++ "_" ++ id

def mint (name : String) (owned : List String) (id : String) : String :=
  if id ∈ owned then instance_id_in_copy name id else id

def rewrite (name : String) (owned : List String) (target : String) : String :=
  let (id, suffix) := split_link_target target
  if id ∈ owned then
    match suffix with
    | some link => instance_id_in_copy name id ++ "/" ++ link
    | none => instance_id_in_copy name id
  else target

section
variable (rw' : String → String)

/-- The link value with its targets renamed, when no target is then there twice. -/
def rewrite_link : LinkValue → Except String LinkValue
  | .Bound (.Scalar target) => .ok (.Bound (.Scalar (rw' target)))
  | .Bound (.Array targets) => do return .Bound (.Array (← link_targets (targets.map rw')))
  | .Bound (.Flags targets) => do return .Bound (.Flags (← link_targets (targets.map rw')))
  | .Vacant reason => .ok (.Vacant reason)

def rewrite_old : Option LinkValue → Except String (Option LinkValue)
  | some old => (rewrite_link rw' old).map some
  | none => .ok none

def rewrite_change : AppliedChange V → Except String (AppliedChange V)
  | .LinkSet slot old new => do
    let old ← rewrite_old rw' old
    return .LinkSet slot old (← rewrite_link rw' new)
  | .LinkAdded slot target => .ok (.LinkAdded slot (rw' target))
  | .LinkRemoved slot old => do return .LinkRemoved slot (← rewrite_link rw' old)
  | change => .ok change

def rewrite_report (copy : String) (owned : List String) :
    List (AppliedAdjustment V) → Except CompositionError (List (AppliedAdjustment V))
  | [] => .ok []
  | entry :: entries => do
    let change ← (rewrite_change rw' entry.change).mapError
      (.PrefixedLinksCollide copy (mint copy owned entry.target))
    let entries ← rewrite_report copy owned entries
    return { entry with target := mint copy owned entry.target, change } :: entries

def rewrite_links (copy : String) (inst : DeploymentInstance V) :
    List (String × LinkValue) → Except CompositionError (List (String × LinkValue))
  | [] => .ok []
  | (slot, value) :: links => do
    let value ← (rewrite_link rw' value).mapError (.PrefixedLinksCollide copy inst.instance_id)
    let links ← rewrite_links copy inst links
    return (slot, value) :: links

theorem keys_of_rewrite_links {copy : String} {inst : DeploymentInstance V}
    {links links' : List (String × LinkValue)} (h : rewrite_links rw' copy inst links = .ok links') :
    links'.map Prod.fst = links.map Prod.fst := by
  induction links generalizing links' with
  | nil =>
    cases h
    rfl
  | cons entry links ih =>
    obtain ⟨value, -, h⟩ := bind_ok.mp h
    obtain ⟨rest, hrest, h⟩ := bind_ok.mp h
    cases h
    rw [List.map_cons, List.map_cons, ih hrest]

/-- An owned instance under its minted id, placed on the machine of the copy. -/
def mint_instance (copy : String) (inst : DeploymentInstance V) :
    Except CompositionError (DeploymentInstance V) :=
  match h : rewrite_links rw' copy inst inst.links.entries with
  | .error error => .error error
  | .ok links =>
    match inst.core_node with
    | some core_node => .error (.CopyInstancePlaced copy inst.instance_id core_node)
    | none => .ok { inst with
        instance_id := instance_id_in_copy copy inst.instance_id
        links := ⟨links, keys_of_rewrite_links rw' h ▸ inst.links.nodup⟩
        core_node := some copy }

def mint_instances (copy : String) (owned : List String) :
    List (DeploymentInstance V) → Except CompositionError (List (DeploymentInstance V))
  | [] => .ok []
  | inst :: insts =>
    if inst.instance_id ∈ owned then do
      let minted ← mint_instance rw' copy inst
      return minted :: (← mint_instances copy owned insts)
    else mint_instances copy owned insts

def mint_deployments (copy : String) (owned : List String) :
    List (Deployment V) → Except CompositionError (List (Deployment V))
  | [] => .ok []
  | deployment :: deployments => do
    let insts ← mint_instances rw' copy owned deployment.instances
    let rest ← mint_deployments copy owned deployments
    return if insts.isEmpty then rest else ⟨deployment.source, insts⟩ :: rest

end

/-! ## One copy -/

/-- A copy over the stack: its fragments, the verdict, the adjustments that reach it. -/
structure CopyOverStack (V : Type) where
  selection : List (String × String)
  fragments : List (LoadedFragment V)
  verdict : Except CompositionError PUnit
  launcher_adjustments : List (OriginatedAdjustment V)

/-- What one copy is asked to be. `resolved` is what its own axes resolve to. -/
structure CopyRequest (V : Type) where
  name : String
  option : String
  resolved : Except CompositionError (CopyOverStack V)
  arguments : List (String × List (String × V)) := []
  adjustments : List (OriginatedAdjustment V) := []

structure StackWriteEntry (V : Type) where
  instance_id : String
  write : AppliedChange V

structure ComposedCopy (V : Type) where
  name : String
  option : String
  deployments : List (Deployment V)
  stack_writes : List (StackWriteEntry V)
  core_nodes : List String

variable (bare : Expanded V) (request : CopyRequest V) (copy : String)
  (fragments : List (LoadedFragment V))

def node_ids : List String :=
  ((fragments.flatMap fun fragment => ids fragment.deployments).insertionSort (· ≤ ·)).dedup

def declared_clock : Option (String × String) :=
  fragments.findSome? fun fragment => fragment.clocks.head?.map fun domain =>
    (fragment.origin, domain)

def refuse_fragment_restart : Except CompositionError PUnit :=
  match fragments.find? fun fragment => fragment.restart with
  | some fragment => .error (.FragmentDeclaresRestart fragment.origin)
  | none => .ok ⟨⟩

def copy_unit (laid : CopyOverStack V) : Unit V where
  base := bare.deployments.map fun deployment => (deployment, "the stack")
  fragments := laid.fragments
  launcher_adjustments := laid.launcher_adjustments
  copy_adjustments := request.adjustments
  selection := laid.selection

def override_arguments (origin : String) (inst : DeploymentInstance V) :
    List (String × V) → DeploymentInstance V × List (AppliedAdjustment V)
  | [] => (inst, [])
  | (key, value) :: rest =>
    let made := override_arguments origin
      { inst with arguments := inst.arguments.insert key value } rest
    (made.1, ⟨inst.instance_id, .Argument key (inst.arguments.get key) value, origin⟩ :: made.2)

/-- The arguments of the copy over its own instances, after every adjustment. -/
def apply_overrides (name : String) (owned : List String) :
    List (Deployment V) → List (String × List (String × V)) →
      Except CompositionError (List (Deployment V) × List (AppliedAdjustment V))
  | deployments, [] => .ok (deployments, [])
  | deployments, (target, overrides) :: rest =>
    if target ∈ owned then
      match instance_named deployments target with
      | none => .error (.Panicked "an owned id is an instance of the expanded copy")
      | some inst => do
        let (inst, applied) :=
          override_arguments ("arguments of copy `" ++ name ++ "`") inst overrides
        let (deployments, later) ← apply_overrides name owned (put target inst deployments) rest
        return (deployments, applied ++ later)
    else .error (.ArgumentTargetAbsent name target owned)

/-- A scope belongs to the stack: a copy that sets one is refused. -/
def refuse_daemon_scopes (copy option : String) (applied : List (AppliedAdjustment V)) :
    Except CompositionError PUnit :=
  match applied.findSome? fun entry =>
    match entry.change with
    | .DaemonScope daemon_target _ _ => some (entry, daemon_target)
    | _ => none with
  | some (entry, daemon_target) =>
    .error (.CopySetsDaemonScope copy option entry.target daemon_target entry.origin)
  | none => .ok ⟨⟩

/-- The checks before a copy expands, and the ids that its fragments deploy. -/
def check_copy (laid : CopyOverStack V) : Except CompositionError (List String) := do
  if let some (origin, domain) := declared_clock laid.fragments then
    throw (.CopyFragmentDeclaresClock origin request.name domain)
  refuse_fragment_restart laid.fragments
  let owned := node_ids laid.fragments
  if owned.isEmpty then throw (.CopyStartsNothing request.name request.option)
  if let some reused := owned.find? fun id => id ∈ ids bare.deployments then
    throw (.CopyReusesStackId request.option reused)
  laid.verdict
  return owned

def compose_copy (taken : List String) : Except CompositionError (ComposedCopy V) := do
  if request.name ∈ taken then throw (.NameIsCoreNodeLink request.name)
  let laid ← request.resolved
  let owned ← check_copy bare request laid
  let expanded ← expand_unit (copy_unit bare request laid) []
  let (deployments, overridden) ←
    apply_overrides request.name owned expanded.deployments request.arguments
  let minted := owned.map (instance_id_in_copy request.name)
  if let some id := minted.find? fun id => id ∈ ids bare.deployments then
    throw (.PrefixedIdCollision request.name id)
  let rw' := rewrite request.name owned
  let deployments ← mint_deployments rw' request.name owned deployments
  let applied ← rewrite_report rw' request.name owned (expanded.applied ++ overridden)
  refuse_daemon_scopes request.name request.option applied
  return {
    name := request.name
    option := request.option
    deployments
    stack_writes := (applied.filter fun entry => entry.target ∉ minted).map fun entry =>
      ⟨entry.target, entry.change⟩
    core_nodes := expanded.core_nodes ++ [request.name] }

/-! ## The copies in the stack -/

structure Rendering (V : Type) where
  value : V → String
  link : LinkValue → String
  restart : RestartDeclaration → String
  launch_variables : List String → String

def AppliedChange.field : AppliedChange V → String
  | .Argument key _ _ => "arguments." ++ key
  | .LinkSet slot _ _ | .LinkAdded slot _ | .LinkRemoved slot _ => "links." ++ slot
  | .Clock _ _ => "framework.clock"
  | .DaemonScope daemon_target _ _ => "daemon_scopes." ++ daemon_target
  | .Restart _ _ => "framework.restart"
  | .EnvFromLaunch _ _ => "env_from_launch"

variable (render : Rendering V)

def AppliedChange.written : AppliedChange V → String
  | .Argument _ _ new => render.value new
  | .LinkSet _ _ new => render.link new
  | .LinkAdded _ target => "+ " ++ target
  | .LinkRemoved _ _ => "(absent)"
  | .Clock _ new => new
  | .DaemonScope _ _ new => render.value new
  | .Restart _ new => render.restart new
  | .EnvFromLaunch _ new => render.launch_variables new

def apply_write (inst : DeploymentInstance V) (write : AppliedChange V) (origin : String) :
    Except CompositionError (DeploymentInstance V) :=
  match write with
  | .Argument key _ new => .ok { inst with arguments := inst.arguments.insert key new }
  | .LinkSet slot _ new => .ok { inst with links := inst.links.insert slot new }
  | .LinkRemoved slot _ => .ok { inst with links := inst.links.remove slot }
  | .LinkAdded slot target => do
    let bound ← append_links inst slot [target] inst.instance_id origin
    return { inst with links := inst.links.insert slot (.Bound (.Array bound)) }
  | .Clock _ new => .ok { inst with clock := some new }
  | .DaemonScope daemon_target _ new =>
    .ok { inst with daemon_scopes := inst.daemon_scopes.insert daemon_target new }
  | .Restart _ new => .ok { inst with restart := some new }
  | .EnvFromLaunch _ new => .ok { inst with env_from_launch := new }

inductive Claim where
  | Value (copy rendered : String)
  | Appended (copy : String)

def claim_of (copy : String) : AppliedChange V → Claim
  | .LinkAdded _ _ => .Appended copy
  | write => .Value copy (write.written render)

def StackWriteEntry.key (entry : StackWriteEntry V) : String × String :=
  (entry.instance_id, entry.write.field)

abbrev Claims := String × String → Option Claim

def conflict (copy : String) (entry : StackWriteEntry V) : Option Claim → Option CompositionError
  | some (.Value first rendered) =>
    if rendered ≠ entry.write.written render then some (refusal first rendered) else none
  | some (.Appended first) =>
    match entry.write with
    | .LinkAdded _ _ => none
    | _ => some (refusal first "appended producers")
  | none => none
where
  refusal (first first_value : String) : CompositionError :=
    .CopiesConflict first copy (entry.instance_id ++ "." ++ entry.write.field)
      (first ++ " writes " ++ first_value ++ ", " ++ copy ++ " writes " ++ entry.write.written render)

def write_entry (deployments : List (Deployment V)) (entry : StackWriteEntry V) :
    Except CompositionError (List (Deployment V)) :=
  match instance_named deployments entry.instance_id with
  | none => .error (.Panicked "a copy writes only instances of the stack it composed over")
  | some inst => do
    let inst ← apply_write inst entry.write ("copy `" ++ copy ++ "`")
    return put entry.instance_id inst deployments

def fold_writes (render : Rendering V) (copy : String) :
    List (Deployment V) → Claims → List (StackWriteEntry V) →
      Except CompositionError (List (Deployment V) × Claims)
  | deployments, claims, [] => .ok (deployments, claims)
  | deployments, claims, entry :: entries =>
    match conflict render copy entry (claims entry.key) with
    | some error => .error error
    | none => do
      let deployments ← write_entry copy deployments entry
      fold_writes render copy deployments
        (fun key => if key = entry.key then some (claim_of render copy entry.write) else claims key)
        entries

structure PeppyLauncher (V : Type) where
  deployments : List (Deployment V)
  core_nodes : List String

def add_copy (flat : PeppyLauncher V) (copy : ComposedCopy V) :
    Except CompositionError (PeppyLauncher V) :=
  match (ids copy.deployments).find? fun id => id ∈ ids flat.deployments with
  | some id => .error (.PrefixedIdCollision copy.name id)
  | none => .ok {
      deployments := copy.deployments.foldl merge_deployment flat.deployments
      core_nodes := copy.core_nodes.foldl add_core_node_link flat.core_nodes }

def fold_copies (render : Rendering V) : PeppyLauncher V → Claims → List (ComposedCopy V) →
    Except CompositionError (PeppyLauncher V)
  | flat, _, [] => .ok flat
  | flat, claims, copy :: copies => do
    let (deployments, claims) ←
      fold_writes render copy.name flat.deployments claims copy.stack_writes
    let flat ← add_copy { flat with deployments } copy
    fold_copies render flat claims copies

/-- The stack with its copies folded in. `validate` checks the flat document. -/
def combine (validate : PeppyLauncher V → Option String)
    (bare : Expanded V) (copies : List (ComposedCopy V)) :
    Except CompositionError (PeppyLauncher V) := do
  let flat ← fold_copies render ⟨bare.deployments, bare.core_nodes⟩ (fun _ => none) copies
  match validate flat with
  | some text => .error (.Refused text)
  | none => .ok flat

end peppy.compose
