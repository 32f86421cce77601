-- The expansion of one unit of a launch, the stack or one copy: its deployments
-- merged by source, and its adjustments applied in order.
import Peppy.Lib.Changes
import Peppy.Lib.KeyMap
import Peppy.Lib.Results
import Peppy.PlanLinks
import Peppy.Supervision

open changes keymap results

namespace peppy.compose

open launcher (Selection LinkValue split_link_target)
open supervision (RestartDeclaration)

variable {V : Type}

/-! ## The documents -/

/-- One instance of a deployment. `V` is the type of its argument and scope values. -/
structure DeploymentInstance (V : Type) where
  instance_id : String
  arguments : KeyMap String V := {}
  links : KeyMap String LinkValue := {}
  clock : Option String := none
  restart : Option RestartDeclaration := none
  daemon_scopes : KeyMap String V := {}
  env_from_launch : List String := []
  env_vars : List String := []
  core_node : Option String := none
  deriving DecidableEq

structure Deployment (V : Type) where
  source : String
  instances : List (DeploymentInstance V)

/-- One adjustment. No `add_links` entry is empty, as reading the launcher checks. -/
structure Adjustment (V : Type) where
  target : String
  when : Option (List (String × List String)) := none
  set_arguments : List (String × V) := []
  set_clock : Option String := none
  set_restart : Option RestartDeclaration := none
  set_links : List (String × LinkValue) := []
  add_links : List (String × List String) := []
  unset_links : List String := []
  set_env_from_launch : Option (List String) := none
  set_daemon_scopes : List (String × V) := []
  adds : ∀ entry ∈ add_links, entry.2 ≠ [] := by decide

structure OriginatedAdjustment (V : Type) where
  adjustment : Adjustment V
  origin : String

inductive AppliedChange (V : Type) where
  | Argument (key : String) (old : Option V) (new : V)
  | LinkSet (slot : String) (old : Option LinkValue) (new : LinkValue)
  | LinkAdded (slot target : String)
  | LinkRemoved (slot : String) (old : LinkValue)
  | Clock (old : Option String) (new : String)
  | DaemonScope (daemon_target : String) (old : Option V) (new : V)
  | Restart (old : Option RestartDeclaration) (new : RestartDeclaration)
  | EnvFromLaunch (old new : List String)

structure AppliedAdjustment (V : Type) where
  target : String
  change : AppliedChange V
  origin : String

inductive SkipReason where
  | TargetAbsent
  | GuardNotMet

structure SkippedAdjustment where
  target : String
  reason : SkipReason
  origin : String

structure VariableGivenTwoValues where
  instance_id : String
  name : String
  list_origin : String
  deriving DecidableEq

/-- Why a composition is refused. `Panicked` is the message of a failed `expect`. -/
inductive CompositionError where
  | Refused (text : String)
  | Panicked (text : String)
  | NameIsCoreNodeLink (name : String)
  | CopyFragmentDeclaresClock (origin copy domain : String)
  | FragmentDeclaresRestart (origin : String)
  | CopyStartsNothing (copy option : String)
  | CopyReusesStackId (option id : String)
  | DuplicateInstanceId (id first second : String)
  | PrefixedIdCollision (copy id : String)
  | PrefixedLinksCollide (copy instance_id reason : String)
  | CopyInstancePlaced (copy instance_id core_node : String)
  | CopySetsDaemonScope (copy option instance_id daemon_target origin : String)
  | ArgumentTargetAbsent (copy target : String) (available : List String)
  | AddLinksOnNonArray (origin target slot holds : String)
  | AddLinksDuplicateTarget (origin target slot added : String)
  | VariablesGivenTwoValues (found : List VariableGivenTwoValues)
  | CopiesConflict (first second target difference : String)
  | JoinChangesExisting (name instance_id changes : String)
  | JoinReleasesUnpairedVacancy (name instance_id slot : String)
  | JoinAddsStackMember (name instance_id slot target : String)
  | CopyStillLinked (copy : String) (links : List String)
  deriving DecidableEq

/-! ## The instances of deployments -/

def instances (deployments : List (Deployment V)) : List (DeploymentInstance V) :=
  deployments.flatMap fun deployment => deployment.instances

variable (inst : DeploymentInstance V) (deployments : List (Deployment V))

def ids : List String :=
  (instances deployments).map fun inst => inst.instance_id

def instance_named (id : String) : Option (DeploymentInstance V) :=
  (instances deployments).find? fun inst => inst.instance_id = id

/-- The first instance of the id changed in place, as by `instance_named_mut`. -/
def put (id : String) (inst : DeploymentInstance V) : List (Deployment V) → List (Deployment V)
  | [] => []
  | deployment :: deployments =>
    if deployment.instances.any fun i => i.instance_id = id then
      { deployment with
        instances := editFirst (fun i => i.instance_id = id) (fun _ => inst) deployment.instances } ::
        deployments
    else deployment :: put id inst deployments

def merge_deployment (deployment : Deployment V) : List (Deployment V) :=
  if deployments.any fun entry => entry.source = deployment.source then
    editFirst (fun entry => entry.source = deployment.source)
      (fun entry => { entry with instances := entry.instances ++ deployment.instances }) deployments
  else deployments ++ [deployment]

def add_core_node_link (links : List String) (link : String) : List String :=
  if link ∈ links then links else links ++ [link]

/-! ## The adjustments -/

def repeated (seen : List String) : List String → Option String
  | [] => none
  | target :: targets => if target ∈ seen then some target else repeated (target :: seen) targets

/-- `LinkTargets::new`: no target twice. -/
def link_targets (targets : List String) : Except String (List String) :=
  match repeated [] targets with
  | some target => .error target
  | none => .ok targets

/-- The targets that a slot can be appended to. -/
def appendable (slot target origin : String) : Except CompositionError (List String) :=
  match inst.links.get slot with
  | none => .ok []
  | some (.Bound (.Array existing)) => .ok existing
  | some (.Bound (.Scalar _)) => .error (.AddLinksOnNonArray origin target slot "a scalar binding")
  | some (.Bound (.Flags _)) =>
    .error (.AddLinksOnNonArray origin target slot "a flag-accumulated binding")
  | some (.Vacant _) => .error (.AddLinksOnNonArray origin target slot "a vacancy")

def append_links (slot : String) (additions : List String)
    (target origin : String) : Except CompositionError (List String) := do
  let targets ← appendable inst slot target origin
  (link_targets (targets ++ additions)).mapError (.AddLinksDuplicateTarget origin target slot)

inductive Verb (V : Type) where
  | SetArgument (key : String) (value : V)
  | SetClock (clock : String)
  | SetRestart (restart : RestartDeclaration)
  | SetLink (slot : String) (value : LinkValue)
  | AddLinks (slot : String) (additions : List String)
  | UnsetLink (slot : String)
  | SetEnvFromLaunch (names : List String)
  | SetDaemonScope (daemon_target : String) (scope : V)

def Adjustment.verbs (adjustment : Adjustment V) : List (Verb V) :=
  adjustment.set_arguments.map (fun e => .SetArgument e.1 e.2) ++
    adjustment.set_clock.toList.map .SetClock ++
    adjustment.set_restart.toList.map .SetRestart ++
    adjustment.set_links.map (fun e => .SetLink e.1 e.2) ++
    adjustment.add_links.map (fun e => .AddLinks e.1 e.2) ++
    adjustment.unset_links.map .UnsetLink ++
    adjustment.set_env_from_launch.toList.map .SetEnvFromLaunch ++
    adjustment.set_daemon_scopes.map (fun e => .SetDaemonScope e.1 e.2)

def apply_verb (target origin : String) :
    Verb V → Except CompositionError (DeploymentInstance V × List (AppliedChange V))
  | .SetArgument key value =>
    .ok ({ inst with arguments := inst.arguments.insert key value },
      [.Argument key (inst.arguments.get key) value])
  | .SetClock clock => .ok ({ inst with clock := some clock }, [.Clock inst.clock clock])
  | .SetRestart restart =>
    .ok ({ inst with restart := some restart }, [.Restart inst.restart restart])
  | .SetLink slot value =>
    .ok ({ inst with links := inst.links.insert slot value },
      [.LinkSet slot (inst.links.get slot) value])
  | .AddLinks slot additions => do
    let bound ← append_links inst slot additions target origin
    return ({ inst with links := inst.links.insert slot (.Bound (.Array bound)) },
      additions.map (.LinkAdded slot))
  | .UnsetLink slot =>
    match inst.links.get slot with
    | some old => .ok ({ inst with links := inst.links.remove slot }, [.LinkRemoved slot old])
    | none => .ok (inst, [])
  | .SetEnvFromLaunch names =>
    .ok ({ inst with env_from_launch := names },
      [.EnvFromLaunch inst.env_from_launch names])
  | .SetDaemonScope daemon_target scope =>
    .ok ({ inst with daemon_scopes := inst.daemon_scopes.insert daemon_target scope },
      [.DaemonScope daemon_target (inst.daemon_scopes.get daemon_target) scope])

def apply_verbs (target : String) : DeploymentInstance V → List (String × Verb V) →
    Except CompositionError (DeploymentInstance V × List (AppliedChange V))
  | inst, [] => .ok (inst, [])
  | inst, (origin, verb) :: verbs => do
    let (inst, changes) ← apply_verb inst target origin verb
    let (inst, later) ← apply_verbs target inst verbs
    return (inst, changes ++ later)

def OriginatedAdjustment.writes (step : OriginatedAdjustment V) : List (String × Verb V) :=
  step.adjustment.verbs.map fun verb => (step.origin, verb)

def apply_adjustment (step : OriginatedAdjustment V) :
    Except CompositionError (DeploymentInstance V × List (AppliedChange V)) :=
  apply_verbs step.adjustment.target inst step.writes

/-- The loop of `expand_unit` over the adjustments that run. -/
def apply_adjustments : List (Deployment V) → List (OriginatedAdjustment V) →
    Except CompositionError (List (Deployment V) × List (AppliedAdjustment V))
  | merged, [] => .ok (merged, [])
  | merged, step :: steps =>
    match instance_named merged step.adjustment.target with
    | none => .error (.Panicked "a running adjustment targets an instance the unit defines")
    | some inst => do
      let (inst, changes) ← apply_adjustment inst step
      let (merged, applied) ← apply_adjustments (put step.adjustment.target inst merged) steps
      return (merged, changes.map (fun change => ⟨step.adjustment.target, change, step.origin⟩) ++
        applied)

/-! ## One unit -/

/-- A fragment of a selection. `restart` is whether it writes `framework.restart`. -/
structure LoadedFragment (V : Type) where
  origin : String
  clocks : List String := []
  restart : Bool := false
  core_nodes : List String := []
  deployments : List (Deployment V) := []
  adjustments : List (Adjustment V) := []

/-- What one unit expands. The options of a selection stand under their axes. -/
structure Unit (V : Type) where
  base : List (Deployment V × String)
  fragments : List (LoadedFragment V)
  launcher_adjustments : List (OriginatedAdjustment V)
  copy_adjustments : List (OriginatedAdjustment V)
  selection : List (String × String)

structure Expanded (V : Type) where
  deployments : List (Deployment V)
  core_nodes : List String
  applied : List (AppliedAdjustment V) := []
  skipped : List SkippedAdjustment := []

def guard_holds (selection : List (String × String)) (guard : List (String × List String)) : Bool :=
  guard.all fun entry => selection.any fun filled => filled.1 = entry.1 && entry.2.contains filled.2

variable (unit : Unit V)

def collect_deployments : List (Deployment V × String) :=
  unit.base ++ unit.fragments.flatMap fun fragment =>
    fragment.deployments.map fun deployment => (deployment, fragment.origin)

/-- Each id with the document that defines it, the ids of `seen` first. -/
def defined_once (seen : List (String × String)) :
    List (String × String) → Except CompositionError (List (String × String))
  | [] => .ok seen
  | (id, origin) :: rest =>
    match lookup id seen with
    | some first => .error (.DuplicateInstanceId id first origin)
    | none => defined_once (seen ++ [(id, origin)]) rest

def definitions (collected : List (Deployment V × String)) : List (String × String) :=
  collected.flatMap fun entry => entry.1.instances.map fun inst => (inst.instance_id, entry.2)

def merge_by_source (collected : List (Deployment V × String)) : List (Deployment V) :=
  collected.foldl (fun merged entry => merge_deployment merged entry.1) []

def union_core_nodes (core_nodes : List String) : List String :=
  (unit.fragments.flatMap fun fragment => fragment.core_nodes).foldl add_core_node_link core_nodes

/-- Each fragment's own entries, then the launcher's, then the copy's. -/
def planned : List (OriginatedAdjustment V) :=
  (unit.fragments.flatMap fun fragment =>
    fragment.adjustments.map fun adjustment => ⟨adjustment, fragment.origin⟩) ++
    unit.launcher_adjustments ++ unit.copy_adjustments

def skip_reason (defined : List String) (adjustment : Adjustment V) : Option SkipReason :=
  if adjustment.when.any fun guard => !guard_holds unit.selection guard then some .GuardNotMet
  else if adjustment.target ∉ defined then some .TargetAbsent
  else none

def plan_adjustments (defined : List String) :
    List (OriginatedAdjustment V) × List SkippedAdjustment :=
  ((planned unit).filter fun step => (skip_reason unit defined step.adjustment).isNone,
    (planned unit).filterMap fun step => (skip_reason unit defined step.adjustment).map fun reason =>
      { target := step.adjustment.target, reason, origin := step.origin })

/-- The document that wrote the list of the variables of an instance last. -/
def list_origin (defined : List (String × String)) (applied : List (AppliedAdjustment V))
    (id : String) : String :=
  match applied.reverse.find? fun entry =>
    entry.target = id && (match entry.change with | .EnvFromLaunch .. => true | _ => false) with
  | some entry => "the adjustment in " ++ entry.origin
  | none => "its entry in " ++ (lookup id defined).getD ""

def refuse_variables_given_two_values (defined : List (String × String)) (applied : List (AppliedAdjustment V)) :
    Except CompositionError PUnit :=
  let found := (instances deployments).flatMap fun inst =>
    (inst.env_from_launch.filter fun name => name ∈ inst.env_vars).map fun name =>
      { instance_id := inst.instance_id
        name
        list_origin := list_origin defined applied inst.instance_id }
  if found.isEmpty then .ok ⟨⟩ else .error (.VariablesGivenTwoValues found)

def expand_unit (core_nodes : List String) : Except CompositionError (Expanded V) := do
  let collected := collect_deployments unit
  let defined ← defined_once [] (definitions collected)
  let merged := merge_by_source collected
  let links := union_core_nodes unit core_nodes
  let (running, skipped) := plan_adjustments unit (defined.map Prod.fst)
  let (merged, applied) ← apply_adjustments merged running
  refuse_variables_given_two_values merged defined applied
  return { deployments := merged, core_nodes := links, applied, skipped }

/-! ## Instances by their ids -/

section
variable {deployments : List (Deployment V)} {id : String} {inst : DeploymentInstance V}

theorem instance_named_eq_some (hids : (ids deployments).Nodup) :
    instance_named deployments id = some inst ↔
      inst ∈ instances deployments ∧ inst.instance_id = id := by
  constructor
  · intro h
    exact ⟨List.mem_of_find?_eq_some h, by simpa using List.find?_some h⟩
  · rintro ⟨hmem, rfl⟩
    exact find?_key hids hmem

theorem find?_editFirst_id {l : List (DeploymentInstance V)}
    (hin : l.any fun i => i.instance_id = inst.instance_id) {id' : String} :
    (editFirst (fun i => i.instance_id = inst.instance_id) (fun _ => inst) l).find?
        (fun i => i.instance_id = id') =
      if id' = inst.instance_id then some inst else l.find? fun i => i.instance_id = id' := by
  induction l with
  | nil => cases hin
  | cons i l ih =>
    rw [editFirst]
    by_cases hi : i.instance_id = inst.instance_id
    · rw [if_pos (by simpa using hi), List.find?_cons, List.find?_cons, hi]
      by_cases heq : id' = inst.instance_id
      · simp [heq]
      · simp [heq, Ne.symm heq]
    · rw [if_neg (by simpa using hi), List.find?_cons, List.find?_cons]
      have hin : l.any (fun i => i.instance_id = inst.instance_id) = true := by
        simpa [hi] using hin
      rw [ih hin]
      by_cases heq : id' = inst.instance_id
      · subst heq
        simp [hi]
      · simp [heq]

theorem instance_named_cons {deployment : Deployment V}
    : instance_named (deployment :: deployments) id =
      (deployment.instances.find? fun i => i.instance_id = id).or (instance_named deployments id) := by
  simp [instance_named, instances, List.find?_append]

theorem instance_named_put (hid : inst.instance_id = id)
    (hin : instance_named deployments id ≠ none) (id' : String) :
    instance_named (put id inst deployments) id' =
      if id' = id then some inst else instance_named deployments id' := by
  subst hid
  induction deployments with
  | nil => exact absurd rfl hin
  | cons deployment deployments ih =>
    rw [put, instance_named_cons]
    rw [instance_named_cons] at hin
    split
    · rename_i hany
      rw [instance_named_cons]
      dsimp only
      rw [find?_editFirst_id hany]
      by_cases heq : id' = inst.instance_id
      · rw [if_pos heq, if_pos heq, Option.some_or]
      · rw [if_neg heq, if_neg heq]
    · rename_i hany
      have hfirst : deployment.instances.find? (fun i => i.instance_id = inst.instance_id) = none := by
        simpa using hany
      rw [hfirst, Option.none_or] at hin
      rw [instance_named_cons, ih hin]
      by_cases heq : id' = inst.instance_id
      · rw [if_pos heq, if_pos heq, heq, hfirst, Option.none_or]
      · rw [if_neg heq, if_neg heq]

theorem instances_merge_deployment {deployment : Deployment V} :
    (instances (merge_deployment deployments deployment)).Perm
      (instances deployments ++ deployment.instances) := by
  rw [merge_deployment]
  split
  · rename_i hany
    obtain ⟨entry, hfind⟩ := Option.isSome_iff_exists.mp (List.find?_isSome.mpr
      (List.any_eq_true.mp hany))
    obtain ⟨l1, l2, rfl, hentry, hl1⟩ := find?_split hfind
    rw [editFirst_split hl1 hentry]
    simp only [instances, List.flatMap_append, List.flatMap_cons, List.append_assoc]
    exact ((List.perm_append_comm).append_left _).append_left _
  · rw [instances, List.flatMap_append, List.flatMap_singleton]
    exact .refl _

theorem instances_merge_by_source (collected : List (Deployment V × String)) :
    (instances (merge_by_source collected)).Perm
      (collected.flatMap fun entry => entry.1.instances) := by
  suffices h : ∀ merged : List (Deployment V),
      (instances (collected.foldl (fun merged entry => merge_deployment merged entry.1) merged)).Perm
        (instances merged ++ collected.flatMap fun entry => entry.1.instances) from h []
  induction collected with
  | nil => simp
  | cons entry collected ih =>
    intro merged
    refine (ih _).trans ?_
    rw [List.flatMap_cons, ← List.append_assoc]
    exact (instances_merge_deployment).append_right _

theorem defined_once_ok {seen found defined : List (String × String)}
    (hseen : (seen.map Prod.fst).Nodup) (h : defined_once seen found = .ok defined) :
    defined = seen ++ found ∧ (defined.map Prod.fst).Nodup := by
  induction found generalizing seen with
  | nil =>
    cases h
    exact ⟨(List.append_nil _).symm, hseen⟩
  | cons entry found ih =>
    obtain ⟨id, origin⟩ := entry
    rw [defined_once] at h
    split at h
    · cases h
    rename_i hnew
    have hnew := lookup_eq_none.mp hnew
    have hseen : ((seen ++ [(id, origin)]).map Prod.fst).Nodup := by
      rw [List.map_append, List.map_singleton]
      exact List.nodup_append.mpr ⟨hseen, by simp, by rintro a ha _ (_ | h) rfl <;> contradiction⟩
    obtain ⟨rfl, hnodup⟩ := ih hseen h
    exact ⟨by simp, hnodup⟩

theorem map_definitions (collected : List (Deployment V × String)) :
    (definitions collected).map Prod.fst =
      (collected.flatMap fun entry => entry.1.instances).map fun inst => inst.instance_id := by
  rw [definitions, List.map_flatMap, List.map_flatMap]
  congr 1
  funext entry
  rw [List.map_map]
  rfl

end

/-! ## The adjustments of one instance -/

variable {changes : List (AppliedChange V)} {target : String} {inst inst' : DeploymentInstance V}
  {verbs : List (String × Verb V)}

theorem instance_id_of_apply_verb {origin : String} {verb : Verb V}
    (h : apply_verb inst target origin verb = .ok (inst', changes)) :
    inst'.instance_id = inst.instance_id := by
  cases verb with
  | AddLinks slot additions =>
    obtain ⟨bound, -, h⟩ := bind_ok.mp h
    cases h
    rfl
  | UnsetLink slot =>
    rw [apply_verb] at h
    split at h <;> cases h <;> rfl
  | _ => cases h; rfl

theorem apply_verbs_append {inst1 inst2 : DeploymentInstance V}
    {verbs' : List (String × Verb V)} {changes' : List (AppliedChange V)}
    (h : apply_verbs target inst verbs = .ok (inst1, changes))
    (h' : apply_verbs target inst1 verbs' = .ok (inst2, changes')) :
    apply_verbs target inst (verbs ++ verbs') = .ok (inst2, changes ++ changes') := by
  induction verbs generalizing inst changes with
  | nil =>
    cases h
    exact h'
  | cons entry verbs ih =>
    obtain ⟨⟨i, c⟩, hverb, h⟩ := bind_ok.mp h
    obtain ⟨⟨i', c'⟩, hverbs, h⟩ := bind_ok.mp h
    cases h
    rw [List.append_assoc]
    exact bind_ok.mpr ⟨(i, c), hverb, bind_ok.mpr ⟨(inst2, c' ++ changes'), ih hverbs, rfl⟩⟩

theorem instance_id_of_apply_verbs (h : apply_verbs target inst verbs = .ok (inst', changes)) :
    inst'.instance_id = inst.instance_id := by
  induction verbs generalizing inst changes with
  | nil => cases h; rfl
  | cons entry verbs ih =>
    obtain ⟨⟨inst1, changes1⟩, hverb, h⟩ := bind_ok.mp h
    obtain ⟨⟨inst2, changes2⟩, hverbs, h⟩ := bind_ok.mp h
    cases h
    exact (ih hverbs).trans (instance_id_of_apply_verb hverb)

def writes_on (id : String) (steps : List (OriginatedAdjustment V)) : List (String × Verb V) :=
  (steps.filter fun step => step.adjustment.target = id).flatMap OriginatedAdjustment.writes

theorem adjusted_instance {merged merged' : List (Deployment V)}
    {steps : List (OriginatedAdjustment V)} {applied : List (AppliedAdjustment V)}
    (h : apply_adjustments merged steps = .ok (merged', applied)) {id : String}
    (hinst : instance_named merged id = some inst) :
    ∃ inst' changes, apply_verbs id inst (writes_on id steps) = .ok (inst', changes) ∧
      instance_named merged' id = some inst' ∧
    (applied.filter fun entry => entry.target = id).map AppliedAdjustment.change = changes := by
  induction steps generalizing merged inst applied with
  | nil =>
    cases h
    exact ⟨inst, [], rfl, hinst, rfl⟩
  | cons step steps ih =>
    rw [apply_adjustments] at h
    split at h
    · cases h
    rename_i old hold
    obtain ⟨⟨new, changes⟩, hstep, h⟩ := bind_ok.mp h
    obtain ⟨⟨after, later⟩, hsteps, h⟩ := bind_ok.mp h
    cases h
    have hid : new.instance_id = step.adjustment.target :=
      (instance_id_of_apply_verbs hstep).trans (by simpa using List.find?_some hold)
    have hput := instance_named_put hid (by rw [hold]; exact Option.some_ne_none _) id
    by_cases heq : id = step.adjustment.target
    · subst heq
      rw [if_pos rfl] at hput
      cases hinst.symm.trans hold
      obtain ⟨inst', changes', hverbs, hnamed, hchanges⟩ := ih hsteps hput
      refine ⟨inst', changes ++ changes', ?_, hnamed, ?_⟩
      · rw [writes_on, List.filter_cons_of_pos (by simp), List.flatMap_cons, ← writes_on]
        exact apply_verbs_append hstep hverbs
      · rw [List.filter_append, List.map_append, hchanges]
        congr 1
        rw [List.filter_eq_self.mpr (by simp), List.map_map]
        exact List.map_id _
    · rw [if_neg heq] at hput
      obtain ⟨inst', changes', hverbs, hnamed, hchanges⟩ := ih hsteps (hput.trans hinst)
      refine ⟨inst', changes', ?_, hnamed, ?_⟩
      · rw [writes_on, List.filter_cons_of_neg (by simpa using Ne.symm heq), ← writes_on]
        exact hverbs
      · rw [List.filter_append, List.map_append, hchanges]
        rw [List.filter_eq_nil_iff.mpr (by simp [Ne.symm heq])]
        rfl

end peppy.compose
