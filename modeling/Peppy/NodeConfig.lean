-- The part of a node's configuration that the node stack reads: the
-- manifest with its dependencies, the interfaces, and the check of the
-- interfaces that a node consumes.
import Mathlib.Data.List.TakeWhile

open List

namespace peppy.node_config

/-! ## Text -/

/-- The characters of Unicode `White_Space`, which `str::trim` removes. -/
def is_whitespace (c : Char) : Bool :=
  (9 ≤ c.toNat && c.toNat ≤ 13) || c.toNat == 0x20 || c.toNat == 0x85 || c.toNat == 0xA0 ||
    c.toNat == 0x1680 || (0x2000 ≤ c.toNat && c.toNat ≤ 0x200A) || c.toNat == 0x2028 ||
    c.toNat == 0x2029 || c.toNat == 0x202F || c.toNat == 0x205F || c.toNat == 0x3000

/-- `str::trim`: the text without the white space at its two ends. -/
def trim (s : String) : String :=
  String.ofList
    ((s.toList.dropWhile is_whitespace).reverse.dropWhile is_whitespace).reverse

def ALLOWED_CONFIG_CHARS : String :=
  "abcdefghijklmnopqrstuvwxyzABCDEFGHIJKLMNOPQRSTUVWXYZ0123456789_-"

theorem allowed_of_all {l : List Char}
    (h : (l.all fun c => decide (c ∈ ALLOWED_CONFIG_CHARS.toList)) = true) :
    ∀ c ∈ l, c ∈ ALLOWED_CONFIG_CHARS.toList :=
  fun c hc => of_decide_eq_true (List.all_eq_true.mp h c hc)

/-- A validated identifier: not empty, and only of the allowed characters. -/
structure Name where
  as_str : String
  not_empty : as_str ≠ "" := by decide
  allowed : ∀ c ∈ as_str.toList, c ∈ ALLOWED_CONFIG_CHARS.toList := by exact allowed_of_all (by decide)
  deriving DecidableEq

def Name.arm : Name := { as_str := "arm" }

def Name.arm_1 : Name := { as_str := "arm_1" }

def Name.grips : Name := { as_str := "grips" }

theorem not_whitespace_of_allowed {c : Char} (h : c ∈ ALLOWED_CONFIG_CHARS.toList) :
    is_whitespace c = false := by
  have hall : ALLOWED_CONFIG_CHARS.toList.all (fun c => !is_whitespace c) = true := by decide
  simpa using List.all_eq_true.mp hall c h

theorem dropWhile_whitespace {l : List Char} (h : ∀ c ∈ l, is_whitespace c = false) :
    l.dropWhile is_whitespace = l :=
  dropWhile_eq_self_iff.mpr fun _ => by simp [h _ (getElem_mem _)]

theorem trim_eq_self {s : String} (h : ∀ c ∈ s.toList, is_whitespace c = false) : trim s = s := by
  unfold trim
  rw [dropWhile_whitespace h, dropWhile_whitespace fun c hc => h c (mem_reverse.mp hc)]
  simp

theorem trim_name (n : Name) : trim n.as_str = n.as_str :=
  trim_eq_self fun c hc => not_whitespace_of_allowed (n.allowed c hc)

/-! ## The manifest -/

inductive Cardinality where
  | One
  | ZeroOrOne
  | OneOrMore
  | ZeroOrMore
  deriving DecidableEq

def Cardinality.as_str : Cardinality → String
  | .One => "one"
  | .ZeroOrOne => "zero_or_one"
  | .OneOrMore => "one_or_more"
  | .ZeroOrMore => "zero_or_more"

def Cardinality.is_scalar : Cardinality → Bool
  | .One | .ZeroOrOne => true
  | .OneOrMore | .ZeroOrMore => false

/-- Whether a set of `len` sources satisfies the slot. -/
def Cardinality.admits : Cardinality → Nat → Bool
  | .One, len => len == 1
  | .ZeroOrOne, len => len ≤ 1
  | .OneOrMore, len => 1 ≤ len
  | .ZeroOrMore, _ => true

structure NodeDependency where
  name : Name
  tag : String
  link_id : String
  cardinality : Cardinality

structure ContractDependency where
  name : Name
  tag : String
  link_id : String
  sha256 : Option String
  cardinality : Cardinality

structure ImplementsEntry where
  name : Name
  tag : String
  link_id : String
  sha256 : Option String

structure DaemonTargetDependency where
  name : Name
  tag : String
  link_id : String

/-- A slot of `depends_on.pairings` or of `depends_on.pairing_observers`. -/
structure PairingParticipantDependency where
  name : Name
  tag : String
  role : String
  link_id : String
  sha256 : Option String
  cardinality : Cardinality

structure DependsOn where
  nodes : List NodeDependency := []
  contracts : List ContractDependency := []
  daemon : List DaemonTargetDependency := []
  pairings : List PairingParticipantDependency := []
  pairing_observers : List PairingParticipantDependency := []

def DependsOn.producer_slots (d : DependsOn) : List String :=
  d.nodes.map (·.link_id) ++ d.contracts.map (·.link_id) ++ d.daemon.map (·.link_id)

def DependsOn.pairing_link_ids (d : DependsOn) : List String :=
  d.pairings.map (·.link_id) ++ d.pairing_observers.map (·.link_id)

structure Manifest where
  name : Name
  tag : String
  implements : List ImplementsEntry := []
  depends_on : Option DependsOn := none

/-! ## The interfaces -/

inductive InterfaceKind where
  | Topic
  | Service
  | Action
  deriving DecidableEq

def InterfaceKind.label : InterfaceKind → String
  | .Topic => "Topic"
  | .Service => "Service"
  | .Action => "Action"

def InterfaceKind.consumed_section : InterfaceKind → String
  | .Topic => "topics.consumes"
  | .Service => "services.consumes"
  | .Action => "actions.consumes"

def InterfaceKind.to_string : InterfaceKind → String
  | .Topic => "topic"
  | .Service => "service"
  | .Action => "action"

/-- An entry that names a slot. The text of its `refine` block is only compared. -/
structure LinkedEntry where
  link_id : String
  name : String
  refine : Option String := none
  deriving DecidableEq

/-- A produced entry. What a native one carries beside its name is only compared. -/
inductive ProducedEntry where
  | Linked (entry : LinkedEntry)
  | Native (name : String) (shape : String)
  deriving DecidableEq

def ProducedEntry.name : ProducedEntry → String
  | .Linked e => e.name
  | .Native n _ => n

def ProducedEntry.link_id : ProducedEntry → Option String
  | .Linked e => some e.link_id
  | .Native _ _ => none

structure TopicInterfaces where
  emits : Option (List ProducedEntry) := none
  consumes : Option (List LinkedEntry) := none
  deriving DecidableEq

structure ServiceInterfaces where
  exposes : Option (List ProducedEntry) := none
  consumes : Option (List LinkedEntry) := none
  deriving DecidableEq

structure ActionInterfaces where
  exposes : Option (List ProducedEntry) := none
  consumes : Option (List LinkedEntry) := none
  deriving DecidableEq

structure Interfaces where
  topics : Option TopicInterfaces := none
  services : Option ServiceInterfaces := none
  actions : Option ActionInterfaces := none
  deriving DecidableEq

def Interfaces.produced (i : Interfaces) : InterfaceKind → List ProducedEntry
  | .Topic => (i.topics.bind (·.emits)).getD []
  | .Service => (i.services.bind (·.exposes)).getD []
  | .Action => (i.actions.bind (·.exposes)).getD []

def Interfaces.consumed (i : Interfaces) : InterfaceKind → List LinkedEntry
  | .Topic => (i.topics.bind (·.consumes)).getD []
  | .Service => (i.services.bind (·.consumes)).getD []
  | .Action => (i.actions.bind (·.consumes)).getD []

structure NodeConfig where
  manifest : Manifest
  interfaces : Interfaces := {}

/-! ## Dependencies -/

structure DependencySpec where
  node_name : String
  node_tag : String

variable (node : NodeConfig)

def collect_dependency_specs : List DependencySpec :=
  match node.manifest.depends_on with
  | none => []
  | some depends_on => depends_on.nodes.map fun dep => ⟨dep.name.as_str, dep.tag⟩

def node_implements (name tag : String) : Bool :=
  node.manifest.implements.any fun item => item.name.as_str == name && item.tag == tag

inductive MissingDependencyPolicy where
  | RequireResolvable
  | AllowAbsentWhenSlotAdmitsEmpty
  deriving DecidableEq

inductive ParsingError where
  | MissingDependency (dependant dependant_tag dependency dependency_tag : String)
  | UndeclaredLinkId (dependant dependant_tag link_id : String)
  | ConsumedItemReferencesPairingLinkId (dependant dependant_tag link_id interface_section : String)
  | ConsumedItemReferencesImplementsLinkId (link_id : String)
  | MissingInterface
      (dependant dependant_tag dependency dependency_tag interface_kind interface_name : String)
  | ConsumedInterfaceOnlyContractBacked
      (dependant dependant_tag dependency dependency_tag interface_kind interface_name link_id
        contract_name contract_tag : String)

structure ResolvedDependency where
  name : String
  tag : String
  config : NodeConfig

structure DeclaredLinks where
  /-- The nodes entries that resolve. The later of one link id stands first. -/
  resolved_dependencies : List (String × ResolvedDependency)
  dependency_link_ids : List String
  pairing_link_ids : List String
  implements_link_ids : List String

structure Dependant where
  name : String
  tag : String

inductive Exposure where
  | Native
  | ContractBackedOnly (entry : ImplementsEntry)
  | None

/-- A native entry of the name wins, else the last one that a contract backs. -/
def scan_produced (name : String) : List ProducedEntry → Option String → Option (Option String)
  | [], contract_link_id => some contract_link_id
  | entry :: rest, contract_link_id =>
    if trim entry.name = name then
      match entry.link_id with
      | none => none
      | some link_id => scan_produced name rest (some link_id)
    else scan_produced name rest contract_link_id

def find_exposure (kind : InterfaceKind) (name : String) : Exposure :=
  match scan_produced name (node.interfaces.produced kind) none with
  | none => .Native
  | some none => .None
  | some (some link_id) =>
    match node.manifest.implements.find? fun entry => entry.link_id == link_id with
    | some entry => .ContractBackedOnly entry
    | none => .None

def validate_consumed_interface (link_id interface_name : String) (kind : InterfaceKind)
    (dependency : ResolvedDependency) (dependant : Dependant) : List ParsingError :=
  match find_exposure dependency.config kind (trim interface_name) with
  | .Native => []
  | .ContractBackedOnly entry =>
    [.ConsumedInterfaceOnlyContractBacked dependant.name dependant.tag dependency.name
      dependency.tag kind.label interface_name link_id entry.name.as_str entry.tag]
  | .None =>
    [.MissingInterface dependant.name dependant.tag dependency.name dependency.tag kind.label
      interface_name]

def validate_consumed_item (kind : InterfaceKind) (links : DeclaredLinks) (dependant : Dependant)
    (item : LinkedEntry) : List ParsingError :=
  if item.link_id ∈ links.pairing_link_ids then
    if kind = .Topic then []
    else
      [.ConsumedItemReferencesPairingLinkId dependant.name dependant.tag item.link_id
        kind.consumed_section]
  else if item.link_id ∈ links.implements_link_ids then
    [.ConsumedItemReferencesImplementsLinkId item.link_id]
  else
    match links.resolved_dependencies.lookup item.link_id with
    | none =>
      if item.link_id ∈ links.dependency_link_ids then []
      else [.UndeclaredLinkId dependant.name dependant.tag item.link_id]
    | some dependency =>
      validate_consumed_interface item.link_id item.name kind dependency dependant

def validate_consumed_items (items : List LinkedEntry) (kind : InterfaceKind)
    (links : DeclaredLinks) (dependant : Dependant) : List ParsingError :=
  items.flatMap (validate_consumed_item kind links dependant)

/-- Phase 1: the declared dependency nodes that do not resolve. -/
def missing_dependencies (depends_on : Option DependsOn) (dependant : Dependant)
    (missing_dependency_policy : MissingDependencyPolicy)
    (resolve : String → String → Option NodeConfig) : List ParsingError :=
  match depends_on with
  | none => []
  | some depends_on =>
    depends_on.nodes.filterMap fun dep =>
      match resolve dep.name.as_str dep.tag with
      | some _ => none
      | none =>
        if missing_dependency_policy = .AllowAbsentWhenSlotAdmitsEmpty ∧
            dep.cardinality.admits 0 = true then none
        else
          some (.MissingDependency dependant.name dependant.tag dep.name.as_str dep.tag)

def declared_links (manifest : Manifest) (resolve : String → String → Option NodeConfig) :
    DeclaredLinks where
  resolved_dependencies :=
    ((manifest.depends_on.map (·.nodes)).getD []).foldl
      (fun resolved dep =>
        match resolve dep.name.as_str dep.tag with
        | none => resolved
        | some config => (dep.link_id, ⟨dep.name.as_str, dep.tag, config⟩) :: resolved) []
  dependency_link_ids := (manifest.depends_on.map (·.producer_slots)).getD []
  pairing_link_ids := (manifest.depends_on.map (·.pairing_link_ids)).getD []
  implements_link_ids := manifest.implements.map (·.link_id)

/-- The missing nodes, then the consumed interfaces that nothing exposes. -/
def validate_dependency_specs (manifest : Manifest) (interfaces : Interfaces)
    (dependant_name dependant_tag : String) (missing_dependency_policy : MissingDependencyPolicy)
    (resolve : String → String → Option NodeConfig) : List ParsingError :=
  let links := declared_links manifest resolve
  let dependant : Dependant := ⟨dependant_name, dependant_tag⟩
  missing_dependencies manifest.depends_on dependant missing_dependency_policy resolve ++
    [InterfaceKind.Topic, .Service, .Action].flatMap fun kind =>
      validate_consumed_items (interfaces.consumed kind) kind links dependant

end peppy.node_config
