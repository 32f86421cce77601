-- The datastore of a daemon, with the calls that it answers beside each other. A call
-- reads the owner of a key, looks its process up with the entries unlocked, and acts
-- under the lock again when the owner is still the same.
import Peppy.Lib.Bytes
import Peppy.Lib.KeyMap
import Peppy.Lib.Runs
import Peppy.Lib.Tasks

open keymap runs tasks

namespace peppy.datastore

/-! ## Entries and requests -/

structure StoredValue where
  value : bytes.Bytes
  encoding : String
  last_modified_by : String
  deriving DecidableEq

abbrev Owner := String × Nat

structure Entry where
  stored : StoredValue
  owner_incarnation : Option Nat
  deriving DecidableEq

namespace Entry

def new (value : bytes.Bytes) (encoding writer : String) (owner_incarnation : Option Nat) : Entry :=
  { stored := { value, encoding, last_modified_by := writer }
    owner_incarnation }

def owner (entry : Entry) : Option Owner :=
  entry.owner_incarnation.map fun incarnation => (entry.stored.last_modified_by, incarnation)

def owner_in (entries : KeyMap String Entry) (key : String) : Option Owner :=
  (entries.get key).bind owner

def owner_other_than (entry : Entry) (writer : String) : Option String :=
  if entry.owner_incarnation.isSome ∧ entry.stored.last_modified_by ≠ writer then
    some entry.stored.last_modified_by
  else none

end Entry

inductive Error where
  | DatastoreOwnerNotRunning (instance_id : String)
  | DatastoreKeyOwned (key owner stop : String)
  | DatastoreKeyUnowned (key : String)

inductive DatastoreStoreExclusiveResponse where
  | Stored
  | Refused (value : bytes.Bytes) (encoding last_modified_by : String)

structure DatastoreListEntry where
  key : String
  encoding : String
  last_modified_by : String

inductive Request where
  | Store (key : String) (value : bytes.Bytes) (encoding writer : String)
  | StoreExclusive (key : String) (value : bytes.Bytes) (encoding writer : String)
  | Get (key : String)
  | List
  | Remove (key remover : String)
  deriving DecidableEq

inductive Answer where
  | Store (answer : Except Error Unit)
  | StoreExclusive (answer : Except Error DatastoreStoreExclusiveResponse)
  | Get (answer : Option StoredValue)
  | List (answer : List DatastoreListEntry)
  | Remove (answer : Except Error Bool)

def stop_command (instance_id core_node : String) : String :=
  "`peppy node stop " ++ instance_id ++ " --core-node " ++ core_node ++ "`"

/-! ## What a call does under the lock -/

/-- The failure of a writer, when another instance owns the key. -/
def refuse_other_writer (core_node_name : String) (entry : Entry) (key writer : String) :
    Except Error Unit :=
  match entry.owner_other_than writer with
  | none => .ok ()
  | some owner => .error (.DatastoreKeyOwned key owner (stop_command owner core_node_name))

def store (core_node_name : String) (key : String) (value : bytes.Bytes)
    (encoding writer : String) (entries : KeyMap String Entry) : KeyMap String Entry × Answer :=
  match entries.get key with
  | none => (entries.insert key (.new value encoding writer none), .Store (.ok ()))
  | some entry =>
    match refuse_other_writer core_node_name entry key writer with
    | .error error => (entries, .Store (.error error))
    | .ok () =>
      (entries.insert key (.new value encoding writer entry.owner_incarnation), .Store (.ok ()))

/-- `incarnation` is that of the process of the writer which the call looked
up. -/
def store_exclusive (key : String) (value : bytes.Bytes) (encoding writer : String)
    (incarnation : Option Nat) (entries : KeyMap String Entry) : KeyMap String Entry × Answer :=
  let stored := (entries.insert key (.new value encoding writer incarnation),
    Answer.StoreExclusive (.ok .Stored))
  match entries.get key with
  | none => stored
  | some current =>
    if current.owner_incarnation = none then
      (entries, .StoreExclusive (.error (.DatastoreKeyUnowned key)))
    else if (current.owner_other_than writer).isSome then
      (entries, .StoreExclusive (.ok (.Refused current.stored.value current.stored.encoding
        current.stored.last_modified_by)))
    else stored

def get (key : String) (entries : KeyMap String Entry) : KeyMap String Entry × Answer :=
  (entries, .Get ((entries.get key).map Entry.stored))

def remove (core_node_name key remover : String) (entries : KeyMap String Entry) :
    KeyMap String Entry × Answer :=
  match entries.get key with
  | none => (entries, .Remove (.ok false))
  | some entry =>
    match refuse_other_writer core_node_name entry key remover with
    | .error error => (entries, .Remove (.error error))
    | .ok () => (entries.remove key, .Remove (.ok true))

/-- The keys of the list that their dead owner still owns leave. -/
def purge (dead : List (String × Owner)) (entries : KeyMap String Entry) : KeyMap String Entry :=
  dead.foldl
    (fun entries (key, owner) =>
      if Entry.owner_in entries key = some owner then entries.remove key else entries)
    entries

def list_entries (entries : KeyMap String Entry) : List DatastoreListEntry :=
  entries.entries.map fun (key, entry) =>
    { key
      encoding := entry.stored.encoding
      last_modified_by := entry.stored.last_modified_by }

/-! ## Calls beside each other -/

inductive Phase where
  /-- `store_exclusive` looks the process of its writer up. -/
  | Incarnation
  /-- `with_live_key` reads the owner of the key under the lock. -/
  | Owner (incarnation : Option Nat)
  | Lookup (incarnation : Option Nat) (owner : Option Owner)
  | Act (incarnation : Option Nat) (owner : Option Owner) (gone : Bool)
  /-- `list` reads the owners under the lock. -/
  | Owned
  /-- Looks up the owners one by one, then drops the keys of the dead under the lock. -/
  | Lookups (owned dead : List (String × Owner))
  deriving DecidableEq

structure Call where
  request : Request
  phase : Phase
  deriving DecidableEq

def Request.start : Request → Phase
  | .StoreExclusive .. => .Incarnation
  | .List => .Owned
  | _ => .Owner none

/-- The datastore, the processes that run, and the next incarnation. -/
structure Datastore where
  core_node_name : String
  entries : KeyMap String Entry := .empty
  live : KeyMap String Nat := .empty
  next_incarnation : Nat := 0
  calls : List Call := []
  deriving DecidableEq

namespace Datastore

def new (core_node_name : String) : Datastore := { core_node_name }

variable (d : Datastore)

def live_incarnation (instance_id : String) : Option Nat := d.live.get instance_id

def runs (owner : Owner) : Bool := d.live_incarnation owner.1 = some owner.2

def act (request : Request) (incarnation : Option Nat)
    (entries : KeyMap String Entry) : KeyMap String Entry × Answer :=
  match request with
  | .Store key value encoding writer => store d.core_node_name key value encoding writer entries
  | .StoreExclusive key value encoding writer =>
    store_exclusive key value encoding writer incarnation entries
  | .Get key => get key entries
  | .List => (entries, .List (list_entries entries))
  | .Remove key remover => remove d.core_node_name key remover entries

def key : Request → String
  | .Store key .. => key
  | .StoreExclusive key .. => key
  | .Get key => key
  | .List => ""
  | .Remove key _ => key

inductive Turned where
  | Next (phase : Phase)
  | Answered (answer : Answer)

def Turned.next : Turned → Option Phase
  | .Next phase => some phase
  | .Answered _ => none

/-- One lock section or lookup: the entries after it, and what is next. -/
def turn (call : Call) : KeyMap String Entry × Turned :=
  match call.phase with
  | .Incarnation =>
    match call.request with
    | .StoreExclusive _ _ _ writer =>
      match d.live_incarnation writer with
      | none =>
        (d.entries, .Answered (.StoreExclusive (.error (.DatastoreOwnerNotRunning writer))))
      | some incarnation => (d.entries, .Next (.Owner (some incarnation)))
    | _ => (d.entries, .Next (.Owner none))
  | .Owner incarnation =>
    (d.entries, .Next (.Lookup incarnation (Entry.owner_in d.entries (key call.request))))
  | .Lookup incarnation owner =>
    (d.entries, .Next (.Act incarnation owner (owner.any fun owner => !d.runs owner)))
  | .Act incarnation owner gone =>
    if Entry.owner_in d.entries (key call.request) ≠ owner then
      (d.entries, .Next (.Owner incarnation))
    else
      let entries := if gone then d.entries.remove (key call.request) else d.entries
      let (entries, answer) := d.act call.request incarnation entries
      (entries, .Answered answer)
  | .Owned =>
    (d.entries, .Next (.Lookups
      (d.entries.entries.filterMap fun (key, entry) => entry.owner.map fun owner => (key, owner))
      []))
  | .Lookups ((key, owner) :: owned) dead =>
    (d.entries, .Next (.Lookups owned (if d.runs owner then dead else dead ++ [(key, owner)])))
  | .Lookups [] dead =>
    let entries := purge dead d.entries
    (entries, .Answered (.List (list_entries entries)))

inductive StoreAct where
  | Send (request : Request)
  | Turn (index : Nat)
  | Start (instance_id : String)
  | End (instance_id : String)

def step : StoreAct → Option Datastore
  | .Send request =>
    some { d with calls := d.calls ++ [{ request, phase := request.start }] }
  | .Turn index =>
    match d.calls[index]? with
    | none => none
    | some call =>
      some { d with
        entries := (d.turn call).1
        calls := put d.calls index
          ((d.turn call).2.next.map fun phase => { call with phase }) }
  | .Start instance_id =>
    -- a process starts once the one before it ended, with an incarnation of its own
    if d.live.contains instance_id then none
    else
      some { d with
        live := d.live.insert instance_id d.next_incarnation
        next_incarnation := d.next_incarnation + 1 }
  | .End instance_id => some { d with live := d.live.remove instance_id }

end Datastore

end peppy.datastore
