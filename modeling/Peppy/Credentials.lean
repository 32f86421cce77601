-- The keys of a daemon and of its clients, and the check of the sender of each call:
-- the signature, the timestamp within the window, and a nonce that no call repeats.
import Peppy.MachineProof
import Peppy.GoalSlot

open bytes results

namespace peppy.credentials

open call_proof machine_proof

abbrev CallerKind := actions.CallerKind

abbrev VerifiedCaller := actions.VerifiedCaller

abbrev Failure := actions.Failure

def COMMAND_LINE_INSTANCE_ID : String := "peppy-cli"

/-- `TIMESTAMP_WINDOW`, in milliseconds. -/
def TIMESTAMP_WINDOW : Nat := 30000

/-! ## The keys of a daemon -/

structure KeyFile where
  instance_id : String
  serial : Nat
  deriving DecidableEq

structure DaemonKeys where
  «namespace» : String
  core_node : String
  boot_instance_id : String
  boot_key : ClientPublicKey
  machine : Option (MachineCertificate × BootCredential)
  command_line : Option ClientPublicKey := none
  instances : List (KeyFile × ClientPublicKey) := []
  next_key_serial : Nat := 0

structure ClientCredential where
  key : ClientPublicKey
  machine_proof : Option Bytes

namespace DaemonKeys

variable (out : Outside)

/-- The keys of a boot. `boot_key` is the key that the boot generates. -/
def new («namespace» core_node boot_instance_id : String) (machine : Option MachineCertificate)
    (boot_key : ClientPublicKey) : DaemonKeys where
  «namespace» := «namespace»
  core_node
  boot_instance_id
  boot_key
  machine := machine.map fun certificate =>
    (certificate, certificate.boot_credential out «namespace» core_node boot_instance_id boot_key)

variable (keys : DaemonKeys)

def credential_of (client : String) (key : ClientPublicKey) : ClientCredential where
  key
  machine_proof := keys.machine.map fun machine =>
    out.encode (machine.2.client_proof out client key keys.boot_key)

/-- The key of the command line: the key of its key file, or a new one. -/
def prepare (key : ClientPublicKey) : DaemonKeys :=
  { keys with command_line := some key }

/-- A new key file for a start. `gone` are the key files no longer on disk. -/
def issue_instance_key (instance_id : String) (key : ClientPublicKey)
    (gone : List KeyFile) : DaemonKeys × KeyFile × ClientCredential :=
  let file : KeyFile := { instance_id, serial := keys.next_key_serial }
  let instances := keys.instances.filter fun entry => entry.1 ∉ gone
  ({ keys with
      instances := (file, key) :: instances.filter fun entry => entry.1 ≠ file
      next_key_serial := keys.next_key_serial + 1 },
    file, keys.credential_of out instance_id key)

/-- The key and the kind of a client here. `live` gives the key file of a process. -/
def local_key (instance_id : String) (live : String → Option KeyFile) :
    Option (ClientPublicKey × CallerKind) :=
  if instance_id = keys.boot_instance_id then some (keys.boot_key, .Daemon)
  else if instance_id = COMMAND_LINE_INSTANCE_ID then
    keys.command_line.map fun key => (key, .CommandLine)
  else do
    let key_file ← live instance_id
    let key ← (keys.instances.find? fun entry => entry.1 = key_file).map Prod.snd
    return (key, .Instance)

end DaemonKeys

/-! ## The calls -/

structure ReceivedCall where
  caller_core_node : String
  caller_instance_id : String
  signed : SignedCall
  proof : Option CallProof
  deriving DecidableEq

def refused (message : String) : Failure where
  kind := .Rejected
  message

def ReceivedCall.sender (call : ReceivedCall) : String :=
  "`" ++ call.caller_instance_id ++ "` of `" ++ call.caller_core_node ++ "`"

variable (out : Outside)

def key_of (keys : DaemonKeys) (live : String → Option KeyFile) (call : ReceivedCall)
    (proof : CallProof) (now : Nat) : Except Failure (ClientPublicKey × CallerKind) :=
  if call.caller_core_node = keys.core_node then
    match keys.local_key call.caller_instance_id live with
    | some found => .ok found
    | none => .error (refused (call.sender ++
        " has no key on this daemon: the daemon gives a key to the command line and to each " ++
        "instance that it starts"))
  else
    match keys.machine with
    | none => .error (refused (
        "this daemon has no machine certificate, so it takes no call of another machine, such " ++
        "as the call of " ++ call.sender))
    | some (certificate, _) =>
      match proof.machine_proof with
      | none => .error (refused ("the call of " ++ call.sender ++
          ", of another machine, carries no machine proof: the daemon of that machine has no " ++
          "machine certificate"))
      | some machine_proof =>
        match certificate.trust.verify out machine_proof
            { «namespace» := keys.namespace
              core_node := call.caller_core_node
              instance_id := call.caller_instance_id } now with
        | .error error => .error (refused ("the machine proof of " ++ call.sender ++
            " does not verify: " ++ error.text))
        | .ok proven =>
          .ok (proven.key,
            if proven.is_daemon then .Daemon
            else if call.caller_instance_id = COMMAND_LINE_INSTANCE_ID then .CommandLine
            else .Instance)

def CallProof.verifies (proof : CallProof) (key : ClientPublicKey) (call : SignedCall) : Bool :=
  out.verifies key (call.signed_bytes proof.timestamp_ms proof.nonce) proof.signature.val

/-- The first section of `verify`: the timestamp is within the window. -/
def check_timestamp (call : ReceivedCall) (now_ms : Nat) : Except Failure CallProof :=
  match call.proof with
  | none => .error (refused ("the call of " ++ call.sender ++
      " carries no signature, and the daemon takes signed calls alone: a node that an earlier " ++
      "peppy built does not sign its calls, so build it again with this peppy"))
  | some proof =>
    let timestamp_ms := proof.timestamp_ms.toNat
    let skew_ms := (now_ms - timestamp_ms) + (timestamp_ms - now_ms)
    if skew_ms > TIMESTAMP_WINDOW then
      .error (refused ("the timestamp of the call of " ++ call.sender ++ " is " ++
        toString (skew_ms / 1000) ++ " s away from the clock of this daemon, outside the window " ++
        "of 30 s: the machines of a federation keep their clocks within it of each other"))
    else .ok proof

/-- The second section of `verify`: the key that the signature verifies with. -/
def check_signature (keys : DaemonKeys) (live : String → Option KeyFile) (call : ReceivedCall)
    (proof : CallProof) (now : Nat) : Except Failure (ClientPublicKey × CallerKind) := do
  let (key, kind) ← key_of out keys live call proof now
  if CallProof.verifies out proof key call.signed then return (key, kind)
  else .error (refused ("the signature of the call does not verify with the key of " ++ call.sender))

/-! ## The nonces -/

/-- The nonces within the window, with the timestamps of their calls. -/
structure NonceWindow where
  taken : List ((ClientPublicKey × Fixed NONCE_LEN) × Nat) := []
  last_prune_ms : Nat := 0

namespace NonceWindow

/-- The nonces whose calls left the window go, at most once per half window. -/
def prune (window : NonceWindow) (now_ms : Nat) : NonceWindow :=
  if now_ms - window.last_prune_ms > TIMESTAMP_WINDOW / 2 then
    { taken := window.taken.filter fun entry => now_ms - TIMESTAMP_WINDOW ≤ entry.2
      last_prune_ms := now_ms }
  else window

/-- Whether the nonce is new in the window, and the window with it. -/
def take (window : NonceWindow) (key : ClientPublicKey) (nonce : Fixed NONCE_LEN)
    (timestamp_ms now_ms : Nat) : Bool × NonceWindow :=
  let window := window.prune now_ms
  (window.taken.all fun entry => entry.1 ≠ (key, nonce),
    { window with
      taken := ((key, nonce), timestamp_ms) ::
        window.taken.filter fun entry => entry.1 ≠ (key, nonce) })

end NonceWindow

def take_nonce (window : NonceWindow) (call : ReceivedCall) (proof : CallProof)
    (key : ClientPublicKey) (kind : CallerKind) (now_ms : Nat) :
    Except Failure VerifiedCaller × NonceWindow :=
  let (fresh, window) := window.take key proof.nonce proof.timestamp_ms.toNat now_ms
  if fresh then
    (.ok { core_node := call.caller_core_node, instance_id := call.caller_instance_id,
           kind }, window)
  else
    (.error (refused ("the call of " ++ call.sender ++
      " repeats a nonce that this daemon took within 30 s: a replayed call")), window)

def verify (keys : DaemonKeys) (live : String → Option KeyFile) (window : NonceWindow)
    (call : ReceivedCall) (now_ms : Nat) : Except Failure VerifiedCaller × NonceWindow :=
  match check_timestamp call now_ms with
  | .error e => (.error e, window)
  | .ok proof =>
    match check_signature out keys live call proof now_ms with
    | .error e => (.error e, window)
    | .ok (key, kind) => take_nonce window call proof key kind now_ms

section
variable {out} {keys : DaemonKeys} {live : String → Option KeyFile} {window : NonceWindow}
  {call : ReceivedCall} {now_ms : Nat}

theorem verify_ok {caller : VerifiedCaller}
    (h : (verify out keys live window call now_ms).1 = .ok caller) :
    ∃ proof key, call.proof = some proof ∧
      key_of out keys live call proof now_ms = .ok (key, caller.kind) ∧
      CallProof.verifies out proof key call.signed = true ∧
      caller.core_node = call.caller_core_node ∧ caller.instance_id = call.caller_instance_id := by
  rw [verify] at h
  split at h
  · cases h
  rename_i proof htime
  have hproof : call.proof = some proof := by
    unfold check_timestamp at htime
    split at htime
    · cases htime
    · rename_i hsome
      dsimp only at htime
      split at htime <;> cases htime
      exact hsome
  split at h
  · cases h
  rename_i key kind hcheck
  obtain ⟨⟨key', kind'⟩, hkey, hverifies⟩ := bind_ok.mp hcheck
  dsimp only at hverifies
  split at hverifies
  case isFalse => cases hverifies
  cases hverifies
  rename_i hverifies
  simp only [take_nonce] at h
  split at h
  · cases h
    exact ⟨proof, key, hproof, hkey, hverifies, rfl, rfl⟩
  · cases h

theorem key_of_other {proof : CallProof} {key : ClientPublicKey} {kind : CallerKind}
    (hother : call.caller_core_node ≠ keys.core_node)
    (h : key_of out keys live call proof now_ms = .ok (key, kind)) :
    ∃ certificate credential b proven, keys.machine = some (certificate, credential) ∧
      proof.machine_proof = some b ∧
      certificate.trust.verify out b
        { «namespace» := keys.namespace, core_node := call.caller_core_node,
          instance_id := call.caller_instance_id } now_ms = .ok proven ∧
      key = proven.key ∧
      kind = (if proven.is_daemon then .Daemon
        else if call.caller_instance_id = COMMAND_LINE_INSTANCE_ID then .CommandLine
        else .Instance) := by
  rw [key_of, if_neg hother] at h
  split at h
  · cases h
  rename_i certificate credential hmachine
  split at h
  · cases h
  rename_i b hb
  split at h
  · cases h
  rename_i proven hproven
  cases h
  exact ⟨certificate, credential, b, proven, hmachine, hb, hproven, rfl, rfl⟩

end

def RawCallGate.refusal (call : String) (caller : Option VerifiedCaller) : Option Failure :=
  match caller with
  | none => some (refused "the daemon takes no call whose sender its check did not verify")
  | some caller =>
    if caller.kind = .Instance then
      some (refused ("the daemon refuses its raw call `" ++ call ++ "` from `" ++
        caller.instance_id ++ "` of `" ++ caller.core_node ++
        "`, an instance of a node: a node calls the daemon through its daemon targets"))
    else none

end peppy.credentials
