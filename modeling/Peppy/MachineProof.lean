-- The proof of a key to the daemons of the other machines: the boot statement, signed
-- with the machine key, and the endorsement of a client's key by the boot key.
import Peppy.CallProof
import Peppy.Lib.Results

open bytes results List

namespace peppy.machine_proof

open call_proof

def PUBLIC_KEY_LEN : Nat := 32

/-- The public key of a client, which stands for its key pair. -/
abbrev ClientPublicKey := Fixed PUBLIC_KEY_LEN

inductive CaKind where
  | Platform
  | Operator
  deriving DecidableEq

structure MachineTrust where
  anchors : List Bytes
  kind : CaKind

inductive MachineSignature where
  | EcdsaP256Sha256
  | EcdsaP384Sha384
  | Ed25519
  | RsaPkcs1Sha256

structure BootStatement where
  «namespace» : String
  core_node : String
  instance_id : String
  public_key : ClientPublicKey
  algorithm : MachineSignature
  signature : Bytes
  certificates : List Bytes

structure Endorsement where
  client : String
  public_key : ClientPublicKey
  signature : Bytes

structure MachineProof where
  boot : BootStatement
  endorsement : Option Endorsement

def BOOT_STATEMENT_CONTEXT : Bytes :=
  [112, 101, 112, 112, 121, 47, 98, 111, 111, 116, 45, 115, 116, 97, 116, 101, 109, 101, 110, 116,
    47, 118, 49]

def ENDORSEMENT_CONTEXT : Bytes :=
  [112, 101, 112, 112, 121, 47, 101, 110, 100, 111, 114, 115, 101, 109, 101, 110, 116, 47, 118, 49]

def signed_bytes (context : Bytes) (fields : List String) (key : ClientPublicKey) : Bytes :=
  context ++ fields.flatMap (fun field => SignedCall.field (utf8 field)) ++ key.val

def BootStatement.signed_bytes (boot : BootStatement) : Bytes :=
  machine_proof.signed_bytes BOOT_STATEMENT_CONTEXT
    [boot.namespace, boot.core_node, boot.instance_id] boot.public_key

def Endorsement.signed_bytes (endorsement : Endorsement) (boot : BootStatement) : Bytes :=
  machine_proof.signed_bytes ENDORSEMENT_CONTEXT
    [boot.namespace, boot.core_node, boot.instance_id, endorsement.client] endorsement.public_key

/-- The length fits its field of 64 bits. -/
def Sized (s : String) : Prop := (utf8 s).length < 2 ^ 64

instance (s : String) : Decidable (Sized s) := inferInstanceAs (Decidable (_ < _))

variable {fields fields' : List String}

theorem fields_inj {r r' : Bytes}
    (hlen : fields.length = fields'.length) (hsized : ∀ s ∈ fields, Sized s)
    (hsized' : ∀ s ∈ fields', Sized s)
    (h : fields.flatMap (fun s => SignedCall.field (utf8 s)) ++ r =
      fields'.flatMap (fun s => SignedCall.field (utf8 s)) ++ r') : fields = fields' ∧ r = r' := by
  induction fields generalizing fields' with
  | nil =>
    cases length_eq_zero_iff.mp hlen.symm
    exact ⟨rfl, h⟩
  | cons s fields ih =>
    cases fields' with
    | nil => cases hlen
    | cons s' fields' =>
      rw [forall_mem_cons] at hsized hsized'
      simp only [flatMap_cons, append_assoc] at h
      obtain ⟨hs, h⟩ := SignedCall.field_append_inj hsized.1 hsized'.1 h
      obtain ⟨rfl, hr⟩ := ih (Nat.succ.inj hlen) hsized.2 hsized'.2 h
      exact ⟨by rw [utf8_inj hs], hr⟩

theorem signed_bytes_inj {context : Bytes}
    {key key' : ClientPublicKey} (hsized : ∀ s ∈ fields, Sized s) (hsized' : ∀ s ∈ fields', Sized s)
    (h : signed_bytes context fields key = signed_bytes context fields' key')
    (hlen : fields.length = fields'.length) : fields = fields' ∧ key = key' := by
  rw [signed_bytes, signed_bytes, append_assoc, append_assoc] at h
  obtain ⟨hfields, hkey⟩ := fields_inj hlen hsized hsized' (append_cancel_left h)
  exact ⟨hfields, Subtype.ext hkey⟩

/-- Other crates: Ed25519, machine keys and certificates, the JSON of a proof. -/
structure Outside where
  sign : ClientPublicKey → Bytes → Fixed SIGNATURE_LEN
  verifies : ClientPublicKey → Bytes → Bytes → Bool
  machine_sign : Nat → Bytes → Bytes
  verify_chain : MachineTrust → List Bytes → Nat → Except String Unit
  common_name : List Bytes → Except String String
  verify_signature : List Bytes → MachineSignature → Bytes → Bytes → Bool
  encode : MachineProof → Bytes
  decode : Bytes → Except String MachineProof

/-- A signature verifies with no other key, and a proof is read back from JSON. -/
structure Outside.Lawful (out : Outside) : Prop where
  foreign : ∀ key other message, out.verifies other message (out.sign key message).val = true →
    other = key
  decode_encode : ∀ proof, out.decode (out.encode proof) = .ok proof

inductive MachineProofError where
  | Decode (error : String)
  | NamesAnother (field given expected : String)
  | Chain (error : String)
  | CommonName (named core_node : String)
  | BootStatement
  | NoEndorsement (instance_id : String)
  | Endorsement

def MachineProofError.text : MachineProofError → String
  | .Decode error => "the machine proof does not decode: " ++ error
  | .NamesAnother field given expected =>
    "the machine proof names " ++ field ++ " `" ++ given ++ "`, but the call gives `" ++ expected ++
      "`"
  | .Chain error =>
    "the certificate of the machine does not chain to the CA of this daemon: " ++ error
  | .CommonName named core_node =>
    "the certificate of the machine names `" ++ named ++
      "` in its common name, not the core node `" ++ core_node ++ "`"
  | .BootStatement =>
    "the boot statement does not verify with the key of the certificate of the machine"
  | .NoEndorsement instance_id =>
    "the machine proof endorses no key for `" ++ instance_id ++ "`"
  | .Endorsement => "the endorsement does not verify with the key of the boot of the machine"

structure ProvenKey where
  key : ClientPublicKey
  is_daemon : Bool

structure ClaimedSender where
  «namespace» : String
  core_node : String
  instance_id : String

def expect_name (field given expected : String) : Except MachineProofError Unit :=
  if given = expected then .ok () else .error (.NamesAnother field given expected)

variable (out : Outside)

def check_common_name (trust : MachineTrust) (boot : BootStatement) :
    Except MachineProofError Unit :=
  if trust.kind = .Operator then do
    let named ← (out.common_name boot.certificates).mapError .Decode
    if named ≠ boot.core_node then .error (.CommonName named boot.core_node) else .ok ()
  else .ok ()

def endorsed_key (proof : MachineProof) (instance_id : String) :
    Except MachineProofError ProvenKey :=
  match proof.endorsement.filter fun endorsement => endorsement.client = instance_id with
  | none => .error (.NoEndorsement instance_id)
  | some endorsement =>
    if out.verifies proof.boot.public_key (endorsement.signed_bytes proof.boot)
        endorsement.signature then
      .ok { key := endorsement.public_key, is_daemon := false }
    else .error .Endorsement

def MachineTrust.verify (trust : MachineTrust) (proof : Bytes) (sender : ClaimedSender)
    (now : Nat) : Except MachineProofError ProvenKey := do
  let proof ← (out.decode proof).mapError .Decode
  let boot := proof.boot
  expect_name "the namespace" boot.namespace sender.namespace
  expect_name "the core node" boot.core_node sender.core_node
  (out.verify_chain trust boot.certificates now).mapError .Chain
  check_common_name out trust boot
  if out.verify_signature boot.certificates boot.algorithm boot.signed_bytes boot.signature then
    if sender.instance_id = boot.instance_id then
      return { key := boot.public_key, is_daemon := true }
    else endorsed_key out proof sender.instance_id
  else .error .BootStatement

/-- The certificate of a machine: its chain, its key and the federation's CA. -/
structure MachineCertificate where
  chain : List Bytes
  key : Nat
  algorithm : MachineSignature
  trust : MachineTrust

structure BootCredential where
  statement : BootStatement

def MachineCertificate.boot_credential (certificate : MachineCertificate)
    («namespace» core_node instance_id : String) (boot_key : ClientPublicKey) : BootCredential :=
  let statement : BootStatement := {
    «namespace» := «namespace»
    core_node, instance_id
    public_key := boot_key
    algorithm := certificate.algorithm
    signature := []
    certificates := certificate.chain }
  { statement := { statement with
      signature := out.machine_sign certificate.key statement.signed_bytes } }

def BootCredential.client_proof (credential : BootCredential) (client : String)
    (client_key boot_key : ClientPublicKey) : MachineProof :=
  let endorsement : Endorsement := { client, public_key := client_key, signature := [] }
  { boot := credential.statement
    endorsement := some { endorsement with
      signature := (out.sign boot_key (endorsement.signed_bytes credential.statement)).val } }

/-! ## What a verified proof gives -/

variable {u : Unit} {proven : ProvenKey}

section
variable {out} {trust : MachineTrust} {sender : ClaimedSender} {now : Nat}

/-- What a proof that verifies says of its sender. -/
structure Verified (out : Outside) (trust : MachineTrust) (proof : MachineProof)
    (sender : ClaimedSender) (now : Nat) (proven : ProvenKey) : Prop where
  «namespace» : proof.boot.namespace = sender.namespace
  core_node : proof.boot.core_node = sender.core_node
  chain : out.verify_chain trust proof.boot.certificates now = .ok ()
  common_name : trust.kind = .Operator →
    out.common_name proof.boot.certificates = .ok proof.boot.core_node
  boot : out.verify_signature proof.boot.certificates proof.boot.algorithm proof.boot.signed_bytes
    proof.boot.signature = true
  key : (sender.instance_id = proof.boot.instance_id ∧ proven.key = proof.boot.public_key) ∨
    (proven.is_daemon = false ∧ ∃ endorsement, proof.endorsement = some endorsement ∧
      endorsement.client = sender.instance_id ∧ proven.key = endorsement.public_key ∧
      out.verifies proof.boot.public_key (endorsement.signed_bytes proof.boot)
        endorsement.signature = true)

theorem expect_name_ok {field given expected : String}
    (h : expect_name field given expected = .ok u) : given = expected := by
  rw [expect_name] at h
  split at h
  · assumption
  · cases h

theorem check_common_name_ok {boot : BootStatement}
    (h : check_common_name out trust boot = .ok u) (hkind : trust.kind = .Operator) :
    out.common_name boot.certificates = .ok boot.core_node := by
  rw [check_common_name, if_pos hkind] at h
  obtain ⟨named, hnamed, h⟩ := bind_ok.mp h
  split at h
  · cases h
  · rename_i heq
    rw [mapError_ok.mp hnamed, not_not.mp heq]

theorem verify_ok {bytes : Bytes} (h : trust.verify out bytes sender now = .ok proven) :
    ∃ proof, out.decode bytes = .ok proof ∧ Verified out trust proof sender now proven := by
  obtain ⟨proof, hdecode, h⟩ := bind_ok.mp h
  obtain ⟨_, hnamespace, h⟩ := bind_ok.mp h
  obtain ⟨_, hcore, h⟩ := bind_ok.mp h
  obtain ⟨_, hchain, h⟩ := bind_ok.mp h
  obtain ⟨_, hname, h⟩ := bind_ok.mp h
  split at h
  · rename_i hsigned
    refine ⟨proof, mapError_ok.mp hdecode, expect_name_ok hnamespace, expect_name_ok hcore,
      mapError_ok.mp hchain, check_common_name_ok hname, hsigned, ?_⟩
    split at h
    · rename_i hboot
      cases h
      exact .inl ⟨hboot, rfl⟩
    rw [endorsed_key] at h
    split at h
    · cases h
    rename_i endorsement hfound
    obtain ⟨hmem, hclient⟩ := Option.filter_eq_some_iff.mp hfound
    split at h
    · rename_i hverifies
      cases h
      exact .inr ⟨rfl, endorsement, hmem, of_decide_eq_true hclient, rfl, hverifies⟩
    · cases h
  · cases h

/-- A proof that a daemon wrote gives its key to the boot or the endorsed client. -/
theorem key_of_verified (hlawful : out.Lawful) {proof : MachineProof}
    (h : trust.verify out (out.encode proof) sender now = .ok proven) :
    (sender.instance_id = proof.boot.instance_id ∧ proven.key = proof.boot.public_key) ∨
      (proven.is_daemon = false ∧ ∃ endorsement, proof.endorsement = some endorsement ∧
        endorsement.client = sender.instance_id) := by
  obtain ⟨decoded, hdecode, hverified⟩ := verify_ok h
  rw [hlawful.decode_encode] at hdecode
  cases hdecode
  rcases hverified.key with hboot | ⟨hkind, endorsement, hmem, hclient, -⟩
  · exact .inl hboot
  · exact .inr ⟨hkind, endorsement, hmem, hclient⟩

end

end peppy.machine_proof
