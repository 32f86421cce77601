-- The signatures of a federation with an adversary in it. A caller of another core
-- node that a daemon verifies is the one that signed the call.
import Mathlib.Data.List.Nodup
import Peppy.Lib.Runs
import Peppy.Credentials

open bytes runs List

namespace peppy.callers

open call_proof machine_proof credentials

/-! ## What is signed -/

inductive Statement where
  | Boot («namespace» core_node instance_id : String) (key : ClientPublicKey)
  | Endorsement («namespace» core_node instance_id client : String) (key : ClientPublicKey)
  | Call (call : SignedCall) (timestamp_ms : UInt64) (nonce : Fixed NONCE_LEN)

namespace Statement

def signed_bytes : Statement → Bytes
  | .Boot «namespace» core_node instance_id key =>
    machine_proof.signed_bytes BOOT_STATEMENT_CONTEXT [«namespace», core_node, instance_id] key
  | .Endorsement «namespace» core_node instance_id client key =>
    machine_proof.signed_bytes ENDORSEMENT_CONTEXT [«namespace», core_node, instance_id, client] key
  | .Call call timestamp_ms nonce => call.signed_bytes timestamp_ms nonce

/-- Every text that is signed has a length of 64 bits. -/
def Fits : Statement → Prop
  | .Boot «namespace» core_node instance_id _ =>
    ∀ s ∈ [«namespace», core_node, instance_id], Sized s
  | .Endorsement «namespace» core_node instance_id client _ =>
    ∀ s ∈ [«namespace», core_node, instance_id, client], Sized s
  | .Call call _ _ => call.Fits

instance : (s : Statement) → Decidable s.Fits
  | .Boot .. => inferInstanceAs (Decidable (∀ _ ∈ _, _))
  | .Endorsement .. => inferInstanceAs (Decidable (∀ _ ∈ _, _))
  | .Call call _ _ => inferInstanceAs (Decidable call.Fits)

def tag : Statement → UInt8
  | .Boot .. => 98
  | .Endorsement .. => 101
  | .Call .. => 99

theorem tag_signed_bytes (s : Statement) : s.signed_bytes[6]? = some s.tag := by
  cases s <;> rfl

theorem signed_bytes_inj {s t : Statement} (hs : s.Fits) (ht : t.Fits)
    (h : s.signed_bytes = t.signed_bytes) : s = t := by
  have htag : s.tag = t.tag := by
    have hbyte := s.tag_signed_bytes
    rw [h, t.tag_signed_bytes] at hbyte
    exact (Option.some.inj hbyte).symm
  cases s <;> cases t <;> try (simp [tag] at htag; done)
  case Boot.Boot =>
    obtain ⟨hfields, rfl⟩ := machine_proof.signed_bytes_inj hs ht h rfl
    cases hfields
    rfl
  case Endorsement.Endorsement =>
    obtain ⟨hfields, rfl⟩ := machine_proof.signed_bytes_inj hs ht h rfl
    cases hfields
    rfl
  case Call.Call =>
    obtain ⟨rfl, rfl, rfl⟩ := SignedCall.signed_bytes_inj hs ht h
    rfl

end Statement

/-! ## The network -/

/-- A boot of an honest daemon: its keys, and what its boot key signed. -/
structure Daemon where
  keys : DaemonKeys
  signed : List Statement := []

/-- The boots of the honest daemons, and what all other keys signed. -/
structure Network where
  daemons : List Daemon := []
  by_machine : List (Nat × Bytes) := []
  by_key : List (ClientPublicKey × Bytes) := []

/-- What a chain certifies, what a CA issued, and which honest machine holds a key. -/
structure Certificates where
  leaf_key : List Bytes → Nat
  issued : MachineTrust → List Bytes → Prop
  holder : Nat → Option String

inductive Act where
  | Boot («namespace» core_node instance_id : String) (machine : Option MachineCertificate)
      (key : ClientPublicKey)
  | Endorse (i : Nat) (client : String) (client_key : ClientPublicKey)
  | Call (i : Nat) (call : SignedCall) (timestamp_ms : UInt64) (nonce : Fixed NONCE_LEN)
  | MachineSigns (key : Nat) (message : Bytes)
  | KeySigns (key : ClientPublicKey) (message : Bytes)

def stated (boot : BootStatement) : Statement :=
  .Boot boot.namespace boot.core_node boot.instance_id boot.public_key

def endorses (boot : BootStatement) (client : String) (key : ClientPublicKey) : Statement :=
  .Endorsement boot.namespace boot.core_node boot.instance_id client key

namespace Network

variable (out : Outside) (certs : Certificates)

variable (f : Network)

def sign (i : Nat) (daemon : Daemon) (statement : Statement) : Network :=
  { f with daemons := f.daemons.set i { daemon with signed := statement :: daemon.signed } }

/-- A boot is of the core node of its machine. Other keys sign any bytes. -/
def step : Act → Option Network
  | .Boot «namespace» core_node instance_id machine key =>
    if (∀ daemon ∈ f.daemons, daemon.keys.boot_key ≠ key) ∧ (∀ entry ∈ f.by_key, entry.1 ≠ key) ∧
        (∀ certificate ∈ machine, certs.holder certificate.key = some core_node) ∧
        (Statement.Boot «namespace» core_node instance_id key).Fits then
      some { f with
        daemons := f.daemons ++
          [{ keys := .new out «namespace» core_node instance_id machine key }] }
    else none
  | .Endorse i client client_key => do
    let daemon ← f.daemons[i]?
    let (_, credential) ← daemon.keys.machine
    if (endorses credential.statement client client_key).Fits then
      some (f.sign i daemon (endorses credential.statement client client_key))
    else none
  | .Call i call timestamp_ms nonce => do
    let daemon ← f.daemons[i]?
    if call.Fits then some (f.sign i daemon (.Call call timestamp_ms nonce)) else none
  | .MachineSigns key message =>
    if certs.holder key = none then some { f with by_machine := (key, message) :: f.by_machine }
    else none
  | .KeySigns key message =>
    if ∀ daemon ∈ f.daemons, daemon.keys.boot_key ≠ key then
      some { f with by_key := (key, message) :: f.by_key }
    else none

/-- Somebody signed the bytes with the key. -/
def KeySigned (key : ClientPublicKey) (message : Bytes) : Prop :=
  (∃ daemon ∈ f.daemons, daemon.keys.boot_key = key ∧
    ∃ statement ∈ daemon.signed, statement.signed_bytes = message) ∨ (key, message) ∈ f.by_key

/-- Somebody signed the bytes with the machine's key. -/
def MachineSigned (key : Nat) (message : Bytes) : Prop :=
  (∃ daemon ∈ f.daemons, ∃ machine ∈ daemon.keys.machine, machine.1.key = key ∧
    (stated machine.2.statement).signed_bytes = message) ∨ (key, message) ∈ f.by_machine

end Network

/-! ## The honest daemons -/

/-- What an honest boot states and signs names it. -/
structure Daemon.Honest (certs : Certificates) (daemon : Daemon) : Prop where
  holds : ∀ machine ∈ daemon.keys.machine,
    certs.holder machine.1.key = some daemon.keys.core_node
  states : ∀ machine ∈ daemon.keys.machine, stated machine.2.statement =
    .Boot daemon.keys.namespace daemon.keys.core_node daemon.keys.boot_instance_id
      daemon.keys.boot_key
  fits : (Statement.Boot daemon.keys.namespace daemon.keys.core_node daemon.keys.boot_instance_id
    daemon.keys.boot_key).Fits
  signed : ∀ statement ∈ daemon.signed, statement.Fits

/-- No one else signs with a boot key or the key of a machine. -/
structure Honest (certs : Certificates) (f : Network) : Prop where
  daemons : ∀ daemon ∈ f.daemons, daemon.Honest certs
  own_keys : (f.daemons.map fun daemon => daemon.keys.boot_key).Nodup
  other_keys : ∀ entry ∈ f.by_key, ∀ daemon ∈ f.daemons, daemon.keys.boot_key ≠ entry.1
  other_machines : ∀ entry ∈ f.by_machine, certs.holder entry.1 = none

section
variable {out : Outside} {certs : Certificates} {f f' : Network}

theorem Honest.start : Honest certs {} where
  daemons := fun _ h => nomatch h
  own_keys := nodup_nil
  other_keys := fun _ h => nomatch h
  other_machines := fun _ h => nomatch h

variable {core_node instance_id «namespace» : String} {statement : Statement} {daemon : Daemon}

theorem Honest.boot (inv : Honest certs f)
    {machine : Option MachineCertificate} {key : ClientPublicKey}
    (hboots : ∀ daemon ∈ f.daemons, daemon.keys.boot_key ≠ key)
    (hkeys : ∀ entry ∈ f.by_key, entry.1 ≠ key)
    (hholds : ∀ certificate ∈ machine, certs.holder certificate.key = some core_node)
    (hfits : (Statement.Boot «namespace» core_node instance_id key).Fits) : Honest certs { f with
      daemons := f.daemons ++ [{ keys := .new out «namespace» core_node instance_id machine key }] } where
  daemons := by
    intro daemon hdaemon
    rcases mem_append.mp hdaemon with hdaemon | hdaemon
    · exact inv.daemons daemon hdaemon
    cases mem_singleton.mp hdaemon
    refine ⟨?_, ?_, hfits, fun _ h => nomatch h⟩
    · intro m hm
      obtain ⟨certificate, hcertificate, rfl⟩ := Option.map_eq_some_iff.mp hm
      exact hholds certificate hcertificate
    · intro m hm
      obtain ⟨certificate, -, rfl⟩ := Option.map_eq_some_iff.mp hm
      rfl
  own_keys := by
    rw [map_append, map_singleton, nodup_append]
    refine ⟨inv.own_keys, nodup_singleton _, ?_⟩
    intro k hk k' hk'
    obtain ⟨daemon, hdaemon, rfl⟩ := mem_map.mp hk
    cases mem_singleton.mp hk'
    exact hboots daemon hdaemon
  other_keys := by
    intro entry hentry daemon hdaemon
    rcases mem_append.mp hdaemon with hdaemon | hdaemon
    · exact inv.other_keys entry hentry daemon hdaemon
    · cases mem_singleton.mp hdaemon
      exact (hkeys entry hentry).symm
  other_machines := inv.other_machines

theorem Honest.sign (inv : Honest certs f) {i : Nat}
    (hdaemon : f.daemons[i]? = some daemon) (hfits : statement.Fits) :
    Honest certs (f.sign i daemon statement) := by
  have hmem := mem_of_getElem? hdaemon
  -- the keys of the boot stay as they are
  have hbefore : ∀ d ∈ (f.sign i daemon statement).daemons, ∃ d0 ∈ f.daemons, d.keys = d0.keys := by
    intro d hd
    rcases mem_or_eq_of_mem_set hd with hd | rfl
    · exact ⟨d, hd, rfl⟩
    · exact ⟨daemon, hmem, rfl⟩
  have hmap : (f.sign i daemon statement).daemons.map (fun d => d.keys.boot_key) =
      f.daemons.map fun d => d.keys.boot_key := by
    rw [Network.sign, map_set]
    obtain ⟨hi, rfl⟩ := List.getElem?_eq_some_iff.mp hdaemon
    refine ext_getElem (by simp) fun j hj hj' => ?_
    rw [getElem_set]
    split
    · rename_i heq
      subst heq
      rw [getElem_map]
    · rfl
  constructor
  · intro d hd
    rcases mem_or_eq_of_mem_set hd with hd | rfl
    · exact inv.daemons d hd
    · have hdaemon := inv.daemons daemon hmem
      refine ⟨hdaemon.holds, hdaemon.states, hdaemon.fits, ?_⟩
      exact forall_mem_cons.mpr ⟨hfits, hdaemon.signed⟩
  · rw [hmap]
    exact inv.own_keys
  · intro entry hentry d hd
    obtain ⟨d0, hd0, heq⟩ := hbefore d hd
    rw [heq]
    exact inv.other_keys entry hentry d0 hd0
  · exact inv.other_machines

theorem Honest.step (inv : Honest certs f) {a : Act} (h : f.step out certs a = some f') :
    Honest certs f' := by
  cases a with
  | Boot «namespace» core_node instance_id machine key =>
    rw [Network.step] at h
    split at h
    · rename_i hguard
      cases h
      obtain ⟨hboots, hkeys, hholds, hfits⟩ := hguard
      exact inv.boot hboots hkeys hholds hfits
    · cases h
  | Endorse i client client_key =>
    obtain ⟨daemon, hdaemon, h⟩ := Option.bind_eq_some_iff.mp h
    obtain ⟨⟨certificate, credential⟩, -, h⟩ := Option.bind_eq_some_iff.mp h
    dsimp only at h
    split at h
    · rename_i hfits
      cases h
      exact inv.sign hdaemon hfits
    · cases h
  | Call i call timestamp_ms nonce =>
    obtain ⟨daemon, hdaemon, h⟩ := Option.bind_eq_some_iff.mp h
    split at h
    · rename_i hfits
      cases h
      exact inv.sign hdaemon hfits
    · cases h
  | MachineSigns key message =>
    rw [Network.step] at h
    split at h
    · rename_i hother
      cases h
      exact { inv with other_machines := forall_mem_cons.mpr ⟨hother, inv.other_machines⟩ }
    · cases h
  | KeySigns key message =>
    rw [Network.step] at h
    split at h
    · rename_i hother
      cases h
      exact { inv with other_keys := forall_mem_cons.mpr ⟨hother, inv.other_keys⟩ }
    · cases h

theorem honest_run {acts : List Act} (h : run (Network.step out certs) {} acts = some f) :
    Honest certs f :=
  run_keeps (fun _ _ _ inv hstep => Honest.step inv hstep) Honest.start h

theorem Honest.signed_of_boot_key (inv : Honest certs f)
    (hdaemon : daemon ∈ f.daemons) (hfits : statement.Fits)
    (h : f.KeySigned daemon.keys.boot_key statement.signed_bytes) : statement ∈ daemon.signed := by
  rcases h with ⟨d, hd, hkey, s, hs, hbytes⟩ | hother
  · rw [inj_on_of_nodup_map inv.own_keys hd hdaemon hkey] at hs
    cases Statement.signed_bytes_inj ((inv.daemons daemon hdaemon).signed s hs) hfits hbytes
    exact hs
  · exact absurd rfl (inv.other_keys _ hother daemon hdaemon)

/-- A boot statement of an honest machine's key is of a boot of it. -/
theorem Honest.boot_of_machine (inv : Honest certs f) {key : Nat} {c : String}
    {boot_key : ClientPublicKey} (hholder : certs.holder key = some c)
    (hfits : (Statement.Boot «namespace» core_node instance_id boot_key).Fits)
    (h : f.MachineSigned key
    (Statement.Boot «namespace» core_node instance_id boot_key).signed_bytes) :
    ∃ daemon ∈ f.daemons, daemon.keys.namespace = «namespace» ∧
      daemon.keys.core_node = core_node ∧ daemon.keys.boot_instance_id = instance_id ∧
      daemon.keys.boot_key = boot_key := by
  rcases h with ⟨daemon, hdaemon, machine, hmachine, -, hbytes⟩ | hother
  · have hhonest := inv.daemons daemon hdaemon
    rw [hhonest.states machine hmachine] at hbytes
    cases Statement.signed_bytes_inj hhonest.fits hfits hbytes
    exact ⟨daemon, hdaemon, rfl, rfl, rfl, rfl⟩
  · exact nomatch (inv.other_machines _ hother).symm.trans hholder

end

/-! ## The verified callers -/

structure IncomingRequest where
  caller_core : String
  caller_inst : String
  key_expr : String
  kind : ServiceQueryKind
  payload : Bytes
  proof : Option CallProof

def IncomingRequest.signed_call (request : IncomingRequest) («namespace» : String) :
    SignedCall where
  «namespace» := «namespace»
  key_expr := request.key_expr
  kind := request.kind
  payload := request.payload

def IncomingRequest.received (request : IncomingRequest) («namespace» : String) : ReceivedCall where
  caller_core_node := request.caller_core
  caller_instance_id := request.caller_inst
  signed := request.signed_call «namespace»
  proof := request.proof

section
variable (out : Outside) (certs : Certificates) (f : Network)

/-- The signature of a key verifies only for bytes that its owner signed. -/
def Made (signature : Bytes) : Prop :=
  ∀ key message, out.verifies key message signature = true → f.KeySigned key message

/-- The signatures of a machine proof are not forged, and its strings have a size. -/
structure MachineProofMade (proof : MachineProof) : Prop where
  boot : ∀ message, out.verify_signature proof.boot.certificates proof.boot.algorithm message
    proof.boot.signature = true → f.MachineSigned (certs.leaf_key proof.boot.certificates) message
  endorsement : ∀ endorsement ∈ proof.endorsement, Made out f endorsement.signature
  fits : (stated proof.boot).Fits
  client_fits : ∀ endorsement ∈ proof.endorsement, Sized endorsement.client

/-- The symbolic signatures: no signature that the request carries is forged. -/
structure Unforged (request : IncomingRequest) : Prop where
  call : ∀ proof ∈ request.proof, Made out f proof.signature.val
  machine : ∀ proof ∈ request.proof, ∀ b ∈ proof.machine_proof, ∀ machine_proof,
    out.decode b = .ok machine_proof → MachineProofMade out certs f machine_proof

/-- The boot key of the core node, or a key that it endorsed, signed exactly this call. -/
def Authentic («namespace» core_node instance_id : String) (call : SignedCall)
    (timestamp_ms : UInt64) (nonce : Fixed NONCE_LEN) : Prop :=
  ∃ daemon ∈ f.daemons, daemon.keys.namespace = «namespace» ∧ daemon.keys.core_node = core_node ∧
    ((daemon.keys.boot_instance_id = instance_id ∧
        .Call call timestamp_ms nonce ∈ daemon.signed) ∨
      ∃ key, .Endorsement «namespace» core_node daemon.keys.boot_instance_id instance_id key ∈
          daemon.signed ∧
        f.KeySigned key (Statement.Call call timestamp_ms nonce).signed_bytes)

/-- A certified key of the CA vouches for the boot, whose key or endorsed key signed. -/
def Vouched (trust : MachineTrust) («namespace» core_node instance_id : String) (call : SignedCall)
    (timestamp_ms : UInt64) (nonce : Fixed NONCE_LEN) : Prop :=
  ∃ chain boot_id boot_key, certs.issued trust chain ∧
    (trust.kind = .Operator → out.common_name chain = .ok core_node) ∧
    (Statement.Boot «namespace» core_node boot_id boot_key).Fits ∧
    f.MachineSigned (certs.leaf_key chain)
      (Statement.Boot «namespace» core_node boot_id boot_key).signed_bytes ∧
    ((boot_id = instance_id ∧
        f.KeySigned boot_key (Statement.Call call timestamp_ms nonce).signed_bytes) ∨
      ∃ key, (Statement.Endorsement «namespace» core_node boot_id instance_id key).Fits ∧
        f.KeySigned boot_key
          (Statement.Endorsement «namespace» core_node boot_id instance_id key).signed_bytes ∧
        f.KeySigned key (Statement.Call call timestamp_ms nonce).signed_bytes)

end

section
variable {out : Outside} {certs : Certificates} {f : Network} {keys : DaemonKeys}
  {live : String → Option KeyFile} {window : NonceWindow} {request : IncomingRequest}
  {now_ms : Nat} {caller : VerifiedCaller}

theorem vouched_of_verify (hissued : ∀ trust chain now, out.verify_chain trust chain now = .ok () →
      certs.issued trust chain)
    (hmade : Unforged out certs f request) (hother : request.caller_core ≠ keys.core_node)
    (h : (verify out keys live window (request.received keys.namespace) now_ms).1 = .ok caller) :
    ∃ certificate credential proof, keys.machine = some (certificate, credential) ∧
      request.proof = some proof ∧
      Vouched out certs f certificate.trust keys.namespace request.caller_core request.caller_inst
        (request.signed_call keys.namespace) proof.timestamp_ms proof.nonce := by
  obtain ⟨proof, key, hproof, hkey, hverifies, -⟩ := verify_ok h
  obtain ⟨certificate, credential, b, proven, hmachine, hb, hproven, rfl, -⟩ :=
    key_of_other hother hkey
  obtain ⟨machine_proof, hdecode, hverified⟩ := machine_proof.verify_ok hproven
  have hparts := hmade.machine proof hproof b hb machine_proof hdecode
  have hcall := hmade.call proof hproof _ _ hverifies
  obtain ⟨⟨_, _, boot_id, boot_key, _, _, chain⟩, endorsement⟩ := machine_proof
  obtain ⟨rfl, rfl, hchain, hname, hboot, hkey⟩ := hverified
  refine ⟨certificate, credential, proof, hmachine, hproof, chain, boot_id, boot_key,
    hissued _ _ _ hchain, hname, hparts.fits, hparts.boot _ hboot, ?_⟩
  rcases hkey with ⟨hid, hkey⟩ | ⟨-, endorsement, hsome, hclient, hkey, hendorsed⟩
  · rw [hkey] at hcall
    exact .inl ⟨hid.symm, hcall⟩
  rw [hkey] at hcall
  have hclient : endorsement.client = request.caller_inst := hclient
  rw [← hclient]
  refine .inr ⟨endorsement.public_key, ?_, hparts.endorsement _ hsome _ _ hendorsed, hcall⟩
  have hfits := hparts.fits
  have hclient := hparts.client_fits endorsement hsome
  simp only [stated, Statement.Fits, mem_cons, forall_eq_or_imp] at hfits ⊢
  exact ⟨hfits.1, hfits.2.1, hfits.2.2.1, hclient, fun _ h => nomatch h⟩

/-- The chains that the CA issued for the core node are of honest machines. -/
def HonestHolders (out : Outside) (certs : Certificates) (trust : MachineTrust)
    (core_node : String) : Prop :=
  ∀ chain, certs.issued trust chain →
    (trust.kind = .Operator → out.common_name chain = .ok core_node) →
    ∃ c, certs.holder (certs.leaf_key chain) = some c

theorem Vouched.authentic {trust : MachineTrust} {«namespace» core_node instance_id : String}
    {call : SignedCall} {timestamp_ms : UInt64} {nonce : Fixed NONCE_LEN}
    (inv : Honest certs f) (hcall : call.Fits) (hholders : HonestHolders out certs trust core_node)
    (h : Vouched out certs f trust «namespace» core_node instance_id call timestamp_ms nonce) :
    Authentic f «namespace» core_node instance_id call timestamp_ms nonce := by
  obtain ⟨chain, boot_id, boot_key, hissued, hname, hfits, hboot, hkey⟩ := h
  obtain ⟨c, hholder⟩ := hholders chain hissued hname
  obtain ⟨daemon, hdaemon, rfl, rfl, rfl, rfl⟩ := inv.boot_of_machine hholder hfits hboot
  refine ⟨daemon, hdaemon, rfl, rfl, ?_⟩
  rcases hkey with ⟨hid, hsigned⟩ | ⟨key, hendorsement, hendorsed, hsigned⟩
  · exact .inl ⟨hid, inv.signed_of_boot_key hdaemon hcall hsigned⟩
  · exact .inr ⟨key, inv.signed_of_boot_key hdaemon hendorsement hendorsed, hsigned⟩

end

/-- In every run, a caller of another core node that a daemon verifies is vouched for by a
machine of its CA, and authentic where no other machine has a certificate of the core node
or all of the project are honest. -/
theorem the_signers_of_verified_callers (out : Outside) (certs : Certificates) (acts : List Act)
    (f : Network) (hrun : run (Network.step out certs) {} acts = some f)
    (hissued : ∀ trust chain now, out.verify_chain trust chain now = .ok () →
      certs.issued trust chain)
    (keys : DaemonKeys) (live : String → Option KeyFile) (window : NonceWindow)
    (request : IncomingRequest) (now_ms : Nat) (caller : VerifiedCaller)
    (hmade : Unforged out certs f request) (hfits : (request.signed_call keys.namespace).Fits)
    (hverified : (verify out keys live window (request.received keys.namespace) now_ms).1 =
      .ok caller) (hother : caller.core_node ≠ keys.core_node) :
    (∃ certificate credential proof, keys.machine = some (certificate, credential) ∧
      request.proof = some proof ∧
      Vouched out certs f certificate.trust keys.namespace caller.core_node caller.instance_id
        (request.signed_call keys.namespace) proof.timestamp_ms proof.nonce ∧
      ((certificate.trust.kind = .Operator ∧
          (∀ chain, certs.issued certificate.trust chain →
            out.common_name chain = .ok caller.core_node →
            certs.holder (certs.leaf_key chain) = some caller.core_node)) ∨
          (∀ chain, certs.issued certificate.trust chain →
            ∃ c, certs.holder (certs.leaf_key chain) = some c) →
        Authentic f keys.namespace caller.core_node caller.instance_id
          (request.signed_call keys.namespace) proof.timestamp_ms proof.nonce)) ∧
    ∀ s t : Statement, s.Fits → t.Fits → s.signed_bytes = t.signed_bytes → s = t := by
  refine ⟨?_, fun s t => Statement.signed_bytes_inj⟩
  obtain ⟨-, -, -, -, -, hcore, hinstance⟩ := verify_ok hverified
  rw [hcore] at hother
  obtain ⟨certificate, credential, proof, hmachine, hproof, hvouched⟩ :=
    vouched_of_verify hissued hmade hother hverified
  rw [hcore, hinstance]
  refine ⟨certificate, credential, proof, hmachine, hproof, hvouched, fun hhonest => ?_⟩
  refine hvouched.authentic (honest_run hrun) hfits fun chain hchain hname => ?_
  rcases hhonest with ⟨hkind, hnamed⟩ | hall
  · exact ⟨_, hnamed chain hchain (hname hkind)⟩
  · exact hall chain hchain

/-! ## A peer of the project -/

def armKey : ClientPublicKey := ⟨List.replicate 32 1, rfl⟩

def peerKey : ClientPublicKey := ⟨List.replicate 32 2, rfl⟩

def deskKey : ClientPublicKey := ⟨List.replicate 32 3, rfl⟩

def certificateOf (kind : CaKind) (key : UInt8) : MachineCertificate where
  chain := [[key]]
  key := key.toNat
  algorithm := .Ed25519
  trust := { anchors := [[0]], kind }

def armBoot (key : UInt8) (boot_key : ClientPublicKey) : BootStatement where
  «namespace» := "lab"
  core_node := "cn-arm"
  instance_id := "boot-1"
  public_key := boot_key
  algorithm := .Ed25519
  signature := []
  certificates := [[key]]

def removal : IncomingRequest where
  caller_core := "cn-arm"
  caller_inst := "boot-1"
  key_expr := "cn-desk/core/node_remove"
  kind := .UserRequest
  payload := [7]
  proof := some
    { timestamp_ms := 7
      nonce := ⟨List.replicate 16 0, rfl⟩
      signature := ⟨List.replicate 64 0, rfl⟩
      machine_proof := some [] }

def removalCall : Statement :=
  .Call (removal.signed_call "lab") 7 ⟨List.replicate 16 0, rfl⟩

def twoSignatures (kind : CaKind) (boot : BootStatement) : Outside where
  sign := fun _ _ => ⟨List.replicate 64 0, rfl⟩
  verifies := fun key message _ => key = boot.public_key && message = removalCall.signed_bytes
  machine_sign := fun _ _ => []
  verify_chain := fun trust chain _ =>
    if trust.kind = kind ∧ chain = boot.certificates then .ok () else .error "unknown issuer"
  common_name := fun _ => .ok "cn-arm"
  verify_signature := fun chain _ message _ =>
    chain = boot.certificates && message = boot.signed_bytes
  encode := fun _ => []
  decode := fun _ => .ok { boot, endorsement := none }

/-- The honest machine `cn-arm` has the first key, and the chain of the statement. -/
def certificatesOf (kind : CaKind) (boot : BootStatement) : Certificates where
  leaf_key := fun chain => if chain = [[1]] then 1 else 2
  issued := fun trust chain => trust.kind = kind ∧ chain = boot.certificates
  holder := fun key => if key = 1 then some "cn-arm" else none

def deskKeys (out : Outside) (kind : CaKind) : DaemonKeys :=
  .new out "lab" "cn-desk" "boot-9" (some (certificateOf kind 3)) deskKey

variable {boot : BootStatement} {kind : CaKind}

theorem unforged_removal {f : Network} (hfits : (stated boot).Fits)
    (hboot : f.MachineSigned (if boot.certificates = [[1]] then 1 else 2) boot.signed_bytes)
    (hcall : f.KeySigned boot.public_key removalCall.signed_bytes) :
    Unforged (twoSignatures kind boot) (certificatesOf kind boot) f removal := by
  constructor
  · intro proof _ key message hverifies
    obtain ⟨rfl, rfl⟩ := by simpa [twoSignatures] using hverifies
    exact hcall
  intro proof _ b _ machine_proof hdecode
  cases hdecode
  refine ⟨fun message hverifies => ?_, (fun _ h => nomatch h), hfits, fun _ h => nomatch h⟩
  obtain rfl := by simpa [twoSignatures] using hverifies
  exact hboot

theorem issued_of_verify_chain :
    ∀ trust chain now, (twoSignatures kind boot).verify_chain trust chain now = .ok () →
    (certificatesOf kind boot).issued trust chain := by
  intro trust chain now h
  simp only [twoSignatures] at h
  split at h
  · assumption
  · cases h

def armActs : List Act :=
  [.Boot "lab" "cn-arm" "boot-1" (some (certificateOf .Operator 1)) armKey,
    .Call 0 (removal.signed_call "lab") 7 ⟨List.replicate 16 0, rfl⟩]

/-- The boot of `cn-arm` removes a node, and the daemon `cn-desk` knows it. -/
theorem the_signer_of_a_removal :
    ∃ f caller, run (Network.step (twoSignatures .Operator (armBoot 1 armKey))
        (certificatesOf .Operator (armBoot 1 armKey))) {} armActs = some f ∧
      (verify (twoSignatures .Operator (armBoot 1 armKey))
        (deskKeys (twoSignatures .Operator (armBoot 1 armKey)) .Operator) (fun _ => none) {}
        (removal.received "lab") 7).1 = .ok caller ∧
      Authentic f "lab" "cn-arm" "boot-1" (removal.signed_call "lab") 7
        ⟨List.replicate 16 0, rfl⟩ := by
  refine ⟨_, { core_node := "cn-arm", instance_id := "boot-1", kind := .Daemon }, rfl, rfl, ?_⟩
  obtain ⟨⟨certificate, credential, proof, hmachine, hproof, -, hauthentic⟩, -⟩ :=
    the_signers_of_verified_callers (twoSignatures .Operator (armBoot 1 armKey))
      (certificatesOf .Operator (armBoot 1 armKey)) armActs _ rfl issued_of_verify_chain
      (deskKeys (twoSignatures .Operator (armBoot 1 armKey)) .Operator) (fun _ => none) {} removal 7
      _ (unforged_removal (by decide)
        (.inl ⟨_, mem_cons_self, _, rfl, rfl, rfl⟩)
        (.inl ⟨_, mem_cons_self, rfl, removalCall, mem_cons_self, rfl⟩))
      (by decide) rfl (by decide)
  cases hmachine
  cases hproof
  refine hauthentic (.inl ⟨rfl, ?_⟩)
  rintro chain ⟨-, rfl⟩ -
  rfl

def peerActs : List Act :=
  [.Boot "lab" "cn-arm" "boot-1" (some (certificateOf .Platform 1)) armKey,
    .MachineSigns 2 (armBoot 2 peerKey).signed_bytes, .KeySigns peerKey removalCall.signed_bytes]

/-- A machine of the project gives the core node `cn-arm` of another machine.
The daemon `cn-desk` verifies its call as one of `cn-arm`, which never signed
it. -/
theorem a_peer_that_gives_another_core_node :
    ∃ f caller, run (Network.step (twoSignatures .Platform (armBoot 2 peerKey))
        (certificatesOf .Platform (armBoot 2 peerKey))) {} peerActs = some f ∧
      (∀ trust chain now,
        (twoSignatures .Platform (armBoot 2 peerKey)).verify_chain trust chain now = .ok () →
        (certificatesOf .Platform (armBoot 2 peerKey)).issued trust chain) ∧
      (∀ trust chain, trust.kind = .Operator →
        ¬ (certificatesOf .Platform (armBoot 2 peerKey)).issued trust chain) ∧
      Unforged (twoSignatures .Platform (armBoot 2 peerKey))
        (certificatesOf .Platform (armBoot 2 peerKey)) f removal ∧
      (verify (twoSignatures .Platform (armBoot 2 peerKey))
        (deskKeys (twoSignatures .Platform (armBoot 2 peerKey)) .Platform) (fun _ => none) {}
        (removal.received "lab") 7).1 = .ok caller ∧
      caller.core_node = "cn-arm" ∧ caller.instance_id = "boot-1" ∧
      ¬ Authentic f "lab" "cn-arm" "boot-1" (removal.signed_call "lab") 7
        ⟨List.replicate 16 0, rfl⟩ := by
  refine ⟨_, { core_node := "cn-arm", instance_id := "boot-1", kind := .Daemon }, rfl,
    issued_of_verify_chain, ?_, unforged_removal (by decide) (.inr mem_cons_self)
      (.inr mem_cons_self), rfl, rfl, rfl, ?_⟩
  · rintro trust chain hkind ⟨hplatform, -⟩
    exact nomatch hkind.symm.trans hplatform
  -- the boot of `cn-arm` signed nothing
  rintro ⟨daemon, hdaemon, -, -, hsigned⟩
  cases mem_singleton.mp hdaemon
  rcases hsigned with ⟨-, hcall⟩ | ⟨key, hendorsed, -⟩
  · cases hcall
  · cases hendorsed

end peppy.callers
