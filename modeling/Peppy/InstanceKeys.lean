-- The keys that the daemons of a federation issue to the starts of their instances. A
-- call that is signed with one is a call of an instance, unless the instance has the
-- id of the command line.
import Peppy.Lib.Changes
import Peppy.Lib.Runs
import Peppy.Credentials
import Peppy.NodeConfig

open bytes results runs List Option

namespace peppy.credentials

open call_proof machine_proof node_config

/-! ## The federation -/

structure Issued where
  instance_id : Name
  credential : ClientCredential

/-- The boots of the daemons, and the keys generated, in key files, and issued. -/
structure Federation where
  daemons : List DaemonKeys := []
  generated : List ClientPublicKey := []
  command_lines : List ClientPublicKey := []
  issued : List Issued := []

inductive KeyAct where
  | Boot («namespace» core_node boot_instance_id : String) (machine : Option MachineCertificate)
      (key : ClientPublicKey)
  | Prepare (i : Nat) (key : ClientPublicKey)
  | Issue (i : Nat) (instance_id : Name) (key : ClientPublicKey) (gone : List KeyFile)

variable {instance_id : Name} {d : DaemonKeys} {kind : CallerKind} {issued : Issued}
variable {call : ReceivedCall}

namespace Federation

variable (out : Outside)

/-- A generated key is new. The command line keeps its key over the boots. -/
def step (f : Federation) : KeyAct → Option Federation
  | .Boot «namespace» core_node boot_instance_id machine key =>
    if key ∈ f.generated then none
    else some { f with
      daemons := f.daemons ++ [.new out «namespace» core_node boot_instance_id machine key]
      generated := key :: f.generated }
  | .Prepare i key => do
    let daemon ← f.daemons[i]?
    if key ∈ f.generated ∧ key ∉ f.command_lines then none
    else some { f with
      daemons := f.daemons.set i (daemon.prepare key)
      generated := key :: f.generated
      command_lines := key :: f.command_lines }
  | .Issue i instance_id key gone => do
    let daemon ← f.daemons[i]?
    if key ∈ f.generated then none
    else
      let (daemon, _, credential) := daemon.issue_instance_key out instance_id.as_str key gone
      some { f with
        daemons := f.daemons.set i daemon
        generated := key :: f.generated
        issued := ⟨instance_id, credential⟩ :: f.issued }

/-- Signed with the issued key, with its machine proof or, at home, none. -/
def SignedWith (issued : Issued) (call : ReceivedCall) : Prop :=
  ∃ proof, call.proof = some proof ∧
    proof.signature = out.sign issued.credential.key
      (call.signed.signed_bytes proof.timestamp_ms proof.nonce) ∧
    (proof.machine_proof = none ∨ proof.machine_proof = issued.credential.machine_proof)

/-- Every daemon that verifies a call of the key takes it for an instance's. -/
def SpeaksAsInstance (instance_id : Name) : Prop :=
  ∀ out : Outside, out.Lawful → ∀ acts f, run (step out) {} acts = some f →
    ∀ issued ∈ f.issued, issued.instance_id = instance_id →
    ∀ daemon ∈ f.daemons, ∀ live window call now_ms, SignedWith out issued call →
    ∀ caller, (verify out daemon live window call now_ms).1 = .ok caller →
      caller.kind = .Instance ∧ ∀ raw, RawCallGate.refusal raw (some caller) ≠ none

/-! ## The keys stay apart -/

/-- The credential is of the daemon's own key. -/
def States (daemon : DaemonKeys) : Prop :=
  ∀ certificate credential, daemon.machine = some (certificate, credential) →
    credential.statement.public_key = daemon.boot_key

/-- The machine proof of an issued key endorses it for its instance, by another
key. -/
def Endorsed (issued : Issued) : Prop :=
  ∀ b, issued.credential.machine_proof = some b →
    ∃ proof, b = out.encode proof ∧ proof.boot.public_key ≠ issued.credential.key ∧
      ∀ endorsement, proof.endorsement = some endorsement →
        endorsement.client = issued.instance_id.as_str

/-- No issued key is that of a daemon or of a command line. -/
structure Apart (f : Federation) : Prop where
  states : ∀ daemon ∈ f.daemons, States daemon
  boots : ∀ daemon ∈ f.daemons, daemon.boot_key ∈ f.generated
  files : ∀ daemon ∈ f.daemons, ∀ key, daemon.command_line = some key → key ∈ f.command_lines
  lines : ∀ key ∈ f.command_lines, key ∈ f.generated
  keys : ∀ issued ∈ f.issued, issued.credential.key ∈ f.generated
  no_line : ∀ issued ∈ f.issued, issued.credential.key ∉ f.command_lines
  no_boot : ∀ issued ∈ f.issued, ∀ daemon ∈ f.daemons, daemon.boot_key ≠ issued.credential.key
  endorsed : ∀ issued ∈ f.issued, Endorsed out issued

theorem Apart.start : Apart out {} where
  states := fun _ h => nomatch h
  boots := fun _ h => nomatch h
  files := fun _ h => nomatch h
  lines := fun _ h => nomatch h
  keys := fun _ h => nomatch h
  no_line := fun _ h => nomatch h
  no_boot := fun _ h => nomatch h
  endorsed := fun _ h => nomatch h

section
variable {out} {f f' : Federation}

theorem states_new («namespace» core_node boot_instance_id : String)
    (machine : Option MachineCertificate) (key : ClientPublicKey) :
    States (.new out «namespace» core_node boot_instance_id machine key) := by
  intro certificate credential h
  obtain ⟨c, -, hc⟩ := map_eq_some_iff.mp h
  cases hc
  rfl

variable {key : ClientPublicKey} {daemon : DaemonKeys} {i : Nat} {live : String → Option KeyFile}

theorem endorsed_credential (hstates : States daemon) (hkey : daemon.boot_key ≠ key) :
    Endorsed out ⟨instance_id, daemon.credential_of out instance_id.as_str key⟩ := by
  intro b hb
  obtain ⟨⟨certificate, credential⟩, hmachine, rfl⟩ := map_eq_some_iff.mp hb
  refine ⟨_, rfl, ?_, ?_⟩
  · intro heq
    exact hkey ((hstates certificate credential hmachine).symm.trans heq)
  · rintro _ ⟨⟩
    rfl

theorem States.of_eq {d' : DaemonKeys} (h : States d) (hkey : d'.boot_key = d.boot_key)
    (hmachine : d'.machine = d.machine) : States d' := by
  intro certificate credential hsome
  rw [hkey]
  exact h certificate credential (hmachine ▸ hsome)

theorem daemon_before {daemon' : DaemonKeys}
    (hdaemon : f.daemons[i]? = some daemon) (hd : d ∈ f.daemons.set i daemon')
    (hkey : daemon'.boot_key = daemon.boot_key) (hmachine : daemon'.machine = daemon.machine) :
    ∃ d0 ∈ f.daemons, d.boot_key = d0.boot_key ∧ d.machine = d0.machine := by
  rcases mem_or_eq_of_mem_set hd with hd | rfl
  · exact ⟨d, hd, rfl, rfl⟩
  · exact ⟨daemon, mem_of_getElem? hdaemon, hkey, hmachine⟩

theorem Apart.boot (inv : f.Apart out) {«namespace» core_node boot_instance_id : String}
    {machine : Option MachineCertificate} (hnew : key ∉ f.generated) : Apart out { f with
      daemons := f.daemons ++ [.new out «namespace» core_node boot_instance_id machine key]
      generated := key :: f.generated } := by
  constructor
  · intro d hd
    rcases changes.mem_push hd with hd | rfl
    · exact inv.states d hd
    · exact states_new _ _ _ _ _
  · intro d hd
    rcases changes.mem_push hd with hd | rfl
    · exact mem_cons_of_mem _ (inv.boots d hd)
    · exact mem_cons_self
  · intro d hd k hk
    rcases changes.mem_push hd with hd | rfl
    · exact inv.files d hd k hk
    · cases hk
  · exact fun k hk => mem_cons_of_mem _ (inv.lines k hk)
  · exact fun c hc => mem_cons_of_mem _ (inv.keys c hc)
  · exact inv.no_line
  · intro c hc d hd
    rcases changes.mem_push hd with hd | rfl
    · exact inv.no_boot c hc d hd
    · intro heq
      have heq : key = c.credential.key := heq
      exact hnew (heq ▸ inv.keys c hc)
  · exact inv.endorsed

theorem Apart.prepare (inv : f.Apart out) (hdaemon : f.daemons[i]? = some daemon)
    (hnew : ¬ (key ∈ f.generated ∧ key ∉ f.command_lines)) : Apart out { f with
      daemons := f.daemons.set i (daemon.prepare key), generated := key :: f.generated
      command_lines := key :: f.command_lines } := by
  constructor
  · intro d hd
    obtain ⟨d0, hd0, hkey, hmachine⟩ := daemon_before hdaemon hd rfl rfl
    exact (inv.states d0 hd0).of_eq hkey hmachine
  · intro d hd
    obtain ⟨d0, hd0, hkey, -⟩ := daemon_before hdaemon hd rfl rfl
    rw [hkey]
    exact mem_cons_of_mem _ (inv.boots d0 hd0)
  · intro d hd k hk
    rcases mem_or_eq_of_mem_set hd with hd | rfl
    · exact mem_cons_of_mem _ (inv.files d hd k hk)
    · cases hk
      exact mem_cons_self
  · intro k hk
    rcases mem_cons.mp hk with rfl | hk
    · exact mem_cons_self
    · exact mem_cons_of_mem _ (inv.lines k hk)
  · exact fun c hc => mem_cons_of_mem _ (inv.keys c hc)
  · intro c hc hk
    rcases mem_cons.mp hk with heq | hk
    · exact hnew ⟨heq ▸ inv.keys c hc, heq ▸ inv.no_line c hc⟩
    · exact inv.no_line c hc hk
  · intro c hc d hd
    obtain ⟨d0, hd0, hkey, -⟩ := daemon_before hdaemon hd rfl rfl
    rw [hkey]
    exact inv.no_boot c hc d0 hd0
  · exact inv.endorsed

theorem Apart.issue (inv : f.Apart out)
    {gone : List KeyFile} (hdaemon : f.daemons[i]? = some daemon) (hnew : key ∉ f.generated) :
    Apart out { f with
      daemons := f.daemons.set i (daemon.issue_instance_key out instance_id.as_str key gone).1
      generated := key :: f.generated
      issued := ⟨instance_id, daemon.credential_of out instance_id.as_str key⟩ :: f.issued } := by
  have hmem := mem_of_getElem? hdaemon
  have hfresh : ∀ d ∈ f.daemons, d.boot_key ≠ key :=
    fun d hd heq => hnew (heq ▸ inv.boots d hd)
  constructor
  · intro d hd
    obtain ⟨d0, hd0, hkey, hmachine⟩ := daemon_before hdaemon hd rfl rfl
    exact (inv.states d0 hd0).of_eq hkey hmachine
  · intro d hd
    obtain ⟨d0, hd0, hkey, -⟩ := daemon_before hdaemon hd rfl rfl
    rw [hkey]
    exact mem_cons_of_mem _ (inv.boots d0 hd0)
  · intro d hd k hk
    rcases mem_or_eq_of_mem_set hd with hd | rfl
    · exact inv.files d hd k hk
    · exact inv.files daemon hmem k hk
  · exact fun k hk => mem_cons_of_mem _ (inv.lines k hk)
  · intro c hc
    rcases mem_cons.mp hc with rfl | hc
    · exact mem_cons_self
    · exact mem_cons_of_mem _ (inv.keys c hc)
  · intro c hc
    rcases mem_cons.mp hc with rfl | hc
    · exact fun hk => hnew (inv.lines key hk)
    · exact inv.no_line c hc
  · intro c hc d hd
    obtain ⟨d0, hd0, hkey, -⟩ := daemon_before hdaemon hd rfl rfl
    rw [hkey]
    rcases mem_cons.mp hc with rfl | hc
    · exact hfresh d0 hd0
    · exact inv.no_boot c hc d0 hd0
  · intro c hc
    rcases mem_cons.mp hc with rfl | hc
    · exact endorsed_credential (inv.states daemon hmem) (hfresh daemon hmem)
    · exact inv.endorsed c hc

theorem Apart.step (inv : f.Apart out) {a : KeyAct} (h : f.step out a = some f') :
    f'.Apart out := by
  cases a with
  | Boot «namespace» core_node boot_instance_id machine key =>
    rw [Federation.step] at h
    split at h
    · cases h
    · rename_i hnew
      cases h
      exact inv.boot hnew
  | Prepare i key =>
    obtain ⟨daemon, hdaemon, h⟩ := bind_eq_some_iff.mp h
    split at h
    · cases h
    · rename_i hnew
      cases h
      exact inv.prepare hdaemon hnew
  | Issue i instance_id key gone =>
    obtain ⟨daemon, hdaemon, h⟩ := bind_eq_some_iff.mp h
    split at h
    · cases h
    · rename_i hnew
      cases h
      exact inv.issue hdaemon hnew

/-! ## What an issued key speaks as -/

theorem kind_of_local_key {instance_id : String}
    (hboot : daemon.boot_key ≠ key) (hline : daemon.command_line ≠ some key)
    (h : daemon.local_key instance_id live = some (key, kind)) : kind = .Instance := by
  unfold DaemonKeys.local_key at h
  split at h
  · cases h
    exact absurd rfl hboot
  split at h
  · obtain ⟨k, hk, heq⟩ := map_eq_some_iff.mp h
    cases heq
    exact absurd hk hline
  · obtain ⟨_, -, h⟩ := bind_eq_some_iff.mp h
    obtain ⟨_, -, h⟩ := bind_eq_some_iff.mp h
    cases h
    rfl

/-- Another machine's daemon knows an issued key by its proof. -/
theorem kind_of_proven_key (hlawful : out.Lawful) (hendorsed : Endorsed out issued)
    {proof : CallProof} {now : Nat}
    (hproof : proof.machine_proof = none ∨ proof.machine_proof = issued.credential.machine_proof)
    (hother : call.caller_core_node ≠ daemon.core_node)
    (h : key_of out daemon live call proof now = .ok (issued.credential.key, kind)) :
    kind = if issued.instance_id.as_str = COMMAND_LINE_INSTANCE_ID then .CommandLine
      else .Instance := by
  obtain ⟨certificate, credential, b, proven, -, hb, hproven, hfound, hkind⟩ := key_of_other hother h
  -- the proof is the one of the key file
  have hfile : issued.credential.machine_proof = some b := by
    rcases hproof with hnone | hsome
    · exact nomatch hnone.symm.trans hb
    · exact hsome.symm.trans hb
  obtain ⟨written, rfl, hkey, hclient⟩ := hendorsed b hfile
  rcases key_of_verified hlawful hproven with ⟨-, hboot⟩ | ⟨hdaemon, endorsement, hsome, hnamed⟩
  · exact absurd (hboot.symm.trans hfound.symm) hkey
  have hid : issued.instance_id.as_str = call.caller_instance_id :=
    (hclient endorsement hsome).symm.trans hnamed
  rw [hdaemon] at hkind
  rw [hid]
  exact hkind

/-- The kind that any daemon verifies a call with, by the key of an instance. -/
theorem Apart.kind_of_verified (inv : f.Apart out) (hlawful : out.Lawful)
    (hissued : issued ∈ f.issued) (hdaemon : daemon ∈ f.daemons)
    {window : NonceWindow} {now_ms : Nat}
    (hsigned : SignedWith out issued call) {caller : VerifiedCaller}
    (h : (verify out daemon live window call now_ms).1 = .ok caller) :
    caller.kind = .Instance ∨ issued.instance_id.as_str = COMMAND_LINE_INSTANCE_ID := by
  obtain ⟨proof, hcall, hsignature, hmachine⟩ := hsigned
  obtain ⟨proof', key, hcall', hkey, hverifies, -⟩ := verify_ok h
  cases hcall.symm.trans hcall'
  -- the signature is by the issued key, so the key found is that key
  have hown : key = issued.credential.key := by
    rw [CallProof.verifies, hsignature] at hverifies
    exact hlawful.foreign _ _ _ hverifies
  rw [hown] at hkey
  by_cases hlocal : call.caller_core_node = daemon.core_node
  · left
    rw [key_of, if_pos hlocal] at hkey
    split at hkey
    · rename_i found hfound
      cases hkey
      refine kind_of_local_key (inv.no_boot issued hissued daemon hdaemon) ?_ hfound
      exact fun hline => inv.no_line issued hissued (inv.files daemon hdaemon _ hline)
    · cases hkey
  · have hproven := kind_of_proven_key hlawful (inv.endorsed issued hissued) hmachine hlocal hkey
    by_cases hid : issued.instance_id.as_str = COMMAND_LINE_INSTANCE_ID
    · exact .inr hid
    · rw [if_neg hid] at hproven
      exact .inl hproven

end

/-! ## The instance of the command line -/

/-! A form of the machine proofs in bytes, in place of JSON. -/

/-- Each byte behind a 1, and the field closed by a 0. -/
def escape (field : Bytes) : Bytes := field.flatMap (fun b => [1, b]) ++ [0]

/-- The fields of escaped bytes, behind the bytes of the open field. -/
def fields (opened : Bytes) : Bytes → List Bytes
  | [] => []
  | 0 :: rest => opened :: fields [] rest
  | _ :: b :: rest => fields (opened ++ [b]) rest
  | _ :: [] => []

theorem fields_escape (opened field rest : Bytes) :
    fields opened (escape field ++ rest) = (opened ++ field) :: fields [] rest := by
  induction field generalizing opened with
  | nil => simp [escape, fields]
  | cons b field ih =>
    have happ : escape (b :: field) ++ rest = 1 :: b :: (escape field ++ rest) := by
      simp [escape]
    rw [happ, fields, ih, append_assoc, singleton_append]
    decide

theorem fields_flatMap (l : List Bytes) : fields [] (l.flatMap escape) = l := by
  induction l with
  | nil => rfl
  | cons field l ih => rw [flatMap_cons, fields_escape, ih, nil_append]

def algorithmByte : MachineSignature → UInt8
  | .EcdsaP256Sha256 => 0
  | .EcdsaP384Sha384 => 1
  | .Ed25519 => 2
  | .RsaPkcs1Sha256 => 3

def algorithmOf (b : UInt8) : MachineSignature :=
  if b = 0 then .EcdsaP256Sha256 else if b = 1 then .EcdsaP384Sha384
  else if b = 2 then .Ed25519 else .RsaPkcs1Sha256

theorem algorithmOf_byte (a : MachineSignature) : algorithmOf (algorithmByte a) = a := by
  cases a <;> rfl

def keyOf (b : Bytes) : Option ClientPublicKey :=
  if h : b.length = PUBLIC_KEY_LEN then some ⟨b, h⟩ else none

theorem keyOf_val (key : ClientPublicKey) : keyOf key.val = some key := dif_pos key.property

def toFields (proof : MachineProof) : List Bytes :=
  [utf8 proof.boot.namespace, utf8 proof.boot.core_node, utf8 proof.boot.instance_id,
    proof.boot.public_key.val, [algorithmByte proof.boot.algorithm], proof.boot.signature] ++
  (match proof.endorsement with
    | none => [[0]]
    | some e => [[1], utf8 e.client, e.public_key.val, e.signature]) ++
  proof.boot.certificates

def endorsementOf : List Bytes → Option (Option Endorsement × List Bytes)
  | [1] :: client :: key :: signature :: certificates => do
    let client ← fromUtf8 client
    let key ← keyOf key
    return (some ⟨client, key, signature⟩, certificates)
  | _ :: certificates => some (none, certificates)
  | [] => none

def ofFields : List Bytes → Option MachineProof
  | «namespace» :: core_node :: instance_id :: key :: [algorithm] :: signature :: rest => do
    let «namespace» ← fromUtf8 «namespace»
    let core_node ← fromUtf8 core_node
    let instance_id ← fromUtf8 instance_id
    let key ← keyOf key
    let (endorsement, certificates) ← endorsementOf rest
    return ⟨⟨«namespace», core_node, instance_id, key, algorithmOf algorithm, signature,
      certificates⟩, endorsement⟩
  | _ => none

theorem ofFields_toFields (proof : MachineProof) : ofFields (toFields proof) = some proof := by
  obtain ⟨⟨ns, core_node, instance_id, key, algorithm, signature, certificates⟩, endorsement⟩ := proof
  cases endorsement with
  | none | some e =>
    simp [toFields, ofFields, endorsementOf, fromUtf8_utf8, keyOf_val, algorithmOf_byte]

/-- Keys whose signature is the key, and one CA that signs every machine. -/
def oneCa : Outside where
  sign := fun key _ => ⟨key.val ++ List.replicate 32 0, by rw [length_append, key.property]; rfl⟩
  verifies := fun key _ signature => signature = key.val ++ List.replicate 32 0
  machine_sign := fun _ message => message
  verify_chain := fun _ _ _ => .ok ()
  common_name := fun _ => .error "no common name"
  verify_signature := fun _ _ message signature => message = signature
  encode := fun proof => (toFields proof).flatMap escape
  decode := fun b => (ofFields (fields [] b)).elim (.error "no proof") .ok

theorem oneCa_lawful : oneCa.Lawful where
  foreign := by
    intro key other message h
    have h : key.val ++ List.replicate 32 0 = other.val ++ List.replicate 32 0 := of_decide_eq_true h
    exact Subtype.ext (append_cancel_right h).symm
  decode_encode := by
    intro proof
    show (ofFields (fields [] ((toFields proof).flatMap escape))).elim _ _ = _
    rw [fields_flatMap, ofFields_toFields]
    rfl

def testKey (n : UInt8) : ClientPublicKey := ⟨List.replicate 32 n, rfl⟩

def machineOf (n : Nat) : MachineCertificate where
  chain := [[1]]
  key := n
  algorithm := .Ed25519
  trust := { anchors := [[1]], kind := .Platform }

def cliInstance : Name := { as_str := "peppy-cli" }

/-- The daemon of `cn-arm` issues a key to a start of the instance
`peppy-cli`. -/
def cliStart : List KeyAct :=
  [.Boot "ws" "cn-arm" "arm-boot" (some (machineOf 1)) (testKey 1),
    .Boot "ws" "cn-desk" "desk-boot" (some (machineOf 2)) (testKey 2),
    .Issue 0 cliInstance (testKey 3) []]

theorem length_nonce : (List.replicate 16 (1 : UInt8)).length = 16 := rfl

def cliCall (issued : Issued) : ReceivedCall where
  caller_core_node := "cn-arm"
  caller_instance_id := "peppy-cli"
  signed := SignedCall.resetCall
  proof := some {
    timestamp_ms := 7
    nonce := ⟨List.replicate 16 1, length_nonce⟩
    signature := oneCa.sign issued.credential.key
      (SignedCall.resetCall.signed_bytes 7 ⟨List.replicate 16 1, length_nonce⟩)
    machine_proof := issued.credential.machine_proof }

def answerAt (f : Federation) (i : Nat) : Option VerifiedCaller := do
  let daemon ← f.daemons[i]?
  let issued ← f.issued.head?
  (verify oneCa daemon (fun _ => none) {} (cliCall issued) 7).1.toOption

theorem cliStart_answer : (run (step oneCa) {} cliStart).bind (fun f => f.answerAt 1) =
      some ⟨"cn-arm", "peppy-cli", .CommandLine⟩ := by
  decide +kernel

theorem not_speaksAsInstance_cli
    (hid : instance_id.as_str = COMMAND_LINE_INSTANCE_ID) : ¬ SpeaksAsInstance instance_id := by
  intro hspeaks
  have hname : cliInstance = instance_id := by
    obtain ⟨_, _, _⟩ := instance_id
    cases hid
    rfl
  obtain ⟨f, hrun, hanswer⟩ := bind_eq_some_iff.mp cliStart_answer
  obtain ⟨daemon, hdaemon, hanswer⟩ := bind_eq_some_iff.mp hanswer
  obtain ⟨issued, hissued, hanswer⟩ := bind_eq_some_iff.mp hanswer
  have hissuedId : issued.instance_id = instance_id := by
    have hids : (run (step oneCa) {} cliStart).map (fun f => f.issued.map fun i => i.instance_id) =
        some [cliInstance] := by decide +kernel
    rw [hrun, map_some, Option.some.injEq] at hids
    have hhead : (f.issued.map fun i => i.instance_id).head? = some issued.instance_id := by
      rw [head?_map, hissued]
      rfl
    rw [hids] at hhead
    rw [← hname]
    exact (Option.some.inj hhead).symm
  have hverify : (verify oneCa daemon (fun _ => none) {} (cliCall issued) 7).1 =
      .ok ⟨"cn-arm", "peppy-cli", .CommandLine⟩ := by
    revert hanswer
    cases (verify oneCa daemon (fun _ => none) {} (cliCall issued) 7).1 with
    | error e => exact fun h => nomatch h
    | ok caller => exact fun h => congrArg Except.ok (Option.some.inj h)
  have hkind := (hspeaks oneCa oneCa_lawful cliStart f hrun issued (mem_of_head? hissued)
    hissuedId daemon (mem_of_getElem? hdaemon) _ _ _ _ ⟨_, rfl, rfl, .inr rfl⟩ _ hverify).1
  cases hkind

/-- An issued key speaks as an instance to every daemon, exactly when the instance does not
have the id of the command line. -/
theorem an_issued_key_speaks_as_an_instance (instance_id : Name) :
    SpeaksAsInstance instance_id ↔ instance_id.as_str ≠ COMMAND_LINE_INSTANCE_ID := by
  constructor
  · intro hspeaks hid
    exact not_speaksAsInstance_cli hid hspeaks
  intro hid out hlawful acts f hrun issued hissued hissuedId daemon hdaemon live window call now_ms
    hsigned caller hverify
  have inv : f.Apart out := run_keeps (fun _ _ _ inv h => Apart.step inv h) (Apart.start out) hrun
  rcases inv.kind_of_verified hlawful hissued hdaemon hsigned hverify with hkind | hline
  · refine ⟨hkind, fun raw => ?_⟩
    rw [RawCallGate.refusal, if_pos hkind]
    exact (nomatch ·)
  · rw [hissuedId] at hline
    exact absurd hline hid

theorem an_instance_that_speaks_as_the_command_line : ¬ SpeaksAsInstance { as_str := "peppy-cli" } :=
  not_speaksAsInstance_cli rfl

end Federation

end peppy.credentials
