-- The proof that a signed call carries. The signed bytes of two calls are
-- equal only when the calls are, and a proof is read back from its bytes as
-- it was written.
import Peppy.Lib.Bytes

open bytes List

namespace peppy.call_proof

open Outcome

/-- The bytes of a `[u8; N]`. -/
abbrev Fixed (n : Nat) := { b : Bytes // b.length = n }

def NONCE_LEN : Nat := 16

def SIGNATURE_LEN : Nat := 64

def PROOF_VERSION : UInt8 := 0x01

def SIGNED_CALL_CONTEXT : Bytes :=
  [112, 101, 112, 112, 121, 47, 99, 97, 108, 108, 45, 112, 114, 111, 111, 102, 47, 118, 49]

inductive ServiceQueryKind where
  | UserRequest
  | Probe
  deriving DecidableEq

variable {byte : UInt8}

namespace ServiceQueryKind

def as_byte : ServiceQueryKind → UInt8
  | .UserRequest => 0x00
  | .Probe => 0x01

def from_byte (byte : UInt8) : Option ServiceQueryKind :=
  if byte = 0x00 then some .UserRequest else if byte = 0x01 then some .Probe else none

theorem from_byte_as_byte (kind : ServiceQueryKind) : from_byte kind.as_byte = some kind := by
  cases kind <;> rfl

theorem as_byte_of_from_byte {kind : ServiceQueryKind}
    (h : from_byte byte = some kind) : kind.as_byte = byte := by
  unfold from_byte at h
  split at h
  · cases h; simp [as_byte, *]
  · split at h
    · cases h; simp [as_byte, *]
    · cases h

end ServiceQueryKind

/-! ## The signed bytes -/

/-- What the proof of a call signs, apart from its timestamp and its nonce. -/
structure SignedCall where
  «namespace» : String
  key_expr : String
  kind : ServiceQueryKind
  payload : Bytes
  deriving DecidableEq

variable {a r : Bytes}

namespace SignedCall

def field (b : Bytes) : Bytes := toBe 8 b.length ++ b

def signed_bytes (call : SignedCall) (timestamp_ms : UInt64) (nonce : Fixed NONCE_LEN) : Bytes :=
  SIGNED_CALL_CONTEXT ++ field (utf8 call.namespace) ++ field (utf8 call.key_expr) ++
    [call.kind.as_byte] ++ field call.payload ++ toBe 8 timestamp_ms.toNat ++ nonce.val

/-- The lengths of the fields are sizes of the machine. -/
structure Fits (call : SignedCall) : Prop where
  «namespace» : (utf8 call.namespace).length < 2 ^ 64
  key_expr : (utf8 call.key_expr).length < 2 ^ 64
  payload : call.payload.length < 2 ^ 64

instance (call : SignedCall) : Decidable call.Fits :=
  decidable_of_iff ((utf8 call.namespace).length < 2 ^ 64 ∧ (utf8 call.key_expr).length < 2 ^ 64 ∧
    call.payload.length < 2 ^ 64) ⟨fun ⟨h, h', h''⟩ => ⟨h, h', h''⟩, fun ⟨h, h', h''⟩ => ⟨h, h', h''⟩⟩

theorem field_append_inj {b s : Bytes} (ha : a.length < 2 ^ 64) (hb : b.length < 2 ^ 64)
    (h : field a ++ r = field b ++ s) : a = b ∧ r = s := by
  rw [field, field, append_assoc, append_assoc] at h
  exact field_inj ha hb h

theorem signed_bytes_inj {call call' : SignedCall} {timestamp_ms timestamp_ms' : UInt64}
    {nonce nonce' : Fixed NONCE_LEN} (hfits : call.Fits) (hfits' : call'.Fits)
    (h : call.signed_bytes timestamp_ms nonce = call'.signed_bytes timestamp_ms' nonce') :
    call = call' ∧ timestamp_ms = timestamp_ms' ∧ nonce = nonce' := by
  simp only [signed_bytes, append_assoc] at h
  -- the fields are read off from the front, one after the other
  have h := append_cancel_left h
  obtain ⟨hnamespace, h⟩ := field_append_inj hfits.namespace hfits'.namespace h
  obtain ⟨hkey, h⟩ := field_append_inj hfits.key_expr hfits'.key_expr h
  obtain ⟨hkind, h⟩ := append_inj h rfl
  obtain ⟨hpayload, h⟩ := field_append_inj hfits.payload hfits'.payload h
  obtain ⟨htime, hnonce⟩ := append_inj h (by simp)
  have hkind : call.kind = call'.kind := by
    have hback := ServiceQueryKind.from_byte_as_byte call.kind
    rw [singleton_inj.mp hkind, ServiceQueryKind.from_byte_as_byte] at hback
    exact (Option.some.inj hback).symm
  have htime := toBe_inj timestamp_ms.toNat_lt timestamp_ms'.toNat_lt htime
  refine ⟨?_, UInt64.toNat_inj.mp htime, Subtype.ext hnonce⟩
  obtain ⟨ns, key, kind, payload⟩ := call
  obtain ⟨ns', key', kind', payload'⟩ := call'
  cases utf8_inj hnamespace
  cases utf8_inj hkey
  cases hkind
  cases hpayload
  rfl

/-- Two signed calls with the same signed bytes are one call, signed at one
time with one nonce. -/
theorem the_signed_bytes_name_the_call (call call' : SignedCall) (timestamp_ms timestamp_ms' : UInt64)
    (nonce nonce' : Fixed NONCE_LEN) (hfits : call.Fits) (hfits' : call'.Fits)
    (h : call.signed_bytes timestamp_ms nonce = call'.signed_bytes timestamp_ms' nonce') :
    call = call' ∧ timestamp_ms = timestamp_ms' ∧ nonce = nonce' :=
  signed_bytes_inj hfits hfits' h

def resetCall : SignedCall where
  «namespace» := "local"
  key_expr := "cn-desk/cn-desk/*/peppy-cli/service/node/cn-desk/core/*/stack_reset"
  kind := .UserRequest
  payload := [1, 2]

theorem the_signed_bytes_of_a_reset :
    resetCall.Fits ∧ resetCall.signed_bytes 7 ⟨List.replicate 16 0, rfl⟩ ≠
      { resetCall with kind := .Probe }.signed_bytes 7 ⟨List.replicate 16 0, rfl⟩ := by
  have hfits : resetCall.Fits := ⟨by decide, by decide, by decide⟩
  refine ⟨hfits, fun h => ?_⟩
  have hcall := (the_signed_bytes_name_the_call resetCall { resetCall with kind := .Probe } 7 7 _ _
    hfits ⟨hfits.namespace, hfits.key_expr, hfits.payload⟩ h).1
  exact absurd (congrArg SignedCall.kind hcall) (by decide)

end SignedCall

/-! ## The proof -/

structure CallProof where
  timestamp_ms : UInt64
  nonce : Fixed NONCE_LEN
  signature : Fixed SIGNATURE_LEN
  machine_proof : Option Bytes
  deriving DecidableEq

inductive CallProofDecodeError where
  | Truncated
  | UnknownVersion (version : UInt8)
  | TrailingBytes (count : Nat)

/-! ### The reader -/

def take_slice (len : Nat) (reader : Bytes) : Outcome CallProofDecodeError (Bytes × Bytes) :=
  if reader.length < len then .Err .Truncated
  else do
    let field ← slice reader 0 len
    let rest ← sliceFrom reader len
    return (field, rest)

def take (n : Nat) (reader : Bytes) : Outcome CallProofDecodeError (Fixed n × Bytes) := do
  let (field, rest) ← take_slice n reader
  -- `field.try_into().expect(..)`
  if h : field.length = n then return (⟨field, h⟩, rest) else .Panic

theorem take_slice_append (a r : Bytes) : take_slice a.length (a ++ r) = .Ok (a, r) := by
  simp [take_slice, slice, sliceFrom]

variable {n : Nat}

theorem take_append (h : a.length = n) (r : Bytes) : take n (a ++ r) = .Ok (⟨a, h⟩, r) := by
  subst h
  simp [take, take_slice_append]

theorem take_slice_cases (len : Nat) (reader : Bytes) : take_slice len reader = .Err .Truncated ∨
      ∃ a r, reader = a ++ r ∧ a.length = len ∧ take_slice len reader = .Ok (a, r) := by
  by_cases h : reader.length < len
  · exact .inl (if_pos h)
  · have hlen : (reader.take len).length = len := by simp; omega
    have happ := take_slice_append (reader.take len) (reader.drop len)
    rw [hlen, take_append_drop] at happ
    exact .inr ⟨_, _, (take_append_drop len reader).symm, hlen, happ⟩

variable {reader : Bytes}

theorem take_cases : take n reader = .Err .Truncated ∨
      ∃ (a : Fixed n) (r : Bytes), reader = a.val ++ r ∧ take n reader = .Ok (a, r) := by
  rcases take_slice_cases n reader with h | ⟨a, r, hsplit, hlen, h⟩
  · exact .inl (by rw [take, h]; rfl)
  · refine .inr ⟨⟨a, hlen⟩, r, hsplit, ?_⟩
    rw [hsplit, take_append hlen]

theorem take_ne_panic : take n reader ≠ .Panic := by
  rcases take_cases with h | ⟨a, r, -, h⟩ <;> rw [h] <;> exact (nomatch ·)

variable {len : Nat}

theorem take_slice_ne_panic : take_slice len reader ≠ .Panic := by
  rcases take_slice_cases len reader with h | ⟨a, r, -, -, h⟩ <;> rw [h] <;> exact (nomatch ·)

theorem append_of_take {a : Fixed n} (h : take n reader = .Ok (a, r)) : reader = a.val ++ r := by
  rcases take_cases with h' | ⟨a', r', hsplit, h'⟩
  · exact nomatch h'.symm.trans h
  · cases h'.symm.trans h
    exact hsplit

theorem append_of_take_slice {reader a r : Bytes}
    (h : take_slice len reader = .Ok (a, r)) : reader = a ++ r ∧ a.length = len := by
  rcases take_slice_cases len reader with h' | ⟨a', r', hsplit, hlen, h'⟩
  · exact nomatch h'.symm.trans h
  · cases h'.symm.trans h
    exact ⟨hsplit, hlen⟩

/-! ### The bytes of a proof -/

variable {proof : CallProof}

namespace CallProof

/-- Appends the encoded proof to `out`. -/
def encode_into (proof : CallProof) (out : Bytes) : Bytes :=
  let machine_proof := proof.machine_proof.getD []
  out ++ [PROOF_VERSION] ++ toBe 8 proof.timestamp_ms.toNat ++ proof.nonce.val ++
    proof.signature.val ++ toBe 4 machine_proof.length ++ machine_proof

def decode (bytes : Bytes) : Outcome CallProofDecodeError CallProof := do
  let (version, reader) ← take 1 bytes
  let version ← index version.val 0
  if version ≠ PROOF_VERSION then .Err (.UnknownVersion version)
  else
    let (timestamp_ms, reader) ← take 8 reader
    let (nonce, reader) ← take NONCE_LEN reader
    let (signature, reader) ← take SIGNATURE_LEN reader
    let (machine_proof_len, reader) ← take 4 reader
    let (machine_proof, reader) ← take_slice (fromBe machine_proof_len.val) reader
    if reader ≠ [] then .Err (.TrailingBytes reader.length)
    else
      return {
        timestamp_ms := UInt64.ofNat (fromBe timestamp_ms.val)
        nonce, signature
        machine_proof := if machine_proof ≠ [] then some machine_proof else none }

/-- A machine proof is absent, or of a length not 0 that four bytes hold. -/
def Encodable (proof : CallProof) : Prop :=
  ∀ machine_proof, proof.machine_proof = some machine_proof →
    1 ≤ machine_proof.length ∧ machine_proof.length ≤ 2 ^ 32 - 1

theorem Encodable.getD_length (h : proof.Encodable) :
    (proof.machine_proof.getD []).length < 256 ^ 4 := by
  cases hproof : proof.machine_proof with
  | none => simp
  | some machine_proof =>
    have hlen := (h machine_proof hproof).2
    simp only [Option.getD_some]
    omega

theorem Encodable.getD_eq (h : proof.Encodable) :
    (if proof.machine_proof.getD [] ≠ [] then some (proof.machine_proof.getD []) else none) =
      proof.machine_proof := by
  cases hproof : proof.machine_proof with
  | none => rfl
  | some machine_proof =>
    have hlen := (h machine_proof hproof).1
    have hne : machine_proof ≠ [] := ne_nil_of_length_pos hlen
    simp [hne]

theorem decode_encode_into (proof : CallProof) (h : proof.Encodable) :
    decode (proof.encode_into []) = .Ok proof := by
  have htake := take_slice_append (proof.machine_proof.getD []) []
  rw [append_nil] at htake
  have hlen := fromBe_toBe_of_lt h.getD_length
  simp only [decode, encode_into, append_assoc, nil_append]
  rw [take_append (n := 1) (a := [PROOF_VERSION]) rfl, ok_bind]
  rw [show index (ε := CallProofDecodeError) [PROOF_VERSION] 0 = .Ok PROOF_VERSION from rfl,
    ok_bind, if_neg (not_not_intro rfl)]
  rw [take_append (length_toBe 8 _), ok_bind]
  rw [take_append proof.nonce.property, ok_bind]
  rw [take_append proof.signature.property, ok_bind]
  rw [take_append (length_toBe 4 _), ok_bind]
  rw [hlen, htake, ok_bind, if_neg (not_not_intro rfl), ofNat_fromBe_toBe, h.getD_eq]
  rfl

theorem eq_singleton_of_index {version : Fixed 1}
    (h : index (ε := CallProofDecodeError) version.val 0 = .Ok byte) (hbyte : byte = PROOF_VERSION) :
    version.val = [PROOF_VERSION] := by
  obtain ⟨x, hx⟩ := length_eq_one_iff.mp version.property
  rw [hx] at h ⊢
  cases h
  rw [hbyte]

theorem encode_into_of_decode {bytes : Bytes}
    (h : decode bytes = .Ok proof) : proof.encode_into [] = bytes := by
  simp only [decode, bind_eq_ok, Prod.exists] at h
  obtain ⟨version, r1, h1, byte, hbyte, h⟩ := h
  split at h
  · cases h
  rename_i hversion
  simp only [bind_eq_ok, Prod.exists] at h
  obtain ⟨timestamp_ms, r2, h2, nonce, r3, h3, signature, r4, h4, len, r5, h5, machine_proof, r6,
    h6, h⟩ := h
  split at h
  · cases h
  rename_i hrest
  cases h
  cases append_of_take h1
  cases append_of_take h2
  cases append_of_take h3
  cases append_of_take h4
  cases append_of_take h5
  obtain ⟨rfl, hlen⟩ := append_of_take_slice h6
  have hversion : version.val = [PROOF_VERSION] := eq_singleton_of_index hbyte (not_not.mp hversion)
  have hmachine : (if machine_proof ≠ [] then some machine_proof else none).getD [] =
      machine_proof := by
    by_cases hempty : machine_proof = [] <;> simp [hempty]
  have hlen : toBe 4 machine_proof.length = len.val := by
    rw [hlen, toBe_fromBe_of_length len.property]
  rw [encode_into, hmachine, hlen, toBe_toNat_fromBe timestamp_ms.property, hversion,
    not_not.mp hrest, append_nil]
  simp only [append_assoc, nil_append]

theorem decode_ne_panic (bytes : Bytes) : decode bytes ≠ .Panic := by
  refine bind_ne_panic (take_ne_panic) fun ⟨version, r⟩ _ => ?_
  refine bind_ne_panic (index_ne_panic (by simp [version.property])) fun byte _ => ?_
  split
  · exact (nomatch ·)
  refine bind_ne_panic (take_ne_panic) fun ⟨timestamp_ms, r⟩ _ => ?_
  refine bind_ne_panic (take_ne_panic) fun ⟨nonce, r⟩ _ => ?_
  refine bind_ne_panic (take_ne_panic) fun ⟨signature, r⟩ _ => ?_
  refine bind_ne_panic (take_ne_panic) fun ⟨len, r⟩ _ => ?_
  refine bind_ne_panic (take_slice_ne_panic) fun ⟨machine_proof, r⟩ _ => ?_
  dsimp only
  split
  · exact (nomatch ·)
  · exact (nomatch ·)

end CallProof

end peppy.call_proof
