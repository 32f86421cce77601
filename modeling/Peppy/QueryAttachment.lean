-- The attachment of a service query: the kind of the query, and the proof of
-- a signed call. Only the bytes that a sender writes are read, and they are
-- read back as they were written.
import Peppy.CallProof

open bytes List

namespace peppy.zenoh_format

open call_proof ServiceQueryKind

inductive ZenohWireParseError where
  | MissingSegment (segment : String)
  | WildcardInCallerSegment (segment : String)
  | InvalidCoreNodePresenceKey (keyexpr : String)
  | TargetSlotMismatch (field expected got : String)
  | ServiceRootMismatch (expected got : String)
  | MissingServiceQueryAttachment
  | ServiceQueryAttachmentMagicMismatch (expected got : UInt8)
  | TruncatedServiceQueryAttachment
  | UnknownServiceQueryKind (byte : UInt8)
  | CallProof (error : CallProofDecodeError)
  | MissingServiceReplyAttachment
  | ServiceReplyAttachmentMagicMismatch (expected got : UInt8)
  | TruncatedServiceReplyAttachment
  | UnknownServiceReplyKind (byte : UInt8)

structure ServiceQueryAttachment where
  kind : ServiceQueryKind
  proof : Option call_proof.CallProof

variable {attachment : ServiceQueryAttachment}

namespace ServiceQueryAttachment

def MAGIC_V3 : UInt8 := 0x03

def encode (attachment : ServiceQueryAttachment) : Bytes :=
  let bytes := [MAGIC_V3, attachment.kind.as_byte]
  match attachment.proof with
  | some proof => proof.encode_into bytes
  | none => bytes

def decode (bytes : Bytes) : Outcome ZenohWireParseError ServiceQueryAttachment :=
  if bytes = [] then .Err .MissingServiceQueryAttachment
  else do
    let first ← index bytes 0
    if first ≠ MAGIC_V3 then .Err (.ServiceQueryAttachmentMagicMismatch MAGIC_V3 first)
    else
      let kind_byte ← Outcome.okOr .TruncatedServiceQueryAttachment bytes[1]?
      let kind ← Outcome.okOr (.UnknownServiceQueryKind kind_byte)
        (ServiceQueryKind.from_byte kind_byte)
      let rest ← sliceFrom bytes 2
      match rest with
      | [] => return { kind, proof := none }
      | proof =>
        let proof ← (CallProof.decode proof).mapErr .CallProof
        return { kind, proof := some proof }

/-- What `decode` makes of the bytes after the kind. -/
def decode_proof (kind : ServiceQueryKind) (rest : Bytes) :
    Outcome ZenohWireParseError ServiceQueryAttachment :=
  match rest with
  | [] => .Ok { kind, proof := none }
  | proof => do
    let proof ← (CallProof.decode proof).mapErr .CallProof
    return { kind, proof := some proof }

theorem decode_cons (kind : ServiceQueryKind) (rest : Bytes) :
    decode (MAGIC_V3 :: kind.as_byte :: rest) = decode_proof kind rest := by
  have hkind := from_byte_as_byte kind
  simp only [decode, index, getElem?_cons_zero, getElem?_cons_succ, sliceFrom]
  simp only [reduceCtorEq, if_false, Outcome.ok_bind, ne_eq, not_true_eq_false, Outcome.okOr_some,
    length_cons, Nat.le_add_left, if_true, drop_succ_cons, drop_zero]
  rw [hkind]
  rfl

theorem decode_shape (bytes : Bytes) : (∃ error, decode bytes = .Err error) ∨
      ∃ kind rest, bytes = MAGIC_V3 :: as_byte kind :: rest := by
  cases bytes with
  | nil => exact .inl ⟨_, rfl⟩
  | cons first tail =>
    by_cases hfirst : first = MAGIC_V3
    · subst hfirst
      cases tail with
      | nil => exact .inl ⟨_, rfl⟩
      | cons byte rest =>
        cases hkind : from_byte byte with
        | none =>
          refine .inl ⟨.UnknownServiceQueryKind byte, ?_⟩
          simp [decode, index, hkind]
        | some kind =>
          exact .inr ⟨kind, rest, by rw [as_byte_of_from_byte hkind]⟩
    · refine .inl ⟨.ServiceQueryAttachmentMagicMismatch MAGIC_V3 first, ?_⟩
      simp [decode, index, hfirst]

theorem decode_proof_of_ne {kind : ServiceQueryKind} {rest : Bytes} (h : rest ≠ []) :
    decode_proof kind rest = ((CallProof.decode rest).mapErr .CallProof >>= fun proof =>
      .Ok { kind, proof := some proof }) := by
  cases rest with
  | nil => exact absurd rfl h
  | cons b rest => rfl

theorem encode_some (kind : ServiceQueryKind) (proof : CallProof) :
    encode { kind, proof := some proof } = MAGIC_V3 :: kind.as_byte :: proof.encode_into [] := by
  simp [encode, CallProof.encode_into]

theorem encode_into_ne_nil (proof : CallProof) : proof.encode_into [] ≠ [] := by
  simp [CallProof.encode_into]

/-- The machine proof is absent, or its length is from 1 to what four bytes hold. -/
def Encodable (attachment : ServiceQueryAttachment) : Prop :=
  ∀ proof, attachment.proof = some proof → proof.Encodable

theorem decode_encode (h : attachment.Encodable) : decode attachment.encode = .Ok attachment := by
  obtain ⟨kind, proof⟩ := attachment
  cases proof with
  | none => exact decode_cons kind []
  | some proof =>
    rw [encode_some, decode_cons, decode_proof_of_ne (encode_into_ne_nil proof),
      CallProof.decode_encode_into proof (h proof rfl)]
    rfl

theorem encode_of_decode {bytes : Bytes}
    (h : decode bytes = .Ok attachment) : attachment.encode = bytes := by
  rcases decode_shape bytes with ⟨error, herror⟩ | ⟨kind, rest, rfl⟩
  · exact nomatch herror.symm.trans h
  rw [decode_cons] at h
  by_cases hrest : rest = []
  · subst hrest
    cases h
    rfl
  · rw [decode_proof_of_ne hrest] at h
    obtain ⟨proof, hproof, h⟩ := Outcome.bind_eq_ok.mp h
    cases h
    rw [encode_some, CallProof.encode_into_of_decode (Outcome.mapErr_eq_ok.mp hproof)]

theorem decode_ne_panic (bytes : Bytes) : decode bytes ≠ .Panic := by
  rcases decode_shape bytes with ⟨error, herror⟩ | ⟨kind, rest, rfl⟩
  · rw [herror]
    exact (nomatch ·)
  rw [decode_cons]
  by_cases hrest : rest = []
  · subst hrest
    exact (nomatch ·)
  · rw [decode_proof_of_ne hrest]
    exact Outcome.bind_ne_panic (Outcome.mapErr_ne_panic (CallProof.decode_ne_panic rest))
      fun _ _ => (nomatch ·)

/-- The bytes that decode are the bytes of what they decode to, what a sender
writes decodes to itself, and no bytes make the decoder panic. -/
theorem the_attachment_is_read_as_it_was_written :
    (∀ bytes attachment, decode bytes = .Ok attachment → attachment.encode = bytes) ∧
      (∀ attachment, Encodable attachment → decode attachment.encode = .Ok attachment) ∧
      ∀ bytes, decode bytes ≠ .Panic :=
  ⟨fun _ _ h => encode_of_decode h, fun _ h => decode_encode h, decode_ne_panic⟩

def signedProbe : ServiceQueryAttachment where
  kind := .Probe
  proof := some {
    timestamp_ms := 7
    nonce := ⟨List.replicate 16 1, rfl⟩
    signature := ⟨List.replicate 64 2, rfl⟩
    machine_proof := some [9] }

theorem the_attachment_of_a_signed_probe : decode signedProbe.encode = .Ok signedProbe := by
  refine the_attachment_is_read_as_it_was_written.2.1 signedProbe ?_
  rintro _ ⟨⟩ _ ⟨⟩
  exact ⟨by decide, by decide⟩

end ServiceQueryAttachment

end peppy.zenoh_format
