-- The envelopes of the action protocol. Each is read back as it was written, and no
-- bytes make a reader cut outside of them.
import Peppy.Lib.Bytes

open bytes List

namespace peppy.envelopes

open Outcome

/-! ## The kinds of a failure -/

def MAX_WORD_NAME_LEN : Nat := 64

def isAsciiLowercase (b : UInt8) : Bool := 97 ≤ b ∧ b ≤ 122

def isAsciiDigit (b : UInt8) : Bool := 48 ≤ b ∧ b ≤ 57

def word_name_problem (name : String) : Option String :=
  if utf8 name = [] then some "it is empty"
  else if MAX_WORD_NAME_LEN < (utf8 name).length then some "it is longer than 64 bytes"
  else if ¬ (utf8 name).all fun b => isAsciiLowercase b || isAsciiDigit b || b = 95 then
    some "it may hold only lowercase ASCII letters, digits and `_`"
  else if ¬ ((utf8 name).splitOn 95).all fun word => word.head?.any isAsciiLowercase then
    some "it must be words that each start with a lowercase ASCII letter, joined by one `_`"
  else none

structure FailureKindName where
  as_str : String
  valid : word_name_problem as_str = none

structure InvalidFailureKindName where
  name : String
  reason : String

def InvalidFailureKindName.text (e : InvalidFailureKindName) : String :=
  "invalid failure kind name " ++ e.name.quote ++ ": " ++ e.reason

def FailureKindName.parse (name : String) : Outcome InvalidFailureKindName FailureKindName :=
  match h : word_name_problem name with
  | some reason => .Err { name, reason }
  | none => .Ok { as_str := name, valid := h }

theorem FailureKindName.parse_as_str {kind : FailureKindName} : parse kind.as_str = .Ok kind := by
  unfold parse
  split
  · rename_i reason h
    exact nomatch h.symm.trans kind.valid
  · rfl

theorem FailureKindName.parse_ne_panic {name : String} : parse name ≠ .Panic := by
  unfold parse
  split <;> exact (nomatch ·)

theorem FailureKindName.length_le (kind : FailureKindName) : (utf8 kind.as_str).length ≤ 64 := by
  have h := kind.valid
  unfold word_name_problem at h
  split at h
  · cases h
  split at h
  · cases h
  · rename_i hlen
    exact Nat.not_lt.mp hlen

/-! ## The failure -/

structure Failure where
  kind : FailureKindName
  message : String

inductive FailureDecodeError where
  | Empty
  | Truncated (kind_len : Nat)
  | KindNotUtf8
  | InvalidKind (error : InvalidFailureKindName)
  | MessageNotUtf8

def FailureDecodeError.text : FailureDecodeError → String
  | .Empty => "the failure is empty"
  | .Truncated kind_len =>
    "the failure is too short for its kind of " ++ toString kind_len ++ " bytes"
  | .KindNotUtf8 => "the failure kind is not UTF-8"
  | .InvalidKind error => error.text
  | .MessageNotUtf8 => "the failure message is not UTF-8"

namespace Failure

variable (failure : Failure)

/-- Appends the wire form to `buf`. The cast to one byte cuts the length off. -/
def encode_into (buf : Bytes) : Bytes :=
  let kind := utf8 failure.kind.as_str
  buf ++ [UInt8.ofNat kind.length] ++ kind ++ utf8 failure.message

def encode : Bytes := failure.encode_into []

def decode (wire : Bytes) : Outcome FailureDecodeError Failure := do
  let first ← Outcome.okOr .Empty wire.head?
  let kind_len := first.toNat
  let message_start ← addSize 1 kind_len
  let kind ← Outcome.okOr (.Truncated kind_len) (getRange wire 1 message_start)
  let kind ← Outcome.okOr .KindNotUtf8 (fromUtf8 kind)
  let kind ← (FailureKindName.parse kind).mapErr .InvalidKind
  let message ← sliceFrom wire message_start
  let message ← Outcome.okOr .MessageNotUtf8 (fromUtf8 message)
  return { kind, message }

theorem encode_into_eq (buf : Bytes) : failure.encode_into buf = buf ++ failure.encode := by
  simp [encode, encode_into]

theorem encode_eq : failure.encode = UInt8.ofNat (utf8 failure.kind.as_str).length ::
    (utf8 failure.kind.as_str ++ utf8 failure.message) := by
  simp [encode, encode_into]

theorem decode_encode : decode failure.encode = .Ok failure := by
  have hlen := toNat_ofNat_of_le (Nat.le_trans failure.kind.length_le (by decide : 64 ≤ 255))
  rw [encode_eq, decode, head?_cons, okOr_some, ok_bind]
  dsimp only
  rw [addSize_byte, ok_bind, hlen, getRange_cons, okOr_some, ok_bind,
    fromUtf8_utf8, okOr_some, ok_bind, FailureKindName.parse_as_str,
    mapErr_ok, ok_bind, sliceFrom_cons, ok_bind, fromUtf8_utf8]
  rfl

theorem decode_ne_panic (wire : Bytes) : decode wire ≠ .Panic := by
  refine bind_ne_panic (okOr_ne_panic _ _) fun first _ => ?_
  dsimp only
  rw [addSize_byte, ok_bind]
  refine bind_ne_panic (okOr_ne_panic _ _) fun kind hkind => ?_
  have hle := length_of_getRange (okOr_eq_ok.mp hkind)
  refine bind_ne_panic (okOr_ne_panic _ _) fun kind _ => ?_
  refine bind_ne_panic (mapErr_ne_panic (FailureKindName.parse_ne_panic))
    fun kind _ => ?_
  refine bind_ne_panic (sliceFrom_ne_panic hle) fun message _ => ?_
  exact bind_ne_panic (okOr_ne_panic _ _) fun _ _ => (nomatch ·)

end Failure

/-! ## The request of a goal -/

/-- An error of an envelope, without the UTF-8 error of the standard library. -/
structure EncodingError where
  identifier : String
  reason : String

def envelope_error (reason : String) : EncodingError where
  identifier := "action_goal_envelope"
  reason

def wrap_goal_payload (goal_id : String) (user_payload : Bytes) : Outcome EncodingError Bytes :=
  let len := (utf8 goal_id).length
  if len = 0 then .Err (envelope_error "goal_id must be non-empty")
  else if 255 < len then
    .Err (envelope_error ("goal_id length " ++ toString len ++ " exceeds wire limit 255"))
  else .Ok ([UInt8.ofNat len] ++ utf8 goal_id ++ user_payload)

def unwrap_goal_payload (wire : Bytes) : Outcome EncodingError (String × Bytes) := do
  let first ← Outcome.okOr (envelope_error "wire payload is empty") wire.head?
  let goal_id_len := first.toNat
  if goal_id_len = 0 then .Err (envelope_error "goal_id is empty")
  else
    let body_start ← addSize 1 goal_id_len
    if wire.length < body_start then
      .Err (envelope_error
        ("wire payload too short for declared goal_id_len " ++ toString goal_id_len))
    else
      let goal_id ← slice wire 1 body_start
      let goal_id ← Outcome.okOr (envelope_error "goal_id is not valid UTF-8") (fromUtf8 goal_id)
      let user_payload ← sliceFrom wire body_start
      return (goal_id, user_payload)

def split_goal_envelope (wire : Bytes) : Outcome EncodingError (String × Bytes) := do
  let (goal_id, user_payload) ← unwrap_goal_payload wire
  let offset ← subSize wire.length user_payload.length
  let payload ← sliceFrom wire offset
  return (goal_id, payload)

def wrap_goal_request (goal_id sender_generation : String) (user_payload : Bytes) :
    Outcome EncodingError Bytes :=
  let len := (utf8 sender_generation).length
  if len = 0 ∨ 255 < len then
    .Err (envelope_error ("sender generation length " ++ toString len ++ " is outside 1..=255"))
  else
    wrap_goal_payload goal_id ([UInt8.ofNat len] ++ utf8 sender_generation ++ user_payload)

structure GoalRequestEnvelope where
  goal_id : String
  sender_generation : String
  user_payload : Bytes

def split_goal_request (wire : Bytes) : Outcome EncodingError GoalRequestEnvelope := do
  let (goal_id, body) ← split_goal_envelope wire
  let first ← Outcome.okOr (envelope_error "goal request has no sender generation") body.head?
  let generation_len := first.toNat
  let payload_start ← addSize 1 generation_len
  if generation_len = 0 ∨ body.length < payload_start then
    .Err (envelope_error ("goal request too short for its sender generation of " ++
      toString generation_len ++ " bytes"))
  else
    let sender_generation ← slice body 1 payload_start
    let sender_generation ← Outcome.okOr
      (envelope_error "sender generation is not valid UTF-8") (fromUtf8 sender_generation)
    let user_payload ← sliceFrom body payload_start
    return { goal_id, sender_generation,
             user_payload }

/-- A text of 1 to 255 bytes: what an envelope holds behind one byte of
length. -/
def Short (s : String) : Prop := 1 ≤ (utf8 s).length ∧ (utf8 s).length ≤ 255

instance (s : String) : Decidable (Short s) := inferInstanceAs (Decidable (_ ∧ _))

variable {goal_id sender_generation : String}

variable {user_payload : Bytes}

theorem wrap_goal_payload_of_short (h : Short goal_id) : wrap_goal_payload goal_id user_payload =
      .Ok (UInt8.ofNat (utf8 goal_id).length :: (utf8 goal_id ++ user_payload)) := by
  obtain ⟨hpos, hle⟩ := h
  simp only [wrap_goal_payload]
  rw [if_neg (by omega), if_neg (by omega)]
  rfl

theorem wrap_goal_payload_of_not_short (h : ¬ Short goal_id)
    : ∃ error, wrap_goal_payload goal_id user_payload = .Err error := by
  simp only [wrap_goal_payload]
  split
  · exact ⟨_, rfl⟩
  split
  · exact ⟨_, rfl⟩
  · exact absurd ⟨by omega, by omega⟩ h

theorem unwrap_goal_payload_cons (h : Short goal_id) :
    unwrap_goal_payload (UInt8.ofNat (utf8 goal_id).length :: (utf8 goal_id ++ user_payload)) =
      .Ok (goal_id, user_payload) := by
  have hlen := toNat_ofNat_of_le h.2
  rw [unwrap_goal_payload, head?_cons, okOr_some, ok_bind]
  dsimp only
  rw [addSize_byte, ok_bind, hlen, if_neg (by have := h.1; omega),
    if_neg (by simp; omega), slice_cons, ok_bind, fromUtf8_utf8, okOr_some,
    ok_bind, sliceFrom_cons]
  rfl

theorem append_of_unwrap_goal_payload {wire : Bytes}
    (h : unwrap_goal_payload wire = .Ok (goal_id, user_payload)) :
    ∃ front, wire = front ++ user_payload := by
  simp only [unwrap_goal_payload, bind_eq_ok] at h
  obtain ⟨first, -, h⟩ := h
  split at h
  · cases h
  simp only [addSize_byte, ok_bind] at h
  split at h
  · cases h
  rename_i hlen
  simp only [bind_eq_ok] at h
  obtain ⟨_, -, _, -, rest, hrest, h⟩ := h
  cases h
  rw [sliceFrom_of_le (Nat.not_lt.mp hlen)] at hrest
  cases hrest
  exact ⟨wire.take (1 + first.toNat), (take_append_drop _ _).symm⟩

variable (wire : Bytes)

theorem split_goal_envelope_eq : split_goal_envelope wire = unwrap_goal_payload wire := by
  rw [split_goal_envelope]
  cases h : unwrap_goal_payload wire with
  | Ok result =>
    obtain ⟨goal_id, user_payload⟩ := result
    obtain ⟨front, rfl⟩ := append_of_unwrap_goal_payload h
    rw [ok_bind]
    dsimp only
    rw [subSize_of_le (by simp), ok_bind, sliceFrom_of_le (by simp), ok_bind]
    simp
  | Err error => rfl
  | Panic => rfl

theorem unwrap_goal_payload_ne_panic : unwrap_goal_payload wire ≠ .Panic := by
  refine bind_ne_panic (okOr_ne_panic _ _) fun first _ => ?_
  dsimp only
  split
  · exact (nomatch ·)
  rw [addSize_byte, ok_bind]
  split
  · exact (nomatch ·)
  rename_i hlen
  rw [slice_of_le (by omega) (Nat.not_lt.mp hlen), ok_bind]
  refine bind_ne_panic (okOr_ne_panic _ _) fun goal_id _ => ?_
  exact bind_ne_panic (sliceFrom_ne_panic (Nat.not_lt.mp hlen)) fun _ _ => (nomatch ·)

theorem split_goal_request_ne_panic : split_goal_request wire ≠ .Panic := by
  rw [split_goal_request, split_goal_envelope_eq]
  refine bind_ne_panic (unwrap_goal_payload_ne_panic wire) fun ⟨goal_id, body⟩ _ => ?_
  refine bind_ne_panic (okOr_ne_panic _ _) fun first _ => ?_
  dsimp only
  rw [addSize_byte, ok_bind]
  split
  · exact (nomatch ·)
  rename_i hlen
  have hle := Nat.not_lt.mp (not_or.mp hlen).2
  rw [slice_of_le (by omega) hle, ok_bind]
  refine bind_ne_panic (okOr_ne_panic _ _) fun generation _ => ?_
  exact bind_ne_panic (sliceFrom_ne_panic hle) fun _ _ => (nomatch ·)

theorem split_wrap_goal_request (hid : Short goal_id)
    (hgeneration : Short sender_generation) (user_payload : Bytes) :
    (wrap_goal_request goal_id sender_generation user_payload >>= split_goal_request) =
      .Ok ⟨goal_id, sender_generation, user_payload⟩ := by
  have hlen := toNat_ofNat_of_le hgeneration.2
  have hpos := hgeneration.1
  have hle := hgeneration.2
  simp only [wrap_goal_request]
  rw [if_neg (by omega), wrap_goal_payload_of_short hid, ok_bind, split_goal_request,
    split_goal_envelope_eq, unwrap_goal_payload_cons hid, ok_bind]
  have hshort : ¬ ((utf8 sender_generation).length = 0 ∨ (UInt8.ofNat (utf8 sender_generation).length
      :: (utf8 sender_generation ++ user_payload)).length < 1 + (utf8 sender_generation).length) := by
    rw [length_cons, length_append]
    omega
  rw [singleton_append, cons_append]
  dsimp only
  rw [head?_cons, okOr_some, ok_bind, addSize_byte, ok_bind, hlen,
    if_neg hshort, slice_cons, ok_bind,
    fromUtf8_utf8, okOr_some, ok_bind, sliceFrom_cons]
  rfl

theorem wrap_goal_request_err
    (h : ¬ (Short goal_id ∧ Short sender_generation)) (user_payload : Bytes) :
    ∃ error, wrap_goal_request goal_id sender_generation user_payload = .Err error := by
  simp only [wrap_goal_request]
  split
  · exact ⟨_, rfl⟩
  · rename_i hlen
    apply wrap_goal_payload_of_not_short
    intro hid
    exact h ⟨hid, by omega, by omega⟩

/-! ## The result of a goal -/

inductive ResultStatus where
  | Completed
  | Cancelled
  | Abandoned
  | Expired
  | Failed

def ResultStatus.tag : ResultStatus → UInt8
  | .Completed => 0
  | .Cancelled => 1
  | .Abandoned => 2
  | .Expired => 3
  | .Failed => 4

def ResultStatus.from_tag (tag : UInt8) : Option ResultStatus :=
  if tag = 0 then some .Completed
  else if tag = 1 then some .Cancelled
  else if tag = 2 then some .Abandoned
  else if tag = 3 then some .Expired
  else if tag = 4 then some .Failed
  else none

theorem ResultStatus.from_tag_tag {status : ResultStatus} : from_tag status.tag = some status := by
  cases status <;> rfl

inductive GoalOutcome where
  | Completed (result : Bytes)
  | Cancelled (reason : String) (result : Bytes)
  | Failed (failure : Failure)
  | Abandoned
  | Expired

def GoalOutcome.status : GoalOutcome → ResultStatus
  | .Completed _ => .Completed
  | .Cancelled _ _ => .Cancelled
  | .Failed _ => .Failed
  | .Abandoned => .Abandoned
  | .Expired => .Expired

def result_outcome_error (reason : String) : EncodingError where
  identifier := "action_result_outcome_envelope"
  reason

def wrap_result_outcome (outcome : GoalOutcome) : Bytes :=
  let buf := [outcome.status.tag]
  match outcome with
  | .Completed result => buf ++ result
  | .Cancelled reason result =>
    buf ++ toBe 4 (utf8 reason).length ++ utf8 reason ++ result
  | .Failed failure => failure.encode_into buf
  | .Abandoned | .Expired => buf

def unwrap_cancelled (body : Bytes) : Outcome EncodingError GoalOutcome := do
  let bytes ← Outcome.okOr (result_outcome_error "cancelled result too short for its reason")
    (getRange body 0 4)
  let reason_len := fromBe bytes
  let result_start ← addSize 4 reason_len
  let reason ← Outcome.okOr (result_outcome_error
    ("cancelled result too short for its reason of " ++ toString reason_len ++ " bytes"))
    (getRange body 4 result_start)
  let reason ← Outcome.okOr (result_outcome_error "reason is not valid UTF-8") (fromUtf8 reason)
  let result ← sliceFrom body result_start
  return .Cancelled reason result

def unwrap_body (status : ResultStatus) (body : Bytes) : Outcome EncodingError GoalOutcome :=
  match status with
  | .Completed => .Ok (.Completed body)
  | .Cancelled => unwrap_cancelled body
  | .Failed => do
    let failure ← (Failure.decode body).mapErr fun err => result_outcome_error err.text
    return .Failed failure
  | .Abandoned => .Ok .Abandoned
  | .Expired => .Ok .Expired

def unwrap_result_outcome : Outcome EncodingError GoalOutcome := do
  let tag ← Outcome.okOr (result_outcome_error "wire payload is empty") wire.head?
  let status ← Outcome.okOr
    (result_outcome_error ("unknown result status tag " ++ toString tag.toNat))
    (ResultStatus.from_tag tag)
  let body ← sliceFrom wire 1
  unwrap_body status body

/-- The length of the reason fits its field. -/
def GoalOutcome.Fits : GoalOutcome → Prop
  | .Cancelled reason _ => (utf8 reason).length < 2 ^ 32
  | _ => True

theorem unwrap_cancelled_append {reason : String} (h : (utf8 reason).length < 2 ^ 32)
    {result : Bytes} : unwrap_cancelled (toBe 4 (utf8 reason).length ++ (utf8 reason ++ result)) =
      .Ok (.Cancelled reason result) := by
  have hfront := getRange_append [] (toBe 4 (utf8 reason).length) (utf8 reason ++ result)
  have hreason := getRange_append (toBe 4 (utf8 reason).length) (utf8 reason) result
  have hresult := sliceFrom_append (ε := EncodingError)
    (toBe 4 (utf8 reason).length ++ utf8 reason) result
  simp only [nil_append, length_nil, length_toBe, Nat.zero_add, length_append,
    append_assoc] at hfront hreason hresult
  rw [unwrap_cancelled, hfront, okOr_some, ok_bind]
  dsimp only
  rw [fromBe_toBe_of_lt h, addSize_of_lt (by omega), ok_bind, hreason, okOr_some,
    ok_bind, fromUtf8_utf8, okOr_some, ok_bind, hresult]
  rfl

variable {body : Bytes}

theorem unwrap_cancelled_ne_panic : unwrap_cancelled body ≠ .Panic := by
  refine bind_ne_panic (okOr_ne_panic _ _) fun bytes hbytes => ?_
  -- four bytes hold less than the size of the machine
  have hlt : fromBe bytes < 2 ^ 32 :=
    fromBe_lt_of_getRange (okOr_eq_ok.mp hbytes)
  dsimp only
  rw [addSize_of_lt (by omega), ok_bind]
  refine bind_ne_panic (okOr_ne_panic _ _) fun reason hreason => ?_
  have hle := length_of_getRange (okOr_eq_ok.mp hreason)
  refine bind_ne_panic (okOr_ne_panic _ _) fun reason _ => ?_
  exact bind_ne_panic (sliceFrom_ne_panic hle) fun _ _ => (nomatch ·)

open Failure

theorem unwrap_wrap_result_outcome {outcome : GoalOutcome} (h : outcome.Fits) :
    unwrap_result_outcome (wrap_result_outcome outcome) = .Ok outcome := by
  -- the tag gives the status back, and the body is what follows it
  have hbody : ∀ body, unwrap_result_outcome (outcome.status.tag :: body) =
      unwrap_body outcome.status body := by
    intro body
    rw [unwrap_result_outcome, head?_cons, okOr_some, ok_bind,
      ResultStatus.from_tag_tag, okOr_some, ok_bind,
      sliceFrom_of_le (by simp), ok_bind]
    rfl
  cases outcome with
  | Completed result => exact hbody result
  | Cancelled reason result =>
    have hwrap : wrap_result_outcome (.Cancelled reason result) = ResultStatus.Cancelled.tag ::
        (toBe 4 (utf8 reason).length ++ (utf8 reason ++ result)) := by
      simp [wrap_result_outcome, GoalOutcome.status]
    rw [hwrap]
    exact (hbody _).trans (unwrap_cancelled_append h)
  | Failed failure =>
    have hwrap : wrap_result_outcome (.Failed failure) = ResultStatus.Failed.tag ::
        failure.encode := by
      rw [wrap_result_outcome, encode_into_eq]
      rfl
    rw [hwrap]
    refine (hbody _).trans ?_
    dsimp only [unwrap_body, GoalOutcome.status]
    rw [decode_encode]
    rfl
  | Abandoned | Expired => exact hbody []

theorem unwrap_body_ne_panic {status : ResultStatus} : unwrap_body status body ≠ .Panic := by
  cases status with
  | Cancelled => exact unwrap_cancelled_ne_panic
  | Failed =>
    exact bind_ne_panic (mapErr_ne_panic (decode_ne_panic body))
      fun _ _ => (nomatch ·)
  | Completed | Abandoned | Expired => exact (nomatch ·)

theorem unwrap_result_outcome_ne_panic : unwrap_result_outcome wire ≠ .Panic := by
  cases wire with
  | nil => exact (nomatch ·)
  | cons tag body =>
    refine bind_ne_panic (okOr_ne_panic _ _) fun tag _ => ?_
    refine bind_ne_panic (okOr_ne_panic _ _) fun status _ => ?_
    exact bind_ne_panic (sliceFrom_ne_panic (by simp)) fun body _ =>
      unwrap_body_ne_panic

/-! ## The answer to a goal request -/

inductive GoalAnswer where
  | Accepted (response : Bytes)
  | Refused (failure : Failure)

def goal_ack_error (reason : String) : EncodingError where
  identifier := "action_goal_ack_envelope"
  reason

def wrap_goal_accepted (response : Bytes) : Bytes := [1] ++ response

def wrap_goal_refused (failure : Failure) : Bytes := failure.encode_into [0]

def unwrap_goal_ack : Outcome EncodingError GoalAnswer :=
  match wire.head? with
  | some tag =>
    if tag = 1 then do
      let response ← sliceFrom wire 1
      return .Accepted response
    else if tag = 0 then do
      let body ← sliceFrom wire 1
      let failure ← (Failure.decode body).mapErr fun err => goal_ack_error err.text
      return .Refused failure
    else .Err (goal_ack_error ("unknown accepted tag " ++ toString tag.toNat))
  | none => .Err (goal_ack_error "wire payload is empty")

theorem unwrap_goal_accepted (response : Bytes) :
    unwrap_goal_ack (wrap_goal_accepted response) = .Ok (.Accepted response) := by
  rw [wrap_goal_accepted, singleton_append, unwrap_goal_ack, head?_cons]
  dsimp only
  rw [if_pos rfl, sliceFrom_of_le (by simp), ok_bind]
  rfl

theorem unwrap_goal_refused (failure : Failure) :
    unwrap_goal_ack (wrap_goal_refused failure) = .Ok (.Refused failure) := by
  rw [wrap_goal_refused, encode_into_eq, singleton_append, unwrap_goal_ack,
    head?_cons]
  dsimp only
  rw [if_neg (by decide), if_pos rfl, sliceFrom_of_le (by simp), ok_bind,
    drop_succ_cons, drop_zero, decode_encode]
  rfl

theorem unwrap_goal_ack_ne_panic : unwrap_goal_ack wire ≠ .Panic := by
  cases wire with
  | nil => exact (nomatch ·)
  | cons tag body =>
    rw [unwrap_goal_ack, head?_cons]
    dsimp only
    split
    · exact bind_ne_panic (sliceFrom_ne_panic (by simp)) fun _ _ => (nomatch ·)
    split
    · refine bind_ne_panic (sliceFrom_ne_panic (by simp)) fun body _ => ?_
      exact bind_ne_panic (mapErr_ne_panic (decode_ne_panic body))
        fun _ _ => (nomatch ·)
    · exact (nomatch ·)

/-! ## The law of the envelopes -/

/-- Each envelope is read back as what was wrapped. -/
structure ReadBack : Prop where
  /-- A request that was wrapped is split into what it was wrapped from. -/
  request : ∀ goal_id sender_generation user_payload, Short goal_id → Short sender_generation →
    ∃ wire, wrap_goal_request goal_id sender_generation user_payload = .Ok wire ∧
      split_goal_request wire = .Ok ⟨goal_id, sender_generation, user_payload⟩
  /-- A request with an id or a generation of another length is not wrapped. -/
  refused : ∀ goal_id sender_generation user_payload,
    ¬ (Short goal_id ∧ Short sender_generation) →
    ∃ error, wrap_goal_request goal_id sender_generation user_payload = .Err error
  outcome : ∀ outcome, GoalOutcome.Fits outcome →
    unwrap_result_outcome (wrap_result_outcome outcome) = .Ok outcome
  accepted : ∀ response, unwrap_goal_ack (wrap_goal_accepted response) = .Ok (.Accepted response)
  answer : ∀ failure, unwrap_goal_ack (wrap_goal_refused failure) = .Ok (.Refused failure)
  failure : ∀ failure : Failure, Failure.decode failure.encode = .Ok failure
  /-- No bytes make a reader panic. -/
  total : ∀ wire, split_goal_request wire ≠ .Panic ∧ unwrap_result_outcome wire ≠ .Panic ∧
    unwrap_goal_ack wire ≠ .Panic ∧ Failure.decode wire ≠ .Panic

theorem the_envelopes_are_read_as_they_were_written : ReadBack where
  request := by
    intro goal_id sender_generation user_payload hid hgeneration
    exact bind_eq_ok.mp (split_wrap_goal_request hid hgeneration user_payload)
  refused := fun _ _ user_payload h => wrap_goal_request_err h user_payload
  outcome := fun _ h => unwrap_wrap_result_outcome h
  accepted := unwrap_goal_accepted
  answer := unwrap_goal_refused
  failure := decode_encode
  total := fun wire => ⟨split_goal_request_ne_panic wire, unwrap_result_outcome_ne_panic wire,
    unwrap_goal_ack_ne_panic wire, decode_ne_panic wire⟩

/-- The request of the goal `pick` of the sender generation `g1`. -/
theorem the_request_of_a_pick : ∃ wire, wrap_goal_request "pick" "g1" [1, 2, 3] = .Ok wire ∧
      split_goal_request wire = .Ok ⟨"pick", "g1", [1, 2, 3]⟩ :=
  the_envelopes_are_read_as_they_were_written.request "pick" "g1" [1, 2, 3] (by decide) (by decide)

end peppy.envelopes
