-- The keys of the services. A producer reads the selector of a query again behind the
-- router, and the caller that the selector names.
import Peppy.TopicKeys
import Peppy.QueryAttachment

open keys bytes List

namespace peppy.zenoh_format

open wire call_proof

/-! ## The keys -/

def service_root (target : SenderTarget) (link_id name : String) (kind : ServiceKind) : String :=
  let root := kind.root_segment ++ "/" ++ target.discriminator ++ "/" ++ target.name.as_str ++ "/" ++
    target.tag.as_str ++ "/" ++ link_id ++ "/" ++ name
  match kind.suffix with
  | some suffix => root ++ "/" ++ suffix
  | none => root

variable (r : ServiceWireReceiver) (s : ServiceWireSender) (attachment_bytes : Bytes)

def service_queryable_declare : String :=
  r.bound_core_node.as_str ++ "/" ++ WILDCARD ++ "/" ++ r.as_instance_id.as_str ++ "/" ++ WILDCARD ++
    "/" ++ service_root r.as_identity WILDCARD r.as_service_name.as_str r.kind

def service_get_selector : String :=
  pinned_or_wildcard s.target_core_node ++ "/" ++ s.bound_core_node.as_str ++ "/" ++
    pinned_or_wildcard s.target_instance_id ++ "/" ++ s.as_instance_id.as_str ++ "/" ++
    service_root s.to_target WILDCARD s.to_service_name.as_str s.kind

/-! ## The query of a producer -/

structure ParsedInboundQuery where
  caller_core : String
  caller_inst : String
  link_id : String
  kind : ServiceQueryKind
  proof : Option call_proof.CallProof

def ParsedInboundQuery.claim (query : ParsedInboundQuery) : Option String :=
  if query.link_id = WILDCARD ∨ query.link_id = DEFAULT_LINK_ID then some DEFAULT_LINK_ID else none

def reject_target_mismatch (field got expected : String) : Outcome ZenohWireParseError Unit :=
  if got = WILDCARD ∨ got = expected then .Ok () else .Err (.TargetSlotMismatch field expected got)

def next (segment : String) : List String → Outcome ZenohWireParseError (String × List String)
  | part :: parts => .Ok (part, parts)
  | [] => .Err (.MissingSegment segment)

def check_root : List String → List String → Outcome ZenohWireParseError (List String)
  | [], parts => .Ok parts
  | expected :: root, parts => do
    let (got, parts) ← next "service_root" parts
    if got ≠ expected then .Err (.ServiceRootMismatch expected got) else check_root root parts

def parse_inbound_query (receiver : ServiceWireReceiver) (query_keyexpr : String)
    (attachment_bytes : Bytes) : Outcome ZenohWireParseError ParsedInboundQuery := do
  let parts := (chunks query_keyexpr).filter (· ≠ "")
  let (to_core, parts) ← next "target_core_node" parts
  reject_target_mismatch "target_core_node" to_core receiver.bound_core_node.as_str
  let (caller_core, parts) ← next "caller_core_node" parts
  let (to_inst, parts) ← next "to_instance" parts
  reject_target_mismatch "target_instance_id" to_inst receiver.as_instance_id.as_str
  let (caller_inst, parts) ← next "caller_instance" parts
  let parts ← check_root receiver.service_root_prefix_segments parts
  let (link_id, _) ← next "link_id" parts
  let attachment ← ServiceQueryAttachment.decode attachment_bytes
  return {
    caller_core, caller_inst, link_id
    kind := attachment.kind
    proof := attachment.proof }

/-! ## The parts of a selector -/

theorem chunks_service_root {target : SenderTarget} {link_id : String} {name : Segment}
    {kind : ServiceKind} (hlink : chunks link_id = [link_id]) :
    chunks (service_root target link_id name.as_str kind) =
      [kind.root_segment, target.discriminator, target.name.as_str, target.tag.as_str, link_id,
        name.as_str] ++ kind.suffix.toList := by
  have hroot : chunks kind.root_segment = [kind.root_segment] := by
    cases kind <;> exact chunks_of_not_mem (by decide)
  have hsuffix : ∀ suffix, kind.suffix = some suffix → chunks suffix = [suffix] := by
    cases kind <;> rintro _ ⟨⟩ <;> exact chunks_of_not_mem (by decide)
  cases hs : kind.suffix with
  | none => simp [service_root, hs, hroot, hlink]
  | some suffix => simp [service_root, hs, hroot, hlink, hsuffix suffix hs]

theorem chunks_service_get_selector : chunks (service_get_selector s) =
      pinned_or_wildcard s.target_core_node :: s.bound_core_node.as_str ::
        pinned_or_wildcard s.target_instance_id :: s.as_instance_id.as_str ::
        s.kind.root_segment :: s.to_target.discriminator :: s.to_target.name.as_str ::
        s.to_target.tag.as_str :: WILDCARD :: s.to_service_name.as_str :: s.kind.suffix.toList := by
  simp [service_get_selector, chunks_service_root]

theorem pinned_ne_empty {slot : Option Segment} : pinned_or_wildcard slot ≠ "" := by
  cases slot with
  | none => decide
  | some s => exact s.ne_empty

/-- No part of a selector is empty, so the filter of the parser keeps them
all. -/
theorem parts_of_selector :
    (chunks (service_get_selector s)).filter (· ≠ "") = chunks (service_get_selector s) := by
  have hroot : s.kind.root_segment ≠ "" := by cases s.kind <;> decide
  have hsuffix : ∀ x ∈ s.kind.suffix.toList, x ≠ "" := by cases s.kind <;> decide
  rw [filter_eq_self, chunks_service_get_selector]
  simp only [mem_cons]
  rintro x (rfl | rfl | rfl | rfl | rfl | rfl | rfl | rfl | rfl | rfl | hx) <;>
    simp [pinned_ne_empty, Segment.ne_empty, SenderTarget.discriminator_ne_empty, hroot, WILDCARD]
  exact hsuffix x hx

/-! ## Who is answered -/

theorem reject_target_mismatch_ok {field : String} {slot : Option Segment} {own : Segment} :
    reject_target_mismatch field (pinned_or_wildcard slot) own.as_str = .Ok () ↔
      slot = none ∨ slot = some own := by
  cases slot with
  | none => simp [reject_target_mismatch]
  | some other =>
    have hne : other.as_str ≠ WILDCARD := other.ne_wildcard
    by_cases h : other = own
    · simp [reject_target_mismatch, h]
    · have hstr : other.as_str ≠ own.as_str := fun hstr => h (Segment.ext_str hstr)
      simp [reject_target_mismatch, hne, hstr, h]

theorem check_root_ok {root parts rest : List String} :
    check_root root parts = .Ok rest ↔ parts = root ++ rest := by
  induction root generalizing parts with
  | nil => simp [check_root]
  | cons expected root ih =>
    cases parts with
    | nil => simp [check_root, next]
    | cons got parts =>
      by_cases h : got = expected
      · simp [check_root, next, h, ih]
      · simp [check_root, next, h]

/-- The query is for the producer: its target, identity and kind. -/
structure Admits (r : ServiceWireReceiver) (s : ServiceWireSender) : Prop where
  core_node : s.target_core_node = none ∨ s.target_core_node = some r.bound_core_node
  instance_id : s.target_instance_id = none ∨ s.target_instance_id = some r.as_instance_id
  identity : s.to_target = r.as_identity
  root : s.kind.root_segment = r.kind.root_segment

theorem segments_of_root (rest : List String) :
    s.kind.root_segment :: s.to_target.discriminator :: s.to_target.name.as_str ::
        s.to_target.tag.as_str :: WILDCARD :: s.to_service_name.as_str :: s.kind.suffix.toList =
      r.service_root_prefix_segments ++ rest ↔
    s.kind.root_segment = r.kind.root_segment ∧ s.to_target = r.as_identity ∧
      rest = WILDCARD :: s.to_service_name.as_str :: s.kind.suffix.toList := by
  simp only [ServiceWireReceiver.service_root_prefix_segments, service_root_prefix,
    cons_append, nil_append, List.cons.injEq]
  constructor
  · rintro ⟨hroot, hd, hname, htag, hrest⟩
    exact ⟨hroot, SenderTarget.eq_of_segments hd (Segment.ext_str hname) (Segment.ext_str htag),
      hrest.symm⟩
  · rintro ⟨hroot, htarget, rfl⟩
    rw [htarget]
    exact ⟨hroot, rfl, rfl, rfl, rfl⟩

theorem parse_selector (query : ParsedInboundQuery) :
    parse_inbound_query r (service_get_selector s) attachment_bytes = .Ok query ↔
      Admits r s ∧ ∃ attachment, ServiceQueryAttachment.decode attachment_bytes = .Ok attachment ∧
        query = ⟨s.bound_core_node.as_str, s.as_instance_id.as_str, WILDCARD, attachment.kind,
          attachment.proof⟩ := by
  rw [parse_inbound_query, parts_of_selector, chunks_service_get_selector]
  simp only [next, Outcome.ok_bind, Outcome.bind_eq_ok, check_root_ok, segments_of_root]
  constructor
  · rintro ⟨⟨⟩, hcore, ⟨⟩, hinst, parts, ⟨hroot, htarget, rfl⟩, ⟨link_id, rest⟩, hnext, attachment,
      hdecode, hquery⟩
    cases hnext
    cases hquery
    exact ⟨⟨(reject_target_mismatch_ok).mp hcore, (reject_target_mismatch_ok).mp hinst,
      htarget, hroot⟩, attachment, hdecode, rfl⟩
  · rintro ⟨⟨hcore, hinst, htarget, hroot⟩, attachment, hdecode, rfl⟩
    exact ⟨(), (reject_target_mismatch_ok).mpr hcore, (),
      (reject_target_mismatch_ok).mpr hinst, _, ⟨hroot, htarget, rfl⟩, _, rfl, attachment,
      hdecode, rfl⟩

/-- The query is for the receiver. -/
structure Addresses (s : ServiceWireSender) (r : ServiceWireReceiver) : Prop where
  core_node : s.target_core_node = none ∨ s.target_core_node = some r.bound_core_node
  instance_id : s.target_instance_id = none ∨ s.target_instance_id = some r.as_instance_id
  identity : s.to_target = r.as_identity
  service_name : s.to_service_name = r.as_service_name
  kind : s.kind = r.kind

theorem chunks_service_queryable_declare : chunks (service_queryable_declare r) =
      r.bound_core_node.as_str :: WILDCARD :: r.as_instance_id.as_str :: WILDCARD ::
        r.kind.root_segment :: r.as_identity.discriminator :: r.as_identity.name.as_str ::
        r.as_identity.tag.as_str :: WILDCARD :: r.as_service_name.as_str ::
        r.kind.suffix.toList := by
  simp [service_queryable_declare, chunks_service_root]

theorem meets_pinned_left (slot : Option Segment) (a : Segment) :
    Meets (pinned_or_wildcard slot) a.as_str ↔ slot = none ∨ slot = some a := by
  cases slot with
  | none => simp
  | some b => simp

theorem meets_kind (a b : ServiceKind) : (Meets a.root_segment b.root_segment ∧
      List.Forall₂ Meets a.suffix.toList b.suffix.toList) ↔ a = b := by
  cases a <;> cases b <;> simp [Meets, ServiceKind.root_segment, ServiceKind.suffix, WILDCARD]

/-- The router gives a producer the queries that address it. -/
theorem intersect_selector_iff (r : ServiceWireReceiver) :
    Intersect (service_get_selector s) (service_queryable_declare r) ↔ Addresses s r := by
  have htarget := meets_target s.to_target (some r.as_identity)
  have hkind := meets_kind s.kind r.kind
  simp only [target_segments, reduceCtorEq, false_or, Option.some.injEq] at htarget
  rw [Intersect, chunks_service_get_selector, chunks_service_queryable_declare]
  simp only [forall₂_cons, meets_pinned_left, meets_wildcard_right, true_and]
  constructor
  · rintro ⟨hcore, hinst, hroot, hd, hname, htag, hservice, hsuffix⟩
    exact ⟨hcore, hinst, (htarget.mp ⟨hd, hname, htag⟩).symm, (meets_segment _ _).mp hservice,
      hkind.mp ⟨hroot, hsuffix⟩⟩
  · rintro ⟨hcore, hinst, hidentity, hservice, hsame⟩
    obtain ⟨hd, hname, htag⟩ := htarget.mpr hidentity.symm
    obtain ⟨hroot, hsuffix⟩ := hkind.mpr hsame
    exact ⟨hcore, hinst, hroot, hd, hname, htag, (meets_segment _ _).mpr hservice, hsuffix⟩

theorem Addresses.admits {s : ServiceWireSender} {r : ServiceWireReceiver} (h : Addresses s r) :
    Admits r s where
  core_node := h.core_node
  instance_id := h.instance_id
  identity := h.identity
  root := by rw [h.kind]

/-- The receiver reads the query with the default link. -/
def Answered (query : ParsedInboundQuery) : Prop :=
  parse_inbound_query r (service_get_selector s) attachment_bytes = .Ok query ∧
    query.claim = some DEFAULT_LINK_ID

/-- A producer answers exactly the callers whose target slots, identity and root are its
own, and reads who sent the query. -/
theorem a_producer_answers_the_callers_of_its_root (r : ServiceWireReceiver)
    (s : ServiceWireSender) (attachment_bytes : Bytes) (attachment : ServiceQueryAttachment)
    (hattachment : ServiceQueryAttachment.decode attachment_bytes = .Ok attachment) :
    ((∃ query, Answered r s attachment_bytes query) ↔ Admits r s) ∧
      (Intersect (service_get_selector s) (service_queryable_declare r) ∧
        (∃ query, Answered r s attachment_bytes query) ↔ Addresses s r) ∧
      ∀ query, Answered r s attachment_bytes query →
        query.caller_core = s.bound_core_node.as_str ∧
          query.caller_inst = s.as_instance_id.as_str := by
  have hiff : (∃ query, Answered r s attachment_bytes query) ↔ Admits r s := by
    constructor
    · rintro ⟨query, hparse, -⟩
      exact ((parse_selector r s attachment_bytes query).mp hparse).1
    · intro hadmits
      exact ⟨_, (parse_selector r s attachment_bytes _).mpr
        ⟨hadmits, attachment, hattachment, rfl⟩, rfl⟩
  refine ⟨hiff, ⟨?_, ?_⟩, ?_⟩
  · rintro ⟨hroute, -⟩
    exact (intersect_selector_iff s r).mp hroute
  · intro haddresses
    exact ⟨(intersect_selector_iff s r).mpr haddresses, hiff.mpr haddresses.admits⟩
  · rintro query ⟨hparse, -⟩
    obtain ⟨-, _, -, rfl⟩ := (parse_selector r s attachment_bytes query).mp hparse
    exact ⟨rfl, rfl⟩

/-! ## A caller of another service -/

def armNode : SenderTarget := .Node ⟨armSegment, armTag⟩

def pickGoals : ServiceWireReceiver where
  bound_core_node := deskNode
  as_instance_id := ⟨"arm1", by decide, by decide⟩
  as_identity := armNode
  as_service_name := ⟨"pick", by decide, by decide⟩
  kind := .ActionGoal

def armCaller (action : Segment) (kind : ServiceKind) : ServiceWireSender where
  bound_core_node := deskNode
  as_instance_id := ⟨"planner", by decide, by decide⟩
  target_core_node := some deskNode
  target_instance_id := some ⟨"arm1", by decide, by decide⟩
  to_target := armNode
  to_service_name := action
  kind

theorem the_caller_of_a_pick :
    ServiceQueryAttachment.decode [0x03, 0x00] = .Ok ⟨.UserRequest, none⟩ ∧
      ∃ query, Answered pickGoals (armCaller ⟨"pick", by decide, by decide⟩ .ActionGoal)
        [0x03, 0x00] query :=
  ⟨rfl, (a_producer_answers_the_callers_of_its_root pickGoals
    (armCaller ⟨"pick", by decide, by decide⟩ .ActionGoal) [0x03, 0x00] ⟨.UserRequest, none⟩
    rfl).1.mpr ⟨.inr rfl, .inr rfl, rfl, rfl⟩⟩

/-- The goals of `pick` answer a cancel of `pick`, and a goal of `place`,
which are for another service. -/
theorem callers_of_another_service_that_are_answered :
    (∃ query, Answered pickGoals (armCaller ⟨"pick", by decide, by decide⟩ .ActionCancel)
        [0x03, 0x00] query) ∧
      (armCaller ⟨"pick", by decide, by decide⟩ .ActionCancel).kind ≠ pickGoals.kind ∧
      (∃ query, Answered pickGoals (armCaller ⟨"place", by decide, by decide⟩ .ActionGoal)
        [0x03, 0x00] query) ∧
      (armCaller ⟨"place", by decide, by decide⟩ .ActionGoal).to_service_name ≠
        pickGoals.as_service_name := by
  refine ⟨⟨_, (parse_selector _ _ _ _).mpr ⟨⟨.inr rfl, .inr rfl, rfl, rfl⟩, _, rfl, rfl⟩, rfl⟩,
    by decide,
    ⟨_, (parse_selector _ _ _ _).mpr ⟨⟨.inr rfl, .inr rfl, rfl, rfl⟩, _, rfl, rfl⟩, rfl⟩, by decide⟩

end peppy.zenoh_format
