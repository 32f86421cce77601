-- The addresses of the messages: segments of a key, the target of a sender, and the
-- two ends of a topic and of a service, each well formed by its constructor.
import Peppy.Lib.Chunks
import Peppy.CallProof

namespace peppy.wire

/-! ## Segments -/

inductive SegmentError where
  | Empty
  | ContainsSlash (s : String)
  | ContainsAt (s : String)
  | ReservedSentinel (s : String)
  deriving DecidableEq

def DEFAULT_LINK_ID : String := "_"

def validate_segment_chars (s : String) : Except SegmentError Unit :=
  if s = "" then .error .Empty
  else if '/' ∈ s.toList then .error (.ContainsSlash s)
  else if '@' ∈ s.toList then .error (.ContainsAt s)
  else .ok ()

def isWildcard (s : String) : Bool := s = "*" ∨ s = "**"

def is_reserved_sentinel (s : String) : Bool := isWildcard s ∨ s = DEFAULT_LINK_ID

structure Segment where
  as_str : String
  valid : validate_segment_chars as_str = .ok ()
  concrete : isWildcard as_str = false
  deriving DecidableEq

namespace Segment

/-- The segment of a text that the extra rule `reserved` does not reserve. -/
def parse (reserved : String → Bool) (hreserved : ∀ s, reserved s = false → isWildcard s = false)
    (s : String) : Except SegmentError Segment :=
  match hvalid : validate_segment_chars s with
  | .error e => .error e
  | .ok () =>
    if h : reserved s = false then
      .ok { as_str := s, valid := hvalid, concrete := hreserved s h }
    else .error (.ReservedSentinel s)

def try_link_id : String → Except SegmentError Segment := parse isWildcard fun _ h => h

def try_from : String → Except SegmentError Segment :=
  parse is_reserved_sentinel fun s h => by
    simp only [is_reserved_sentinel, decide_eq_false_iff_not, not_or] at h
    exact Bool.eq_false_iff.mpr h.1

theorem ext_str {a b : Segment} (h : a.as_str = b.as_str) : a = b := by
  obtain ⟨a, _, _⟩ := a
  obtain ⟨b, _, _⟩ := b
  cases h
  rfl

theorem slash_not_mem (s : Segment) : '/' ∉ s.as_str.toList := by
  intro hslash
  have h := s.valid
  rw [validate_segment_chars, if_pos hslash] at h
  split at h <;> cases h

theorem ne_empty (s : Segment) : s.as_str ≠ "" := by
  intro hempty
  have h := s.valid
  rw [validate_segment_chars, if_pos hempty] at h
  cases h

theorem ne_wildcard (s : Segment) : s.as_str ≠ keys.WILDCARD := by
  intro hstar
  have h := s.concrete
  rw [hstar] at h
  revert h
  decide

end Segment

open Segment (try_from)

/-! ## Targets -/

structure Identifier where
  name : Segment
  tag : Segment

def normalize_tag (tag : String) : String := tag.map fun c => if c = '-' then '_' else c

inductive SenderTarget where
  | Contract (id : Identifier)
  | Node (id : Identifier)
  | Pairing (id : Identifier)

namespace SenderTarget

def discriminator : SenderTarget → String
  | .Contract _ => "contract"
  | .Node _ => "node"
  | .Pairing _ => "pairing"

def id : SenderTarget → Identifier
  | .Contract id | .Node id | .Pairing id => id

def name (target : SenderTarget) : Segment := target.id.name

def tag (target : SenderTarget) : Segment := target.id.tag

def is_pairing : SenderTarget → Bool
  | .Pairing _ => true
  | _ => false

theorem eq_of_segments {a b : SenderTarget} (hd : a.discriminator = b.discriminator)
    (hname : a.name = b.name) (htag : a.tag = b.tag) : a = b := by
  have hid : a.id = b.id := by
    obtain ⟨⟨⟩⟩ | ⟨⟨⟩⟩ | ⟨⟨⟩⟩ := a <;> obtain ⟨⟨⟩⟩ | ⟨⟨⟩⟩ | ⟨⟨⟩⟩ := b <;>
      cases hname <;> cases htag <;> rfl
  cases a <;> cases b <;> first | exact congrArg _ hid | simp [discriminator] at hd

variable (target : SenderTarget)

theorem discriminator_mem : target.discriminator ∈ ["contract", "node", "pairing"] := by
  cases target <;> simp [discriminator]

theorem discriminator_ne_wildcard : target.discriminator ≠ keys.WILDCARD :=
  (by decide : ∀ d ∈ ["contract", "node", "pairing"], d ≠ keys.WILDCARD) _ target.discriminator_mem

theorem discriminator_ne_empty : target.discriminator ≠ "" :=
  (by decide : ∀ d ∈ ["contract", "node", "pairing"], d ≠ "") _ target.discriminator_mem

theorem slash_not_mem : '/' ∉ target.discriminator.toList :=
  (by decide : ∀ d ∈ ["contract", "node", "pairing"], '/' ∉ d.toList) _ target.discriminator_mem

end SenderTarget

/-! ## Topics -/

inductive WireError where
  | Segment (error : SegmentError)
  | PairingPublishNamesNoPeer
  | PeerOnNonPairingPublish
  | PairingSubscriptionNamesNoRecipient
  | RecipientOnNonPairingSubscription

def checked {α : Type} (x : Except SegmentError α) : Except WireError α := x.mapError .Segment

/-- One end of a pair: the address of the instance and the link id of its
slot. -/
structure WirePeer where
  core_node : Segment
  instance_id : Segment
  link_id : Segment

def WirePeer.new (core_node instance_id link_id : String) : Except WireError WirePeer := do
  let core_node ← checked (try_from core_node)
  let instance_id ← checked (try_from instance_id)
  let link_id ← checked (Segment.try_link_id link_id)
  return { core_node, instance_id, link_id }

/-- The address of a publisher, with its peer on a pairing. -/
structure TopicWireSender where
  as_core_node : Segment
  as_instance_id : Segment
  as_target : SenderTarget
  link_id : Segment
  as_topic_name : Segment
  to_peer : Option WirePeer
  peer_of_pairing : to_peer.isSome = as_target.is_pairing

def TopicWireSender.of_peer (as_core_node as_instance_id : String) (as_target : SenderTarget)
    (link_id as_topic_name : String) (peer : WirePeer) : Except WireError TopicWireSender :=
  if h : as_target.is_pairing then do
    let as_core_node ← checked (try_from as_core_node)
    let as_instance_id ← checked (try_from as_instance_id)
    let link_id ← checked (Segment.try_link_id link_id)
    let as_topic_name ← checked (try_from as_topic_name)
    return {
      as_core_node, as_instance_id, as_target, link_id, as_topic_name
      to_peer := some peer
      peer_of_pairing := by simp [h] }
  else .error .PeerOnNonPairingPublish

inductive PairingRecipient where
  | Slot (own_link_id : Segment)
  | Any
  | Peer (peer : WirePeer)

/-- The address of a subscriber, with its recipient on a pairing. -/
structure TopicWireReceiver where
  as_core_node : Segment
  as_instance_id : Segment
  from_core_node : Option Segment
  from_instance_id : Option Segment
  from_target : Option SenderTarget
  from_link_id : Option Segment
  to_topic : Segment
  pairing_recipient : Option PairingRecipient
  recipient_of_pairing : pairing_recipient.isSome = from_target.any SenderTarget.is_pairing

namespace TopicWireReceiver

variable (as_core_node as_instance_id : String)

variable (pairing : SenderTarget)

/-- The subscription to what `producer` publishes on a pairing, for one
recipient. -/
def of_recipient (producer : WirePeer) (recipient : PairingRecipient) (to_topic : String) :
    Except WireError TopicWireReceiver :=
  if h : pairing.is_pairing then do
    let as_core_node ← checked (try_from as_core_node)
    let as_instance_id ← checked (try_from as_instance_id)
    let to_topic ← checked (try_from to_topic)
    return {
      as_core_node, as_instance_id
      from_core_node := some producer.core_node
      from_instance_id := some producer.instance_id
      from_target := some pairing
      from_link_id := some producer.link_id
      to_topic
      pairing_recipient := some recipient
      recipient_of_pairing := by simp [h] }
  else .error .RecipientOnNonPairingSubscription

def paired (peer : WirePeer)
    (own_link_id to_topic : String) : Except WireError TopicWireReceiver := do
  let own_link_id ← checked (Segment.try_link_id own_link_id)
  of_recipient as_core_node as_instance_id pairing peer (.Slot own_link_id) to_topic

def observing (source : WirePeer) (to_topic : String) : Except WireError TopicWireReceiver :=
  of_recipient as_core_node as_instance_id pairing source .Any to_topic

def observing_pair
    (source peer : WirePeer) (to_topic : String) : Except WireError TopicWireReceiver :=
  of_recipient as_core_node as_instance_id pairing source (.Peer peer) to_topic

end TopicWireReceiver

/-! ## Services -/

inductive ServiceKind where
  | Service
  | ActionGoal
  | ActionCancel
  | ActionResult
  deriving DecidableEq

namespace ServiceKind

def root_segment : ServiceKind → String
  | .Service => "service"
  | .ActionGoal | .ActionCancel | .ActionResult => "action"

def suffix : ServiceKind → Option String
  | .Service => none
  | .ActionGoal => some "goal"
  | .ActionCancel => some "cancel"
  | .ActionResult => some "result"

end ServiceKind

def service_root_prefix (identity : SenderTarget) (kind : ServiceKind) : List String :=
  [kind.root_segment, identity.discriminator, identity.name.as_str, identity.tag.as_str]

structure ProducerRef where
  core_node : String
  instance_id : String

/-- The address of a caller. How it signs its calls is left out. -/
structure ServiceWireSender where
  bound_core_node : Segment
  as_instance_id : Segment
  target_core_node : Option Segment
  target_instance_id : Option Segment
  to_target : SenderTarget
  to_service_name : Segment
  kind : ServiceKind

structure ServiceWireReceiver where
  bound_core_node : Segment
  as_instance_id : Segment
  as_identity : SenderTarget
  as_service_name : Segment
  kind : ServiceKind

def ServiceWireReceiver.service_root_prefix_segments (r : ServiceWireReceiver) : List String :=
  service_root_prefix r.as_identity r.kind

end peppy.wire
