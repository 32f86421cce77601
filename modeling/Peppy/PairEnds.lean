-- The two ends of a pair, opened from the texts of their slots. An emission is heard
-- by the slot that it names, when that slot names the sender back.
import Peppy.TopicKeys
import Peppy.Lib.Results

open keys results

namespace peppy.topics

open wire zenoh_format TopicWireReceiver

/-- The peer of a slot: its instance, and the slot of the instance in the pair. -/
structure PeerInfo where
  producer : ProducerRef
  peer_link_id : String

def pairing_sender (as_core_node as_instance_id : String) (pairing_target : SenderTarget)
    (link_id as_topic_name : String) (peer : PeerInfo) : Except WireError TopicWireSender := do
  let to_peer ← WirePeer.new peer.producer.core_node peer.producer.instance_id peer.peer_link_id
  TopicWireSender.of_peer as_core_node as_instance_id pairing_target link_id as_topic_name to_peer

/-- The subscription that is declared, up to its quality of service and its buffer. -/
def subscribe_peer_pinned (as_core_node as_instance_id : String) (pairing_target : SenderTarget)
    (peer : ProducerRef) (peer_link_id : String) (recipient : PairingRecipient)
    (to_topic : String) : Except WireError TopicWireReceiver := do
  let producer ← WirePeer.new peer.core_node peer.instance_id peer_link_id
  match recipient with
  | .Slot own_link_id =>
    paired as_core_node as_instance_id pairing_target producer own_link_id.as_str to_topic
  | .Any => observing as_core_node as_instance_id pairing_target producer to_topic
  | .Peer peer => observing_pair as_core_node as_instance_id pairing_target producer peer to_topic

def infoOf (peer : WirePeer) : PeerInfo :=
  ⟨⟨peer.core_node.as_str, peer.instance_id.as_str⟩, peer.link_id.as_str⟩

/-- Whether the subscription of an instance takes what is sent to the peer. -/
def Takes (as_core_node as_instance_id : String) (peer : PeerInfo) : PairingRecipient → Prop
  | .Slot own_link_id => peer = ⟨⟨as_core_node, as_instance_id⟩, own_link_id.as_str⟩
  | .Any => True
  | .Peer other => peer = infoOf other

theorem as_str_inj {a b : Segment} : a.as_str = b.as_str ↔ a = b :=
  ⟨Segment.ext_str, congrArg _⟩

theorem infoOf_inj {a b : WirePeer} : infoOf a = infoOf b ↔ a = b := by
  obtain ⟨⟩ := a
  obtain ⟨⟩ := b
  simp [infoOf, as_str_inj, and_assoc]

theorem as_str_of_ok {reserved : String → Bool} {hreserved} {s : String} {segment : Segment}
    (h : checked (Segment.parse reserved hreserved s) = .ok segment) : segment.as_str = s := by
  have h := mapError_ok.mp h
  unfold Segment.parse at h
  split at h
  · cases h
  · split at h <;> cases h
    rfl

theorem infoOf_new {producer : ProducerRef} {link_id : String} {peer : WirePeer}
    (h : WirePeer.new producer.core_node producer.instance_id link_id = .ok peer) :
    infoOf peer = ⟨producer, link_id⟩ := by
  simp only [WirePeer.new, bind_ok] at h
  obtain ⟨_, hcore, _, hinst, _, hlink, ⟨⟩⟩ := h
  rw [infoOf, as_str_of_ok hcore, as_str_of_ok hinst, as_str_of_ok hlink]

variable {core_node instance_id link_id topic : String} {pairing : SenderTarget}

theorem subscribe_ok {source : ProducerRef} {recipient : PairingRecipient} {r : TopicWireReceiver}
    (h : subscribe_peer_pinned core_node instance_id pairing source link_id recipient topic =
      .ok r) : ∃ producer, infoOf producer = ⟨source, link_id⟩ ∧
      of_recipient core_node instance_id pairing producer recipient topic = .ok r := by
  obtain ⟨producer, hproducer, h⟩ := bind_ok.mp h
  refine ⟨producer, infoOf_new hproducer, ?_⟩
  cases recipient with
  | Slot own_link_id =>
    obtain ⟨own, hown, h⟩ := bind_ok.mp h
    exact as_str_inj.mp (as_str_of_ok hown) ▸ h
  | Any | Peer other => exact h

/-- An emission is heard exactly when it and the subscription are of one topic of one
pairing, the subscription names the slot of the sender, and it is the one of the slot that
is sent to, or of an observer. -/
theorem the_ends_of_a_pair_name_each_other {peer : PeerInfo} {s : TopicWireSender}
    (hs : pairing_sender core_node instance_id pairing link_id topic peer = .ok s)
    {core_node' instance_id' link_id' topic' : String} {pairing' : SenderTarget}
    {source : ProducerRef} {recipient : PairingRecipient} {r : TopicWireReceiver}
    (hr : subscribe_peer_pinned core_node' instance_id' pairing' source link_id' recipient topic' =
      .ok r) : Intersect (topic_publish s) (topic_subscribe r) ↔
      topic = topic' ∧ pairing = pairing' ∧ source = ⟨core_node, instance_id⟩ ∧
        link_id' = link_id ∧ Takes core_node' instance_id' peer recipient := by
  obtain ⟨to_peer, hpeer, hsend⟩ := bind_ok.mp hs
  obtain ⟨producer, hsource, hrecv⟩ := subscribe_ok hr
  cases hsource
  obtain rfl : infoOf to_peer = peer := infoOf_new hpeer
  unfold TopicWireSender.of_peer at hsend
  unfold of_recipient at hrecv
  split at hsend
  swap
  · cases hsend
  split at hrecv
  swap
  · cases hrecv
  simp only [bind_ok] at hsend hrecv
  obtain ⟨_, hcore, _, hinst, _, hlink, _, htopic, ⟨⟩⟩ := hsend
  obtain ⟨_, hcore', _, hinst', _, htopic', ⟨⟩⟩ := hrecv
  rw [intersect_iff, ← as_str_of_ok hcore, ← as_str_of_ok hinst, ← as_str_of_ok hlink,
    ← as_str_of_ok htopic, ← as_str_of_ok hcore', ← as_str_of_ok hinst', ← as_str_of_ok htopic']
  constructor
  · rintro ⟨htopic, hcore, hinst, htarget, hlink, hreach⟩
    cases recipient <;> simp_all [Reaches, Takes, infoOf]
  · rintro ⟨htopic, rfl, hsource, hlink, htakes⟩
    simp only [ProducerRef.mk.injEq, as_str_inj] at htopic hsource hlink
    obtain ⟨rfl, rfl⟩ := hsource
    obtain rfl := hlink
    refine ⟨htopic, .inr rfl, .inr rfl, .inr rfl, .inr rfl, .inr ⟨_, rfl, ?_⟩⟩
    cases recipient with
    | Slot own =>
      simp only [Takes, infoOf, PeerInfo.mk.injEq, ProducerRef.mk.injEq, as_str_inj] at htakes
      simp [htakes]
    | Any => exact .inl rfl
    | Peer other => exact .inr (.inl (infoOf_inj.mp htakes ▸ rfl))

theorem the_arm_and_its_gripper_name_each_other :
    ∃ s r, pairing_sender "cn-desk" "arm" armLink "tool" "pose" ⟨⟨"cn-desk", "gripper"⟩, "arm"⟩ =
        .ok s ∧
      subscribe_peer_pinned "cn-desk" "gripper" armLink ⟨"cn-desk", "arm"⟩ "tool"
        (.Slot armSegment) "pose" = .ok r ∧ Intersect (topic_publish s) (topic_subscribe r) := by
  have hs : pairing_sender "cn-desk" "arm" armLink "tool" "pose" ⟨⟨"cn-desk", "gripper"⟩, "arm"⟩ =
      .ok _ := rfl
  have hr : subscribe_peer_pinned "cn-desk" "gripper" armLink ⟨"cn-desk", "arm"⟩ "tool"
      (.Slot armSegment) "pose" = .ok _ := rfl
  exact ⟨_, _, hs, hr, (the_ends_of_a_pair_name_each_other hs hr).mpr ⟨rfl, rfl, rfl, rfl, rfl⟩⟩

end peppy.topics
