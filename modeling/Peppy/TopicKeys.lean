-- The keys of the topics. A publish reaches the subscriptions that it is
-- addressed to and no other, so an emission on a pairing reaches its one peer
-- and the observers of the pairing.
import Peppy.Wire

open keys List

namespace peppy.zenoh_format

open wire

/-! ## The keys -/

def pinned_or_wildcard : Option Segment → String
  | some slot => slot.as_str
  | none => WILDCARD

def target_segments : Option SenderTarget → String × String × String
  | some t => (t.discriminator, t.name.as_str, t.tag.as_str)
  | none => (WILDCARD, WILDCARD, WILDCARD)

variable (s : TopicWireSender) (r : TopicWireReceiver)

def topic_publish : String :=
  let (discriminator, name, tag) := target_segments (some s.as_target)
  let (to_core, to_inst) := match s.to_peer with
    | some peer => (peer.core_node.as_str, peer.instance_id.as_str)
    | none => (WILDCARD, WILDCARD)
  let key := to_core ++ "/" ++ s.as_core_node.as_str ++ "/" ++ to_inst ++ "/" ++
    s.as_instance_id.as_str ++ "/" ++ "topic" ++ "/" ++ discriminator ++ "/" ++ name ++ "/" ++
    tag ++ "/" ++ s.link_id.as_str ++ "/" ++ s.as_topic_name.as_str
  match s.to_peer with
  | some peer => key ++ "/" ++ peer.link_id.as_str
  | none => key

def topic_subscribe : String :=
  let from_core := pinned_or_wildcard r.from_core_node
  let from_inst := pinned_or_wildcard r.from_instance_id
  let (discriminator, name, tag) := target_segments r.from_target
  let link_id := pinned_or_wildcard r.from_link_id
  let (as_core, as_inst) := match r.pairing_recipient with
    | some .Any => (WILDCARD, WILDCARD)
    | some (.Peer peer) => (peer.core_node.as_str, peer.instance_id.as_str)
    | some (.Slot _) | none => (r.as_core_node.as_str, r.as_instance_id.as_str)
  let key := as_core ++ "/" ++ from_core ++ "/" ++ as_inst ++ "/" ++ from_inst ++ "/" ++ "topic" ++
    "/" ++ discriminator ++ "/" ++ name ++ "/" ++ tag ++ "/" ++ link_id ++ "/" ++ r.to_topic.as_str
  match r.pairing_recipient with
  | some (.Slot own_link_id) => key ++ "/" ++ own_link_id.as_str
  | some (.Peer peer) => key ++ "/" ++ peer.link_id.as_str
  | some .Any => key ++ "/" ++ WILDCARD
  | none => key

/-! ## Their chunks -/

@[simp] theorem pinned_some (slot : Segment) : pinned_or_wildcard (some slot) = slot.as_str := rfl

@[simp] theorem pinned_none : pinned_or_wildcard none = WILDCARD := rfl

@[simp] theorem chunks_wildcard : chunks WILDCARD = [WILDCARD] :=
  chunks_of_not_mem (by decide)

@[simp] theorem chunks_topic : chunks "topic" = ["topic"] := chunks_of_not_mem (by decide)

@[simp] theorem chunks_segment (s : Segment) : chunks s.as_str = [s.as_str] :=
  chunks_of_not_mem s.slash_not_mem

@[simp] theorem chunks_discriminator (t : SenderTarget) :
    chunks t.discriminator = [t.discriminator] :=
  chunks_of_not_mem t.slash_not_mem

@[simp] theorem chunks_pinned (slot : Option Segment) :
    chunks (pinned_or_wildcard slot) = [pinned_or_wildcard slot] := by
  cases slot with
  | none => exact chunks_wildcard
  | some s => exact chunks_segment s

@[simp] theorem meets_segment (a b : Segment) : Meets a.as_str b.as_str ↔ a = b := by
  rw [meets_of_ne a.ne_wildcard b.ne_wildcard]
  exact ⟨Segment.ext_str, congrArg Segment.as_str⟩

@[simp] theorem meets_pinned (a : Segment) (slot : Option Segment) :
    Meets a.as_str (pinned_or_wildcard slot) ↔ slot = none ∨ slot = some a := by
  cases slot with
  | none => simp
  | some b => simp [eq_comm]

@[simp] theorem meets_discriminator (a b : SenderTarget) :
    Meets a.discriminator b.discriminator ↔ a.discriminator = b.discriminator :=
  meets_of_ne a.discriminator_ne_wildcard b.discriminator_ne_wildcard

theorem meets_target (t : SenderTarget) (slot : Option SenderTarget) :
    (Meets t.discriminator (target_segments slot).1 ∧
      Meets t.name.as_str (target_segments slot).2.1 ∧
      Meets t.tag.as_str (target_segments slot).2.2) ↔ slot = none ∨ slot = some t := by
  cases slot with
  | none => simp [target_segments]
  | some u =>
    simp only [target_segments, meets_discriminator, meets_segment, reduceCtorEq, false_or,
      Option.some.injEq]
    constructor
    · rintro ⟨hd, hname, htag⟩
      exact (SenderTarget.eq_of_segments hd hname htag).symm
    · rintro rfl
      exact ⟨rfl, rfl, rfl⟩

@[simp] theorem chunks_target (slot : Option SenderTarget) :
    chunks (target_segments slot).1 = [(target_segments slot).1] ∧
      chunks (target_segments slot).2.1 = [(target_segments slot).2.1] ∧
      chunks (target_segments slot).2.2 = [(target_segments slot).2.2] := by
  cases slot with
  | none | some t => simp [target_segments]

/-- The chunks of a publish: recipient, sender, and the peer's link id. -/
theorem chunks_topic_publish : chunks (topic_publish s) =
    [pinned_or_wildcard (s.to_peer.map WirePeer.core_node), s.as_core_node.as_str,
        pinned_or_wildcard (s.to_peer.map WirePeer.instance_id), s.as_instance_id.as_str, "topic",
        s.as_target.discriminator, s.as_target.name.as_str, s.as_target.tag.as_str,
        s.link_id.as_str, s.as_topic_name.as_str] ++
    (s.to_peer.map fun peer => peer.link_id.as_str).toList := by
  cases hs : s.to_peer <;> simp [topic_publish, target_segments, hs]

/-- The address that a subscription stands for, with open slots for any. -/
def recipient : Option Segment × Option Segment × Option (Option Segment) :=
  match r.pairing_recipient with
  | some .Any => (none, none, some none)
  | some (.Peer peer) => (some peer.core_node, some peer.instance_id, some (some peer.link_id))
  | some (.Slot own_link_id) =>
    (some r.as_core_node, some r.as_instance_id, some (some own_link_id))
  | none => (some r.as_core_node, some r.as_instance_id, none)

theorem chunks_topic_subscribe : chunks (topic_subscribe r) =
    [pinned_or_wildcard (recipient r).1, pinned_or_wildcard r.from_core_node,
        pinned_or_wildcard (recipient r).2.1, pinned_or_wildcard r.from_instance_id, "topic",
        (target_segments r.from_target).1, (target_segments r.from_target).2.1,
        (target_segments r.from_target).2.2, pinned_or_wildcard r.from_link_id,
        r.to_topic.as_str] ++ ((recipient r).2.2.map pinned_or_wildcard).toList := by
  have htarget := chunks_target r.from_target
  rcases hr : r.pairing_recipient with _ | l | _ | q <;>
    simp [topic_subscribe, recipient, hr, htarget.1, htarget.2.1, htarget.2.2]

/-! ## Who hears whom -/

/-- The subscription stands for the recipient of the publish. -/
def Reaches : Prop :=
  (s.to_peer = none ∧ r.pairing_recipient = none) ∨
    ∃ peer, s.to_peer = some peer ∧
      (r.pairing_recipient = some .Any ∨ r.pairing_recipient = some (.Peer peer) ∨
        (r.pairing_recipient = some (.Slot peer.link_id) ∧ r.as_core_node = peer.core_node ∧
          r.as_instance_id = peer.instance_id))

/-- The receiver subscribes to what the sender publishes. -/
structure Hears (r : TopicWireReceiver) (s : TopicWireSender) : Prop where
  topic : s.as_topic_name = r.to_topic
  core_node : r.from_core_node = none ∨ r.from_core_node = some s.as_core_node
  instance_id : r.from_instance_id = none ∨ r.from_instance_id = some s.as_instance_id
  target : r.from_target = none ∨ r.from_target = some s.as_target
  link_id : r.from_link_id = none ∨ r.from_link_id = some s.link_id
  reaches : Reaches s r

theorem reaches_iff : Reaches s r ↔ Meets (pinned_or_wildcard (s.to_peer.map WirePeer.core_node))
          (pinned_or_wildcard (recipient r).1) ∧
        Meets (pinned_or_wildcard (s.to_peer.map WirePeer.instance_id))
          (pinned_or_wildcard (recipient r).2.1) ∧
        List.Forall₂ Meets (s.to_peer.map fun peer => peer.link_id.as_str).toList
          ((recipient r).2.2.map pinned_or_wildcard).toList := by
  rcases hs : s.to_peer with _ | ⟨core, inst, link⟩ <;>
    rcases hr : r.pairing_recipient with _ | l | _ | ⟨core', inst', link'⟩ <;>
    simp [Reaches, recipient, hs, hr]
  · tauto
  · tauto

theorem intersect_iff : Intersect (topic_publish s) (topic_subscribe r) ↔ Hears r s := by
  have htarget := meets_target s.as_target r.from_target
  have hreach := reaches_iff s r
  rw [Intersect, chunks_topic_publish, chunks_topic_subscribe]
  simp only [cons_append, nil_append, forall₂_cons, meets_pinned, meets_segment,
    meets_self, true_and]
  constructor
  · rintro ⟨hcore, hfrom, hinst, hfrom', hd, hname, htag, hlink, htopic, hend⟩
    exact ⟨htopic, hfrom, hfrom', htarget.mp ⟨hd, hname, htag⟩, hlink,
      hreach.mpr ⟨hcore, hinst, hend⟩⟩
  · rintro ⟨htopic, hfrom, hfrom', ht, hlink, hreaches⟩
    obtain ⟨hd, hname, htag⟩ := htarget.mpr ht
    obtain ⟨hcore, hinst, hend⟩ := hreach.mp hreaches
    exact ⟨hcore, hfrom, hinst, hfrom', hd, hname, htag, hlink, htopic, hend⟩

/-- A publish and a subscription meet exactly when the subscription asks for what is
published and stands for its recipient. An emission on a pairing reaches its one peer and
the observers alone. -/
theorem a_publish_reaches_whom_it_is_for (s : TopicWireSender) (r : TopicWireReceiver) :
    (Intersect (topic_publish s) (topic_subscribe r) ↔ Hears r s) ∧
      (s.as_target.is_pairing → Intersect (topic_publish s) (topic_subscribe r) →
        ∃ peer, s.to_peer = some peer ∧
          (r.pairing_recipient = some .Any ∨ r.pairing_recipient = some (.Peer peer) ∨
            (r.pairing_recipient = some (.Slot peer.link_id) ∧ r.as_core_node = peer.core_node ∧
              r.as_instance_id = peer.instance_id))) ∧
      (s.as_target.is_pairing → r.from_target = none →
        ¬ Intersect (topic_publish s) (topic_subscribe r)) := by
  refine ⟨intersect_iff s r, ?_, ?_⟩
  · intro hpairing hmeet
    have hpeer : s.to_peer ≠ none := by
      intro hnone
      have := s.peer_of_pairing
      rw [hnone, hpairing] at this
      cases this
    rcases ((intersect_iff s r).mp hmeet).reaches with ⟨hnone, -⟩ | hreach
    · exact absurd hnone hpeer
    · exact hreach
  · intro hpairing htarget hmeet
    -- no target, so no recipient, and a pairing names its peer
    have hrecipient : r.pairing_recipient = none := by
      have := r.recipient_of_pairing
      rw [htarget] at this
      exact Option.not_isSome_iff_eq_none.mp (by rw [this]; decide)
    have hpaired := s.peer_of_pairing
    rcases ((intersect_iff s r).mp hmeet).reaches with ⟨hnone, -⟩ | ⟨peer, -, h | h | ⟨h, -⟩⟩
    · rw [hnone, hpairing] at hpaired
      cases hpaired
    · exact nomatch hrecipient.symm.trans h
    · exact nomatch hrecipient.symm.trans h
    · exact nomatch hrecipient.symm.trans h

def armTag : Segment := ⟨"v1", by decide, by decide⟩

def armLink : SenderTarget := .Pairing ⟨⟨"arm_link", by decide, by decide⟩, armTag⟩

def deskNode : Segment := ⟨"cn-desk", by decide, by decide⟩

def armSegment : Segment := ⟨"arm", by decide, by decide⟩

def armEmission : TopicWireSender where
  as_core_node := deskNode
  as_instance_id := armSegment
  as_target := armLink
  link_id := ⟨"tool", by decide, by decide⟩
  as_topic_name := ⟨"pose", by decide, by decide⟩
  to_peer := some ⟨deskNode, ⟨"gripper", by decide, by decide⟩,
    ⟨"mount", by decide, by decide⟩⟩
  peer_of_pairing := rfl

def gripperSlot : TopicWireReceiver where
  as_core_node := deskNode
  as_instance_id := ⟨"gripper", by decide, by decide⟩
  from_core_node := some deskNode
  from_instance_id := some armSegment
  from_target := some armLink
  from_link_id := some ⟨"tool", by decide, by decide⟩
  to_topic := ⟨"pose", by decide, by decide⟩
  pairing_recipient := some (.Slot ⟨"mount", by decide, by decide⟩)
  recipient_of_pairing := rfl

theorem the_emission_of_an_arm_reaches_its_gripper :
    Intersect (topic_publish armEmission) (topic_subscribe gripperSlot) :=
  (a_publish_reaches_whom_it_is_for armEmission gripperSlot).1.mpr
    ⟨rfl, .inr rfl, .inr rfl, .inr rfl, .inr rfl, .inr ⟨_, rfl, .inr (.inr ⟨rfl, rfl, rfl⟩)⟩⟩

end peppy.zenoh_format
