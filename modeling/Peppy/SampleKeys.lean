-- The publisher that the key of a sample names, and the feedback keys of the goals.
import Peppy.ServiceKeys

open keys bytes List

namespace peppy.wire

structure ActionWireSender where
  as_core_node : Segment
  as_instance_id : Segment
  target_core_node : Option Segment
  target_instance_id : Option Segment
  to_target : SenderTarget
  to_action_name : Segment

structure ActionWireReceiver where
  bound_core_node : Segment
  as_instance_id : Segment
  as_identity : SenderTarget
  as_action_name : Segment

end peppy.wire

namespace peppy.zenoh_format

open wire

structure ParsedTopicKey where
  core_node : String
  instance_id : String
  link_id : String

def extract_caller_segment (segment : Option String) (field : String) :
    Outcome ZenohWireParseError String :=
  match segment.filter (· ≠ "") with
  | none => .Err (.MissingSegment field)
  | some value => if value = WILDCARD then .Err (.WildcardInCallerSegment field) else .Ok value

def parse_topic_keyexpr (keyexpr : String) : Outcome ZenohWireParseError ParsedTopicKey := do
  let segments := chunks keyexpr
  let core_node ← extract_caller_segment segments[1]? "caller_core_node"
  let instance_id ← extract_caller_segment segments[3]? "caller_instance_id"
  return ⟨core_node, instance_id, segments[8]?.getD ""⟩

def service_reply_keyexpr (r : ServiceWireReceiver)
    (link_id_literal caller_core caller_inst : String) : String :=
  caller_core ++ "/" ++ r.bound_core_node.as_str ++ "/" ++ caller_inst ++ "/" ++
    r.as_instance_id.as_str ++ "/" ++
    service_root r.as_identity link_id_literal r.as_service_name.as_str r.kind

def action_root (target : SenderTarget) (link_id action : String) : String :=
  "action" ++ "/" ++ target.discriminator ++ "/" ++ target.name.as_str ++ "/" ++
    target.tag.as_str ++ "/" ++ link_id ++ "/" ++ action

def action_feedback_publish (r : ActionWireReceiver) (link_id goal_id : String) : String :=
  WILDCARD ++ "/" ++ r.bound_core_node.as_str ++ "/" ++ WILDCARD ++ "/" ++
    r.as_instance_id.as_str ++ "/" ++ action_root r.as_identity link_id r.as_action_name.as_str ++
    "/" ++ "feedback" ++ "/" ++ r.as_instance_id.as_str ++ "/" ++ goal_id

def action_feedback_subscribe (s : ActionWireSender) (goal_id : String) : String :=
  s.as_core_node.as_str ++ "/" ++ pinned_or_wildcard s.target_core_node ++ "/" ++
    s.as_instance_id.as_str ++ "/" ++ pinned_or_wildcard s.target_instance_id ++ "/" ++
    action_root s.to_target WILDCARD s.to_action_name.as_str ++ "/" ++ "feedback" ++ "/" ++
    pinned_or_wildcard s.target_instance_id ++ "/" ++ goal_id

def is_safe_goal_id (goal_id : String) : Bool :=
  goal_id ≠ "" && goal_id.toList.all fun c => c.isAlphanum || c = '_' || c = '-'

/-! ## The publisher -/

@[simp] theorem extract_segment (s : Segment) (field : String) :
    extract_caller_segment (some s.as_str) field = .Ok s.as_str := by
  rw [extract_caller_segment, Option.filter_some, if_pos (by simpa using s.ne_empty)]
  exact if_neg s.ne_wildcard

theorem parse_key {key a b w x y z : String} {core inst link : Segment} {rest : List String}
    (h : chunks key = [a, core.as_str, b, inst.as_str, w, x, y, z, link.as_str] ++ rest) :
    parse_topic_keyexpr key = .Ok ⟨core.as_str, inst.as_str, link.as_str⟩ := by
  unfold parse_topic_keyexpr
  rw [h]
  simp only [cons_append, getElem?_cons_succ, getElem?_cons_zero, extract_segment]
  rfl

theorem chunks_action_root {target : SenderTarget} {link_id : String} {name : Segment}
    (hlink : chunks link_id = [link_id]) : chunks (action_root target link_id name.as_str) =
      ["action", target.discriminator, target.name.as_str, target.tag.as_str, link_id,
        name.as_str] := by
  have haction : chunks "action" = ["action"] := chunks_of_not_mem (by decide)
  delta action_root
  simp only [chunks_slash, haction, chunks_discriminator, chunks_segment, hlink]
  rfl

theorem chunks_feedback : chunks "feedback" = ["feedback"] := chunks_of_not_mem (by decide)

theorem chunks_action_feedback_publish (r : ActionWireReceiver) (link : Segment) (goal : String) :
    chunks (action_feedback_publish r link.as_str goal) =
      [WILDCARD, r.bound_core_node.as_str, WILDCARD, r.as_instance_id.as_str, "action",
        r.as_identity.discriminator, r.as_identity.name.as_str, r.as_identity.tag.as_str,
        link.as_str, r.as_action_name.as_str, "feedback", r.as_instance_id.as_str] ++
      chunks goal := by
  delta action_feedback_publish
  simp only [chunks_slash, chunks_wildcard, chunks_segment, chunks_action_root (chunks_segment link),
    chunks_feedback]
  rfl

/-! ## The feedback of a goal -/

theorem safe_goal_id {goal : String} (h : is_safe_goal_id goal = true) :
    chunks goal = [goal] ∧ goal ≠ WILDCARD := by
  obtain ⟨-, hall⟩ := Bool.and_eq_true_iff.mp h
  rw [List.all_eq_true] at hall
  constructor
  · exact chunks_of_not_mem fun hslash => absurd (hall _ hslash) (by decide)
  · rintro rfl
    exact absurd (hall '*' (by decide)) (by decide)

/-- The sender's target is the receiver, or any. -/
def Covers (s : ActionWireSender) (r : ActionWireReceiver) : Prop :=
  (s.target_core_node = none ∨ s.target_core_node = some r.bound_core_node) ∧
    (s.target_instance_id = none ∨ s.target_instance_id = some r.as_instance_id)

/-- The key of a sample names its publisher, and the feedback of a goal reaches the
subscriptions to that goal which the publisher is in. -/
theorem a_sample_names_its_publisher :
    (∀ s : TopicWireSender, parse_topic_keyexpr (topic_publish s) =
      .Ok ⟨s.as_core_node.as_str, s.as_instance_id.as_str, s.link_id.as_str⟩) ∧
    (∀ (r : ServiceWireReceiver) (link : Segment) (caller_core caller_inst : String),
      '/' ∉ caller_core.toList → '/' ∉ caller_inst.toList →
        parse_topic_keyexpr (service_reply_keyexpr r link.as_str caller_core caller_inst) =
          .Ok ⟨r.bound_core_node.as_str, r.as_instance_id.as_str, link.as_str⟩) ∧
    (∀ (r : ActionWireReceiver) (link : Segment) (goal : String),
      parse_topic_keyexpr (action_feedback_publish r link.as_str goal) =
        .Ok ⟨r.bound_core_node.as_str, r.as_instance_id.as_str, link.as_str⟩) ∧
    ∀ (r : ActionWireReceiver) (s : ActionWireSender) (link : Segment) (g h : String),
      s.to_target = r.as_identity → s.to_action_name = r.as_action_name →
      is_safe_goal_id g = true → is_safe_goal_id h = true →
        (Intersect (action_feedback_publish r link.as_str g) (action_feedback_subscribe s h) ↔
          g = h ∧ Covers s r) := by
  refine ⟨fun s => parse_key (chunks_topic_publish s), ?_, ?_, ?_⟩
  · intro r link caller_core caller_inst hcore hinst
    apply parse_key
    delta service_reply_keyexpr
    simp only [chunks_slash, chunks_segment, chunks_of_not_mem hcore,
      chunks_of_not_mem hinst, chunks_service_root (chunks_segment link)]
    rfl
  · exact fun r link goal => parse_key (chunks_action_feedback_publish r link goal)
  · intro r s link g h htarget hname hg hh
    obtain ⟨hgoal, hne⟩ := safe_goal_id hg
    obtain ⟨hgoal', hne'⟩ := safe_goal_id hh
    rw [Intersect, chunks_action_feedback_publish]
    delta action_feedback_subscribe
    simp only [chunks_slash, chunks_segment, chunks_pinned,
      chunks_action_root chunks_wildcard, chunks_feedback, hgoal, hgoal', htarget, hname, cons_append,
      nil_append, forall₂_cons, meets_wildcard_left, meets_wildcard_right, meets_self, meets_pinned,
      meets_of_ne hne hne', forall₂_nil_left_iff, true_and, and_true, Covers]
    tauto

end peppy.zenoh_format
