-- The buffer of the feedback of a goal. A delivery holds its lock from the check to
-- the push, and the reader takes messages at any time.
import Mathlib.Data.List.Basic
import Mathlib.Data.List.Induction
import Peppy.Lib.Runs

open runs List

namespace peppy.feedback

/-! ## The buffer -/

/-- A message, which ends the stream when its payload is empty. -/
structure TopicMessage where
  core_node : String
  instance_id : String
  payload : List UInt8
  deriving DecidableEq

def TopicMessage.ends (message : TopicMessage) : Bool := message.payload.isEmpty

inductive FeedbackState where
  | Open
  | Ended
  | Overflowed
  deriving DecidableEq

/-- What the delivery that holds the lock does next. -/
inductive Inside where
  | Send (message : TopicMessage)
  | Drain
  | Raise
  deriving DecidableEq

/-- The buffer, with the messages `delivered` to it and `received` from it. -/
structure FeedbackSink where
  bound : Nat
  receivers : Nat
  state : FeedbackState
  queue : List TopicMessage
  raised : Bool
  inside : Option Inside
  delivered : List TopicMessage
  received : List TopicMessage
  deriving DecidableEq

def FeedbackSink.open (bound : Nat) : FeedbackSink where
  bound
  receivers := 2
  state := .Open
  queue := []
  raised := false
  inside := none
  delivered := []
  received := []

inductive Act where
  | Deliver (message : TopicMessage)
  | Proceed
  | Take

namespace FeedbackSink

variable (sink : FeedbackSink)

def reader_gone : Bool := sink.receivers ≤ 1

/-- The checks of `deliver`, under the lock. -/
def deliver (message : TopicMessage) : FeedbackSink :=
  let sink := { sink with delivered := sink.delivered ++ [message] }
  if sink.state ≠ .Open ∨ sink.reader_gone = true then sink
  else if message.ends then { sink with state := .Ended, inside := some (.Send message) }
  else if sink.bound ≤ sink.queue.length then
    { sink with state := .Overflowed, inside := some .Drain }
  else { sink with inside := some (.Send message) }

def proceed : Inside → FeedbackSink
  | .Send message => { sink with queue := sink.queue ++ [message], inside := none }
  | .Drain => { sink with queue := [], inside := some .Raise }
  | .Raise => { sink with raised := true, inside := none }

def step : Act → Option FeedbackSink
  | .Deliver message => if sink.inside = none then some (sink.deliver message) else none
  | .Proceed => sink.inside.map sink.proceed
  | .Take =>
    match sink.queue with
    | [] => none
    | message :: queue => some { sink with
        queue
        received := sink.received ++ [message] }

end FeedbackSink

open FeedbackSink (step proceed deliver reader_gone)

/-! ## The stream -/

/-- The deliveries up to the first end, which is the last of them. -/
def stream : List TopicMessage → List TopicMessage
  | [] => []
  | message :: messages => if message.ends then [message] else message :: stream messages

variable {l : List TopicMessage}

theorem stream_append_of_ended (h : ∃ m ∈ l, m.ends = true)
    (messages : List TopicMessage) : stream (l ++ messages) = stream l := by
  induction l with
  | nil => simp at h
  | cons message l ih =>
    simp only [cons_append, stream]
    split
    · rfl
    rename_i hends
    obtain ⟨m, hm, hend⟩ := h
    rcases mem_cons.mp hm with rfl | hm
    · exact absurd hend hends
    · rw [ih ⟨m, hm, hend⟩]

theorem stream_of_open (h : ∀ m ∈ l, m.ends = false) : stream l = l := by
  induction l with
  | nil => rfl
  | cons message l ih =>
    obtain ⟨hmessage, hrest⟩ := forall_mem_cons.mp h
    simp [stream, hmessage, ih hrest]

theorem stream_append_of_open (h : ∀ m ∈ l, m.ends = false)
    (message : TopicMessage) : stream (l ++ [message]) = l ++ [message] := by
  induction l with
  | nil => simp [stream]
  | cons first l ih =>
    obtain ⟨hfirst, hrest⟩ := forall_mem_cons.mp h
    simp [stream, hfirst, ih hrest]

theorem stream_prefix_append (l messages : List TopicMessage) :
    stream l <+: stream (l ++ messages) := by
  induction l with
  | nil => exact nil_prefix
  | cons message l ih =>
    simp only [cons_append, stream]
    split
    · exact prefix_rfl
    · exact (prefix_cons_inj message).mpr ih

/-! ## The invariant -/

def Inside.message : Option Inside → List TopicMessage
  | some (.Send message) => [message]
  | _ => []

/-- The queue and what the reader took follow the stream, up to an overflow. -/
structure Follows (bound : Nat) (sink : FeedbackSink) : Prop where
  bound_eq : sink.bound = bound
  reader : sink.reader_gone = false
  -- what the reader took is the start of the stream
  taken : sink.received <+: stream sink.delivered
  whole : sink.state ≠ .Overflowed →
    sink.received ++ sink.queue ++ Inside.message sink.inside = stream sink.delivered
  drained : sink.state = .Overflowed → (sink.inside = some .Drain →
    sink.received ++ sink.queue <+: stream sink.delivered) ∧
    (sink.inside ≠ some .Drain → sink.queue = [])
  unread : ((sink.queue ++ Inside.message sink.inside).filter fun m => !m.ends).length ≤ bound
  going : sink.state = .Open → ∀ m ∈ sink.delivered, m.ends = false
  ended : sink.state = .Ended → ∃ m ∈ sink.delivered, m.ends = true
  inside_open : ∀ m, sink.inside = some (.Send m) → sink.state ≠ .Overflowed
  inside_overflowed : sink.inside = some .Drain ∨ sink.inside = some .Raise →
    sink.state = .Overflowed
  raised_iff : sink.raised = true ↔ sink.state = .Overflowed ∧ sink.inside = none

theorem Follows.start (bound : Nat) : Follows bound (FeedbackSink.open bound) := by
  constructor <;> simp [FeedbackSink.open, reader_gone, stream, Inside.message]

section
variable {bound : Nat} {sink : FeedbackSink}

section
variable (h : Follows bound sink)
include h

theorem Follows.reader_there : ¬ sink.receivers ≤ 1 := by
  simpa [reader_gone] using h.reader

theorem Follows.unraised (hopen : sink.state = .Open) : sink.raised = false := by
  rw [← Bool.not_eq_true, h.raised_iff, hopen]
  simp

theorem Follows.not_ended (hgoing : ∀ m ∈ sink.delivered, m.ends = false) : sink.state ≠ .Ended := by
  intro hstate
  obtain ⟨m, hm, hends⟩ := h.ended hstate
  rw [hgoing m hm] at hends
  cases hends

theorem Follows.queue_open (hopen : sink.state = .Open) (hidle : sink.inside = none) :
    sink.received ++ sink.queue = sink.delivered := by
  have hwhole := h.whole (by rw [hopen]; decide)
  rw [hidle, stream_of_open (h.going hopen)] at hwhole
  simpa [Inside.message] using hwhole

theorem Follows.unread_open (hopen : sink.state = .Open)
    (hidle : sink.inside = none) : sink.queue.length ≤ bound := by
  have hunread := h.unread
  have hall : sink.queue.filter (fun m => !m.ends) = sink.queue := by
    refine filter_eq_self.mpr fun m hm => ?_
    have hm : m ∈ sink.delivered := by
      rw [← h.queue_open hopen hidle]
      exact mem_append_right _ hm
    simp [h.going hopen m hm]
  simpa [hidle, Inside.message, hall] using hunread

theorem Follows.deliver_closed (hclosed : sink.state ≠ .Open) (message : TopicMessage) :
    Follows bound { sink with delivered := sink.delivered ++ [message] } := by
  have hstream : sink.state = .Ended → stream (sink.delivered ++ [message]) = stream sink.delivered :=
    fun hended => stream_append_of_ended (h.ended hended) [message]
  have hmore := stream_prefix_append sink.delivered [message]
  exact {
    bound_eq := h.bound_eq
    reader := h.reader
    taken := h.taken.trans hmore
    whole := by
      intro hstate
      have hended : sink.state = .Ended := by
        cases hcases : sink.state <;> simp_all
      dsimp only
      rw [hstream hended]
      exact h.whole hstate
    drained := by
      intro hstate
      obtain ⟨hdrain, hempty⟩ := h.drained hstate
      exact ⟨fun hinside => (hdrain hinside).trans hmore, hempty⟩
    unread := h.unread
    going := fun hopen => absurd hopen hclosed
    ended := by
      intro hended
      obtain ⟨m, hm, hends⟩ := h.ended hended
      exact ⟨m, mem_append_left _ hm, hends⟩
    inside_open := h.inside_open
    inside_overflowed := h.inside_overflowed
    raised_iff := h.raised_iff }

theorem Follows.deliver_open (hopen : sink.state = .Open)
    (hidle : sink.inside = none) (message : TopicMessage) : Follows bound (sink.deliver message) := by
  have hgoing := h.going hopen
  have hqueue := h.queue_open hopen hidle
  have hnew := stream_append_of_open hgoing message
  have hlength := h.unread_open hopen hidle
  have hunread : (sink.queue.filter fun m => !m.ends).length ≤ sink.queue.length :=
    length_filter_le _ _
  have hbound := h.bound_eq
  have hreader := h.reader_there
  have htaken : sink.received <+: stream (sink.delivered ++ [message]) := by
    rw [hnew, ← hqueue, append_assoc]
    exact prefix_append _ _
  have hraised := h.unraised hopen
  unfold deliver
  simp only [reader_gone, hopen, hreader, ne_eq, not_true_eq_false, decide_false,
    Bool.false_eq_true, or_self, if_false]
  split
  · rename_i hends
    refine ⟨hbound, h.reader, htaken, fun _ => ?_, fun hstate => ?_, ?_, fun hstate => ?_,
      fun _ => ⟨message, by simp, hends⟩, fun _ _ => ?_, ?_, ?_⟩
    · rw [hnew, hqueue]
      rfl
    · cases hstate
    · rw [filter_append]
      simp [Inside.message, hends]
      omega
    · cases hstate
    · simp
    · rintro (hinside | hinside) <;> cases hinside
    · simp [hraised]
  · rename_i hends
    have hends : message.ends = false := by simpa using hends
    split
    · refine ⟨hbound, h.reader, htaken, fun hstate => absurd rfl hstate,
        fun _ => ⟨fun _ => ?_, fun hinside => absurd rfl hinside⟩, ?_, fun hstate => ?_,
        fun hstate => ?_, fun _ hinside => ?_, fun _ => rfl, ?_⟩
      · rw [hnew, hqueue]
        exact prefix_append _ _
      · simp [Inside.message]
        omega
      · cases hstate
      · cases hstate
      · cases hinside
      · simp [hraised]
    · rename_i hroom
      refine ⟨hbound, h.reader, htaken, fun _ => ?_, fun hstate => ?_, ?_, fun _ => ?_,
        fun hstate => ?_, fun _ _ => ?_, ?_, ?_⟩
      · rw [hnew, hqueue]
        rfl
      · cases hstate
      · rw [filter_append, length_append]
        simp [Inside.message, hends]
        omega
      · exact fun m hm => (mem_append.mp hm).elim (hgoing m)
          fun hm => mem_singleton.mp hm ▸ hends
      · cases hstate
      · simp
      · rintro (hinside | hinside) <;> cases hinside
      · simp [hraised]

theorem Follows.proceed {inside : Inside} (hinside : sink.inside = some inside) :
    Follows bound (sink.proceed inside) := by
  cases inside with
  | Send message =>
    have hstate := h.inside_open message hinside
    have hwhole := h.whole hstate
    have hraised := h.raised_iff
    rw [hinside] at hwhole hraised
    refine ⟨h.bound_eq, h.reader, h.taken, fun _ => ?_, fun hover => absurd hover hstate, ?_,
      h.going, h.ended, fun _ hnone => ?_, ?_, ?_⟩
    · simpa [FeedbackSink.proceed, Inside.message] using hwhole
    · have hunread := h.unread
      rw [hinside] at hunread
      simpa [FeedbackSink.proceed, Inside.message] using hunread
    · cases hnone
    · rintro (hnone | hnone) <;> cases hnone
    · simp [FeedbackSink.proceed, hstate] at hraised ⊢
      exact hraised
  | Drain =>
    have hstate := h.inside_overflowed (.inl hinside)
    have hraised := h.raised_iff
    rw [hinside] at hraised
    refine ⟨h.bound_eq, h.reader, h.taken, fun hne => absurd hstate hne,
      fun _ => ⟨fun hdrain => ?_, fun _ => rfl⟩, ?_, h.going, h.ended, fun _ hsend => ?_,
      fun _ => hstate, ?_⟩
    · cases hdrain
    · simp [FeedbackSink.proceed, Inside.message]
    · cases hsend
    · simp [FeedbackSink.proceed] at hraised ⊢
      exact hraised
  | Raise =>
    have hstate := h.inside_overflowed (.inr hinside)
    obtain ⟨-, hempty⟩ := h.drained hstate
    have hqueue : sink.queue = [] := hempty (by rw [hinside]; decide)
    refine ⟨h.bound_eq, h.reader, h.taken, fun hne => absurd hstate hne,
      fun _ => ⟨fun hdrain => ?_, fun _ => hqueue⟩, ?_, h.going, h.ended, fun _ hsend => ?_,
      ?_, ?_⟩
    · cases hdrain
    · simp [FeedbackSink.proceed, Inside.message, hqueue]
    · cases hsend
    · rintro (hnone | hnone) <;> cases hnone
    · simp [FeedbackSink.proceed, hstate]

theorem Follows.take {message : TopicMessage} {queue : List TopicMessage}
    (hqueue : sink.queue = message :: queue) :
    Follows bound { sink with queue, received := sink.received ++ [message] } := by
  have hunread := h.unread
  rw [hqueue] at hunread
  refine ⟨h.bound_eq, h.reader, ?_, fun hstate => ?_, fun hstate => ⟨fun hdrain => ?_, fun hnot => ?_⟩,
    ?_, h.going, h.ended, h.inside_open, h.inside_overflowed, h.raised_iff⟩
  · by_cases hstate : sink.state = .Overflowed
    · obtain ⟨hdrain, hempty⟩ := h.drained hstate
      by_cases hinside : sink.inside = some .Drain
      · have hprefix := hdrain hinside
        rw [hqueue, append_cons] at hprefix
        exact (prefix_append _ _).trans hprefix
      · rw [hempty hinside] at hqueue
        cases hqueue
    · have hwhole := h.whole hstate
      rw [hqueue, append_cons, append_assoc] at hwhole
      rw [← hwhole]
      exact prefix_append _ _
  · have hwhole := h.whole hstate
    rw [hqueue, append_cons] at hwhole
    exact hwhole
  · have hprefix := (h.drained hstate).1 hdrain
    rw [hqueue, append_cons] at hprefix
    exact hprefix
  · have hempty := (h.drained hstate).2 hnot
    rw [hqueue] at hempty
    cases hempty
  · refine Nat.le_trans (List.Sublist.length_le (List.Sublist.filter _ ?_)) hunread
    exact sublist_cons_self message _

end

variable {sink' : FeedbackSink} {act : Act} {acts : List Act}

theorem Follows.step (h : Follows bound sink) (hstep : sink.step act = some sink') :
    Follows bound sink' := by
  cases act with
  | Deliver message =>
    simp only [FeedbackSink.step] at hstep
    split at hstep
    · rename_i hidle
      cases hstep
      by_cases hopen : sink.state = .Open
      · exact h.deliver_open hopen hidle message
      · have hclosed := h.deliver_closed hopen message
        simpa [deliver, hopen] using hclosed
    · cases hstep
  | Proceed =>
    obtain ⟨inside, hinside, rfl⟩ := Option.map_eq_some_iff.mp hstep
    exact h.proceed hinside
  | Take =>
    simp only [FeedbackSink.step] at hstep
    split at hstep
    · cases hstep
    · rename_i message queue hqueue
      cases hstep
      exact h.take hqueue

theorem follows_of_run (hrun : run step (FeedbackSink.open bound) acts = some sink) :
    Follows bound sink :=
  run_keeps (I := Follows bound) (fun _ _ _ h hstep => h.step hstep) (Follows.start bound) hrun

/-! ## The overflow -/

def deliveries : List Act → List TopicMessage
  | [] => []
  | .Deliver message :: acts => message :: deliveries acts
  | _ :: acts => deliveries acts

theorem deliveries_append (acts acts' : List Act) :
    deliveries (acts ++ acts') = deliveries acts ++ deliveries acts' := by
  induction acts with
  | nil => rfl
  | cons act acts ih => cases act <;> simp [deliveries, ih]

/-- A message comes before the end while the buffer is full. -/
def Overflows (bound : Nat) (acts : List Act) : Prop :=
  ∃ before message after mid, acts = before ++ .Deliver message :: after ∧
    run step (FeedbackSink.open bound) before = some mid ∧ message.ends = false ∧
    (∀ m ∈ deliveries before, m.ends = false) ∧ mid.queue.length = bound

theorem delivered_of_step (hstep : sink.step act = some sink') :
    sink'.delivered = sink.delivered ++ deliveries [act] := by
  cases act with
  | Deliver message =>
    simp only [step] at hstep
    split at hstep
    · cases hstep
      simp only [deliver, deliveries]
      split
      · rfl
      · split
        · rfl
        · split <;> rfl
    · cases hstep
  | Proceed =>
    obtain ⟨inside, -, rfl⟩ := Option.map_eq_some_iff.mp hstep
    cases inside <;> simp [proceed, deliveries]
  | Take =>
    simp only [step] at hstep
    split at hstep
    · cases hstep
    · cases hstep
      simp [deliveries]

theorem Follows.overflow_step (h : Follows bound sink) (hstep : sink.step act = some sink') :
    sink'.state = .Overflowed ↔ sink.state = .Overflowed ∨
      ∃ message, act = .Deliver message ∧ message.ends = false ∧ sink.state = .Open ∧
        sink.queue.length = bound := by
  have hreader := h.reader_there
  cases act with
  | Proceed =>
    obtain ⟨inside, -, rfl⟩ := Option.map_eq_some_iff.mp hstep
    cases inside <;> simp [FeedbackSink.proceed]
  | Take =>
    simp only [FeedbackSink.step] at hstep
    split at hstep
    · cases hstep
    · cases hstep
      simp
  | Deliver message =>
    simp only [FeedbackSink.step] at hstep
    split at hstep
    case isFalse => cases hstep
    rename_i hidle
    cases hstep
    by_cases hopen : sink.state = .Open
    · have hlength := h.unread_open hopen hidle
      have hbound := h.bound_eq
      by_cases hends : message.ends = true
      · simp [deliver, reader_gone, hopen, hreader, hends]
      have hends : message.ends = false := by simpa using hends
      by_cases hroom : sink.bound ≤ sink.queue.length
      · have heq : sink.queue.length = bound := by omega
        simp [deliver, reader_gone, hopen, hreader, hends, hbound, heq]
      · have hne : sink.queue.length ≠ bound := by omega
        simp [deliver, reader_gone, hopen, hreader, hends, hroom, hne]
    · simp [deliver, hopen]

theorem delivered_of_run (hrun : run step (FeedbackSink.open bound) acts = some sink) :
    sink.delivered = deliveries acts := by
  induction acts using List.reverseRecOn generalizing sink with
  | nil =>
    cases hrun
    rfl
  | append_singleton acts act ih =>
    obtain ⟨mid, hmid, hstep⟩ := run_concat_some hrun
    rw [delivered_of_step hstep, ih hmid, deliveries_append]

theorem overflowed_iff (hrun : run step (FeedbackSink.open bound) acts = some sink) :
    sink.state = .Overflowed ↔ Overflows bound acts := by
  -- on the last act, which is the arrival or comes after it
  induction acts using List.reverseRecOn generalizing sink with
  | nil =>
    cases hrun
    constructor
    · intro h
      cases h
    · rintro ⟨before, message, after, mid, hacts, -⟩
      simp at hacts
  | append_singleton acts act ih =>
    obtain ⟨mid, hmid, hstep⟩ := run_concat_some hrun
    have hinv := follows_of_run hmid
    have hdelivered := delivered_of_run hmid
    rw [hinv.overflow_step hstep, ih hmid]
    constructor
    · rintro (⟨before, message, after, mid', hacts, hlaws⟩ | ⟨message, rfl, hends, hopen, hlength⟩)
      · refine ⟨before, message, after ++ [act], mid', ?_, hlaws⟩
        rw [hacts]
        simp
      · exact ⟨acts, message, [], mid, rfl, hmid, hends, hdelivered ▸ hinv.going hopen, hlength⟩
    · rintro ⟨before, message, after, mid', hacts, hrun', hends, hgoing, hlength⟩
      rcases eq_nil_or_concat after with rfl | ⟨after, last, rfl⟩
      · obtain ⟨rfl, hact⟩ := append_inj' hacts rfl
        cases hact
        cases hmid.symm.trans hrun'
        cases hstate : mid.state with
        | Open => exact .inr ⟨message, rfl, hends, rfl, hlength⟩
        | Overflowed => exact .inl ((ih hmid).mp hstate)
        | Ended => exact absurd hstate (hinv.not_ended (hdelivered ▸ hgoing))
      · rw [concat_eq_append, ← cons_append, ← append_assoc] at hacts
        obtain ⟨rfl, -⟩ := append_inj' hacts rfl
        exact .inl ⟨before, message, after, mid', rfl, hrun', hends, hgoing, hlength⟩

theorem closed_run {later : List Act} (hclosed : sink.state ≠ .Open)
    (hidle : sink.inside = none) (hrun : run step sink later = some sink') :
    sink'.received ++ sink'.queue = sink.received ++ sink.queue := by
  have hkeeps : sink'.state ≠ .Open ∧ sink'.inside = none ∧
      sink'.received ++ sink'.queue = sink.received ++ sink.queue := by
    refine run_keeps (I := fun s => s.state ≠ .Open ∧ s.inside = none ∧
      s.received ++ s.queue = sink.received ++ sink.queue) ?_ ⟨hclosed, hidle, rfl⟩ hrun
    rintro s act s' ⟨hstate, hinside, hall⟩ hstep
    cases act with
    | Deliver message =>
      simp only [step, hinside, if_true, Option.some.injEq] at hstep
      subst hstep
      simpa [deliver, hstate, hinside] using hall
    | Proceed => simp [step, hinside] at hstep
    | Take =>
      simp only [step] at hstep
      split at hstep
      · cases hstep
      rename_i message queue hqueue
      cases hstep
      refine ⟨hstate, hinside, ?_⟩
      rw [← hall, hqueue]
      simp
  exact hkeeps.2.2

theorem Follows.end_kept (h : Follows bound sink) (hopen : sink.state = .Open)
    (hidle : sink.inside = none) {message : TopicMessage} (hends : message.ends = true) :
    ∃ sink', run FeedbackSink.step sink [.Deliver message, .Proceed] = some sink' ∧
      sink'.queue = sink.queue ++ [message] ∧ sink'.state = .Ended ∧ sink'.raised = false := by
  have hreader := h.reader_there
  have hraised := h.unraised hopen
  simp [run, FeedbackSink.step, hidle, deliver, reader_gone, hopen, hreader,
    hends, FeedbackSink.proceed, hraised]

end

/-! ## The stream that a reader sees -/

/-- What the reader sees of the deliveries. -/
structure Streamed (bound : Nat) (acts : List Act) (sink : FeedbackSink) : Prop where
  /-- What the reader took is the start of the stream, without a gap. -/
  taken : sink.received <+: stream (deliveries acts)
  /-- Without an overflow, the rest of the stream is unread. -/
  whole : ¬ Overflows bound acts → sink.inside = none →
    sink.received ++ sink.queue = stream (deliveries acts)
  unread : (sink.queue.filter fun m => !m.ends).length ≤ bound
  raised : sink.inside = none → (sink.raised = true ↔ Overflows bound acts)
  discarded : sink.raised = true → sink.queue = []
  closed : Overflows bound acts ∨ (∃ m ∈ deliveries acts, m.ends = true) → sink.inside = none →
    ∀ later sink', run FeedbackSink.step sink later = some sink' →
      sink'.received ++ sink'.queue = sink.received ++ sink.queue
  end_kept : ¬ Overflows bound acts → (∀ m ∈ deliveries acts, m.ends = false) →
    sink.inside = none → ∀ message, message.ends = true →
    ∃ sink', run FeedbackSink.step sink [.Deliver message, .Proceed] = some sink' ∧
      sink'.queue = sink.queue ++ [message] ∧ sink'.raised = false

/-- Every interleaving of deliveries and reads, while the reader is there. -/
theorem the_feedback_of_every_interleaving (bound : Nat) (acts : List Act) (sink : FeedbackSink)
    (hrun : run step (FeedbackSink.open bound) acts = some sink) : Streamed bound acts sink := by
  have hinv := follows_of_run hrun
  have hover := overflowed_iff hrun
  have hdelivered := delivered_of_run hrun
  refine ⟨hdelivered ▸ hinv.taken, fun hnot hidle => ?_, ?_, fun hidle => ?_, fun hraised => ?_,
    fun hclosed hidle later sink' hlater => ?_, fun hnot hgoing hidle message hends => ?_⟩
  · have hwhole := hinv.whole fun hstate => hnot (hover.mp hstate)
    rw [hidle, hdelivered] at hwhole
    simpa [Inside.message] using hwhole
  · refine Nat.le_trans (List.Sublist.length_le (List.Sublist.filter _ ?_)) hinv.unread
    exact sublist_append_left _ _
  · rw [hinv.raised_iff, hover]
    exact ⟨fun h => h.1, fun h => ⟨h, hidle⟩⟩
  · obtain ⟨hstate, hidle⟩ := hinv.raised_iff.mp hraised
    exact (hinv.drained hstate).2 (by rw [hidle]; decide)
  · refine closed_run (fun hopen => ?_) hidle hlater
    rcases hclosed with hoverflows | ⟨m, hm, hends⟩
    · rw [hover.mpr hoverflows] at hopen
      cases hopen
    · rw [hinv.going hopen m (hdelivered ▸ hm)] at hends
      cases hends
  · have hopen : sink.state = .Open := by
      cases hstate : sink.state with
      | Open => rfl
      | Overflowed => exact absurd (hover.mp hstate) hnot
      | Ended => exact absurd hstate (hinv.not_ended (hdelivered ▸ hgoing))
    obtain ⟨sink', hsink', hqueue, -, hraised⟩ := hinv.end_kept hopen hidle hends
    exact ⟨sink', hsink', hqueue, hraised⟩

def feedbackOf (byte : UInt8) : TopicMessage := ⟨"core", "arm", [byte]⟩

def pastTheBound : List Act :=
  [.Deliver (feedbackOf 0), .Proceed, .Deliver (feedbackOf 1), .Proceed, .Deliver (feedbackOf 2),
    .Take, .Proceed, .Proceed]

theorem the_feedback_past_its_bound :
    ∃ sink, run step (FeedbackSink.open 2) pastTheBound = some sink ∧
      sink.received = [feedbackOf 0] ∧ sink.raised = true ∧ Streamed 2 pastTheBound sink := by
  refine ⟨{
    bound := 2, receivers := 2, state := .Overflowed, queue := [], raised := true, inside := none
    delivered := [feedbackOf 0, feedbackOf 1, feedbackOf 2], received := [feedbackOf 0] },
    by decide, rfl, rfl, ?_⟩
  exact the_feedback_of_every_interleaving 2 pastTheBound _ (by decide)

end peppy.feedback
