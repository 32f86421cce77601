-- The queue of a keep-latest topic, which drops its oldest message when it is full.
-- Each `try_send` and each `try_recv` of a push is one step.
import Mathlib.Algebra.Ring.Nat
import Mathlib.Algebra.BigOperators.Group.List.Basic
import Mathlib.Data.List.Count
import Mathlib.Data.List.Dedup
import Peppy.Lib.Runs

open runs List

namespace peppy.latest_queue

variable {M : Type}

/-! ## The queue and its publishers -/

/-- A message, with its publisher and push, which the queue does not know. -/
structure Queued (M : Type) where
  publisher : Nat
  index : Nat
  message : M
  deriving DecidableEq

/-- Where a push is. `retry` is whether it has called `try_recv`. -/
inductive Phase (M : Type) where
  | Idle
  | TrySend (message : M) (retry : Bool)
  | TryRecv (message : M)
  deriving DecidableEq

/-- A publisher: pushes returned, the push that runs, and messages to come. -/
structure Publisher (M : Type) where
  returned : Nat
  phase : Phase M
  later : List M
  deriving DecidableEq

structure LatestQueue (M : Type) where
  capacity : Nat
  queue : List (Queued M)
  receivers : Nat
  dropped_any : Bool
  publishers : List (Publisher M)
  deriving DecidableEq

/-- What `open` gives: two receivers, and publishers before they push. -/
def LatestQueue.open (capacity : Nat) (pushes : List (List M)) : LatestQueue M where
  capacity := max capacity 1
  queue := []
  receivers := 2
  dropped_any := false
  publishers := pushes.map fun messages => ⟨0, .Idle, messages⟩

namespace LatestQueue

variable (q : LatestQueue M)

def reader_gone : Bool := q.receivers ≤ 1

def step (i : Nat) : Option (LatestQueue M) :=
  match q.publishers[i]? with
  | none => none
  | some p =>
    match p.phase with
    | .Idle =>
      match p.later with
      | [] => none
      | message :: later =>
        if q.reader_gone then
          some { q with publishers := q.publishers.set i ⟨p.returned + 1, .Idle, later⟩ }
        else
          some { q with
            publishers := q.publishers.set i ⟨p.returned, .TrySend message false, later⟩ }
    | .TrySend message _ =>
      if q.queue.length < q.capacity then
        some { q with
          queue := q.queue ++ [⟨i, p.returned, message⟩]
          publishers := q.publishers.set i ⟨p.returned + 1, .Idle, p.later⟩ }
      else some { q with publishers := q.publishers.set i ⟨p.returned, .TryRecv message, p.later⟩ }
    | .TryRecv message =>
      some { q with
        queue := q.queue.tail
        dropped_any := q.dropped_any || !q.queue.isEmpty
        publishers := q.publishers.set i ⟨p.returned, .TrySend message true, p.later⟩ }

/-- Every publisher has pushed its messages. -/
def Returned : Prop :=
  ∀ p ∈ q.publishers, p.phase = .Idle ∧ p.later = []

end LatestQueue

/-! ## What the publishers hold -/

def Phase.message : Phase M → List M
  | .Idle => []
  | .TrySend message _ => [message]
  | .TryRecv message => [message]

/-- A push that made room, or found the queue empty, and has not sent yet. -/
def Publisher.owes (p : Publisher M) : Nat :=
  match p.phase with
  | .TrySend _ true => 1
  | _ => 0

open Publisher (owes)

def tagged (i : Nat) (messages : List M) : List (Queued M) :=
  messages.mapIdx fun index message => ⟨i, index, message⟩

theorem sum_map_set {α : Type} {l : List α} {i : Nat} {a : α} (h : l[i]? = some a) (f : α → Nat)
    (b : α) : ((l.set i b).map f).sum + f a = (l.map f).sum + f b := by
  induction l generalizing i with
  | nil => simp at h
  | cons x l ih =>
    cases i with
    | zero =>
      simp only [getElem?_cons_zero, Option.some.injEq] at h
      subst h
      simp only [set_cons_zero, map_cons, sum_cons]
      omega
    | succ i =>
      have hrest := ih (i := i) (by simpa using h)
      simp only [set_cons_succ, map_cons, sum_cons]
      omega

theorem getElem?_set_some {α : Type} {l : List α} {i j : Nat} {a x : α}
    (h : (l.set i a)[j]? = some x) : j = i ∧ x = a ∨ i ≠ j ∧ l[j]? = some x := by
  rw [getElem?_set] at h
  split at h
  · rename_i heq
    split at h
    · exact .inl ⟨heq.symm, (Option.some.inj h).symm⟩
    · cases h
  · rename_i hne
    exact .inr ⟨hne, h⟩

theorem tagged_take_succ {messages : List M} {message : M} {n : Nat} {i : Nat} {later : List M}
    (h : message :: later = messages.drop n) :
    tagged i (messages.take (n + 1)) = tagged i (messages.take n) ++ [⟨i, n, message⟩] := by
  have hget : messages[n]? = some message := by
    rw [← head?_drop, ← h]
    rfl
  have hlt : n < messages.length := (List.getElem?_eq_some_iff.mp hget).1
  rw [take_add_one, hget, tagged, tagged, Option.toList_some, mapIdx_append]
  simp
  omega

/-! ## The invariant -/

/-- Every message pushed is in the queue, in `dropped` (oldest first) or still to come. -/
structure Accounted (capacity : Nat) (pushes : List (List M)) (q : LatestQueue M)
    (dropped : List (Queued M)) : Prop where
  capacity : q.capacity = max capacity 1
  reader : q.reader_gone = false
  bound : q.queue.length ≤ q.capacity
  count : q.publishers.length = pushes.length
  -- each publisher, against its list
  pending : ∀ (i : Nat) (p : Publisher M) (messages : List M),
    q.publishers[i]? = some p → pushes[i]? = some messages →
    p.returned ≤ messages.length ∧ p.phase.message ++ p.later = messages.drop p.returned
  sent : ∀ (i : Nat) (p : Publisher M) (messages : List M),
    q.publishers[i]? = some p → pushes[i]? = some messages →
    (dropped ++ q.queue).filter (fun entry => entry.publisher = i) =
      tagged i (messages.take p.returned)
  known : ∀ entry ∈ dropped ++ q.queue, entry.publisher < pushes.length
  total : (dropped ++ q.queue).length = (q.publishers.map Publisher.returned).sum
  -- a queue that was full once stays full, but for what the retries owe
  full : (dropped = [] ∧ ∀ p ∈ q.publishers, p.phase = .Idle ∨ ∃ m, p.phase = .TrySend m false) ∨
    q.capacity ≤ q.queue.length + (q.publishers.map owes).sum

theorem Accounted.start (capacity : Nat) (pushes : List (List M)) :
    Accounted capacity pushes (LatestQueue.open capacity pushes) [] where
  capacity := rfl
  reader := rfl
  bound := by simp [LatestQueue.open]
  count := by simp [LatestQueue.open]
  pending := by
    intro i p messages hp hmessages
    simp only [LatestQueue.open, getElem?_map, hmessages, Option.map_some,
      Option.some.injEq] at hp
    subst hp
    exact ⟨Nat.zero_le _, rfl⟩
  sent := by
    intro i p messages hp hmessages
    simp only [LatestQueue.open, getElem?_map, hmessages, Option.map_some,
      Option.some.injEq] at hp
    subst hp
    rfl
  known := by simp [LatestQueue.open]
  total := by
    simp only [LatestQueue.open, List.map_map, append_nil, length_nil]
    induction pushes with
    | nil => rfl
    | cons _ pushes ih => simpa using ih
  full := by
    refine .inl ⟨rfl, fun p hp => .inl ?_⟩
    obtain ⟨messages, -, rfl⟩ := mem_map.mp hp
    rfl

section
variable {capacity : Nat} {pushes : List (List M)} {q : LatestQueue M} {dropped : List (Queued M)}
  {i : Nat} {p : Publisher M}

theorem Accounted.moves (h : Accounted capacity pushes q dropped) (hp : q.publishers[i]? = some p)
    (p' : Publisher M) (hreturned : p'.returned = p.returned)
    (hpending : p'.phase.message ++ p'.later = p.phase.message ++ p.later) {q' : LatestQueue M}
    {dropped' : List (Queued M)} (hpublishers : q'.publishers = q.publishers.set i p')
    (hcapacity : q'.capacity = q.capacity) (hreceivers : q'.receivers = q.receivers)
    (hall : dropped' ++ q'.queue = dropped ++ q.queue) (hbound : q'.queue.length ≤ q.capacity)
    (hfull : (dropped' = [] ∧
        ∀ p ∈ q'.publishers, p.phase = .Idle ∨ ∃ m, p.phase = .TrySend m false) ∨
      q'.capacity ≤ q'.queue.length + (q'.publishers.map owes).sum) :
    Accounted capacity pushes q' dropped' where
  capacity := hcapacity.trans h.capacity
  reader := by
    rw [LatestQueue.reader_gone, hreceivers]
    exact h.reader
  bound := by rw [hcapacity]; exact hbound
  count := by rw [hpublishers, length_set]; exact h.count
  pending := by
    intro j p'' messages hp'' hmessages
    rw [hpublishers] at hp''
    rcases getElem?_set_some hp'' with ⟨rfl, rfl⟩ | ⟨-, hp''⟩
    · rw [hpending, hreturned]
      exact h.pending j p messages hp hmessages
    · exact h.pending j p'' messages hp'' hmessages
  sent := by
    intro j p'' messages hp'' hmessages
    rw [hpublishers] at hp''
    rw [hall]
    rcases getElem?_set_some hp'' with ⟨rfl, rfl⟩ | ⟨-, hp''⟩
    · rw [hreturned]
      exact h.sent j p messages hp hmessages
    · exact h.sent j p'' messages hp'' hmessages
  known := by rw [hall]; exact h.known
  total := by
    have hsum := sum_map_set hp Publisher.returned p'
    rw [hall, hpublishers, h.total]
    omega
  full := hfull

theorem Accounted.sends (h : Accounted capacity pushes q dropped) (hp : q.publishers[i]? = some p)
    {message : M} {retry : Bool} (hphase : p.phase = .TrySend message retry)
    (hroom : q.queue.length < q.capacity) : Accounted capacity pushes { q with
      queue := q.queue ++ [⟨i, p.returned, message⟩]
      publishers := q.publishers.set i ⟨p.returned + 1, .Idle, p.later⟩ } dropped := by
  have hlt : i < q.publishers.length := (List.getElem?_eq_some_iff.mp hp).1
  have hmine : ∀ messages, pushes[i]? = some messages →
      message :: p.later = messages.drop p.returned := by
    intro messages hmessages
    have hpending := (h.pending i p messages hp hmessages).2
    rw [hphase] at hpending
    exact hpending
  exact {
    capacity := h.capacity
    reader := h.reader
    bound := by simp; omega
    count := by simp [h.count]
    pending := by
      intro j p' messages hp' hmessages
      rcases getElem?_set_some hp' with ⟨rfl, rfl⟩ | ⟨-, hp'⟩
      · have hdrop := congrArg List.tail (hmine messages hmessages)
        have hlength := congrArg List.length (hmine messages hmessages)
        simp only [length_cons, length_drop] at hlength
        refine ⟨by dsimp only; omega, ?_⟩
        simpa [Phase.message] using hdrop
      · exact h.pending j p' messages hp' hmessages
    sent := by
      intro j p' messages hp' hmessages
      rw [← append_assoc, filter_append]
      rcases getElem?_set_some hp' with ⟨rfl, rfl⟩ | ⟨hne, hp'⟩
      · rw [h.sent j p messages hp hmessages, tagged_take_succ (hmine messages hmessages)]
        simp
      · rw [h.sent j p' messages hp' hmessages]
        simp [hne]
    known := by
      intro entry hentry
      rw [← append_assoc, mem_append, mem_singleton] at hentry
      rcases hentry with hentry | rfl
      · exact h.known entry hentry
      · rw [← h.count]
        exact hlt
    total := by
      have hsum := sum_map_set hp Publisher.returned ⟨p.returned + 1, .Idle, p.later⟩
      have htotal := h.total
      simp only [length_append, length_singleton] at htotal ⊢
      simp only at hsum
      omega
    full := by
      rcases h.full with ⟨hnone, hfresh⟩ | hfull
      · refine .inl ⟨hnone, fun p' hp' => ?_⟩
        rcases mem_or_eq_of_mem_set hp' with hp' | rfl
        · exact hfresh p' hp'
        · exact .inl rfl
      · have hsum := sum_map_set hp owes ⟨p.returned + 1, .Idle, p.later⟩
        have howes : p.owes ≤ 1 := by
          rw [owes, hphase]
          cases retry <;> simp
        have hidle : owes (⟨p.returned + 1, .Idle, p.later⟩ : Publisher M) = 0 := rfl
        refine .inr ?_
        simp only [length_append, length_singleton]
        omega }

theorem Accounted.step (h : Accounted capacity pushes q dropped) {q' : LatestQueue M}
    (hstep : q.step i = some q') : ∃ dropped', Accounted capacity pushes q' dropped' := by
  unfold LatestQueue.step at hstep
  split at hstep
  · cases hstep
  rename_i p hp
  split at hstep
  · rename_i hphase
    split at hstep
    · cases hstep
    rename_i message later hlater
    rw [if_neg (by simp [h.reader])] at hstep
    cases hstep
    refine ⟨dropped, h.moves hp ⟨p.returned, .TrySend message false, later⟩ rfl ?_ rfl rfl rfl rfl
      h.bound ?_⟩
    · simp [hphase, hlater, Phase.message]
    rcases h.full with ⟨hnone, hfresh⟩ | hfull
    · refine .inl ⟨hnone, fun p' hp' => ?_⟩
      rcases mem_or_eq_of_mem_set hp' with hp' | rfl
      · exact hfresh p' hp'
      · exact .inr ⟨message, rfl⟩
    · have hsum := sum_map_set hp owes ⟨p.returned, .TrySend message false, later⟩
      have howes : p.owes = 0 := by simp [owes, hphase]
      refine .inr ?_
      simp only [owes] at hsum howes ⊢
      omega
  · rename_i message retry hphase
    split at hstep
    · rename_i hroom
      cases hstep
      exact ⟨dropped, h.sends hp hphase hroom⟩
    rename_i hfull
    cases hstep
    refine ⟨dropped, h.moves hp ⟨p.returned, .TryRecv message, p.later⟩ rfl ?_ rfl rfl rfl rfl
      h.bound (.inr ?_)⟩
    · simp [hphase, Phase.message]
    · have hlength : q.capacity ≤ q.queue.length := Nat.le_of_not_lt hfull
      exact Nat.le_trans hlength (Nat.le_add_right _ _)
  · rename_i message hphase
    cases hstep
    have hlength := h.bound
    refine ⟨dropped ++ q.queue.take 1, h.moves hp ⟨p.returned, .TrySend message true, p.later⟩ rfl
      ?_ rfl rfl rfl ?_ ?_ (.inr ?_)⟩
    · simp [hphase, Phase.message]
    · rw [append_assoc, ← drop_one, take_append_drop]
    · simp
      omega
    -- a push that takes a message out owes one
    rcases h.full with ⟨-, hfresh⟩ | hfull
    · rcases hfresh p (mem_of_getElem? hp) with hidle | ⟨m, hfresh⟩
      · cases hphase.symm.trans hidle
      · cases hphase.symm.trans hfresh
    have hsum := sum_map_set hp owes ⟨p.returned, .TrySend message true, p.later⟩
    have howes : p.owes = 0 := by simp [owes, hphase]
    have howes' : owes (⟨p.returned, .TrySend message true, p.later⟩ : Publisher M) = 1 :=
      rfl
    simp only [length_tail]
    omega

theorem accounted_of_run {schedule : List Nat}
    (hrun : run LatestQueue.step (LatestQueue.open capacity pushes) schedule = some q) :
    ∃ dropped, Accounted capacity pushes q dropped := by
  refine run_keeps (I := fun q => ∃ dropped, Accounted capacity pushes q dropped) ?_
    ⟨[], Accounted.start capacity pushes⟩ hrun
  rintro s i s' ⟨dropped, h⟩ hstep
  exact h.step hstep

/-! ## The queue once every push has returned -/

section
variable (h : Accounted capacity pushes q dropped)
include h

theorem Accounted.returned_eq (hdone : q.Returned) {messages : List M}
    (hp : q.publishers[i]? = some p) (hmessages : pushes[i]? = some messages) :
    messages.take p.returned = messages := by
  obtain ⟨hphase, hlater⟩ := hdone p (mem_of_getElem? hp)
  have hpending := (h.pending i p messages hp hmessages).2
  rw [hphase, hlater] at hpending
  exact take_of_length_le (drop_eq_nil_iff.mp hpending.symm)

theorem Accounted.sent_all (hdone : q.Returned) {messages : List M}
    (hmessages : pushes[i]? = some messages) :
    (dropped ++ q.queue).filter (fun entry => entry.publisher = i) = tagged i messages := by
  have hlt : i < q.publishers.length := by
    rw [h.count]
    exact (List.getElem?_eq_some_iff.mp hmessages).1
  have hp : q.publishers[i]? = some q.publishers[i] := getElem?_eq_getElem hlt
  rw [h.sent i _ messages hp hmessages, h.returned_eq hdone hp hmessages]

theorem Accounted.total_pushed (hdone : q.Returned) :
    (dropped ++ q.queue).length = pushes.flatten.length := by
  rw [h.total, length_flatten]
  congr 1
  refine ext_getElem (by simp [h.count]) fun i hi hi' => ?_
  simp only [length_map] at hi hi'
  have hp : q.publishers[i]? = some q.publishers[i] := getElem?_eq_getElem hi
  have hmessages : pushes[i]? = some pushes[i] := getElem?_eq_getElem hi'
  have hwithin := (h.pending i _ _ hp hmessages).1
  have hlength := congrArg List.length (h.returned_eq hdone hp hmessages)
  rw [length_take] at hlength
  simp only [getElem_map]
  omega

theorem Accounted.length_queue (hdone : q.Returned) :
    q.queue.length = min (max capacity 1) pushes.flatten.length := by
  have hbound := h.bound
  have htotal := h.total_pushed hdone
  rw [length_append] at htotal
  rcases h.full with ⟨rfl, -⟩ | hfull
  · rw [h.capacity] at hbound
    simp only [length_nil] at htotal
    omega
  -- no push owes a message any more
  have howes : (q.publishers.map owes).sum = 0 := by
    refine sum_eq_zero fun n hn => ?_
    obtain ⟨p, hp, rfl⟩ := mem_map.mp hn
    simp [owes, (hdone p hp).1]
  rw [h.capacity] at hbound hfull
  omega

end

theorem nodup_tagged (i : Nat) (messages : List M) : (tagged i messages).Nodup := by
  rw [tagged, nodup_iff_getElem?_ne_getElem?]
  intro k l hkl hl
  simp only [getElem?_mapIdx, length_mapIdx] at hl ⊢
  rw [getElem?_eq_getElem hl, getElem?_eq_getElem (Nat.lt_trans hkl hl)]
  simp only [Option.map_some, ne_eq, Option.some.injEq, Queued.mk.injEq, true_and, not_and]
  intro heq
  omega

theorem Accounted.nodup (h : Accounted capacity pushes q dropped) (hdone : q.Returned) :
    q.queue.Nodup := by
  classical
  refine (sublist_append_right dropped q.queue).nodup (nodup_iff_count_le_one.mpr ?_)
  intro entry
  by_cases hentry : entry ∈ dropped ++ q.queue
  · have hlt := h.known entry hentry
    have hall := h.sent_all hdone (getElem?_eq_getElem hlt)
    have hcount := nodup_iff_count_le_one.mp (nodup_tagged entry.publisher pushes[entry.publisher]) entry
    rwa [← hall, count_filter (by simp)] at hcount
  · rw [count_eq_zero_of_not_mem hentry]
    exact Nat.zero_le 1

theorem Accounted.kept (h : Accounted capacity pushes q dropped) (hdone : q.Returned)
    {messages : List M} (hmessages : pushes[i]? = some messages) :
    ∃ k, q.queue.filter (fun entry => entry.publisher = i) = (tagged i messages).drop k := by
  have hall := h.sent_all hdone hmessages
  rw [filter_append] at hall
  refine ⟨(dropped.filter fun entry => entry.publisher = i).length, ?_⟩
  rw [← hall, drop_left]

theorem map_message_tagged (i : Nat) (messages : List M) :
    (tagged i messages).map Queued.message = messages := by
  refine ext_getElem? fun k => ?_
  cases hk : messages[k]? <;> simp [tagged, hk]

theorem Accounted.single {messages : List M} (h : Accounted capacity [messages] q dropped)
    (hdone : q.Returned) : q.queue.map Queued.message =
      messages.drop (messages.length - min (max capacity 1) messages.length) := by
  have hlength := h.length_queue hdone
  obtain ⟨k, hkept⟩ := h.kept (i := 0) hdone rfl
  have hmine : q.queue.filter (fun entry => entry.publisher = 0) = q.queue := by
    refine filter_eq_self.mpr fun entry hentry => ?_
    have hlt := h.known entry (mem_append_right _ hentry)
    simpa using hlt
  rw [hmine] at hkept
  have hdrop : q.queue.map Queued.message = messages.drop k := by
    rw [hkept, map_drop, map_message_tagged]
  have hcount := congrArg List.length hdrop
  rw [length_map, hlength, length_drop] at hcount
  simp only [flatten_cons, flatten_nil, append_nil] at hcount
  rw [hdrop]
  by_cases hk : k ≤ messages.length
  · congr 1
    omega
  · rw [drop_of_length_le (by omega), drop_of_length_le (by omega)]

end

/-- Once every push has returned, in any interleaving, the queue holds as many messages
as it can, none twice, and the last ones of each publisher in its order. -/
theorem the_queue_after_every_push (capacity : Nat) (pushes : List (List M)) (schedule : List Nat)
    (q : LatestQueue M)
    (hrun : run LatestQueue.step (LatestQueue.open capacity pushes) schedule = some q)
    (hdone : q.Returned) : q.queue.length = min (max capacity 1) pushes.flatten.length ∧
    q.queue.Nodup ∧
    (∀ i messages, pushes[i]? = some messages →
      ∃ k, q.queue.filter (fun entry => entry.publisher = i) = (tagged i messages).drop k) ∧
    ∀ messages, pushes = [messages] → q.queue.map Queued.message =
      messages.drop (messages.length - min (max capacity 1) messages.length) := by
  obtain ⟨dropped, h⟩ := accounted_of_run hrun
  refine ⟨h.length_queue hdone, h.nodup hdone, fun i messages => h.kept hdone, ?_⟩
  rintro messages rfl
  exact h.single hdone

instance (q : LatestQueue M) [DecidableEq M] : Decidable q.Returned :=
  inferInstanceAs (Decidable (∀ p ∈ q.publishers, p.phase = .Idle ∧ p.later = []))

/-- Two publishers that both find a queue of one message full, and both make
room. -/
def bothFull : List Nat := [0, 0, 0, 1, 0, 1, 0, 1, 0, 1, 1, 1]

theorem the_queue_of_two_publishers_that_make_room :
    ∃ q, run LatestQueue.step (LatestQueue.open 1 [["a", "b"], ["c"]]) bothFull = some q ∧
      q.Returned ∧ q.queue.length = 1 := by
  have hrun : run LatestQueue.step (LatestQueue.open 1 [["a", "b"], ["c"]]) bothFull = some
      { capacity := 1, queue := [⟨1, 0, "c"⟩], receivers := 2, dropped_any := true,
        publishers := [⟨2, .Idle, []⟩, ⟨1, .Idle, []⟩] } := by decide
  refine ⟨_, hrun, by decide, ?_⟩
  exact (the_queue_after_every_push 1 [["a", "b"], ["c"]] bothFull _ hrun (by decide)).1

end peppy.latest_queue
