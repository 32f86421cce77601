-- What one operation can do to the slots of a ready node: one slot joins,
-- one leaves, or one makes a move of the list below. Every law of the slots
-- goes through these moves.
import Peppy.NodeEntity

open changes peppy.node_config peppy.pairing peppy.supervision List

namespace peppy.entity

open TrackedNodeInstance

/-! ## The moves of one slot -/

def TrackedNodeInstance.committed (inst : TrackedNodeInstance) (instance_dir : String)
    (endpoints : List InstanceEndpoint) (now system_now : Nat) : TrackedNodeInstance :=
  ((inst.set_running instance_dir).set_endpoints endpoints).record_running now system_now

def TrackedNodeInstance.startFailed (inst : TrackedNodeInstance) (exit : ExitCause)
    (backoff : RestartBackoff) (now system_now : Nat) : Attempt × TrackedNodeInstance :=
  take_next_attempt
    { inst with supervision := { inst.supervision with last_exit := some exit } }
    backoff none now system_now

def TrackedNodeInstance.restartRefused (inst : TrackedNodeInstance) : TrackedNodeInstance :=
  { inst with
    state := .Failed
    supervision := { inst.supervision with next_start := none } }

def TrackedNodeInstance.armed (inst : TrackedNodeInstance) (kill : HealthKill) :
    TrackedNodeInstance :=
  { inst with supervision := { inst.supervision with health_kill := some kill } }

/-- The cells that may be drawn, and the slots that may make each move. -/
structure Rights where
  draw : Nat → Prop := fun _ => False
  respawn : TrackedNodeInstance → Prop := fun _ => False
  commit : TrackedNodeInstance → Prop := fun _ => False
  exit : TrackedNodeInstance → Prop := fun _ => False
  fail : TrackedNodeInstance → Prop := fun _ => False
  claim : TrackedNodeInstance → Prop := fun _ => False

/-- What one section may do to a slot, given the rights. -/
inductive Move (R : Rights) : TrackedNodeInstance → TrackedNodeInstance → Prop
  | respawn (inst : TrackedNodeInstance) (incarnation : Nat) (h : inst.awaits_restart)
      (right : R.respawn inst) : Move R inst (inst.begin_respawn incarnation)
  | fork (inst : TrackedNodeInstance) (pid : Nat) (spawn_files : SpawnFiles)
      (h : inst.state = .Starting) (hclaim : inst.stopping = false) :
      Move R inst (inst.set_starting_process pid spawn_files)
  | revert (inst : TrackedNodeInstance) (h : inst.starts_a_restart)
      (hclaim : inst.stopping = false) : Move R inst inst.revert_respawn
  | commit (inst : TrackedNodeInstance) (instance_dir : String)
      (endpoints : List InstanceEndpoint) (now system_now : Nat) (h : inst.state = .Starting)
      (right : R.commit inst) :
      Move R inst (inst.committed instance_dir endpoints now system_now)
  | exit (inst : TrackedNodeInstance) (pid : Nat) (cause : ExitCause) (backoff : RestartBackoff)
      (now system_now : Nat) (registrations : Registrations)
      (h : inst.runs_unclaimed_process pid) (right : R.exit inst) :
      Move R inst (inst.record_exit cause backoff now system_now registrations).2
  | fail (inst : TrackedNodeInstance) (exit : ExitCause) (backoff : RestartBackoff)
      (now system_now : Nat) (h : inst.awaits_restart) (hexit : exit.is_clean = false)
      (right : R.fail inst) :
      Move R inst (inst.startFailed exit backoff now system_now).2
  | refuse (inst : TrackedNodeInstance) (h : inst.awaits_restart) :
      Move R inst inst.restartRefused
  | log (inst : TrackedNodeInstance) (path : String) (h : inst.awaits_restart) :
      Move R inst { inst with run_log_path := some path }
  | claim (inst : TrackedNodeInstance) (right : R.claim inst) : Move R inst inst.mark_stopping
  | arm (inst : TrackedNodeInstance) (kill : HealthKill) (h : inst.runs_unclaimed) :
      Move R inst (inst.armed kill)
  | note (inst : TrackedNodeInstance) (requests : Nat) (h : inst.state = .Running) :
      Move R inst { inst with shutdown_requests := requests }

theorem take_next_attempt_shape (inst : TrackedNodeInstance) (backoff : RestartBackoff)
    (ran_for : Option Nat) (now system_now : Nat) : ∃ state attempt next_start,
      (inst.take_next_attempt backoff ran_for now system_now).2 =
        { inst with state, supervision := { inst.supervision with attempt, next_start } } := by
  rcases inst.take_next_attempt_cases backoff ran_for now system_now with
    ⟨m, _, _, heq⟩ | ⟨_, heq⟩
  · exact ⟨.Failed, _, none, by rw [heq]⟩
  · exact ⟨inst.state, _, _, by rw [heq]⟩

theorem record_exit_shape (inst : TrackedNodeInstance) (cause : ExitCause)
    (backoff : RestartBackoff) (now system_now : Nat) (registrations : Registrations) :
    ∃ state exit attempt registrations' next_start,
      (inst.record_exit cause backoff now system_now registrations).2 =
        { inst.ended state exit attempt registrations' with supervision :=
            { (inst.ended state exit attempt registrations').supervision with
              next_start } } := by
  by_cases hagain : inst.restartsAgain cause
  · rw [record_exit_restarts hagain]
    obtain ⟨state, attempt, next_start, heq⟩ := take_next_attempt_shape
      (inst.ended .Restarting (recorded_exit inst.supervision cause)
        inst.supervision.attempt registrations)
      backoff (ran_for inst.supervision now) now system_now
    exact ⟨state, _, attempt, registrations, next_start, heq⟩
  · rw [record_exit_ends hagain]
    exact ⟨_, _, _, _, inst.supervision.next_start, rfl⟩

theorem committed_shape (inst : TrackedNodeInstance) (instance_dir : String)
    (endpoints : List InstanceEndpoint) (now system_now : Nat) : ∃ restart_count registrations,
      inst.committed instance_dir endpoints now system_now = { inst with
          state := .Running, instance_dir := some instance_dir, endpoints
          supervision :=
            { inst.supervision with
              run_started := some now
              running_since := some system_now
              restart_count
              registrations } } := by
  by_cases hattempt : 0 < inst.supervision.attempt
  · refine ⟨saturating_add inst.supervision.restart_count 1, {}, ?_⟩
    simp [committed, record_running,
      set_running, set_endpoints, hattempt]
  · refine ⟨inst.supervision.restart_count, inst.supervision.registrations, ?_⟩
    simp [committed, record_running,
      set_running, set_endpoints, hattempt]

variable {a b : TrackedNodeInstance} {R : Rights}

/-- A move keeps id and cell, and only a claim changes flag and token. -/
theorem Move.same (h : Move R a b) : (b.instance_id = a.instance_id ∧ b.cell = a.cell) ∧
    (R.claim a ∨ (b.stopping = a.stopping ∧
        b.supervision.restart_token = a.supervision.restart_token)) := by
  cases h with
  | exit pid cause backoff now system_now registrations =>
    obtain ⟨_, _, _, _, _, heq⟩ :=
      record_exit_shape a cause backoff now system_now registrations
    rw [heq]
    exact ⟨⟨rfl, rfl⟩, .inr ⟨rfl, rfl⟩⟩
  | fail exit backoff now system_now =>
    obtain ⟨_, _, _, heq⟩ := take_next_attempt_shape _ backoff none now system_now
    rw [startFailed, heq]
    exact ⟨⟨rfl, rfl⟩, .inr ⟨rfl, rfl⟩⟩
  | commit instance_dir endpoints now system_now =>
    obtain ⟨_, _, heq⟩ := committed_shape a instance_dir endpoints now system_now
    rw [heq]
    exact ⟨⟨rfl, rfl⟩, .inr ⟨rfl, rfl⟩⟩
  | claim right => exact ⟨⟨rfl, rfl⟩, .inl right⟩
  | _ => exact ⟨⟨rfl, rfl⟩, .inr ⟨rfl, rfl⟩⟩

theorem Move.ids (h : Move R a b) : b.instance_id = a.instance_id ∧ b.cell = a.cell :=
  h.same.1

/-! ## The turns of a node -/

/-- A slot that a first start adds: its id is not in the list, and its cell
is fresh. -/
def NewSlot (R : Rights) (l : List TrackedNodeInstance) (inst : TrackedNodeInstance) : Prop :=
  ∃ ctx first_start, inst = NodeEntity.new_slot ctx first_start ∧ R.draw ctx.cell ∧
    ctx.instance_id ∉ l.map (·.instance_id)

/-- One section changes at most one slot. -/
def Turn (R : Rights) (e e' : NodeEntity) : Prop :=
  ∃ l l', e.stage = .Ready l ∧ e' = { e with stage := .Ready l' } ∧
    Change (NewSlot R) (Move R) l l'

namespace NodeEntity

variable {R : Rights} {e e' : NodeEntity} {l : List TrackedNodeInstance}
  {id : Name}

theorem instances_ready (h : e.stage = .Ready l) : e.instances = l := by
  simp [instances, h]

theorem mem_ready {l1 l2 : List TrackedNodeInstance} {inst : TrackedNodeInstance}
    (h : e.stage = .Ready (l1 ++ inst :: l2)) : inst ∈ e.instances := by
  rw [instances, h]
  simp

theorem instances_mut_ready (h : e.stage = .Ready l) : e.instances_mut = l := by
  simp [instances_mut, h]

theorem instance_mut_ready (h : e.stage = .Ready l) : e.instance_mut id = l.find? (has_id id) := by
  rw [instance_mut, instances_mut_ready h]

variable {inst : TrackedNodeInstance}

theorem instance_mut_id (h : e.instance_mut id = some inst) : inst.instance_id = id := by
  simpa [has_id] using find?_some h

section
variable (h : e.stage = .Ready l)
include h

theorem instance_slot_ready : e.instance_slot id = l.find? (has_id id) := by
  rw [instance_slot, instances_ready h]

theorem with_instances_ready (l' : List TrackedNodeInstance) :
    e.with_instances l' = { e with stage := .Ready l' } := by
  simp [with_instances, h]

theorem turn_keep : Turn R e e :=
  ⟨l, l, h, by rw [← h], .keep l⟩

theorem turn_edit {p : TrackedNodeInstance → Bool} {f : TrackedNodeInstance → TrackedNodeInstance}
    (hfind : l.find? p = some inst) (hmove : Move R inst (f inst)) :
    Turn R e (e.with_instances (editFirst p f l)) := by
  rw [with_instances_ready h]
  obtain ⟨l1, l2, hl, hp, hl1⟩ := find?_split hfind
  refine ⟨l, _, h, rfl, ?_⟩
  rw [hl, editFirst_split hl1 hp]
  exact .edit l1 inst (f inst) l2 hmove

theorem turn_drop {p : TrackedNodeInstance → Bool}
    (hfind : l.find? p = some inst) : Turn R e (e.with_instances (l.eraseP p)) := by
  rw [with_instances_ready h]
  obtain ⟨l1, l2, hl, hp, hl1⟩ := find?_split hfind
  refine ⟨l, _, h, rfl, ?_⟩
  rw [hl, eraseP_split hl1 hp]
  exact .drop l1 inst l2

theorem set_instance_split (hfind : e.instance_mut id = some inst) (inst' : TrackedNodeInstance) :
    ∃ l1 l2, l = l1 ++ inst :: l2 ∧
      e.set_instance id inst' = { e with stage := .Ready (l1 ++ inst' :: l2) } := by
  rw [instance_mut_ready h] at hfind
  obtain ⟨l1, l2, hl, hp, hl1⟩ := find?_split hfind
  refine ⟨l1, l2, hl, ?_⟩
  rw [set_instance, instances_mut_ready h, with_instances_ready h, hl, editFirst_split hl1 hp]

theorem turn_set_instance {inst' : TrackedNodeInstance}
    (hfind : e.instance_mut id = some inst) (hmove : Move R inst inst') :
    Turn R e (e.set_instance id inst') := by
  obtain ⟨l1, l2, hl, heq⟩ := set_instance_split h hfind inst'
  rw [heq]
  exact ⟨l, _, h, rfl, hl ▸ .edit l1 inst inst' l2 hmove⟩

end

/-! ## The starts -/

def respawnSlot (e : NodeEntity) (ctx : StartContext) : Option TrackedNodeInstance :=
  e.instances.find? fun inst => has_id ctx.instance_id inst && inst.awaits_restart

theorem register_start_cases (h : e.stage = .Ready l) (ctx : StartContext) :
    (∃ first_start, ctx.spawn = .New first_start ∧ ctx.instance_id ∉ l.map (·.instance_id) ∧
      e.register_start ctx =
        (.ok e.generation, { e with stage := .Ready (l ++ [new_slot ctx first_start]) })) ∨
    (∃ l1 inst l2, ctx.spawn = .Respawn ∧ l = l1 ++ inst :: l2 ∧
      inst.instance_id = ctx.instance_id ∧ inst.awaits_restart ∧
      e.respawnSlot ctx = some inst ∧
      e.register_start ctx = (.ok e.generation,
          { e with stage := .Ready (l1 ++ inst.begin_respawn ctx.incarnation :: l2) })) ∨
    ((ctx.spawn = .Respawn → e.respawnSlot ctx = none) ∧
      ∃ error, e.register_start ctx = (.error error, e)) := by
  unfold register_start respawnSlot
  simp only [h, instances_ready h]
  cases hspawn : ctx.spawn with
  | New first_start =>
    simp only
    cases hfind : l.find? (has_id ctx.instance_id) with
    | some tracked => exact .inr (.inr ⟨nofun, _, rfl⟩)
    | none =>
      refine Or.inl ⟨first_start, rfl, ?_, by rw [with_instances_ready h]⟩
      intro hmem
      obtain ⟨inst, hinst, hid⟩ := mem_map.mp hmem
      exact find?_eq_none.mp hfind inst hinst (by simpa [has_id] using hid)
  | Respawn =>
    simp only
    split
    · rename_i hany
      obtain ⟨inst, hfind⟩ : ∃ inst, l.find? (fun inst =>
          has_id ctx.instance_id inst && inst.awaits_restart) = some inst := by
        rw [← Option.isSome_iff_exists, find?_isSome]
        simpa using hany
      obtain ⟨l1, l2, hl, hp, hl1⟩ := find?_split hfind
      have hp' := Bool.and_eq_true_iff.mp hp
      refine Or.inr (.inl
        ⟨l1, inst, l2, trivial, hl, by simpa [has_id] using hp'.1, hp'.2, hfind, ?_⟩)
      rw [with_instances_ready h, hl, editFirst_split hl1 hp]
    · rename_i hany
      refine Or.inr (.inr ⟨fun _ => find?_eq_none.mpr ?_, _, rfl⟩)
      simpa using hany

theorem turn_register_start (h : e.stage = .Ready l) (ctx : StartContext)
    (hnew : ∀ first_start, ctx.spawn = .New first_start → R.draw ctx.cell)
    (hrespawn : ctx.spawn = .Respawn → ∀ inst, inst.instance_id = ctx.instance_id →
      R.respawn inst) : Turn R e (e.register_start ctx).2 := by
  rcases register_start_cases h ctx with
    ⟨first_start, hspawn, hid, heq⟩ | ⟨l1, inst, l2, hspawn, hl, hid, hwaits, _, heq⟩ |
    ⟨_, error, heq⟩
  · rw [heq]
    exact ⟨l, _, h, rfl, .add l _ ⟨ctx, first_start, rfl, hnew first_start hspawn, hid⟩⟩
  · rw [heq]
    have hmove : Move R inst (inst.begin_respawn ctx.incarnation) :=
      .respawn inst ctx.incarnation hwaits (hrespawn hspawn inst hid)
    exact ⟨l, _, h, rfl, hl ▸ .edit l1 inst _ l2 hmove⟩
  · rw [heq]
    exact turn_keep h

theorem turn_fork_start (h : e.stage = .Ready l) (spawned : Except String Nat)
    (spawn_files : SpawnFiles) : Turn R e (e.fork_start id spawned spawn_files).2 := by
  unfold fork_start
  split
  · exact turn_keep h
  rename_i hclaim
  cases spawned with
  | error reason => exact turn_keep h
  | ok pid =>
    simp only [record_starting_process]
    cases hfind : e.instance_mut id with
    | none => exact turn_keep h
    | some inst =>
      simp only
      split
      · rename_i hstate
        apply turn_set_instance h hfind
        refine .fork inst pid spawn_files hstate ?_
        rw [instance_mut_ready h] at hfind
        simpa [instance_slot_ready h, hfind, is_stopping] using hclaim
      · exact turn_keep h

theorem unclaimed_of_fork_start {spawned : Except String Nat} {spawn_files : SpawnFiles}
    {pid : Nat} (h : (e.fork_start id spawned spawn_files).1 = .ok pid)
    (hslot : e.instance_slot id = some inst) : inst.stopping = false := by
  cases hclaim : inst.stopping with
  | false => rfl
  | true => simp [fork_start, hslot, is_stopping, hclaim] at h

section
variable (h : e.stage = .Ready l)
include h

theorem turn_undo_start : Turn R e (e.undo_start id) := by
  unfold undo_start
  simp only [instances_mut_ready h]
  split
  · exact turn_keep h
  rename_i inst hfind
  split
  · rename_i hrestart
    rw [Bool.and_eq_true] at hrestart
    refine turn_edit h hfind (.revert inst hrestart.1 ?_)
    simpa [is_stopping] using hrestart.2
  · exact turn_drop h hfind

theorem turn_undo_abandoned_start (run : StartRun) :
    Turn R e (e.undo_abandoned_start id run).2 := by
  unfold undo_abandoned_start
  simp only
  split
  · exact turn_undo_start h
  · exact turn_keep h

theorem turn_abort_started (start_generation : Nat) :
    Turn R e (e.abort_started start_generation id) := by
  unfold abort_started
  split
  · exact turn_undo_start h
  · exact turn_keep h

theorem turn_commit (start_generation : Nat) (instance_dir : String)
    (endpoints : List InstanceEndpoint) (now system_now : Nat)
    (hright : ∀ inst, inst.instance_id = id → R.commit inst) : Turn R e
      (e.commit_starting_instance start_generation id instance_dir endpoints now system_now).2 := by
  unfold commit_starting_instance
  simp only [h]
  split
  · exact turn_keep h
  cases hfind : l.find? (has_id id) with
  | none => exact turn_keep h
  | some inst =>
    simp only
    split
    · exact turn_keep h
    · rename_i hstate
      apply turn_set_instance h (by rw [instance_mut_ready h, hfind])
      exact .commit inst instance_dir endpoints now system_now (by simpa using hstate)
        (hright inst (by simpa [has_id] using find?_some hfind))

/-! ## The ends, the claims and the removals -/

variable (pid : Nat)

theorem mark_instance_exited_cases (cause : ExitCause)
    (backoff : RestartBackoff) (now system_now : Nat) (registrations : Registrations) :
    (∃ l1 inst l2, l = l1 ++ inst :: l2 ∧ e.instance_mut id = some inst ∧
      inst.runs_unclaimed_process pid ∧
      e.mark_instance_exited id pid cause backoff now system_now registrations =
        (some (inst.record_exit cause backoff now system_now registrations).1, { e with
            stage := .Ready (l1 ++
              (inst.record_exit cause backoff now system_now registrations).2 :: l2) })) ∨
    e.mark_instance_exited id pid cause backoff now system_now registrations = (none, e) := by
  unfold mark_instance_exited
  cases hfind : e.instance_mut id with
  | none => exact .inr rfl
  | some inst =>
    by_cases hruns : inst.runs_unclaimed_process pid
    · obtain ⟨l1, l2, hl, heq⟩ := set_instance_split h hfind
        (inst.record_exit cause backoff now system_now registrations).2
      exact .inl ⟨l1, inst, l2, hl, rfl, hruns, by simp only [hruns, if_true, heq]⟩
    · exact .inr (by simp only [hruns]; rfl)

theorem edit_awaiting_restart_cases {α : Type}
    (edit : TrackedNodeInstance → α × TrackedNodeInstance) :
    (∃ l1 inst l2, l = l1 ++ inst :: l2 ∧ e.instance_mut id = some inst ∧ inst.awaits_restart ∧
      e.edit_awaiting_restart id edit =
        (some (edit inst).1, { e with stage := .Ready (l1 ++ (edit inst).2 :: l2) })) ∨
    e.edit_awaiting_restart id edit = (none, e) := by
  unfold edit_awaiting_restart
  cases hfind : e.instance_mut id with
  | none => exact .inr rfl
  | some inst =>
    by_cases hwaits : inst.awaits_restart
    · obtain ⟨l1, l2, hl, heq⟩ := set_instance_split h hfind (edit inst).2
      exact .inl ⟨l1, inst, l2, hl, rfl, hwaits, by simp only [hwaits, if_true, heq]⟩
    · exact .inr (by simp only [hwaits]; rfl)

theorem turn_mark_instance_exited (cause : ExitCause)
    (backoff : RestartBackoff) (now system_now : Nat) (registrations : Registrations)
    (hright : ∀ inst, inst.instance_id = id → R.exit inst) : Turn R e
      (e.mark_instance_exited id pid cause backoff now system_now registrations).2 := by
  rcases mark_instance_exited_cases h pid cause backoff now system_now registrations with
    ⟨l1, inst, l2, hl, hfind, hruns, heq⟩ | heq
  · rw [heq]
    exact ⟨l, _, h, rfl, hl ▸ .edit l1 inst _ l2
      (.exit inst pid cause backoff now system_now _ hruns (hright inst (instance_mut_id hfind)))⟩
  · rw [heq]
    exact turn_keep h

theorem turn_edit_awaiting_restart {α : Type} (edit : TrackedNodeInstance → α × TrackedNodeInstance)
    (hedit : ∀ inst, inst.instance_id = id → inst.awaits_restart → Move R inst (edit inst).2) :
    Turn R e (e.edit_awaiting_restart id edit).2 := by
  rcases edit_awaiting_restart_cases h edit with ⟨l1, inst, l2, hl, hfind, hwaits, heq⟩ | heq
  · rw [heq]
    exact ⟨l, _, h, rfl, hl ▸ .edit l1 inst _ l2 (hedit inst (instance_mut_id hfind) hwaits)⟩
  · rw [heq]
    exact turn_keep h

theorem turn_mark_start_failed {exit : ExitCause}
    (hexit : exit.is_clean = false) (backoff : RestartBackoff) (now system_now : Nat)
    (hright : ∀ inst, inst.instance_id = id → R.fail inst) :
    Turn R e (e.mark_start_failed id exit backoff now system_now).2 :=
  turn_edit_awaiting_restart h _ fun inst hid hwaits =>
    .fail inst exit backoff now system_now hwaits hexit (hright inst hid)

theorem turn_mark_restart_refused : Turn R e (e.mark_restart_refused id).2 :=
  turn_edit_awaiting_restart h _ fun inst _ hwaits => .refuse inst hwaits

theorem turn_record_respawn_log (path : String) : Turn R e (e.record_respawn_log id path).2 :=
  turn_edit_awaiting_restart h _ fun inst _ hwaits => .log inst path hwaits

theorem claim_instance_ready : e.claim_instance id = match e.instance_mut id with
      | none => e
      | some inst => e.set_instance id inst.mark_stopping := by
  cases e
  cases h
  rfl

theorem turn_claim_instance (hright : ∀ inst, R.claim inst) : Turn R e (e.claim_instance id) := by
  rw [claim_instance_ready h]
  split
  · exact turn_keep h
  · rename_i inst hfind
    exact turn_set_instance h hfind (.claim inst (hright inst))

theorem turn_stop_instance : Turn R e (e.stop_instance id).2 := by
  unfold stop_instance
  simp only [instances_mut_ready h]
  split
  · exact turn_keep h
  · rename_i inst hfind
    exact turn_drop h hfind

theorem turn_claim_and_remove_slot
    (hfind : l.find? (has_id id) = some inst) (hstate : inst.state ≠ .Starting) :
    Turn R e (e.claim_and_remove_slot id).2 := by
  obtain ⟨l1, l2, hl, hid, hl1⟩ := find?_split hfind
  have hclaim : e.claim_instance id =
      { e with stage := .Ready (l1 ++ inst.mark_stopping :: l2) } := by
    rw [claim_instance_ready h, instance_mut_ready h, hfind]
    simp only [set_instance, instances_mut_ready h, with_instances_ready h]
    rw [hl, editFirst_split hl1 hid]
  have hstopped : (has_id id inst.mark_stopping && inst.mark_stopping.state ≠ .Starting) = true := by
    rw [Bool.and_eq_true]
    exact ⟨hid, decide_eq_true hstate⟩
  have hnot : ∀ x ∈ l1, ¬ (has_id id x && x.state ≠ .Starting) = true := by
    intro x hx hp
    exact hl1 x hx (Bool.and_eq_true_iff.mp hp).1
  have hmut : ({ e with stage := .Ready (l1 ++ inst.mark_stopping :: l2) } : NodeEntity).instances_mut
      = l1 ++ inst.mark_stopping :: l2 := rfl
  have hstop : (l1 ++ inst.mark_stopping :: l2).find?
      (fun x => has_id id x && x.state ≠ .Starting) = some inst.mark_stopping := by
    rw [find?_append, find?_eq_none.mpr hnot, Option.none_or]
    simp only [find?_cons, hstopped]
  unfold claim_and_remove_slot
  rw [instance_slot_ready h, hfind]
  simp only [hclaim, stop_instance, hmut, hstop]
  rw [eraseP_split hnot hstopped]
  exact ⟨l, l1 ++ l2, h, rfl, hl ▸ .drop l1 inst l2⟩

theorem turn_claim_and_remove (stopped_pid : Option Nat) :
    Turn R e (e.claim_and_remove id stopped_pid).2 := by
  unfold claim_and_remove
  rw [instance_slot_ready h]
  split
  · exact turn_keep h
  rename_i inst hfind
  split
  · exact turn_keep h
  rename_i hstate
  split
  · exact turn_keep h
  · have hturn : Turn R e (e.claim_and_remove_slot id).2 :=
      turn_claim_and_remove_slot h hfind hstate
    split <;> rename_i heq <;> rw [heq] at hturn <;> exact hturn

theorem turn_claim_process (hright : ∀ inst, R.claim inst) :
    Turn R e (e.claim_process id pid).2 := by
  unfold claim_process
  split
  · exact turn_keep h
  · split
    · exact turn_claim_instance h hright
    · exact turn_keep h

theorem turn_claim_starting (hright : ∀ inst, R.claim inst) : Turn R e (e.claim_starting id).2 := by
  unfold claim_starting
  split
  · exact turn_keep h
  split
  · split
    · exact turn_keep h
    · exact turn_claim_instance h hright
  · exact turn_keep h

theorem turn_arm_health_kill (kill : HealthKill) : Turn R e (e.arm_health_kill id kill).2 := by
  unfold arm_health_kill
  split
  · exact turn_keep h
  rename_i inst hfind
  split
  · rename_i hruns
    split
    · exact turn_keep h
    · exact turn_set_instance h hfind (.arm inst kill hruns)
  · exact turn_keep h

theorem turn_edit_process (edit : TrackedNodeInstance → TrackedNodeInstance)
    (hedit : ∀ inst, inst.state = .Running → Move R inst (edit inst)) :
    Turn R e (e.edit_process id pid edit) := by
  unfold edit_process
  split
  · exact turn_keep h
  rename_i inst hfind
  split
  · rename_i hruns
    apply turn_set_instance h hfind
    apply hedit
    simp only [runs_process, Bool.and_eq_true, decide_eq_true_eq] at hruns
    exact hruns.1
  · exact turn_keep h

theorem turn_note_shutdown_request : Turn R e (e.note_shutdown_request id pid) :=
  turn_edit_process h pid _ fun inst hstate => .note inst _ hstate

theorem turn_withdraw_shutdown_request : Turn R e (e.withdraw_shutdown_request id pid) :=
  turn_edit_process h pid _ fun inst hstate => .note inst _ hstate

end

end NodeEntity

end peppy.entity
