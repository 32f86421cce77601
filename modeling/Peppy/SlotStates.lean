-- The rules of the states of a slot, which each move of a slot keeps, so they hold
-- after every history of a node.
import Peppy.SlotMoves
import Peppy.Lib.Runs

open changes runs peppy.node_config peppy.pairing peppy.supervision List

namespace peppy.entity

open NodeEntity

open TrackedNodeInstance

/-! ## The rules of one slot -/

/-- The slot may start again after its last exit. -/
structure Restartable (inst : TrackedNodeInstance) : Prop where
  /-- The policy of the first start restarts the instance after its last
  exit. -/
  policy : ∃ first exit, inst.supervision.first_start = some first ∧
    inst.supervision.last_exit = some exit ∧
    policy_restarts first.restart.policy exit
  no_request : inst.shutdown_requests = 0
  attempt_pos : 1 ≤ inst.supervision.attempt
  attempt_cap : ∀ m, inst.supervision.restart.max_restarts = some m →
    inst.supervision.attempt ≤ m

/-- What a slot has in each state. -/
structure Good (inst : TrackedNodeInstance) : Prop where
  pid_live : inst.pid ≠ none → inst.state = .Starting ∨ inst.state = .Running
  endpoints_running : inst.endpoints ≠ [] → inst.state = .Running
  run_started_running : inst.supervision.run_started ≠ none ↔ inst.state = .Running
  next_start_waits : inst.supervision.next_start ≠ none → inst.state = .Restarting
  health_kill_running : inst.supervision.health_kill ≠ none → inst.state = .Running
  waits : inst.state = .Restarting → Restartable inst
  starts : inst.state = .Starting → 0 < inst.supervision.attempt → Restartable inst

variable {a b inst : TrackedNodeInstance} {exit : ExitCause}

theorem good_of_cleared (hstate : inst.state ≠ .Running)
    (hpid : inst.pid = none ∨ inst.state = .Starting) (hendpoints : inst.endpoints = [])
    (hrun : inst.supervision.run_started = none) (hkill : inst.supervision.health_kill = none)
    (hnext : inst.supervision.next_start ≠ none → inst.state = .Restarting)
    (hwaits : inst.state = .Restarting → Restartable inst)
    (hstarts : inst.state = .Starting → 0 < inst.supervision.attempt → Restartable inst) :
    Good inst where
  pid_live h := Or.inl (hpid.resolve_left h)
  endpoints_running h := absurd hendpoints h
  run_started_running := ⟨fun h => absurd hrun h, fun h => absurd h hstate⟩
  next_start_waits := hnext
  health_kill_running h := absurd hkill h
  waits := hwaits
  starts := hstarts

section
variable {inst : TrackedNodeInstance} (hg : Good inst)
include hg

theorem Good.cleared (h : inst.state ≠ .Running) :
    inst.endpoints = [] ∧ inst.supervision.run_started = none ∧
      inst.supervision.health_kill = none := by
  refine ⟨?_, ?_, ?_⟩
  · by_contra hne
    exact h (hg.endpoints_running hne)
  · by_contra hne
    exact h (hg.run_started_running.mp hne)
  · by_contra hne
    exact h (hg.health_kill_running hne)

theorem Good.no_next (h : inst.state ≠ .Restarting) : inst.supervision.next_start = none := by
  by_contra hne
  exact h (hg.next_start_waits hne)

theorem Good.no_pid (h1 : inst.state ≠ .Starting) (h2 : inst.state ≠ .Running) :
    inst.pid = none := by
  by_contra hne
  rcases hg.pid_live hne with h | h
  · exact h1 h
  · exact h2 h

end

variable {ctx : NodeEntity.StartContext}

theorem good_new_slot {first_start : FirstStart} : Good (NodeEntity.new_slot ctx first_start) := by
  apply good_of_cleared <;> simp [NodeEntity.new_slot]

/-! ## The moves keep the rules -/

theorem state_of_awaits (h : inst.awaits_restart) :
    inst.state = .Restarting ∧ inst.stopping = false := by
  simpa [awaits_restart, is_stopping] using h

theorem state_of_starts_a_restart (h : inst.starts_a_restart) :
    inst.state = .Starting ∧ 0 < inst.supervision.attempt := by
  simpa [starts_a_restart] using h

theorem state_of_runs_unclaimed (h : inst.runs_unclaimed) :
    inst.state = .Running ∧ inst.stopping = false := by
  simpa [runs_unclaimed, is_stopping] using h

variable {pid : Nat}

theorem state_of_runs_unclaimed_process
    (h : inst.runs_unclaimed_process pid) : inst.state = .Running ∧ inst.stopping = false := by
  simp only [runs_unclaimed_process, runs_process, is_stopping, Bool.and_eq_true,
    decide_eq_true_eq, Bool.not_eq_true'] at h
  exact ⟨h.1.1, h.2⟩

theorem Good.congr (hg : Good a) (hpid : b.pid = a.pid)
    (hstate : b.state = a.state) (hend : b.endpoints = a.endpoints)
    (hreq : b.shutdown_requests = a.shutdown_requests) (hsup : b.supervision = { a.supervision with
      restart_token := b.supervision.restart_token }) : Good b := by
  have hr : Restartable a → Restartable b := by
    intro h
    refine ⟨?_, by rw [hreq]; exact h.no_request, ?_, ?_⟩
    · rw [hsup]
      exact h.policy
    · rw [hsup]
      exact h.attempt_pos
    · rw [hsup]
      exact h.attempt_cap
  refine ⟨?_, ?_, ?_, ?_, ?_, ?_, ?_⟩
  · rw [hpid, hstate]
    exact hg.pid_live
  · rw [hend, hstate]
    exact hg.endpoints_running
  · rw [hsup, hstate]
    exact hg.run_started_running
  · rw [hsup, hstate]
    exact hg.next_start_waits
  · rw [hsup, hstate]
    exact hg.health_kill_running
  · rw [hstate]
    exact fun h => hr (hg.waits h)
  · rw [hsup, hstate]
    exact fun h h' => hr (hg.starts h h')

theorem good_take_next_attempt (inst : TrackedNodeInstance)
    (hstate : inst.state = .Restarting) (hpid : inst.pid = none) (hendpoints : inst.endpoints = [])
    (hrun : inst.supervision.run_started = none) (hkill : inst.supervision.health_kill = none)
    (hpolicy : ∃ first exit, inst.supervision.first_start = some first ∧
      inst.supervision.last_exit = some exit ∧ policy_restarts first.restart.policy exit)
    (hrequests : inst.shutdown_requests = 0) (backoff : RestartBackoff) (ran_for : Option Nat)
    (now system_now : Nat) : Good (inst.take_next_attempt backoff ran_for now system_now).2 := by
  have hpos := (next_attempt_range backoff inst.supervision.attempt ran_for).1
  rcases inst.take_next_attempt_cases backoff ran_for now system_now with
    ⟨m, _, _, heq⟩ | ⟨hcap, heq⟩
  · rw [heq]
    apply good_of_cleared <;> simp [hpid, hendpoints, hrun, hkill]
  · rw [heq]
    refine good_of_cleared (by simp [hstate]) (.inl hpid) hendpoints hrun hkill
      (fun _ => hstate) ?_ (by simp [hstate])
    exact fun _ => ⟨hpolicy, hrequests, hpos, hcap⟩

theorem first_start_of_restarts {s : Supervision} (h : policy_restarts s.restart.policy exit) :
    ∃ first, s.first_start = some first ∧ policy_restarts first.restart.policy exit := by
  cases hfirst : s.first_start with
  | none =>
    simp [Supervision.restart, hfirst, policy_restarts,
      RestartPolicy.restarts_after_clean_exit, RestartPolicy.restarts_after_failure] at h
  | some first => exact ⟨first, rfl, by simpa [Supervision.restart, hfirst] using h⟩

theorem good_exit (hg : Good inst) (hstate : inst.state = .Running)
    (cause : ExitCause) (backoff : RestartBackoff) (now system_now : Nat)
    (registrations : Registrations) :
    Good (inst.record_exit cause backoff now system_now registrations).2 := by
  by_cases hagain : inst.restartsAgain cause
  · rw [record_exit_restarts hagain]
    obtain ⟨first, hfirst, hpolicy⟩ := first_start_of_restarts hagain.1
    exact good_take_next_attempt (inst.ended _ _ _ _) rfl rfl rfl rfl rfl
      ⟨first, _, hfirst, rfl, hpolicy⟩ hagain.2 backoff _ now system_now
  · rw [record_exit_ends hagain]
    have hnext := hg.no_next (by simp [hstate])
    apply good_of_cleared <;> simp only [ended]
    all_goals split <;> simp [hnext]

theorem policy_restarts_failure {policy : RestartPolicy} {exit' : ExitCause}
    (hexit' : exit'.is_clean = false) (h : policy_restarts policy exit) :
    policy_restarts policy exit' := by
  cases policy <;>
    simp_all [policy_restarts, RestartPolicy.restarts_after_clean_exit,
      RestartPolicy.restarts_after_failure]

theorem good_fail (hg : Good inst) (h : inst.awaits_restart)
    (hexit : exit.is_clean = false) (backoff : RestartBackoff)
    (now system_now : Nat) : Good (inst.startFailed exit backoff now system_now).2 := by
  have hstate := (state_of_awaits h).1
  obtain ⟨hendpoints, hrun, hkill⟩ := hg.cleared (by simp [hstate])
  have hpid := hg.no_pid (by simp [hstate]) (by simp [hstate])
  have hwaits := hg.waits hstate
  obtain ⟨first, last, hfirst, _, hpolicy⟩ := hwaits.policy
  exact good_take_next_attempt
    { inst with supervision := { inst.supervision with last_exit := some exit } }
    hstate hpid hendpoints hrun hkill
    ⟨first, exit, hfirst, rfl, policy_restarts_failure hexit hpolicy⟩ hwaits.no_request backoff _
    now system_now

theorem Restartable.of_waiting (h : Restartable a)
    (hfirst : b.supervision.first_start = a.supervision.first_start)
    (hexit : b.supervision.last_exit = a.supervision.last_exit)
    (hattempt : b.supervision.attempt = a.supervision.attempt)
    (hreq : b.shutdown_requests = a.shutdown_requests) : Restartable b := by
  have hrestart : b.supervision.restart = a.supervision.restart := by
    simp [Supervision.restart, hfirst]
  refine ⟨?_, by rw [hreq]; exact h.no_request, by rw [hattempt]; exact h.attempt_pos, ?_⟩
  · rw [hfirst, hexit]
    exact h.policy
  · rw [hrestart, hattempt]
    exact h.attempt_cap

theorem good_respawn (hg : Good inst) (h : inst.awaits_restart)
    {incarnation : Nat} : Good (inst.begin_respawn incarnation) := by
  have hstate := (state_of_awaits h).1
  obtain ⟨_, hrun, hkill⟩ := hg.cleared (by simp [hstate])
  have hwaits := (hg.waits hstate).of_waiting (b := inst.begin_respawn incarnation) rfl rfl rfl rfl
  refine good_of_cleared ?_ (.inl rfl) rfl hrun hkill ?_ ?_ (fun _ _ => hwaits) <;>
    simp [begin_respawn]

theorem good_revert (hg : Good inst) (h : inst.starts_a_restart) : Good inst.revert_respawn := by
  obtain ⟨hstate, hattempt⟩ := state_of_starts_a_restart h
  obtain ⟨hendpoints, hrun, hkill⟩ := hg.cleared (by simp [hstate])
  have hstarts := (hg.starts hstate hattempt).of_waiting (b := inst.revert_respawn) rfl rfl rfl rfl
  refine good_of_cleared ?_ (.inl rfl) hendpoints hrun hkill (fun _ => rfl) (fun _ => hstarts)
    ?_ <;> simp [revert_respawn]

theorem good_commit (hg : Good inst) (hstate : inst.state = .Starting)
    {instance_dir : String} {endpoints : List InstanceEndpoint} {now system_now : Nat} :
    Good (inst.committed instance_dir endpoints now system_now) := by
  have hnext := hg.no_next (by simp [hstate])
  have hstate' : (inst.committed instance_dir endpoints now system_now).state = .Running := rfl
  have hnext' : (inst.committed instance_dir endpoints now system_now).supervision.next_start
      = none := by
    simp only [committed, record_running]
    split <;> exact hnext
  have hrun : (inst.committed instance_dir endpoints now system_now).supervision.run_started
      ≠ none := by
    simp only [committed, record_running]
    split <;> simp
  refine ⟨fun _ => Or.inr hstate', fun _ => hstate', ⟨fun _ => hstate', fun _ => hrun⟩,
    fun h => absurd hnext' h, fun _ => hstate', ?_, ?_⟩
  · rw [hstate']
    simp
  · rw [hstate']
    simp

variable {R : Rights}

theorem good_move (hg : Good a) (h : Move R a b) : Good b := by
  cases h with
  | respawn incarnation h _ => exact good_respawn hg h
  | fork pid files hstate _ =>
    obtain ⟨hendpoints, hrun, hkill⟩ := hg.cleared (by simp [hstate])
    have hstarts : 0 < a.supervision.attempt → Restartable (a.set_starting_process pid files) :=
      fun h => (hg.starts hstate h).of_waiting rfl rfl rfl rfl
    refine good_of_cleared ?_ (.inr hstate) hendpoints hrun hkill ?_ ?_ (fun _ => hstarts)
    · simp [set_starting_process, hstate]
    · exact hg.next_start_waits
    · simp [set_starting_process, hstate]
  | revert h _ => exact good_revert hg h
  | commit dir endpoints now system_now hstate _ =>
    exact good_commit hg hstate
  | exit pid cause backoff now system_now registrations h _ =>
    exact good_exit hg (state_of_runs_unclaimed_process h).1 cause backoff now system_now
      registrations
  | fail exit backoff now system_now h hexit _ =>
    exact good_fail hg h hexit backoff now system_now
  | refuse h =>
    have hstate := (state_of_awaits h).1
    obtain ⟨hendpoints, hrun, hkill⟩ := hg.cleared (by simp [hstate])
    have hpid := hg.no_pid (by simp [hstate]) (by simp [hstate])
    apply good_of_cleared <;>
      simp [restartRefused, hpid, hendpoints, hrun, hkill]
  | arm kill h =>
    have hstate := (state_of_runs_unclaimed h).1
    have hstate' : (a.armed kill).state = .Running := hstate
    refine ⟨hg.pid_live, hg.endpoints_running, hg.run_started_running, hg.next_start_waits,
      fun _ => hstate', ?_, ?_⟩ <;> simp [hstate']
  | note requests hstate =>
    refine ⟨hg.pid_live, hg.endpoints_running, hg.run_started_running, hg.next_start_waits,
      hg.health_kill_running, ?_, ?_⟩ <;> simp [hstate]
  | _ => exact hg.congr rfl rfl rfl rfl rfl

/-! ## The histories of a node -/

/-- The operations on the slots of a node, each one section under its lock. -/
inductive SlotOp where
  | register_start (ctx : NodeEntity.StartContext)
  | fork_start (id : Name) (spawned : Except String Nat) (spawn_files : SpawnFiles)
  | commit_starting_instance (start_generation : Nat) (id : Name) (instance_dir : String)
      (endpoints : List InstanceEndpoint) (now system_now : Nat)
  | undo_start (id : Name)
  | undo_abandoned_start (id : Name) (run : StartRun)
  | abort_started (start_generation : Nat) (id : Name)
  | mark_instance_exited (id : Name) (pid : Nat) (cause : ExitCause) (backoff : RestartBackoff)
      (now system_now : Nat) (registrations : Registrations)
  | mark_start_failed (id : Name) (reason : String) (backoff : RestartBackoff)
      (now system_now : Nat)
  | mark_restart_refused (id : Name)
  | record_respawn_log (id : Name) (path : String)
  | claim_instance (id : Name)
  | claim_process (id : Name) (pid : Nat)
  | claim_starting (id : Name)
  | stop_instance (id : Name)
  | claim_and_remove (id : Name) (stopped_pid : Option Nat)
  | arm_health_kill (id : Name) (kill : HealthKill)
  | note_shutdown_request (id : Name) (pid : Nat)
  | withdraw_shutdown_request (id : Name) (pid : Nat)

/-- The node after the operation. The supervisor gives a failed start as a
message. -/
def SlotOp.perform (e : NodeEntity) : SlotOp → NodeEntity
  | .register_start ctx => (e.register_start ctx).2
  | .fork_start id spawned spawn_files => (e.fork_start id spawned spawn_files).2
  | .commit_starting_instance start_generation id instance_dir endpoints now system_now =>
    (e.commit_starting_instance start_generation id instance_dir endpoints now system_now).2
  | .undo_start id => e.undo_start id
  | .undo_abandoned_start id run => (e.undo_abandoned_start id run).2
  | .abort_started start_generation id => e.abort_started start_generation id
  | .mark_instance_exited id pid cause backoff now system_now registrations =>
    (e.mark_instance_exited id pid cause backoff now system_now registrations).2
  | .mark_start_failed id reason backoff now system_now =>
    (e.mark_start_failed id (.Message reason) backoff now system_now).2
  | .mark_restart_refused id => (e.mark_restart_refused id).2
  | .record_respawn_log id path => (e.record_respawn_log id path).2
  | .claim_instance id => e.claim_instance id
  | .claim_process id pid => (e.claim_process id pid).2
  | .claim_starting id => (e.claim_starting id).2
  | .stop_instance id => (e.stop_instance id).2
  | .claim_and_remove id stopped_pid => (e.claim_and_remove id stopped_pid).2
  | .arm_health_kill id kill => (e.arm_health_kill id kill).2
  | .note_shutdown_request id pid => e.note_shutdown_request id pid
  | .withdraw_shutdown_request id pid => e.withdraw_shutdown_request id pid

structure History where
  node : NodeEntity
  drawn : List Nat := []
  respawned : List Nat := []

def History.new (config : NodeConfig) (generation : Nat) : History :=
  { node := built_in config generation }

def History.step (s : History) (op : SlotOp) : Option History :=
  match op with
  | .register_start ctx =>
    match ctx.spawn with
    | .New _ =>
      if ctx.cell ∈ s.drawn then none
      else some { s with node := op.perform s.node, drawn := ctx.cell :: s.drawn }
    | .Respawn =>
      some { s with
        node := op.perform s.node
        respawned := ((s.node.respawnSlot ctx).map (·.cell)).toList ++ s.respawned }
  | _ => some { s with node := op.perform s.node }

/-- The slot has not been restarted. -/
def History.StartsFirst (s : History) (inst : TrackedNodeInstance) : Prop :=
  inst.cell ∉ s.respawned

/-- The rules of the slots, over their history. -/
structure History.Kept (s : History) : Prop where
  ready : ∃ l, s.node.stage = .Ready l
  good : ∀ inst ∈ s.node.instances, Good inst
  cells : (s.node.instances.map (·.cell)).Nodup
  drawn : ∀ inst ∈ s.node.instances, inst.cell ∈ s.drawn
  respawned : ∀ cell ∈ s.respawned, cell ∈ s.drawn
  first : ∀ inst ∈ s.node.instances, inst.state = .Starting →
    (inst.supervision.attempt = 0 ↔ s.StartsFirst inst)

def noRespawn : Rights where
  commit _ := True
  exit _ := True
  fail _ := True
  claim _ := True

variable {l : List TrackedNodeInstance} {s s' : History}

theorem turn_perform (h : s.node.stage = .Ready l)
    {op : SlotOp} (hop : ∀ ctx, op ≠ .register_start ctx) :
    Turn noRespawn s.node (op.perform s.node) := by
  cases op with
  | register_start ctx => exact absurd rfl (hop ctx)
  | fork_start => exact turn_fork_start h _ _
  | commit_starting_instance => exact turn_commit h _ _ _ _ _ fun _ _ => trivial
  | undo_start => exact turn_undo_start h
  | undo_abandoned_start => exact turn_undo_abandoned_start h _
  | abort_started => exact turn_abort_started h _
  | mark_instance_exited =>
    exact turn_mark_instance_exited h _ _ _ _ _ _ fun _ _ => trivial
  | mark_start_failed =>
    exact turn_mark_start_failed h rfl _ _ _ fun _ _ => trivial
  | mark_restart_refused => exact turn_mark_restart_refused h
  | record_respawn_log => exact turn_record_respawn_log h _
  | claim_instance => exact turn_claim_instance h fun _ => trivial
  | claim_process => exact turn_claim_process h _ fun _ => trivial
  | claim_starting => exact turn_claim_starting h fun _ => trivial
  | stop_instance => exact turn_stop_instance h
  | claim_and_remove => exact turn_claim_and_remove h _
  | arm_health_kill => exact turn_arm_health_kill h _
  | note_shutdown_request => exact turn_note_shutdown_request h _
  | withdraw_shutdown_request => exact turn_withdraw_shutdown_request h _

theorem record_exit_state (inst : TrackedNodeInstance) (cause : ExitCause)
    (backoff : RestartBackoff) (now system_now : Nat) (registrations : Registrations) :
    (inst.record_exit cause backoff now system_now registrations).2.state.has_process = false := by
  by_cases hagain : inst.restartsAgain cause
  · rw [record_exit_restarts hagain]
    rcases take_next_attempt_cases (inst.ended .Restarting
      (recorded_exit inst.supervision cause) inst.supervision.attempt
      registrations) backoff (ran_for inst.supervision now) now system_now with
      ⟨m, _, _, heq⟩ | ⟨_, heq⟩
    · rw [heq]
      rfl
    · rw [heq]
      rfl
  · rw [record_exit_ends hagain]
    simp only [ended]
    split <;> rfl

variable {inst : TrackedNodeInstance}

theorem startFailed_state (h : inst.awaits_restart)
    (exit : ExitCause) (backoff : RestartBackoff) (now system_now : Nat) :
    (inst.startFailed exit backoff now system_now).2.state.has_process = false := by
  unfold startFailed
  rcases take_next_attempt_cases
    { inst with supervision := { inst.supervision with last_exit := some exit } } backoff none now
    system_now with ⟨m, _, _, heq⟩ | ⟨_, heq⟩
  · rw [heq]
    rfl
  · rw [heq]
    simp [(state_of_awaits h).1, InstanceState.has_process]

theorem starting_of_move {a b : TrackedNodeInstance} (h : Move R a b)
    (hno : ¬ R.respawn a) (hb : b.state = .Starting) :
    a.state = .Starting ∧ b.supervision.attempt = a.supervision.attempt := by
  cases h with
  | respawn _ _ right => exact absurd right hno
  | exit pid cause backoff now system_now registrations =>
    have := record_exit_state a cause backoff now system_now registrations
    simp [hb, InstanceState.has_process] at this
  | fail exit backoff now system_now h =>
    have := startFailed_state h exit backoff now system_now
    simp [hb, InstanceState.has_process] at this
  | commit => cases hb
  | revert => cases hb
  | refuse => cases hb
  | _ => exact ⟨hb, rfl⟩

theorem History.Kept.turn (hs : s.Kept) {e : NodeEntity}
    (h : Turn noRespawn s.node e) : Kept { s with node := e } := by
  obtain ⟨l, l', hl, rfl, hchange⟩ := h
  have hinst := instances_ready hl
  have hnew : ∀ a, ¬ NewSlot noRespawn l a := by
    rintro a ⟨_, _, _, hdraw, _⟩
    exact hdraw
  have hcell : ∀ a b, Move noRespawn a b → b.cell = a.cell := fun a b h => h.ids.2
  refine ⟨⟨l', rfl⟩, ?_, ?_, ?_, hs.respawned, ?_⟩
  · exact hchange.forall (hinst ▸ hs.good) (fun a ha => absurd ha (hnew a))
      fun a b ha hab => good_move ha hab
  · exact hchange.nodup (hinst ▸ hs.cells) (fun a ha => absurd ha (hnew a)) hcell
  · exact hchange.forall (P := fun inst => inst.cell ∈ s.drawn) (hinst ▸ hs.drawn)
      (fun a ha => absurd ha (hnew a)) fun a b ha hab => by rw [hcell a b hab]; exact ha
  refine hchange.forall (P := fun inst => inst.state = .Starting →
    (inst.supervision.attempt = 0 ↔ s.StartsFirst inst)) (hinst ▸ hs.first)
    (fun a ha => absurd ha (hnew a)) ?_
  intro a b ha hab hb
  obtain ⟨hstate, hattempt⟩ := starting_of_move hab id hb
  rw [hattempt, StartsFirst, hcell a b hab]
  exact ha hstate

theorem History.Kept.new_slot (hs : s.Kept)
    (hl : s.node.stage = .Ready l) (ctx : NodeEntity.StartContext) (first_start : FirstStart)
    (hcell : ctx.cell ∉ s.drawn) : Kept { s with
      node := { s.node with stage := .Ready (l ++ [NodeEntity.new_slot ctx first_start]) }
      drawn := ctx.cell :: s.drawn } := by
  have hinst := instances_ready hl
  have hchange : Change (fun _ a => a = NodeEntity.new_slot ctx first_start) (fun _ _ => False) l
      (l ++ [NodeEntity.new_slot ctx first_start]) := .add l _ rfl
  have hdrawn : ∀ inst ∈ l, inst.cell ∈ s.drawn := hinst ▸ hs.drawn
  refine ⟨⟨_, rfl⟩, ?_, ?_, ?_, ?_, ?_⟩
  · exact hchange.forall (hinst ▸ hs.good) (fun a ha => ha ▸ good_new_slot)
      fun _ _ _ h => h.elim
  · refine hchange.nodup (hinst ▸ hs.cells) ?_ fun _ _ h => h.elim
    intro a ha hmem
    obtain ⟨inst, hin, heq⟩ := mem_map.mp hmem
    subst ha
    have hold := hdrawn inst hin
    rw [heq] at hold
    exact hcell hold
  · exact hchange.forall (P := fun inst => inst.cell ∈ ctx.cell :: s.drawn)
      (fun inst hin => mem_cons_of_mem _ (hdrawn inst hin))
      (fun a ha => ha ▸ mem_cons_self) fun _ _ _ h => h.elim
  · exact fun c hc => mem_cons_of_mem _ (hs.respawned c hc)
  refine hchange.forall (P := fun inst => inst.state = .Starting →
    (inst.supervision.attempt = 0 ↔ s.StartsFirst inst)) (hinst ▸ hs.first) ?_
    fun _ _ _ h => h.elim
  rintro _ rfl _
  exact iff_of_true rfl fun hc => hcell (hs.respawned _ hc)

theorem History.Kept.respawn (hs : s.Kept) {l1 l2 : List TrackedNodeInstance}
    (hl : s.node.stage = .Ready (l1 ++ inst :: l2))
    (hwaits : inst.awaits_restart) (incarnation : Nat) : Kept { s with
      node := { s.node with stage := .Ready (l1 ++ inst.begin_respawn incarnation :: l2) }
      respawned := inst.cell :: s.respawned } := by
  have hinst := instances_ready hl
  have hin : inst ∈ s.node.instances := by rw [hinst]; simp
  have hchange : Change (fun _ _ => False)
      (fun a b => a = inst ∧ b = inst.begin_respawn incarnation) (l1 ++ inst :: l2)
      (l1 ++ inst.begin_respawn incarnation :: l2) := .edit l1 inst _ l2 ⟨rfl, rfl⟩
  have hcell : ∀ a b, a = inst ∧ b = inst.begin_respawn incarnation → b.cell = a.cell := by
    rintro a b ⟨rfl, rfl⟩
    rfl
  refine ⟨⟨_, rfl⟩, ?_, ?_, ?_, ?_, ?_⟩
  · refine hchange.forall (hinst ▸ hs.good) (fun _ h => h.elim) ?_
    rintro a b ha ⟨rfl, rfl⟩
    exact good_respawn ha hwaits
  · exact hchange.nodup (hinst ▸ hs.cells) (fun _ h => h.elim) hcell
  · exact hchange.forall (P := fun x => x.cell ∈ s.drawn) (hinst ▸ hs.drawn) (fun _ h => h.elim)
      fun a b ha hab => by rw [hcell a b hab]; exact ha
  · intro c hc
    rcases mem_cons.mp hc with rfl | hc
    · exact hs.drawn inst hin
    · exact hs.respawned c hc
  · intro x hx hstate
    rcases hchange.mem hx with h | ⟨a, ha, rfl | ⟨rfl, rfl⟩⟩
    · exact h.elim
    · -- Another slot that starts has another cell, since this one waited.
      have hne : a.cell ≠ inst.cell := by
        intro heq
        rw [← hinst] at ha
        have := inj_on_of_nodup_map hs.cells ha hin heq
        rw [this, (state_of_awaits hwaits).1] at hstate
        cases hstate
      rw [hs.first a (hinst ▸ ha) hstate, StartsFirst, StartsFirst, mem_cons, not_or]
      exact ⟨fun hc => ⟨hne, hc⟩, fun hc => hc.2⟩
    · have hpos := ((hs.good a hin).waits (state_of_awaits hwaits).1).attempt_pos
      refine iff_of_false ?_ fun hc => hc mem_cons_self
      show a.supervision.attempt ≠ 0
      omega

theorem History.Kept.register (hs : s.Kept)
    (hl : s.node.stage = .Ready l) (h : s.step (.register_start ctx) = some s') : s'.Kept := by
  simp only [History.step, SlotOp.perform] at h
  rcases register_start_cases hl ctx with
    ⟨first_start, hspawn, _, heq⟩ | ⟨l1, inst, l2, hspawn, hl', _, hwaits, hslot, heq⟩ |
    ⟨hnone, error, heq⟩
  · simp only [hspawn, heq] at h
    split at h
    · cases h
    · rename_i hcell
      cases h
      exact hs.new_slot hl ctx first_start hcell
  · simp only [hspawn, heq, hslot] at h
    cases h
    subst hl'
    exact hs.respawn hl hwaits ctx.incarnation
  · cases hspawn : ctx.spawn with
    | New first_start =>
      simp only [hspawn, heq] at h
      split at h
      · cases h
      · cases h
        exact ⟨hs.ready, hs.good, hs.cells,
          fun inst hinst => mem_cons_of_mem _ (hs.drawn inst hinst),
          fun c hc => mem_cons_of_mem _ (hs.respawned c hc), hs.first⟩
    | Respawn =>
      simp only [hspawn, heq, hnone hspawn] at h
      cases h
      exact hs

theorem History.Kept.step {op : SlotOp} (hs : s.Kept) (h : s.step op = some s') : s'.Kept := by
  obtain ⟨l, hl⟩ := hs.ready
  by_cases hop : ∀ ctx, op ≠ .register_start ctx
  · have hstep : s.step op = some { s with node := op.perform s.node } := by
      cases op with
      | register_start ctx => exact absurd rfl (hop ctx)
      | _ => rfl
    rw [hstep] at h
    cases h
    exact hs.turn (turn_perform hl hop)
  · push Not at hop
    obtain ⟨ctx, rfl⟩ := hop
    exact hs.register hl h

theorem History.Kept.init (config : NodeConfig) (generation : Nat) :
    (History.new config generation).Kept where
  ready := ⟨[], rfl⟩
  good := by simp [History.new, built_in, NodeEntity.instances]
  cells := nodup_nil
  drawn := by simp [History.new, built_in, NodeEntity.instances]
  respawned := by simp [History.new]
  first := by simp [History.new, built_in, NodeEntity.instances]

theorem History.Kept.run {ops : List SlotOp} (hs : s.Kept)
    (h : run History.step s ops = some s') : s'.Kept :=
  run_keeps (fun _ _ _ hs hstep => hs.step hstep) hs h

/-! ## The law of the states -/

/-- After every history of a ready node, each slot keeps the rules of its state, and one
that starts is at its first start exactly while it made no attempt. -/
theorem every_slot_keeps_the_rules_of_its_state (config : NodeConfig) (generation : Nat)
    (ops : List SlotOp) (s : History)
    (h : run History.step (History.new config generation) ops = some s) : ∀ inst ∈ s.node.instances,
      Good inst ∧
        (inst.state = .Starting → (s.StartsFirst inst ↔ inst.supervision.attempt = 0)) := by
  intro inst hinst
  have hs := (History.Kept.init config generation).run h
  exact ⟨hs.good inst hinst, fun hstate => (hs.first inst hinst hstate).symm⟩

/-! ## A history of an arm that fails twice -/

def armNode : NodeConfig :=
  { manifest := { name := .arm, tag := "v1" } }

def armId : Name := .arm_1

def armStart (spawn : SpawnTarget) (incarnation : Nat) : NodeEntity.StartContext where
  instance_id := armId
  spawn
  core_node := "core"
  copy := none
  run_log_path := "run.log"
  incarnation
  cell := 7

def armPolicy : FirstStart :=
  { restart := { policy := .OnFailure, max_restarts := some 3, cap_range := by decide }, goal := 0 }

def armBackoff : RestartBackoff := ⟨1, 60, 300⟩

def armHistory : List SlotOp :=
  [.register_start (armStart (.New armPolicy) 1),
    .fork_start armId (.ok 41) ⟨"a.json5", "a.key"⟩,
    .commit_starting_instance 0 armId "dir" [⟨"page", .Page, ["http://arm"]⟩] 10 10,
    .note_shutdown_request armId 41,
    .withdraw_shutdown_request armId 41,
    .arm_health_kill armId ⟨5, some 12⟩,
    .mark_instance_exited armId 41 (.Code 1) armBackoff 20 20 {},
    .register_start (armStart .Respawn 2),
    .fork_start armId (.ok 42) ⟨"b.json5", "b.key"⟩,
    .undo_start armId,
    .mark_start_failed armId "no answer" armBackoff 30 30]

/-- The arm waits for its second attempt, and the law holds of its slot. -/
theorem the_rules_of_an_arm_that_failed_twice :
    ∃ s inst, run History.step (History.new armNode 0) armHistory = some s ∧
      s.node.instances = [inst] ∧ inst.state = .Restarting ∧ inst.supervision.attempt = 2 ∧
      s.respawned = [7] ∧ Good inst := by
  obtain ⟨s, hs⟩ : ∃ s, run History.step (History.new armNode 0) armHistory = some s :=
    ⟨_, rfl⟩
  have hlaw := every_slot_keeps_the_rules_of_its_state armNode 0 armHistory s hs
  cases hs
  exact ⟨_, _, rfl, rfl, rfl, rfl, rfl, (hlaw _ mem_cons_self).1⟩

end peppy.entity
