-- A ready node with the tasks that act on it. Each action is one section under the
-- lock of the node, but the claims of the stop paths share the lock and are cut into
-- their atomic steps.
import Peppy.SlotMoves
import Peppy.Lib.Runs

open changes runs peppy.node_config peppy.pairing peppy.supervision peppy.entity List

namespace peppy.supervisor

open NodeEntity

/-! ## The tasks -/

inductive StartPhase where
  /-- `restart_task` waits for its time and for its admission. -/
  | Waiting
  /-- `respawn_inputs_of` read what the respawn starts from. -/
  | Inputs (run : StartRun)
  /-- Phase 1 of `prepare_and_spawn` passed. -/
  | Registered (run : StartRun) (generation : Nat)
  /-- The process is forked, and the run holds its `StartedInstanceCtx`. -/
  | Forked (run : StartRun) (generation : Nat)
  /-- The start failed, and `undo_start` comes next. -/
  | Undoing
  /-- The run of a restart answered `StartFailed`. -/
  | StartFailed

/-- A run that starts the process of `cell`, by a restart or a `node run`. -/
structure StartTask where
  id : Name
  cell : Nat
  restart : Bool
  phase : StartPhase

/-- The task has a process. -/
def StartTask.HasForked (task : StartTask) : Prop :=
  ∃ run generation, task.phase = .Forked run generation

inductive ClaimCall where
  | Instance
  | Process (pid : Nat)
  | Starting
  deriving DecidableEq

inductive ClaimPhase where
  /-- The call found its slot and swaps the flag next. -/
  | Entered
  /-- The call swapped the flag and cancels the token next. `won` is that it
  set the flag. -/
  | Swapped (won : Bool)
  deriving DecidableEq

/-- A claim that holds the lock to read. -/
structure Claim where
  call : ClaimCall
  id : Name
  cell : Nat
  phase : ClaimPhase

inductive ClaimResult where
  | Instance
  | Process (result : ProcessClaim)
  | Starting (result : StartingClaim)

def ClaimCall.result (call : ClaimCall) (won : Bool) (inst : TrackedNodeInstance) : ClaimResult :=
  match call with
  | .Instance => .Instance
  | .Process _ => .Process (if won then .Claimed else .ClaimedElsewhere)
  | .Starting =>
    .Starting
      (if won then .Claimed (KeptRelations.of inst.supervision) else .ClaimedElsewhere)

def ClaimResult.isClaimed : ClaimResult → Bool
  | .Process .Claimed => true
  | .Starting (.Claimed _) => true
  | _ => false

structure Answer where
  call : ClaimCall
  cell : Nat
  won : Bool
  result : ClaimResult

/-- The node with its tasks. The last three fields record starts, forks and restarts. -/
structure Supervised where
  node : NodeEntity
  starts : List StartTask := []
  claims : List Claim := []
  answers : List Answer := []
  drawn : List Nat := []
  forks : List Nat := []
  begun : Nat → Nat := fun _ => 0

def Supervised.new (config : NodeConfig) (generation : Nat) : Supervised :=
  { node := built_in config generation }

namespace Supervised

def updateTask (starts : List StartTask) (i : Nat) (task : StartTask)
    (phase : Option StartPhase) : List StartTask :=
  match phase with
  | none => starts.eraseIdx i
  | some phase => starts.set i { task with phase }

variable (e : NodeEntity) (s : Supervised)

def setTask (i : Nat) (task : StartTask) (phase : Option StartPhase) : Supervised :=
  { s with starts := updateTask s.starts i task phase }

/-- A start that did not reach running. Only a restart has a next attempt. -/
def failedPhase (task : StartTask) : Option StartPhase :=
  if task.restart then some .StartFailed else none

/-! ## The actions of a run -/

inductive RunAct where
  | Read
  | Log (path : String)
  | Refuse
  | GiveUp
  | Begin (ctx : NodeEntity.StartContext)
  | Fork (spawned : Except String Nat) (spawn_files : SpawnFiles)
  | Fail
  | Undo
  | Abort
  | Panic
  | Commit (instance_dir : String) (endpoints : List InstanceEndpoint) (now system_now : Nat)
  | MarkFailed (reason : String) (backoff : RestartBackoff) (now system_now : Nat)
  | End

def respawn_inputs_of (id : Name) : Option StartRun :=
  match e.instance_slot id with
  | none => none
  | some inst =>
    if inst.awaits_restart then
      inst.supervision.first_start.map fun first =>
        .Respawn first.goal inst.supervision.restart_count
    else none

/-- The run panicked. `undo_abandoned_start` finds what to undo. -/
def panicPhase (task : StartTask) (run : StartRun) : Option StartPhase :=
  let (starts_for_run, awaits_its_restart) := s.node.abandoned_start task.id run
  if starts_for_run then some .Undoing
  else if awaits_its_restart then failedPhase task
  else none

def runStep (i : Nat) (task : StartTask) (act : RunAct) : Option Supervised :=
  match act, task.phase with
  | .Read, .Waiting =>
    some (s.setTask i task ((respawn_inputs_of s.node task.id).map .Inputs))
  | .Log path, .Inputs _ => some { s with node := (s.node.record_respawn_log task.id path).2 }
  | .Refuse, .Inputs _ =>
    some ({ s with node := (s.node.mark_restart_refused task.id).2 }.setTask i task none)
  | .GiveUp, .Inputs _ => some (s.setTask i task (failedPhase task))
  | .Begin ctx, .Inputs run =>
    match ctx.spawn with
    | .New _ => none
    | .Respawn =>
      if ctx.instance_id ≠ task.id then none
      else
        match s.node.register_start ctx, s.node.respawnSlot ctx with
        | (.ok generation, node), some inst =>
          some ({ s with
            node
            begun := Function.update s.begun inst.cell (s.begun inst.cell + 1) }.setTask i task
              (some (.Registered run generation)))
        | (.ok _, _), none => none
        | (.error _, _), _ => some (s.setTask i task none)
  | .Fork spawned spawn_files, .Registered run generation =>
    match s.node.fork_start task.id spawned spawn_files with
    | (.ok _, node) =>
      some ({ s with
        node
        forks := ((s.node.instance_slot task.id).map TrackedNodeInstance.cell).toList ++ s.forks }.setTask i task
          (some (.Forked run generation)))
    | (.error _, _) => some (s.setTask i task (some .Undoing))
  | .Fail, .Registered _ _ => some (s.setTask i task (some .Undoing))
  | .Undo, .Undoing =>
    some ({ s with node := s.node.undo_start task.id }.setTask i task (failedPhase task))
  | .Abort, .Forked _ generation =>
    some ({ s with node := s.node.abort_started generation task.id }.setTask i task
      (failedPhase task))
  | .Panic, .Inputs run => some (s.setTask i task (s.panicPhase task run))
  | .Panic, .Registered run _ => some (s.setTask i task (s.panicPhase task run))
  | .Panic, .Forked run _ => some (s.setTask i task (s.panicPhase task run))
  | .Commit instance_dir endpoints now system_now, .Forked _ generation =>
    match s.node.commit_starting_instance generation task.id instance_dir endpoints now
        system_now with
    | (.ok _, node) => some ({ s with node }.setTask i task none)
    | (.error _, _) => some (s.setTask i task (failedPhase task))
  | .MarkFailed reason backoff now system_now, .StartFailed =>
    match s.node.mark_start_failed task.id (.Message reason) backoff now system_now with
    | (some (.Scheduled ..), node) =>
      some ({ s with node }.setTask i task (some .Waiting))
    | (_, node) => some ({ s with node }.setTask i task none)
  | .End, _ => some (s.setTask i task none)
  | _, _ => none

/-! ## The claims -/

def claimSlot (call : ClaimCall) (id : Name) : Option TrackedNodeInstance :=
  (e.instance_slot id).filter fun inst =>
    match call with
    | .Instance => true
    | .Process pid => inst.runs_process pid
    | .Starting => inst.state = .Starting && (inst.is_stopping || inst.starts_a_restart)

/-- The two halves of `claim_once`: the swap of the flag and the cancel of
the token. -/
def swapped (inst : TrackedNodeInstance) : TrackedNodeInstance :=
  { inst with stopping := true }

def cancelled (inst : TrackedNodeInstance) : TrackedNodeInstance :=
  { inst with supervision := { inst.supervision with restart_token := true } }

def editSlot (id : Name) (edit : TrackedNodeInstance → TrackedNodeInstance) : NodeEntity :=
  match e.instance_mut id with
  | none => e
  | some inst => e.set_instance id (edit inst)

def claimStep (i : Nat) (claim : Claim) : Option Supervised :=
  match s.node.instance_slot claim.id with
  | none => none
  | some inst =>
    match claim.phase with
    | .Entered =>
      some { s with
        node := editSlot s.node claim.id swapped
        claims := s.claims.set i { claim with phase := .Swapped (!inst.stopping) } }
    | .Swapped won =>
      some { s with
        node := editSlot s.node claim.id cancelled
        claims := s.claims.eraseIdx i
        answers := ⟨claim.call, claim.cell, won, claim.call.result won inst⟩ :: s.answers }

/-! ## The steps -/

inductive Action where
  | FirstStart (ctx : NodeEntity.StartContext)
  | Run (i : Nat) (act : RunAct)
  | Exit (id : Name) (pid : Nat) (cause : ExitCause) (backoff : RestartBackoff)
      (now system_now : Nat) (registrations : Registrations)
  | Enter (call : ClaimCall) (id : Name)
  | Claim (i : Nat)
  | Remove (id : Name) (stopped_pid : Option Nat)
  | Stop (id : Name)
  | Arm (id : Name) (kill : HealthKill)
  | Note (id : Name) (pid : Nat)
  | Withdraw (id : Name) (pid : Nat)

/-- The action takes the lock of the node to write. -/
def Action.writes : Action → Bool
  | .Run _ .Read | .Run _ .GiveUp | .Run _ .Fail | .Run _ .Panic | .Run _ .End => false
  | .Enter .. | .Claim _ => false
  | _ => true

def Action.ofTask : Action → Bool
  | .FirstStart _ | .Run .. | .Exit .. => true
  | _ => false

def exitStep (id : Name) (pid : Nat) (cause : ExitCause)
    (backoff : RestartBackoff) (now system_now : Nat) (registrations : Registrations) :
    Supervised :=
  match s.node.instance_mut id,
      s.node.mark_instance_exited id pid cause backoff now system_now registrations with
  | some inst, (some record, node) =>
    let s' : Supervised :=
      { s with
        node
        begun :=
          if backoff.resets (TrackedNodeInstance.ran_for inst.supervision now) then
            Function.update s.begun inst.cell 0
          else s.begun }
    match record.next with
    | some (.Scheduled ..) =>
      { s' with
        starts := s.starts ++ [{ id, cell := inst.cell, restart := true, phase := .Waiting }] }
    | _ => s'
  | _, _ => s

/-- A first start draws a cell that no start drew before. -/
def firstStart (ctx : NodeEntity.StartContext) : Option Supervised :=
  match ctx.spawn with
  | .Respawn => none
  | .New first_start =>
    if ctx.cell ∈ s.drawn then none
    else
      match s.node.register_start ctx with
      | (.ok generation, node) =>
        some { s with
          node
          drawn := ctx.cell :: s.drawn
          starts := s.starts ++
            [{ id := ctx.instance_id, cell := ctx.cell, restart := false,
               phase := .Registered (.New first_start.goal) generation }] }
      | (.error _, _) => some { s with drawn := ctx.cell :: s.drawn }

def act (s : Supervised) : Action → Option Supervised
  | .FirstStart ctx => s.firstStart ctx
  | .Run i act => (s.starts[i]?).bind fun task => s.runStep i task act
  | .Exit id pid cause backoff now system_now registrations =>
    some (s.exitStep id pid cause backoff now system_now registrations)
  | .Enter call id =>
    match claimSlot s.node call id with
    | none => some s
    | some inst => some { s with claims := s.claims ++ [⟨call, id, inst.cell, .Entered⟩] }
  | .Claim i => (s.claims[i]?).bind fun claim => s.claimStep i claim
  | .Remove id stopped_pid => some { s with node := (s.node.claim_and_remove id stopped_pid).2 }
  | .Stop id => some { s with node := (s.node.stop_instance id).2 }
  | .Arm id kill => some { s with node := (s.node.arm_health_kill id kill).2 }
  | .Note id pid => some { s with node := s.node.note_shutdown_request id pid }
  | .Withdraw id pid => some { s with node := s.node.withdraw_shutdown_request id pid }

/-- A section that writes waits until no claim holds the lock. -/
def step (a : Action) : Option Supervised :=
  if a.writes && !s.claims.isEmpty then none else s.act a

/-! ## What a step can do -/

variable {a : Action} {s s' : Supervised} {task : StartTask} {i : Nat} {act : RunAct} {R : Rights}
  {l : List TrackedNodeInstance}

theorem act_of_step (h : s.step a = some s') :
    s.act a = some s' ∧ (a.writes = true → s.claims = []) := by
  unfold step at h
  split at h
  · cases h
  · rename_i hlock
    exact ⟨h, fun hw => by simpa [hw] using hlock⟩

theorem mem_updateTask {starts : List StartTask} {t : StartTask}
    {phase : Option StartPhase} (h : t ∈ updateTask starts i task phase) :
    t ∈ starts ∨ ∃ p, phase = some p ∧ t = { task with phase := p } := by
  cases phase with
  | none => exact .inl (mem_of_mem_eraseIdx h)
  | some p =>
    rcases mem_or_eq_of_mem_set h with h | h
    · exact .inl h
    · exact .inr ⟨p, rfl, h⟩

/-- What each act of a start does, with its guard. -/
inductive RunStepped (s : Supervised) (i : Nat) (task : StartTask) : RunAct → Supervised → Prop
  | read (h : task.phase = .Waiting) :
      RunStepped s i task .Read
        (s.setTask i task ((respawn_inputs_of s.node task.id).map .Inputs))
  | log (path : String) (run : StartRun) (h : task.phase = .Inputs run) :
      RunStepped s i task (.Log path)
        { s with node := (s.node.record_respawn_log task.id path).2 }
  | refuse (run : StartRun) (h : task.phase = .Inputs run) :
      RunStepped s i task .Refuse
        ({ s with node := (s.node.mark_restart_refused task.id).2 }.setTask i task none)
  | giveUp (run : StartRun) (h : task.phase = .Inputs run) :
      RunStepped s i task .GiveUp (s.setTask i task (failedPhase task))
  | begin (ctx : NodeEntity.StartContext) (run : StartRun) (generation : Nat) (node : NodeEntity)
      (inst : TrackedNodeInstance) (h : task.phase = .Inputs run) (hspawn : ctx.spawn = .Respawn)
      (hid : ctx.instance_id = task.id)
      (hstart : s.node.register_start ctx = (.ok generation, node))
      (hslot : s.node.respawnSlot ctx = some inst) :
      RunStepped s i task (.Begin ctx)
        ({ s with
          node
          begun := Function.update s.begun inst.cell (s.begun inst.cell + 1) }.setTask i task
            (some (.Registered run generation)))
  | gone (ctx : NodeEntity.StartContext) (run : StartRun) (h : task.phase = .Inputs run) :
      RunStepped s i task (.Begin ctx) (s.setTask i task none)
  | fork (spawned : Except String Nat) (spawn_files : SpawnFiles) (run : StartRun)
      (generation pid : Nat) (node : NodeEntity) (h : task.phase = .Registered run generation)
      (hfork : s.node.fork_start task.id spawned spawn_files = (.ok pid, node)) :
      RunStepped s i task (.Fork spawned spawn_files)
        ({ s with
          node
          forks := ((s.node.instance_slot task.id).map TrackedNodeInstance.cell).toList ++
            s.forks }.setTask i task (some (.Forked run generation)))
  | noFork (spawned : Except String Nat) (spawn_files : SpawnFiles) (run : StartRun)
      (generation : Nat) (h : task.phase = .Registered run generation) :
      RunStepped s i task (.Fork spawned spawn_files) (s.setTask i task (some .Undoing))
  | fail (run : StartRun) (generation : Nat) (h : task.phase = .Registered run generation) :
      RunStepped s i task .Fail (s.setTask i task (some .Undoing))
  | undo (h : task.phase = .Undoing) :
      RunStepped s i task .Undo
        ({ s with node := s.node.undo_start task.id }.setTask i task (failedPhase task))
  | abort (run : StartRun) (generation : Nat) (h : task.phase = .Forked run generation) :
      RunStepped s i task .Abort
        ({ s with node := s.node.abort_started generation task.id }.setTask i task
          (failedPhase task))
  | panic (run : StartRun)
      (h : task.phase = .Inputs run ∨ ∃ generation, task.phase = .Registered run generation ∨
        task.phase = .Forked run generation) :
      RunStepped s i task .Panic (s.setTask i task (s.panicPhase task run))
  | commit (instance_dir : String) (endpoints : List InstanceEndpoint) (now system_now : Nat)
      (run : StartRun) (generation : Nat) (node : NodeEntity)
      (h : task.phase = .Forked run generation)
      (hcommit : s.node.commit_starting_instance generation task.id instance_dir endpoints now
        system_now = (.ok (), node)) :
      RunStepped s i task (.Commit instance_dir endpoints now system_now)
        ({ s with node }.setTask i task none)
  | noCommit (instance_dir : String) (endpoints : List InstanceEndpoint) (now system_now : Nat)
      (run : StartRun) (generation : Nat) (h : task.phase = .Forked run generation) :
      RunStepped s i task (.Commit instance_dir endpoints now system_now)
        (s.setTask i task (failedPhase task))
  | scheduled (reason : String) (backoff : RestartBackoff) (now system_now : Nat)
      (attempt delay scheduled_at : Nat) (node : NodeEntity) (h : task.phase = .StartFailed)
      (hmark : s.node.mark_start_failed task.id (.Message reason) backoff now system_now =
        (some (.Scheduled attempt delay scheduled_at), node)) :
      RunStepped s i task (.MarkFailed reason backoff now system_now)
        ({ s with node }.setTask i task (some .Waiting))
  | capped (reason : String) (backoff : RestartBackoff) (now system_now : Nat)
      (next : Option Attempt) (node : NodeEntity) (h : task.phase = .StartFailed)
      (hnext : ∀ attempt delay scheduled_at, next ≠ some (.Scheduled attempt delay scheduled_at))
      (hmark : s.node.mark_start_failed task.id (.Message reason) backoff now system_now =
        (next, node)) :
      RunStepped s i task (.MarkFailed reason backoff now system_now)
        ({ s with node }.setTask i task none)
  | ends : RunStepped s i task .End (s.setTask i task none)

theorem runStep_begin
    {ctx : NodeEntity.StartContext} (h : s.runStep i task (.Begin ctx) = some s') :
    RunStepped s i task (.Begin ctx) s' := by
  unfold runStep at h
  cases hphase : task.phase with
  | Inputs run =>
    simp only [hphase] at h
    cases hspawn : ctx.spawn with
    | New first_start => simp [hspawn] at h
    | Respawn =>
      simp only [hspawn] at h
      split at h
      · cases h
      rename_i hid
      split at h
      · rename_i generation node inst hstart hslot
        cases h
        exact .begin ctx run generation node inst hphase hspawn (by simpa using hid) hstart hslot
      · cases h
      · cases h
        exact .gone ctx run hphase
  | _ => simp [hphase] at h

theorem runStep_cases (h : s.runStep i task act = some s') : RunStepped s i task act s' := by
  cases act with
  | Begin ctx => exact runStep_begin h
  | End =>
    simp only [runStep] at h
    cases h
    exact .ends
  | Panic =>
    cases hphase : task.phase with
    | Inputs run =>
      simp only [runStep, hphase] at h
      cases h
      exact .panic run (.inl hphase)
    | Registered run generation =>
      simp only [runStep, hphase] at h
      cases h
      exact .panic run (.inr ⟨generation, .inl hphase⟩)
    | Forked run generation =>
      simp only [runStep, hphase] at h
      cases h
      exact .panic run (.inr ⟨generation, .inr hphase⟩)
    | _ => simp [runStep, hphase] at h
  | Fork spawned spawn_files =>
    cases hphase : task.phase with
    | Registered run generation =>
      simp only [runStep, hphase] at h
      split at h
      · rename_i pid node hfork
        cases h
        exact .fork spawned spawn_files run generation pid node hphase hfork
      · cases h
        exact .noFork spawned spawn_files run generation hphase
    | _ => simp [runStep, hphase] at h
  | Commit instance_dir endpoints now system_now =>
    cases hphase : task.phase with
    | Forked run generation =>
      simp only [runStep, hphase] at h
      split at h
      · rename_i node hcommit
        cases h
        exact .commit instance_dir endpoints now system_now run generation node hphase hcommit
      · cases h
        exact .noCommit instance_dir endpoints now system_now run generation hphase
    | _ => simp [runStep, hphase] at h
  | MarkFailed reason backoff now system_now =>
    cases hphase : task.phase with
    | StartFailed =>
      simp only [runStep, hphase] at h
      split at h
      · rename_i attempt delay scheduled_at node hmark
        cases h
        exact .scheduled reason backoff now system_now attempt delay scheduled_at node hphase hmark
      · rename_i next node hnext hmark
        cases h
        exact .capped reason backoff now system_now next node hphase hnext hmark
    | _ => simp [runStep, hphase] at h
  | Read | Log | Refuse | GiveUp | Fail | Undo | Abort =>
    -- one constructor of the relation has the act, in the one phase that allows it
    cases hphase : task.phase <;> simp only [runStep, hphase, reduceCtorEq] at h
    cases h
    constructor
    assumption

/-- The rights `R` let the action make its moves. -/
def Allows (s s' : Supervised) (R : Rights) (a : Action) : Prop :=
  (∀ cell, cell ∉ s.drawn → cell ∈ s'.drawn → R.draw cell) ∧
    match a with
    | .Run _ (.Begin _) => ∀ inst, R.respawn inst
    | .Run i (.Commit ..) => ∀ task, s.starts[i]? = some task → task.HasForked →
        ∀ inst, inst.instance_id = task.id → R.commit inst
    | .Run _ (.MarkFailed ..) => ∀ inst, R.fail inst
    | .Exit .. => ∀ inst, R.exit inst
    | _ => True

theorem runStep_turn (hl : s.node.stage = .Ready l)
    (hR : s.Allows s' R (.Run i act)) (htask : s.starts[i]? = some task)
    (h : RunStepped s i task act s') : Turn R s.node s'.node := by
  cases h with
  | log path run => exact turn_record_respawn_log hl path
  | refuse run =>
    exact turn_mark_restart_refused hl
  | begin ctx run generation node inst _ hspawn _ hstart _ =>
    have hnode : node = (s.node.register_start ctx).2 := by rw [hstart]
    rw [hnode]
    exact turn_register_start hl ctx (by simp [hspawn]) fun _ inst _ => hR.2 inst
  | fork spawned spawn_files run generation pid node _ hfork =>
    have hnode : node = (s.node.fork_start task.id spawned spawn_files).2 := by rw [hfork]
    rw [hnode]
    exact turn_fork_start hl spawned spawn_files
  | undo =>
    exact turn_undo_start hl
  | abort run generation =>
    exact turn_abort_started hl generation
  | panic run =>
    exact turn_keep hl
  | commit instance_dir endpoints now system_now run generation node hphase hcommit =>
    have hnode : node = (s.node.commit_starting_instance generation task.id instance_dir endpoints
        now system_now).2 := by rw [hcommit]
    rw [hnode]
    apply turn_commit hl
    exact hR.2 task htask ⟨run, generation, hphase⟩
  | scheduled reason backoff now system_now attempt delay scheduled_at node _ hmark
  | capped reason backoff now system_now next node _ _ hmark =>
    have hnode : node =
        (s.node.mark_start_failed task.id (.Message reason) backoff now system_now).2 := by
      rw [hmark]
    rw [hnode]
    exact turn_mark_start_failed hl rfl backoff now system_now fun inst _ => hR.2 inst
  | _ =>
    exact turn_keep hl

theorem runStep_frame (h : RunStepped s i task act s') :
    s'.claims = s.claims ∧ s'.answers = s.answers ∧ s'.drawn = s.drawn := by
  cases h <;> exact ⟨rfl, rfl, rfl⟩

theorem runStep_quiet
    (h : RunStepped s i task act s') (hquiet : (Action.Run i act).writes = false) :
    s'.node = s.node := by
  cases h with
  | read | giveUp | fail | ends | panic => rfl
  | _ => cases hquiet

theorem exitStep_cases (s : Supervised) (id : Name) (pid : Nat) (cause : ExitCause)
    (backoff : RestartBackoff) (now system_now : Nat) (registrations : Registrations) :
    (∃ inst record node, s.node.instance_mut id = some inst ∧
      s.node.mark_instance_exited id pid cause backoff now system_now registrations =
        (some record, node) ∧
      s.exitStep id pid cause backoff now system_now registrations = { s with
          node
          begun :=
            if backoff.resets (TrackedNodeInstance.ran_for inst.supervision now) then
              Function.update s.begun inst.cell 0
            else s.begun
          starts := s.starts ++
            match record.next with
            | some (.Scheduled ..) =>
              [{ id, cell := inst.cell, restart := true, phase := .Waiting }]
            | _ => [] }) ∨
    s.exitStep id pid cause backoff now system_now registrations = s := by
  unfold exitStep
  split
  · rename_i inst record node hinst hmark
    refine Or.inl ⟨inst, record, node, hinst, hmark, ?_⟩
    simp only
    split <;> simp
  · exact .inr rfl

theorem turn_exitStep (hl : s.node.stage = .Ready l) (hright : ∀ inst, R.exit inst) (id : Name)
    (pid : Nat) (cause : ExitCause) (backoff : RestartBackoff) (now system_now : Nat)
    (registrations : Registrations) :
    Turn R s.node (s.exitStep id pid cause backoff now system_now registrations).node := by
  rcases s.exitStep_cases id pid cause backoff now system_now registrations with
    ⟨inst, record, node, _, hmark, heq⟩ | heq
  · have hnode : node =
        (s.node.mark_instance_exited id pid cause backoff now system_now registrations).2 := by
      rw [hmark]
    rw [heq, hnode]
    exact turn_mark_instance_exited hl pid cause backoff now system_now registrations
      fun inst _ => hright inst
  · rw [heq]
    exact turn_keep hl

theorem exitStep_frame (s : Supervised) (id : Name) (pid : Nat) (cause : ExitCause)
    (backoff : RestartBackoff) (now system_now : Nat) (registrations : Registrations) :
    (s.exitStep id pid cause backoff now system_now registrations).claims = s.claims ∧
      (s.exitStep id pid cause backoff now system_now registrations).answers = s.answers ∧
      (s.exitStep id pid cause backoff now system_now registrations).drawn = s.drawn := by
  rcases s.exitStep_cases id pid cause backoff now system_now registrations with
    ⟨inst, record, node, _, _, heq⟩ | heq
  · rw [heq]
    exact ⟨rfl, rfl, rfl⟩
  · rw [heq]
    exact ⟨rfl, rfl, rfl⟩

theorem firstStart_cases {ctx : NodeEntity.StartContext} (h : s.firstStart ctx = some s') :
    ctx.cell ∉ s.drawn ∧ s'.drawn = ctx.cell :: s.drawn ∧ ∃ first_start,
      ctx.spawn = .New first_start ∧
    ((∃ generation node, s.node.register_start ctx = (.ok generation, node) ∧
        s' = { s with node, drawn := ctx.cell :: s.drawn, starts := s.starts ++
            [{ id := ctx.instance_id, cell := ctx.cell, restart := false,
               phase := .Registered (.New first_start.goal) generation }] }) ∨
      s' = { s with drawn := ctx.cell :: s.drawn }) := by
  unfold firstStart at h
  split at h
  · cases h
  rename_i first_start hspawn
  split at h
  · cases h
  rename_i hcell
  split at h
  · rename_i generation node hstart
    cases h
    exact ⟨hcell, rfl, first_start, hspawn, .inl ⟨generation, node, hstart, rfl⟩⟩
  · cases h
    exact ⟨hcell, rfl, first_start, hspawn, .inr rfl⟩

theorem act_frame (ha : a.ofTask = false) (h : s.act a = some s') :
    s'.starts = s.starts ∧ s'.begun = s.begun ∧ s'.drawn = s.drawn ∧ s'.forks = s.forks := by
  cases a with
  | FirstStart | Run | Exit => cases ha
  | Enter call id =>
    simp only [act] at h
    split at h <;> cases h <;> exact ⟨rfl, rfl, rfl, rfl⟩
  | Claim i =>
    obtain ⟨claim, _, h⟩ := Option.bind_eq_some_iff.mp h
    unfold claimStep at h
    split at h
    · cases h
    · split at h <;> cases h <;> exact ⟨rfl, rfl, rfl, rfl⟩
  | _ =>
    cases h
    exact ⟨rfl, rfl, rfl, rfl⟩

/-- What one step changes of the claims and the slots. -/
inductive Stepped (R : Rights) (s s' : Supervised) : Prop
  | write (hfree : s.claims = []) (hturn : Turn R s.node s'.node)
      (hclaims : s'.claims = s.claims) (hanswers : s'.answers = s.answers)
      (hdrawn : s.drawn ⊆ s'.drawn)
  | quiet (hnode : s'.node = s.node) (hclaims : s'.claims = s.claims)
      (hanswers : s'.answers = s.answers) (hdrawn : s'.drawn = s.drawn)
  | enter (call : ClaimCall) (id : Name) (inst : TrackedNodeInstance)
      (hslot : s.node.instance_slot id = some inst)
      (heq : s' = { s with claims := s.claims ++ [⟨call, id, inst.cell, .Entered⟩] })
  | swap (i : Nat) (claim : Claim) (inst : TrackedNodeInstance)
      (hclaim : s.claims[i]? = some claim) (hphase : claim.phase = .Entered)
      (hslot : s.node.instance_slot claim.id = some inst)
      (heq : s' = { s with
        node := editSlot s.node claim.id swapped
        claims := s.claims.set i { claim with phase := .Swapped (!inst.stopping) } })
  | cancel (i : Nat) (claim : Claim) (won : Bool) (inst : TrackedNodeInstance)
      (hclaim : s.claims[i]? = some claim) (hphase : claim.phase = .Swapped won)
      (hslot : s.node.instance_slot claim.id = some inst)
      (heq : s' = { s with
        node := editSlot s.node claim.id cancelled
        claims := s.claims.eraseIdx i
        answers := ⟨claim.call, claim.cell, won, claim.call.result won inst⟩ :: s.answers })

theorem stepped_claim {claim : Claim}
    (hclaim : s.claims[i]? = some claim) (h : s.claimStep i claim = some s') : Stepped R s s' := by
  unfold claimStep at h
  split at h
  · cases h
  rename_i inst hslot
  split at h
  · rename_i hphase
    cases h
    exact .swap i claim inst hclaim hphase hslot rfl
  · rename_i won hphase
    cases h
    exact .cancel i claim won inst hclaim hphase hslot rfl

theorem step_cases (hl : s.node.stage = .Ready l) (hR : s.Allows s' R a) (h : s.step a = some s') :
    Stepped R s s' := by
  obtain ⟨h, hfree⟩ := act_of_step h
  cases a with
  | FirstStart ctx =>
    obtain ⟨hcell, hdrawn, first_start, hspawn, hcases⟩ := firstStart_cases h
    have hsub : s.drawn ⊆ s'.drawn := by
      rw [hdrawn]
      exact subset_cons_self _ _
    rcases hcases with ⟨generation, node, hstart, rfl⟩ | rfl
    · have hnode : node = (s.node.register_start ctx).2 := by rw [hstart]
      refine .write (hfree rfl) ?_ rfl rfl hsub
      rw [hnode]
      apply turn_register_start hl ctx
      · exact fun _ _ => hR.1 ctx.cell hcell mem_cons_self
      · simp [hspawn]
    · exact .write (hfree rfl) (turn_keep hl) rfl rfl hsub
  | Run i act =>
    obtain ⟨task, htask, h⟩ := Option.bind_eq_some_iff.mp h
    have hrun := runStep_cases h
    obtain ⟨hclaims, hanswers, hdrawn⟩ := runStep_frame hrun
    cases hw : (Action.Run i act).writes with
    | true =>
      exact .write (hfree hw) (runStep_turn hl hR htask hrun) hclaims hanswers (by rw [hdrawn]; simp)
    | false => exact .quiet (runStep_quiet hrun hw) hclaims hanswers hdrawn
  | Exit id pid cause backoff now system_now registrations =>
    cases h
    obtain ⟨hclaims, hanswers, hdrawn⟩ :=
      s.exitStep_frame id pid cause backoff now system_now registrations
    exact .write (hfree rfl) (turn_exitStep hl hR.2 _ _ _ _ _ _ _) hclaims hanswers
      (by rw [hdrawn]; simp)
  | Enter call id =>
    simp only [act] at h
    split at h
    · cases h
      exact .quiet rfl rfl rfl rfl
    · rename_i inst hslot
      cases h
      exact .enter call id inst (Option.filter_eq_some_iff.mp hslot).1 rfl
  | Claim i =>
    obtain ⟨claim, hclaim, h⟩ := Option.bind_eq_some_iff.mp h
    exact stepped_claim hclaim h
  | Remove id stopped_pid =>
    cases h
    exact .write (hfree rfl) (turn_claim_and_remove hl stopped_pid) rfl rfl (by simp)
  | Stop id =>
    cases h
    exact .write (hfree rfl) (turn_stop_instance hl) rfl rfl (by simp)
  | Arm id kill =>
    cases h
    exact .write (hfree rfl) (turn_arm_health_kill hl kill) rfl rfl (by simp)
  | Note id pid =>
    cases h
    exact .write (hfree rfl) (turn_note_shutdown_request hl pid) rfl rfl (by simp)
  | Withdraw id pid =>
    cases h
    exact .write (hfree rfl) (turn_withdraw_shutdown_request hl pid) rfl rfl (by simp)

/-! ## The forks -/

theorem not_hasForked {phase : StartPhase} (h : ∀ run generation, phase ≠ .Forked run generation) :
    ¬ StartTask.HasForked { task with phase } := by
  rintro ⟨run, generation, heq⟩
  exact h run generation heq

/-- A step forks nothing, or for a slot that no stop path claimed. -/
inductive Forks (s s' : Supervised) : Prop
  | none (hforks : s'.forks = s.forks)
      (hstarts : ∀ task ∈ s'.starts, task.HasForked → task ∈ s.starts)
  | one (id : Name)
      (hclaim : ∀ inst, s.node.instance_slot id = some inst → inst.stopping = false)
      (hforks : s'.forks =
        ((s.node.instance_slot id).map TrackedNodeInstance.cell).toList ++ s.forks)
      (hstarts : ∀ task ∈ s'.starts, task.HasForked → task.id = id ∨ task ∈ s.starts)

theorem forks_none (i : Nat) (task : StartTask) (phase : Option StartPhase)
    (hforks : s'.forks = s.forks) (hstarts : s'.starts = updateTask s.starts i task phase)
    (h : ∀ run generation, phase ≠ some (.Forked run generation)) : Forks s s' := by
  refine .none hforks fun t ht hforked => ?_
  rw [hstarts] at ht
  rcases mem_updateTask ht with ht | ⟨p, hp, rfl⟩
  · exact ht
  · refine absurd hforked (not_hasForked fun run generation heq => ?_)
    exact h run generation (hp.trans (congrArg some heq))

theorem failedPhase_ne (task : StartTask) (run : StartRun) (generation : Nat) :
    failedPhase task ≠ some (.Forked run generation) := by
  unfold failedPhase
  split <;> simp

theorem runStep_forks (h : RunStepped s i task act s') : Forks s s' := by
  cases h with
  | log => exact .none rfl fun t ht _ => ht
  | fork spawned spawn_files run generation pid node _ hfork =>
    have hpid : (s.node.fork_start task.id spawned spawn_files).1 = .ok pid := by rw [hfork]
    refine .one task.id (fun inst => unclaimed_of_fork_start hpid) rfl ?_
    intro t (ht : t ∈ updateTask s.starts i task (some (.Forked run generation))) _
    rcases mem_updateTask ht with ht | ⟨p, _, rfl⟩
    · exact .inr ht
    · exact .inl rfl
  | read =>
    refine forks_none i task _ rfl rfl fun run generation => ?_
    cases respawn_inputs_of s.node task.id <;> simp
  | panic run =>
    refine forks_none i task _ rfl rfl fun run' generation => ?_
    simp only [panicPhase]
    cases (s.node.abandoned_start task.id run).1 with
    | true => simp
    | false =>
      cases (s.node.abandoned_start task.id run).2 with
      | true => simpa using failedPhase_ne task run' generation
      | false => simp
  | begin ctx run generation =>
    exact forks_none i task (some (.Registered run generation)) rfl rfl (by simp)
  | noFork | fail => exact forks_none i task (some .Undoing) rfl rfl (by simp)
  | scheduled => exact forks_none i task (some .Waiting) rfl rfl (by simp)
  | giveUp | undo | abort | noCommit =>
    exact forks_none i task (failedPhase task) rfl rfl (failedPhase_ne task)
  | refuse | gone | commit | capped | ends => exact forks_none i task none rfl rfl (by simp)

theorem step_forks (h : s.step a = some s') : Forks s s' := by
  have h := (act_of_step h).1
  cases a with
  | FirstStart ctx =>
    obtain ⟨_, _, first_start, _, ⟨generation, node, _, rfl⟩ | rfl⟩ := firstStart_cases h
    · refine .none rfl fun t ht hforked => ?_
      rcases mem_append.mp ht with ht | ht
      · exact ht
      · rw [mem_singleton.mp ht] at hforked
        obtain ⟨_, _, heq⟩ := hforked
        cases heq
    · exact .none rfl fun t ht _ => ht
  | Run i act =>
    obtain ⟨task, _, h⟩ := Option.bind_eq_some_iff.mp h
    exact runStep_forks (runStep_cases h)
  | Exit id pid cause backoff now system_now registrations =>
    cases h
    rcases s.exitStep_cases id pid cause backoff now system_now registrations with
      ⟨inst, record, node, _, _, heq⟩ | heq
    · rw [heq]
      refine .none rfl fun t ht hforked => ?_
      rcases mem_append.mp ht with ht | ht
      · exact ht
      split at ht
      · rw [mem_singleton.mp ht] at hforked
        obtain ⟨_, _, heq⟩ := hforked
        cases heq
      · cases ht
    · rw [heq]
      exact .none rfl fun t ht _ => ht
  | _ =>
    obtain ⟨hstarts, _, _, hforks⟩ := act_frame rfl h
    exact .none hforks fun t ht _ => hstarts ▸ ht

end Supervised

end peppy.supervisor
