-- The law of the cap on the restarts. Each attempt of the backoff gives one restart
-- task, and a task begins at most one restart.
import Peppy.SlotClaims

open changes runs peppy.node_config peppy.pairing peppy.supervision peppy.entity List Option

namespace peppy.supervisor

open NodeEntity Supervised Function

/-! ## The restarts that can still begin -/

def StartTask.mayBegin (task : StartTask) : Bool :=
  match task.phase with
  | .Waiting | .Inputs _ => true
  | _ => false

def StartTask.mayBeginOf (cell : Nat) (task : StartTask) : Bool :=
  task.cell = cell && task.mayBegin

open StartTask (mayBegin mayBeginOf)

def permits (s : Supervised) (cell : Nat) : Nat := s.starts.countP (mayBeginOf cell)

def isLive : InstanceState → Bool
  | .Starting | .Running | .Restarting => true
  | .Finished | .Failed => false

/-- The restarts of the slot under the cap `m`. -/
structure Within (s : Supervised) (m : Nat) (inst : TrackedNodeInstance) : Prop where
  live : isLive inst.state = true →
    s.begun inst.cell + permits s inst.cell ≤ inst.supervision.attempt ∧
      inst.supervision.attempt ≤ m
  begun : s.begun inst.cell ≤ m

/-- A cap below `u32::MAX` holds the restarts of the slot. -/
def Bounded (s : Supervised) (inst : TrackedNodeInstance) : Prop :=
  ∀ m, inst.supervision.restart.max_restarts = some m → m < U32_MAX → Within s m inst

/-- Each restart that began is counted in its slot. -/
structure Counted (s : Supervised) : Prop where
  sound : Sound s
  tasks : (s.starts.map (·.cell)).Nodup
  known : ∀ task ∈ s.starts, task.cell ∈ s.drawn
  fresh : ∀ cell, cell ∉ s.drawn → s.begun cell = 0
  running : ∀ inst ∈ s.node.instances, inst.state = .Running →
    ∀ task ∈ s.starts, task.cell ≠ inst.cell
  bounded : ∀ inst ∈ s.node.instances, Bounded s inst

theorem Counted.init (config : NodeConfig) (generation : Nat) :
    Counted (Supervised.new config generation) where
  sound := .init config generation
  tasks := nodup_nil
  known := by simp [Supervised.new]
  fresh _ _ := rfl
  running := by simp [Supervised.new]
  bounded := by simp [Supervised.new, built_in, NodeEntity.instances]

variable {s s' : Supervised} {a : Action} {act : RunAct} {task : StartTask} {i now system_now : Nat}
  {inst : TrackedNodeInstance} {ctx : NodeEntity.StartContext} {backoff : RestartBackoff}
  {registrations : Registrations} {cause : ExitCause}

variable {cell generation m pid : Nat} {y : TrackedNodeInstance} {R : Rights} {node : NodeEntity}
  {ran_for : Option Nat}

/-- No task waits for a slot that is not drawn yet, or that runs. -/
theorem permits_eq_zero (h : ∀ task ∈ s.starts, task.cell ≠ cell) : permits s cell = 0 := by
  rw [permits, countP_eq_zero]
  intro task htask hbegin
  simp only [mayBeginOf, Bool.and_eq_true, decide_eq_true_eq] at hbegin
  exact h task htask hbegin.1

/-! ## Steps that begin no restart and take no attempt -/

/-- The slot `x` became `y` with its attempt, or ended. -/
structure Calm (x y : TrackedNodeInstance) : Prop where
  cell : y.cell = x.cell
  restart : y.supervision.restart = x.supervision.restart
  live : isLive y.state = true →
    isLive x.state = true ∧ y.supervision.attempt = x.supervision.attempt

theorem Calm.refl (x : TrackedNodeInstance) : Calm x x := ⟨rfl, rfl, fun h => ⟨h, rfl⟩⟩

theorem Calm.bounded {x : TrackedNodeInstance} (h : Calm x y)
    (hx : Bounded s x) (hbegun : s'.begun x.cell = s.begun x.cell)
    (hpermits : permits s' x.cell ≤ permits s x.cell) : Bounded s' y := by
  intro m hm hcap
  rw [h.restart] at hm
  obtain ⟨hlive, hmost⟩ := hx m hm hcap
  refine ⟨fun hy => ?_, ?_⟩
  · obtain ⟨hx, hattempt⟩ := h.live hy
    have := hlive hx
    rw [h.cell, hbegun, hattempt]
    omega
  · rw [h.cell, hbegun]
    exact hmost

variable {b : TrackedNodeInstance}

theorem calm_of_move {a : TrackedNodeInstance} (h : Move R a b)
    (hrespawn : ¬ R.respawn a) (hexit : ¬ R.exit a) (hfail : ¬ R.fail a) :
    Calm a b ∧ (b.state = .Running → a.state = .Running ∨ R.commit a) := by
  cases h with
  | respawn _ _ right => exact absurd right hrespawn
  | exit _ _ _ _ _ _ _ right => exact absurd right hexit
  | fail _ _ _ _ _ _ right => exact absurd right hfail
  | commit instance_dir endpoints now system_now hstate right =>
    obtain ⟨restart_count, registrations, heq⟩ :=
      committed_shape a instance_dir endpoints now system_now
    rw [heq]
    exact ⟨⟨rfl, rfl, fun _ => ⟨by rw [hstate]; rfl, rfl⟩⟩, fun _ => Or.inr right⟩
  | revert h =>
    have hstate := (state_of_starts_a_restart h).1
    exact ⟨⟨rfl, rfl, fun _ => ⟨by rw [hstate]; rfl, rfl⟩⟩, nofun⟩
  | refuse h => exact ⟨⟨rfl, rfl, nofun⟩, nofun⟩
  | _ => exact ⟨⟨rfl, rfl, fun h => ⟨h, rfl⟩⟩, .inl⟩

/-- The rights of a step that begins no restart and takes no attempt. -/
def calmRights (s s' : Supervised) (commit : TrackedNodeInstance → Prop) : Rights where
  draw cell := cell ∉ s.drawn ∧ cell ∈ s'.drawn
  commit

theorem calm_before (commit : TrackedNodeInstance → Prop)
    (hs : Sound s) (hdrawn : s'.drawn = s.drawn) (hR : s.Allows s' (calmRights s s' commit) a)
    (h : s.step a = some s') (hy : y ∈ s'.node.instances) :
    ∃ x ∈ s.node.instances, Calm x y ∧ (y.state = .Running → x.state = .Running ∨ commit x) := by
  rcases slot_before hs hR h hy with ⟨ctx, first_start, _, hnew, hold⟩ | ⟨x, hx, hmove⟩
  · exact absurd (hdrawn ▸ hold) hnew
  refine ⟨x, hx, ?_⟩
  rcases hmove with rfl | hmove | rfl | rfl
  · exact ⟨.refl x, .inl⟩
  · exact calm_of_move hmove id id id
  · exact ⟨⟨rfl, rfl, fun h => ⟨h, rfl⟩⟩, .inl⟩
  · exact ⟨⟨rfl, rfl, fun h => ⟨h, rfl⟩⟩, .inl⟩

theorem Counted.calm {commit : TrackedNodeInstance → Prop}
    (hs : Counted s) (h : s.step a = some s') (hdrawn : s'.drawn = s.drawn)
    (hbegun : s'.begun = s.begun)
    (htasks : (s'.starts.map (·.cell)).Sublist (s.starts.map (·.cell)))
    (hpermits : ∀ cell, permits s' cell ≤ permits s cell)
    (hslots : ∀ y ∈ s'.node.instances, ∃ x ∈ s.node.instances, Calm x y ∧
    (y.state = .Running → x.state = .Running ∨ commit x))
    (hcommit : ∀ inst ∈ s.node.instances, commit inst →
      ∀ task ∈ s'.starts, task.cell ≠ inst.cell) : Counted s' := by
  have hmem : ∀ task ∈ s'.starts, ∃ task' ∈ s.starts, task'.cell = task.cell := by
    intro task htask
    have := htasks.subset (mem_map_of_mem htask)
    simpa using this
  refine ⟨hs.sound.step h, hs.tasks.sublist htasks, ?_, ?_, ?_, ?_⟩
  · intro task htask
    obtain ⟨task', htask', heq⟩ := hmem task htask
    rw [hdrawn, ← heq]
    exact hs.known task' htask'
  · rw [hdrawn, hbegun]
    exact hs.fresh
  · intro y hy hstate task htask
    obtain ⟨x, hx, hcalm, hrun⟩ := hslots y hy
    rw [hcalm.cell]
    rcases hrun hstate with hrun | hrun
    · obtain ⟨task', htask', heq⟩ := hmem task htask
      rw [← heq]
      exact hs.running x hx hrun task' htask'
    · exact hcommit x hx hrun task htask
  · intro y hy
    obtain ⟨x, hx, hcalm, _⟩ := hslots y hy
    exact hcalm.bounded (hs.bounded x hx) (by rw [hbegun]) (hpermits x.cell)

theorem Counted.quiet (hs : Counted s) (h : s.step a = some s')
    (hdrawn : s'.drawn = s.drawn) (hbegun : s'.begun = s.begun)
    (htasks : (s'.starts.map (·.cell)).Sublist (s.starts.map (·.cell)))
    (hpermits : ∀ cell, permits s' cell ≤ permits s cell) (hnode : s'.node = s.node) :
    Counted s' := by
  have hnone : ∀ inst ∈ s.node.instances, False →
      ∀ task ∈ s'.starts, task.cell ≠ inst.cell := fun _ _ h => h.elim
  exact hs.calm h hdrawn hbegun htasks hpermits (fun y hy => ⟨y, hnode ▸ hy, .refl y, .inl⟩) hnone

/-! ## The tasks of a step -/

section
variable {s : Supervised} {starts : List StartTask} {i : Nat} {task : StartTask}
  {phase : Option StartPhase}

section
variable (htask : starts[i]? = some task)
include htask

theorem cells_updateTask :
    ((updateTask starts i task phase).map (·.cell)).Sublist (starts.map (·.cell)) := by
  cases phase with
  | none => exact (eraseIdx_sublist starts i).map _
  | some p =>
    obtain ⟨hi, rfl⟩ := List.getElem?_eq_some_iff.mp htask
    have hcells : (starts.map (·.cell)).set i starts[i].cell = starts.map (·.cell) := by
      apply ext_getElem?
      intro j
      rw [getElem?_set]
      by_cases hj : i = j
      · subst hj
        simp [hi]
      · simp [hj]
    rw [updateTask, map_set, hcells]

theorem countP_task (cell : Nat) : starts.countP (mayBeginOf cell) =
      (starts.eraseIdx i).countP (mayBeginOf cell) + (if task.mayBeginOf cell then 1 else 0) := by
  rw [(perm_cons_eraseIdx htask).countP_eq, countP_cons]

theorem countP_updateTask (p : StartPhase) (cell : Nat) :
    (updateTask starts i task (some p)).countP (mayBeginOf cell) =
      (starts.eraseIdx i).countP (mayBeginOf cell) +
        (if mayBeginOf cell { task with phase := p } then 1 else 0) := by
  rw [updateTask, (set_perm_cons htask _).countP_eq, countP_cons]

theorem permits_updateTask_le
    (hphase : ∀ p, phase = some p → mayBegin { task with phase := p } = true →
      task.mayBegin = true) (cell : Nat) :
    (updateTask starts i task phase).countP (mayBeginOf cell) ≤
      starts.countP (mayBeginOf cell) := by
  cases hp : phase with
  | none => exact (eraseIdx_sublist starts i).countP_le
  | some p =>
    rw [countP_task htask, countP_updateTask htask]
    have := hphase p hp
    by_cases hcell : task.cell = cell
    · subst hcell
      cases hbegin : mayBegin { task with phase := p } with
      | false => simp [mayBeginOf, hbegin]
      | true => simp [mayBeginOf, hbegin, this hbegin]
    · simp [mayBeginOf, hcell]

end

theorem nodup_append_task {extra : List StartTask} {cell : Nat}
    (hnodup : (starts.map (·.cell)).Nodup) (hfree : ∀ task ∈ starts, task.cell ≠ cell)
    (hextra : extra = [] ∨ ∃ t : StartTask, extra = [t] ∧ t.cell = cell) :
    ((starts ++ extra).map (·.cell)).Nodup := by
  rcases hextra with rfl | ⟨t, rfl, rfl⟩
  · simpa using hnodup
  · rw [map_append, nodup_append]
    refine ⟨hnodup, by simp, ?_⟩
    simpa using hfree

end

/-! ## The steps of a run -/

/-- A run acts on its own slot, not on one that took over its id. -/
def OwnSlot (s : Supervised) (a : Action) : Prop :=
  match a with
  | .Run i _ =>
    ∀ task ∈ s.starts[i]?, ∀ inst ∈ s.node.instance_slot task.id, inst.cell = task.cell
  | _ => True

instance (s : Supervised) (a : Action) : Decidable (OwnSlot s a) := by
  cases a <;> unfold OwnSlot <;> infer_instance

/-- Every act of a run but the begin of a restart and the failure of one. -/
def isCalmAct : RunAct → Bool
  | .Begin _ | .MarkFailed .. => false
  | _ => true

theorem runStep_calm (h : RunStepped s i task act s') (hact : isCalmAct act = true) :
    s'.begun = s.begun ∧ (s'.starts = s.starts ∨ ∃ phase,
      s'.starts = updateTask s.starts i task phase ∧
      ∀ p, phase = some p → mayBegin { task with phase := p } = true →
        task.mayBegin = true) := by
  have hfailed : ∀ p, failedPhase task = some p →
      mayBegin { task with phase := p } = true → task.mayBegin = true := by
    intro p hp
    unfold failedPhase at hp
    split at hp <;> cases hp
    rintro ⟨⟩
  cases h with
  | begin | gone | scheduled | capped => cases hact
  | log => exact ⟨rfl, .inl rfl⟩
  | read hphase =>
    refine ⟨rfl, .inr ⟨_, rfl, fun _ _ _ => ?_⟩⟩
    simp [mayBegin, hphase]
  | giveUp | undo | abort | noCommit => exact ⟨rfl, .inr ⟨_, rfl, hfailed⟩⟩
  | panic run =>
    refine ⟨rfl, .inr ⟨_, rfl, fun p hp => ?_⟩⟩
    simp only [panicPhase] at hp
    split at hp
    · cases hp
      rintro ⟨⟩
    · split at hp
      · exact hfailed p hp
      · cases hp
  | fork _ _ run generation =>
    refine ⟨rfl, .inr ⟨some (.Forked run generation), rfl, fun p hp => ?_⟩⟩
    cases hp
    rintro ⟨⟩
  | noFork | fail =>
    refine ⟨rfl, .inr ⟨some .Undoing, rfl, fun p hp => ?_⟩⟩
    cases hp
    rintro ⟨⟩
  | refuse | commit | ends => exact ⟨rfl, .inr ⟨none, rfl, by simp⟩⟩

theorem slot_of_id (hs : Sound s)
    (hin : inst ∈ s.node.instances) : s.node.instance_slot inst.instance_id = some inst :=
  find?_key hs.ids hin

theorem Counted.run_calm
    (hs : Counted s) (hown : OwnSlot s (.Run i act)) (htask : s.starts[i]? = some task)
    (h : s.step (.Run i act) = some s') (hrun : RunStepped s i task act s')
    (hact : isCalmAct act = true) : Counted s' := by
  obtain ⟨_, _, hdrawn⟩ := runStep_frame hrun
  obtain ⟨hbegun, hstarts⟩ := runStep_calm hrun hact
  have htasks : (s'.starts.map (·.cell)).Sublist (s.starts.map (·.cell)) := by
    rcases hstarts with heq | ⟨phase, heq, _⟩
    · rw [heq]
    · rw [heq]
      exact cells_updateTask htask
  have hpermits : ∀ cell, permits s' cell ≤ permits s cell := by
    intro cell
    rcases hstarts with heq | ⟨phase, heq, hphase⟩
    · rw [permits, permits, heq]
    · rw [permits, permits, heq]
      exact permits_updateTask_le htask hphase cell
  have hnone : ∀ inst ∈ s.node.instances, False →
      ∀ task ∈ s'.starts, task.cell ≠ inst.cell := fun _ _ h => h.elim
  cases hrun with
  | begin | gone | scheduled | capped => cases hact
  | commit instance_dir endpoints now system_now run generation node hphase hcommit =>
    -- The commit ends the one task of the slot that it brings to running.
    refine hs.calm h hdrawn hbegun htasks hpermits (fun y hy =>
      calm_before (·.instance_id = task.id) hs.sound hdrawn ⟨fun cell h h' => ⟨h, h'⟩, ?_⟩ h hy) ?_
    · intro task' htask' _ inst hid
      cases htask.symm.trans htask'
      exact hid
    intro inst hin hid t ht hcell
    have hslot := slot_of_id hs.sound hin
    rw [hid] at hslot
    have hcell' := hown task htask inst hslot
    have hnodup := ((perm_cons_eraseIdx htask).map (·.cell)).nodup_iff.mp hs.tasks
    rw [map_cons, nodup_cons] at hnodup
    apply hnodup.1
    rw [← hcell', ← hcell]
    exact mem_map_of_mem ht
  | noCommit =>
    exact hs.quiet h hdrawn hbegun htasks hpermits rfl
  | _ =>
    exact hs.calm h hdrawn hbegun htasks hpermits (fun y hy =>
      calm_before (fun _ => False) hs.sound hdrawn ⟨fun cell h h' => ⟨h, h'⟩, trivial⟩ h hy) hnone

/-! ## Steps that change the count of one slot -/

theorem Counted.edit (hs : Counted s) (h : s.step a = some s')
    {l1 l2 : List TrackedNodeInstance} (inst' : TrackedNodeInstance)
    (hl : s.node.stage = .Ready (l1 ++ inst :: l2))
    (hl' : s'.node.stage = .Ready (l1 ++ inst' :: l2)) (hcell : inst'.cell = inst.cell)
    (hdrawn : s'.drawn = s.drawn) (hbegun : ∀ cell, cell ≠ inst.cell → s'.begun cell = s.begun cell)
    (htasks : (s'.starts.map (·.cell)).Nodup)
    (hknown : ∀ task ∈ s'.starts, task.cell ∈ s.starts.map (·.cell) ∨ task.cell = inst.cell)
    (hpermits : ∀ cell, cell ≠ inst.cell → permits s' cell ≤ permits s cell)
    (hstate : inst'.state ≠ .Running) (hbounded : Bounded s' inst') : Counted s' := by
  have hin := mem_ready hl
  have hmem := hs.sound.mem_edited hl hl'
  refine ⟨hs.sound.step h, htasks, ?_, ?_, ?_, ?_⟩
  · intro task htask
    rw [hdrawn]
    rcases hknown task htask with hold | hold
    · obtain ⟨task', htask', heq⟩ := mem_map.mp hold
      rw [← heq]
      exact hs.known task' htask'
    · rw [hold]
      exact hs.sound.drawn inst hin
  · intro cell hnew
    rw [hdrawn] at hnew
    rw [hbegun cell]
    · exact hs.fresh cell hnew
    · rintro rfl
      exact hnew (hs.sound.drawn inst hin)
  · intro y hy hrun task htask
    rcases hmem y hy with rfl | ⟨hy, hne⟩
    · exact absurd hrun hstate
    rcases hknown task htask with hold | hold
    · obtain ⟨task', htask', heq⟩ := mem_map.mp hold
      rw [← heq]
      exact hs.running y hy hrun task' htask'
    · rw [hold]
      exact hne.symm
  · intro y hy
    rcases hmem y hy with rfl | ⟨hy, hne⟩
    · exact hbounded
    · exact (Calm.refl y).bounded (hs.bounded y hy) (hbegun y.cell hne) (hpermits y.cell hne)

theorem Counted.begin {run : StartRun} (hs : Counted s) (hown : OwnSlot s (.Run i (.Begin ctx)))
    (htask : s.starts[i]? = some task) (h : s.step (.Run i (.Begin ctx)) = some s')
    (hphase : task.phase = .Inputs run) (hspawn : ctx.spawn = .Respawn)
    (hid : ctx.instance_id = task.id) (hstart : s.node.register_start ctx = (.ok generation, node))
    (hslot : s.node.respawnSlot ctx = some inst) (hs' : s' = { s with
      node
      begun := update s.begun inst.cell (s.begun inst.cell + 1) }.setTask i task
        (some (.Registered run generation))) : Counted s' := by
  obtain ⟨l, hl⟩ := hs.sound.ready
  rcases register_start_cases hl ctx with
    ⟨_, hnew, _⟩ | ⟨l1, inst', l2, _, hsplit, hinst, hwaits, hslot', heq⟩ | ⟨_, _, herror⟩
  · rw [hspawn] at hnew
    cases hnew
  · cases hslot.symm.trans hslot'
    have hstage : node.stage = .Ready (l1 ++ inst.begin_respawn ctx.incarnation :: l2) := by
      cases hstart.symm.trans heq
      rfl
    rw [hsplit] at hl
    have hin := mem_ready hl
    have hcell : inst.cell = task.cell := by
      apply hown task htask inst
      rw [← hid, ← hinst]
      exact slot_of_id hs.sound hin
    have hwas : task.mayBeginOf inst.cell = true := by
      simp [mayBeginOf, mayBegin, hphase, hcell]
    have hold := countP_task htask inst.cell
    have hnew := countP_updateTask htask (.Registered run generation) inst.cell
    rw [if_pos hwas] at hold
    rw [if_neg (by simp [mayBeginOf, mayBegin])] at hnew
    have hstarts : s'.starts = updateTask s.starts i task (some (.Registered run generation)) := by
      rw [hs']
      rfl
    have hbegun : s'.begun = update s.begun inst.cell (s.begun inst.cell + 1) := by
      rw [hs']
      rfl
    refine hs.edit h (inst.begin_respawn ctx.incarnation) hl (by rw [hs']; exact hstage) rfl
      (by rw [hs']; rfl) ?_ ?_ ?_ ?_ (by simp [TrackedNodeInstance.begin_respawn]) ?_
    · intro cell hne
      rw [hbegun, update_of_ne hne]
    · rw [hstarts]
      exact hs.tasks.sublist (cells_updateTask htask)
    · intro t ht
      rw [hstarts] at ht
      exact .inl ((cells_updateTask htask).subset (mem_map_of_mem ht))
    · intro cell _
      rw [permits, permits, hstarts]
      refine permits_updateTask_le htask (fun p hp => ?_) cell
      cases hp
      rintro ⟨⟩
    · intro m hm hcap
      have hlive := (hs.bounded inst hin m hm hcap).live (by rw [(state_of_awaits hwaits).1]; rfl)
      rw [permits, hold] at hlive
      have hbegun' : s'.begun inst.cell = s.begun inst.cell + 1 := by
        rw [hbegun, update_self]
      refine ⟨fun _ => ?_, ?_⟩
      · show s'.begun inst.cell + permits s' inst.cell ≤ inst.supervision.attempt ∧
          inst.supervision.attempt ≤ m
        rw [permits, hstarts, hnew, hbegun']
        omega
      · show s'.begun inst.cell ≤ m
        omega
  · rw [hstart] at herror
    cases herror

variable {attempt : Nat}

theorem next_attempt_of_lt (h : attempt < U32_MAX) (hran : backoff.resets ran_for = false) :
    (backoff.next attempt ran_for).attempt = attempt + 1 := by
  simp only [RestartBackoff.next, hran, saturating_add]
  simp only [Bool.false_eq_true, if_false]
  omega

theorem bounded_next_attempt (inst : TrackedNodeInstance)
    (backoff : RestartBackoff) (ran_for : Option Nat) (now system_now : Nat)
    (hbegun : ∀ m, inst.supervision.restart.max_restarts = some m → m < U32_MAX →
      s'.begun inst.cell ≤ m) (hscheduled : ∀ m delay scheduled_at,
      inst.supervision.restart.max_restarts = some m → m < U32_MAX →
    (inst.take_next_attempt backoff ran_for now system_now).1 =
        .Scheduled (backoff.next inst.supervision.attempt ran_for).attempt delay scheduled_at →
      s'.begun inst.cell + permits s' inst.cell ≤
        (backoff.next inst.supervision.attempt ran_for).attempt) :
    Bounded s' (inst.take_next_attempt backoff ran_for now system_now).2 := by
  intro m
  rcases inst.take_next_attempt_cases backoff ran_for now system_now with
    ⟨m', _, _, heq⟩ | ⟨hcap, heq⟩
  · rw [heq]
    exact fun hm hlt => ⟨nofun, hbegun m hm hlt⟩
  · intro hm hlt
    have hscheduled := fun hm => hscheduled m _ _ hm hlt (congrArg Prod.fst heq)
    rw [heq] at hm ⊢
    exact ⟨fun _ => ⟨hscheduled hm, hcap m hm⟩, hbegun m hm hlt⟩

theorem Counted.markFailed {reason : String} {next : Option Attempt}
    {phase : Option StartPhase} (hs : Counted s)
    (hown : OwnSlot s (.Run i (.MarkFailed reason backoff now system_now)))
    (htask : s.starts[i]? = some task)
    (h : s.step (.Run i (.MarkFailed reason backoff now system_now)) = some s')
    (hphase : task.phase = .StartFailed)
    (hmark : s.node.mark_start_failed task.id (.Message reason) backoff now system_now =
    (next, node)) (hnext : phase = some .Waiting ∧ (∃ attempt delay scheduled_at,
        next = some (.Scheduled attempt delay scheduled_at)) ∨ phase = none ∧
      ∀ attempt delay scheduled_at, next ≠ some (.Scheduled attempt delay scheduled_at))
    (hs' : s' = { s with node }.setTask i task phase) : Counted s' := by
  obtain ⟨l, hl⟩ := hs.sound.ready
  have hstarts : s'.starts = updateTask s.starts i task phase := by rw [hs']; rfl
  have hbegun : s'.begun = s.begun := by rw [hs']; rfl
  have hdrawn : s'.drawn = s.drawn := by rw [hs']; rfl
  have hnode : s'.node = node := by rw [hs']; rfl
  have hcells : (s'.starts.map (·.cell)).Sublist (s.starts.map (·.cell)) := by
    rw [hstarts]
    exact cells_updateTask htask
  rcases edit_awaiting_restart_cases hl
    (fun inst => inst.startFailed (.Message reason) backoff now system_now) with
    ⟨l1, inst, l2, hsplit, hfind, hwaits, heq⟩ | heq
  · cases hmark.symm.trans heq
    rw [hsplit] at hl
    have hin := mem_ready hl
    have hcell : inst.cell = task.cell := by
      apply hown task htask inst
      rw [instance_slot_ready hl, ← instance_mut_ready hl, hfind,
        mem_some_iff]
    have hold : permits s inst.cell =
        (s.starts.eraseIdx i).countP (mayBeginOf inst.cell) := by
      rw [permits, countP_task htask, if_neg (by simp [mayBeginOf, mayBegin,
        hphase]), Nat.add_zero]
    have hother : ∀ cell, cell ≠ inst.cell → permits s' cell ≤ permits s cell := by
      intro cell hne
      rw [permits, permits, hstarts]
      rcases hnext with ⟨rfl, _⟩ | ⟨rfl, _⟩
      · rw [countP_task htask, countP_updateTask htask,
          if_neg (by simp [mayBeginOf, ← hcell, hne.symm])]
        omega
      · exact (eraseIdx_sublist _ _).countP_le
    have hstate := (state_of_awaits hwaits).1
    have hlive : ∀ m, inst.supervision.restart.max_restarts = some m → m < U32_MAX →
        s.begun inst.cell + permits s inst.cell ≤ inst.supervision.attempt ∧
          inst.supervision.attempt ≤ m :=
      fun m hm hcap => (hs.bounded inst hin m hm hcap).live (by rw [hstate]; rfl)
    refine hs.edit h (inst.startFailed (.Message reason) backoff now system_now).2 hl
      (by rw [hnode]) ?_ hdrawn (fun cell _ => by rw [hbegun]) (hs.tasks.sublist hcells)
      (fun t ht => Or.inl (hcells.subset (mem_map_of_mem ht))) hother ?_ ?_
    · obtain ⟨_, _, _, hshape⟩ := take_next_attempt_shape _ backoff none now system_now
      rw [TrackedNodeInstance.startFailed, hshape]
    · intro hrun
      have := startFailed_state hwaits (.Message reason) backoff now system_now
      rw [hrun] at this
      cases this
    · apply bounded_next_attempt
      · intro m hm hcap
        have := hlive m hm hcap
        rw [hbegun]
        exact le_trans (Nat.le_add_right _ _) (this.1.trans this.2)
      · intro m delay scheduled_at hm hcap hnext'
        have hphase' : phase = some .Waiting := by
          rcases hnext with ⟨hphase', _⟩ | ⟨_, hnot⟩
          · exact hphase'
          · exact absurd (congrArg some hnext') (hnot _ delay scheduled_at)
        have hlive := hlive m hm hcap
        have hattempt : (backoff.next inst.supervision.attempt none).attempt =
            inst.supervision.attempt + 1 := next_attempt_of_lt (by omega) rfl
        have hnew : permits s' inst.cell = permits s inst.cell + 1 := by
          rw [hold, permits, hstarts, hphase', countP_updateTask htask,
            if_pos (by simp [mayBeginOf, mayBegin, hcell])]
        show s'.begun inst.cell + permits s' inst.cell ≤
          (backoff.next inst.supervision.attempt none).attempt
        rw [hattempt, hbegun, hnew]
        omega
  · cases hmark.symm.trans heq
    refine hs.quiet h hdrawn hbegun hcells ?_ hnode
    intro cell
    rw [permits, permits, hstarts]
    rcases hnext with ⟨_, _, _, _, hne⟩ | ⟨rfl, _⟩
    · cases hne
    · exact (eraseIdx_sublist _ _).countP_le

theorem Counted.run (hs : Counted s)
    (hown : OwnSlot s (.Run i act)) (h : s.step (.Run i act) = some s') : Counted s' := by
  obtain ⟨task, htask, hrun⟩ := bind_eq_some_iff.mp (act_of_step h).1
  have hrun := runStep_cases hrun
  cases hcalm : isCalmAct act with
  | true => exact hs.run_calm hown htask h hrun hcalm
  | false =>
    cases hrun with
    | begin ctx run generation node inst hphase hspawn hid hstart hslot =>
      exact hs.begin hown htask h hphase hspawn hid hstart hslot rfl
    | gone =>
      exact hs.quiet h rfl rfl ((eraseIdx_sublist s.starts i).map _)
        (fun cell => (eraseIdx_sublist s.starts i).countP_le) rfl
    | scheduled reason backoff now system_now attempt delay scheduled_at node hphase hmark =>
      exact hs.markFailed hown htask h hphase hmark (.inl ⟨rfl, _, _, _, rfl⟩) rfl
    | capped reason backoff now system_now next node hphase hnext hmark =>
      exact hs.markFailed hown htask h hphase hmark (.inr ⟨rfl, hnext⟩) rfl
    | _ => cases hcalm

/-! ## The other steps -/

variable {l : List TrackedNodeInstance} {id : Name}

theorem exitStep_split (hl : s.node.stage = .Ready l)
    (h : s.exitStep id pid cause backoff now system_now registrations = s') :
    s' = s ∨ ∃ l1 inst l2, l = l1 ++ inst :: l2 ∧ s.node.instance_mut id = some inst ∧
      inst.runs_unclaimed_process pid ∧ s'.node.stage = .Ready
        (l1 ++ (inst.record_exit cause backoff now system_now registrations).2 :: l2) ∧
      s'.begun = (if backoff.resets (TrackedNodeInstance.ran_for inst.supervision now) then
        update s.begun inst.cell 0 else s.begun) ∧ ∃ extra, s'.starts = s.starts ++ extra ∧
        (extra = [] ∨ ∃ t : StartTask, extra = [t] ∧ t.cell = inst.cell) := by
  rcases s.exitStep_cases id pid cause backoff now system_now registrations with
    ⟨inst, record, node, hinst, hmark, heq⟩ | heq
  · rw [h] at heq
    rcases mark_instance_exited_cases hl pid cause backoff now system_now registrations
      with ⟨l1, inst', l2, hsplit, hinst', hruns, hexit⟩ | hnone
    · cases hinst.symm.trans hinst'
      cases hmark.symm.trans hexit
      refine Or.inr ⟨l1, inst, l2, hsplit, hinst, hruns, by rw [heq], by rw [heq], _,
        by rw [heq], ?_⟩
      split
      · exact .inr ⟨_, rfl, rfl⟩
      · exact .inl rfl
    · cases hmark.symm.trans hnone
  · exact .inl (h.symm.trans heq)

theorem bounded_record_exit (hinst : Bounded s inst) (hlive : isLive inst.state = true)
    (hbegun : s'.begun inst.cell =
      if backoff.resets (TrackedNodeInstance.ran_for inst.supervision now) then 0
      else s.begun inst.cell)
    (hpermits : permits s' inst.cell ≤ permits s inst.cell + 1) (hnone : permits s inst.cell = 0) :
    Bounded s' (inst.record_exit cause backoff now system_now registrations).2 := by
  have hmost : ∀ m, inst.supervision.restart.max_restarts = some m → m < U32_MAX →
      s'.begun inst.cell ≤ m := by
    intro m hm hcap
    have := (hinst m hm hcap).begun
    rw [hbegun]
    split <;> omega
  by_cases hagain : inst.restartsAgain cause
  · rw [TrackedNodeInstance.record_exit_restarts hagain]
    apply bounded_next_attempt
    · exact hmost
    intro m _ _ hm hcap _
    obtain ⟨hcount, hattempt⟩ := (hinst m hm hcap).live hlive
    show s'.begun inst.cell + permits s' inst.cell ≤ (backoff.next inst.supervision.attempt
      (TrackedNodeInstance.ran_for inst.supervision now)).attempt
    rw [hbegun]
    split
    · have := (next_attempt_range backoff inst.supervision.attempt
        (TrackedNodeInstance.ran_for inst.supervision now)).1
      omega
    · rename_i hresets
      rw [next_attempt_of_lt (by omega) (by simpa using hresets)]
      omega
  · rw [TrackedNodeInstance.record_exit_ends hagain]
    refine fun m hm hcap => ⟨fun hends => ?_, hmost m hm hcap⟩
    simp only [TrackedNodeInstance.ended] at hends
    split at hends <;> cases hends

theorem Counted.exit (hs : Counted s)
    (h : s.step (.Exit id pid cause backoff now system_now registrations) = some s') :
    Counted s' := by
  obtain ⟨l, hl⟩ := hs.sound.ready
  have hexit : s.exitStep id pid cause backoff now system_now registrations = s' :=
    Option.some.inj (act_of_step h).1
  rcases exitStep_split hl hexit with
    rfl | ⟨l1, inst, l2, rfl, hinst, hruns, hl', hbegun, extra, hstarts, hextra⟩
  · exact hs
  have hin := mem_ready hl
  have hstate : inst.state = .Running := (state_of_runs_unclaimed_process hruns).1
  have hfree := hs.running inst hin hstate
  have hpermits : ∀ cell, permits s' cell =
      permits s cell + extra.countP (mayBeginOf cell) := by
    intro cell
    rw [permits, permits, hstarts, countP_append]
  have hcells : ∀ t ∈ extra, t.cell = inst.cell := by
    rcases hextra with rfl | ⟨t, rfl, hcell⟩
    · simp
    · simpa using hcell
  have hlength : extra.length ≤ 1 := by
    rcases hextra with rfl | ⟨t, rfl, _⟩ <;> simp
  refine hs.edit h _ hl hl' ?_ ?_ ?_ ?_ ?_ ?_ ?_ ?_
  · obtain ⟨_, _, _, _, _, heq⟩ :=
      record_exit_shape inst cause backoff now system_now registrations
    rw [heq]
    rfl
  · rw [← hexit]
    exact (s.exitStep_frame id pid cause backoff now system_now registrations).2.2
  · intro cell hne
    rw [hbegun]
    split
    · exact update_of_ne hne _ _
    · rfl
  · rw [hstarts]
    exact nodup_append_task hs.tasks hfree hextra
  · intro t ht
    rw [hstarts, mem_append] at ht
    rcases ht with ht | ht
    · exact .inl (mem_map_of_mem ht)
    · exact .inr (hcells t ht)
  · intro cell hne
    have hzero : extra.countP (mayBeginOf cell) = 0 := by
      rw [countP_eq_zero]
      intro t ht hbegin
      simp only [mayBeginOf, Bool.and_eq_true, decide_eq_true_eq] at hbegin
      exact hne (hbegin.1.symm.trans (hcells t ht))
    rw [hpermits, hzero, Nat.add_zero]
  · intro hrun
    have := record_exit_state inst cause backoff now system_now registrations
    rw [hrun] at this
    cases this
  · refine bounded_record_exit (hs.bounded inst hin) (by rw [hstate]; rfl) ?_ ?_
      (permits_eq_zero hfree)
    · rw [hbegun]
      split
      · exact update_self _ _ _
      · rfl
    · rw [hpermits]
      have := countP_le_length (p := mayBeginOf inst.cell) (l := extra)
      omega

theorem firstStart_split (hl : s.node.stage = .Ready l) (h : s.firstStart ctx = some s') :
    ctx.cell ∉ s.drawn ∧ s'.drawn = ctx.cell :: s.drawn ∧ s'.begun = s.begun ∧
    (∀ y ∈ s'.node.instances, y ∈ s.node.instances ∨
        ∃ first_start, y = NodeEntity.new_slot ctx first_start) ∧
      ∃ extra, s'.starts = s.starts ++ extra ∧ (extra = [] ∨
        ∃ t : StartTask, extra = [t] ∧ t.cell = ctx.cell ∧ t.mayBegin = false) := by
  obtain ⟨hcell, hdrawn, first_start, hspawn, hcases⟩ := firstStart_cases h
  rcases hcases with ⟨generation, node, hstart, hs'⟩ | hs'
  · rcases register_start_cases hl ctx with
      ⟨first_start', _, _, heq⟩ | ⟨_, _, _, hrespawn, _⟩ | ⟨_, _, herror⟩
    · cases hstart.symm.trans heq
      subst hs'
      refine ⟨hcell, hdrawn, rfl, fun y hy => ?_, _, rfl, .inr ⟨_, rfl, rfl, rfl⟩⟩
      rw [instances_ready rfl, mem_append, mem_singleton] at hy
      rw [instances_ready hl]
      exact hy.imp_right fun hy => ⟨first_start', hy⟩
    · rw [hspawn] at hrespawn
      cases hrespawn
    · cases hstart.symm.trans herror
  · subst hs'
    exact ⟨hcell, hdrawn, rfl, fun y hy => Or.inl hy, [], by simp, .inl rfl⟩

theorem Counted.first (hs : Counted s) (h : s.step (.FirstStart ctx) = some s') : Counted s' := by
  obtain ⟨l, hl⟩ := hs.sound.ready
  obtain ⟨hcell, hdrawn, hbegun, hmem, extra, hstarts, hextra⟩ :=
    firstStart_split hl (act_of_step h).1
  have hfree : ∀ task ∈ s.starts, task.cell ≠ ctx.cell := by
    rintro task htask hcell'
    exact hcell (hcell' ▸ hs.known task htask)
  have hcells : ∀ t ∈ extra, t.cell = ctx.cell := by
    rcases hextra with rfl | ⟨t, rfl, hcell, _⟩
    · simp
    · simpa using hcell
  have hpermits : ∀ cell, permits s' cell = permits s cell := by
    intro cell
    rw [permits, permits, hstarts, countP_append]
    rcases hextra with rfl | ⟨t, rfl, _, hbegin⟩
    · simp
    · simp [mayBeginOf, hbegin]
  refine ⟨hs.sound.step h, ?_, ?_, ?_, ?_, ?_⟩
  · rw [hstarts]
    exact nodup_append_task hs.tasks hfree (hextra.imp_right fun ⟨t, ht, hc, _⟩ => ⟨t, ht, hc⟩)
  · intro task hin
    rw [hstarts, mem_append] at hin
    rw [hdrawn]
    rcases hin with hin | hin
    · exact mem_cons_of_mem _ (hs.known task hin)
    · rw [hcells task hin]
      exact mem_cons_self
  · intro cell hnew
    rw [hdrawn, mem_cons, not_or] at hnew
    rw [hbegun]
    exact hs.fresh cell hnew.2
  · intro y hy hrun task hin
    rcases hmem y hy with hy | ⟨first_start, rfl⟩
    · rw [hstarts, mem_append] at hin
      rcases hin with hin | hin
      · exact hs.running y hy hrun task hin
      · rw [hcells task hin]
        intro hold
        exact hcell (hold ▸ hs.sound.drawn y hy)
    · cases hrun
  · intro y hy
    rcases hmem y hy with hy | ⟨first_start, rfl⟩
    · exact (Calm.refl y).bounded (hs.bounded y hy) (by rw [hbegun]) (hpermits y.cell).le
    intro m _ _
    have hzero : s'.begun ctx.cell = 0 := by rw [hbegun, hs.fresh ctx.cell hcell]
    have hnone : permits s' ctx.cell = 0 := by rw [hpermits, permits_eq_zero hfree]
    refine ⟨fun _ => ⟨?_, Nat.zero_le m⟩, ?_⟩
    · show s'.begun ctx.cell + permits s' ctx.cell ≤ 0
      omega
    · show s'.begun ctx.cell ≤ m
      omega

theorem Counted.still (hs : Counted s) (h : s.step a = some s')
    (hR : s.Allows s' (calmRights s s' fun _ => False) a) (hstarts : s'.starts = s.starts)
    (hbegun : s'.begun = s.begun) (hdrawn : s'.drawn = s.drawn) : Counted s' := by
  refine hs.calm h hdrawn hbegun (by rw [hstarts]) (fun cell => ?_)
    (fun y hy => calm_before (fun _ => False) hs.sound hdrawn hR h hy) (fun _ _ h => h.elim)
  rw [permits, permits, hstarts]

theorem Counted.step (hs : Counted s) (hown : OwnSlot s a)
    (h : s.step a = some s') : Counted s' := by
  have hact := (act_of_step h).1
  have hdraw : ∀ cell, cell ∉ s.drawn → cell ∈ s'.drawn → cell ∉ s.drawn ∧ cell ∈ s'.drawn :=
    fun _ hnew hold => ⟨hnew, hold⟩
  cases a with
  | FirstStart ctx => exact hs.first h
  | Run i act => exact hs.run hown h
  | Exit id pid cause backoff now system_now registrations => exact hs.exit h
  | _ =>
    obtain ⟨hstarts, hbegun, hdrawn, _⟩ := act_frame rfl hact
    exact hs.still h ⟨hdraw, trivial⟩ hstarts hbegun hdrawn

theorem Counted.of_run {config : NodeConfig} {actions : List Action}
    (hrun : runs.run Supervised.step (Supervised.new config generation) actions = some s)
    (hown : Meets Supervised.step OwnSlot (Supervised.new config generation) actions) : Counted s :=
  run_keeps_where (fun _ _ _ hs hown h => hs.step hown h) (.init config generation) hown hrun

/-! ## The attempt past the cap -/

/-- The number of the attempt that comes next, as no `u32` bounds it. -/
def neededAttempt (backoff : RestartBackoff) (attempt : Nat) (ran_for : Option Nat) : Nat :=
  if backoff.resets ran_for then 1 else attempt + 1

/-- An exit or failed start of the slot, whose restart is attempt `n`. -/
def NeedsAttempt (s : Supervised) (inst : TrackedNodeInstance) (n : Nat) : Action → Prop
  | .Exit id pid cause backoff now _ _ =>
    s.node.instance_mut id = some inst ∧ inst.runs_unclaimed_process pid ∧
      inst.restartsAgain cause ∧
      neededAttempt backoff inst.supervision.attempt
        (TrackedNodeInstance.ran_for inst.supervision now) = n
  | .Run i (.MarkFailed _ backoff _ _) =>
    ∃ task, s.starts[i]? = some task ∧ s.node.instance_mut task.id = some inst ∧
      inst.awaits_restart ∧ neededAttempt backoff inst.supervision.attempt none = n
  | _ => False

theorem failed_of_needed (hcap : inst.supervision.restart.max_restarts = some m) (hm : m < U32_MAX)
    (hneed : neededAttempt backoff inst.supervision.attempt ran_for = m + 1) :
    (inst.take_next_attempt backoff ran_for now system_now).2.state = .Failed := by
  have hnext : (backoff.next inst.supervision.attempt ran_for).attempt = m + 1 := by
    unfold neededAttempt at hneed
    simp only [RestartBackoff.next, saturating_add]
    split at hneed
    · rename_i hresets
      rw [if_pos hresets]
      exact hneed
    · rename_i hresets
      rw [if_neg hresets]
      omega
  rcases inst.take_next_attempt_cases backoff ran_for now system_now with
    ⟨m', _, _, heq⟩ | ⟨hle, _⟩
  · rw [heq]
  · have := hle m hcap
    omega

theorem failed_past_the_cap
    (hs : Sound s) (hcap : inst.supervision.restart.max_restarts = some m) (hm : m < U32_MAX)
    (hneed : NeedsAttempt s inst (m + 1) a) (h : s.step a = some s') :
    ∃ y ∈ s'.node.instances, y.cell = inst.cell ∧ y.state = .Failed := by
  obtain ⟨l, hl⟩ := hs.ready
  have hact := (act_of_step h).1
  have hset : ∀ {id y}, s.node.instance_mut id = some inst → y.cell = inst.cell →
      y.state = .Failed → s'.node = s.node.set_instance id y →
      ∃ y ∈ s'.node.instances, y.cell = inst.cell ∧ y.state = .Failed := by
    intro id y hinst hcell hstate hnode
    obtain ⟨l1, l2, _, heq⟩ := set_instance_split hl hinst y
    refine ⟨y, ?_, hcell, hstate⟩
    rw [hnode, heq, instances_ready rfl]
    simp
  cases a with
  | Exit id pid cause backoff now system_now registrations =>
    obtain ⟨hinst, hruns, hagain, hneed⟩ := hneed
    have hexit := TrackedNodeInstance.record_exit_restarts hagain backoff now system_now
      registrations
    refine hset hinst (y := (inst.record_exit cause backoff now system_now registrations).2)
      ?_ ?_ ?_
    · obtain ⟨_, _, _, _, _, heq⟩ :=
        record_exit_shape inst cause backoff now system_now registrations
      rw [heq]
      rfl
    · rw [hexit]
      exact failed_of_needed hcap hm hneed
    · have hs' : s.exitStep id pid cause backoff now system_now registrations = s' :=
        Option.some.inj hact
      rw [← hs']
      simp only [exitStep, mark_instance_exited, hinst, hruns, if_true]
      split <;> rfl
  | Run i act =>
    cases act with
    | MarkFailed reason backoff now system_now =>
      obtain ⟨task, htask, hinst, hwaits, hneed⟩ := hneed
      obtain ⟨task', htask', hrun⟩ := bind_eq_some_iff.mp hact
      cases htask.symm.trans htask'
      have hfailed : s.node.mark_start_failed task.id (.Message reason) backoff now system_now =
          (some (inst.startFailed (.Message reason) backoff now system_now).1,
            s.node.set_instance task.id
              (inst.startFailed (.Message reason) backoff now system_now).2) := by
        simp only [mark_start_failed, edit_awaiting_restart, hinst, hwaits,
          if_true]
        rfl
      refine hset hinst (y := (inst.startFailed (.Message reason) backoff now system_now).2)
        ?_ ?_ ?_
      · obtain ⟨_, _, _, hshape⟩ := take_next_attempt_shape _ backoff none now system_now
        rw [TrackedNodeInstance.startFailed, hshape]
      · exact failed_of_needed hcap hm hneed
      · cases runStep_cases hrun with
        | scheduled _ _ _ _ _ _ _ node _ hmark =>
          exact congrArg Prod.snd (hmark.symm.trans hfailed)
        | capped _ _ _ _ next node _ _ hmark =>
          exact congrArg Prod.snd (hmark.symm.trans hfailed)
    | _ => exact hneed.elim
  | _ => exact hneed.elim

/-! ## The slots that are over -/

/-- The slot, unless removed, is in `state` after `n` restarts. -/
structure Settled (cell : Nat) (state : InstanceState) (n : Nat) (s : Supervised) : Prop where
  sound : Sound s
  known : cell ∈ s.drawn
  state : ∀ y ∈ s.node.instances, y.cell = cell → y.state = state
  begun : s.begun cell = n

theorem over_of_move {a : TrackedNodeInstance} (h : Move R a b)
    (hover : isLive a.state = false) : b.state = a.state := by
  cases h with
  | respawn _ h | fail _ _ _ _ h | refuse h =>
    rw [(state_of_awaits h).1] at hover
    cases hover
  | revert h =>
    rw [(state_of_starts_a_restart h).1] at hover
    cases hover
  | commit _ _ _ _ h =>
    rw [h] at hover
    cases hover
  | exit _ _ _ _ _ _ h =>
    rw [(state_of_runs_unclaimed_process h).1] at hover
    cases hover
  | _ => rfl

theorem begun_step (hs : Sound s) (h : s.step a = some s') :
    s'.begun = s.begun ∨ ∃ inst ∈ s.node.instances, isLive inst.state = true ∧
      ∀ cell, cell ≠ inst.cell → s'.begun cell = s.begun cell := by
  obtain ⟨l, hl⟩ := hs.ready
  have hact := (act_of_step h).1
  cases a with
  | FirstStart ctx => exact .inl (firstStart_split hl hact).2.2.1
  | Run i act =>
    obtain ⟨task, _, hrun⟩ := bind_eq_some_iff.mp hact
    cases runStep_cases hrun with
    | begin ctx run generation node inst _ _ _ _ hslot =>
      have hwaits := find?_some hslot
      rw [Bool.and_eq_true] at hwaits
      refine Or.inr ⟨inst, mem_of_find?_eq_some hslot, ?_, fun cell hne => ?_⟩
      · rw [(state_of_awaits hwaits.2).1]
        rfl
      · exact update_of_ne hne _ _
    | _ => exact .inl rfl
  | Exit id pid cause backoff now system_now registrations =>
    rcases exitStep_split hl (Option.some.inj hact) with
      rfl | ⟨l1, inst, l2, rfl, _, hruns, _, hbegun, _⟩
    · exact .inl rfl
    refine Or.inr ⟨inst, mem_ready hl, ?_, fun cell hne => ?_⟩
    · rw [(state_of_runs_unclaimed_process hruns).1]
      rfl
    · rw [hbegun]
      split
      · exact update_of_ne hne _ _
      · rfl
  | _ => exact .inl (act_frame rfl hact).2.1

theorem Settled.step {n : Nat} {state : InstanceState}
    (hs : Settled cell state n s) (hover : isLive state = false) (h : s.step a = some s') :
    Settled cell state n s' := by
  obtain ⟨l, hl⟩ := hs.sound.ready
  refine ⟨hs.sound.step h, (step_cases hl (allows_stepRights s s' a) h).drawn hs.known, ?_, ?_⟩
  · intro y hy hcell
    obtain ⟨x, hx, hcell, hmove⟩ := cell_before hs.sound hs.known h hy hcell
    have hstate := hs.state x hx hcell
    rcases hmove with rfl | hmove | rfl | rfl
    · exact hstate
    · rw [over_of_move hmove (hstate ▸ hover), hstate]
    · exact hstate
    · exact hstate
  · rw [← hs.begun]
    rcases begun_step hs.sound h with heq | ⟨inst, hin, hlive, heq⟩
    · rw [heq]
    · apply heq
      rintro rfl
      rw [hs.state inst hin rfl, hover] at hlive
      cases hlive

/-! ## The law of the cap -/

/-- Below `u32::MAX`, at most `m` restarts of a slot with the cap `m` begin since its first
start or its last long process. The attempt past the cap fails the slot, and one that is
over never starts again. -/
theorem the_cap_holds_the_restarts (config : NodeConfig) (generation : Nat)
    (actions : List Action) (s : Supervised)
    (hrun : runs.run step (Supervised.new config generation) actions = some s)
    (hown : Meets step OwnSlot (Supervised.new config generation) actions)
    (inst : TrackedNodeInstance) (hin : inst ∈ s.node.instances) (m : Nat)
    (hcap : inst.supervision.restart.max_restarts = some m) (hm : m < U32_MAX) :
    s.begun inst.cell ≤ m ∧
    (∀ a s', NeedsAttempt s inst (m + 1) a → s.step a = some s' →
      ∃ y ∈ s'.node.instances, y.cell = inst.cell ∧ y.state = .Failed) ∧
    (inst.state = .Failed ∨ inst.state = .Finished →
      ∀ more s', runs.run step s more = some s' →
        (∀ y ∈ s'.node.instances, y.cell = inst.cell → y.state = inst.state) ∧
          s'.begun inst.cell = s.begun inst.cell) := by
  have hs := Counted.of_run hrun hown
  refine ⟨(hs.bounded inst hin m hcap hm).begun,
    fun a s' => failed_past_the_cap hs.sound hcap hm, fun hover more s' hmore => ?_⟩
  have hsettled : Settled inst.cell inst.state (s.begun inst.cell) s := by
    refine ⟨hs.sound, hs.sound.drawn inst hin, fun y hy hcell => ?_, rfl⟩
    rw [inj_on_of_nodup_map hs.sound.cells hy hin hcell]
  have hover : isLive inst.state = false := by
    rcases hover with hover | hover <;> rw [hover] <;> rfl
  have hend := run_keeps (fun _ _ _ hs h => hs.step hover h) hsettled hmore
  exact ⟨hend.state, hend.begun⟩

def armCrash : List Action :=
  [.FirstStart (armStart (.New armPolicy) 1),
    .Run 0 (.Fork (.ok 41) ⟨"a.json5", "a.key"⟩),
    .Run 0 (.Commit "dir" [] 10 10),
    .Exit armId 41 (.Code 1) armBackoff 20 20 {},
    .Run 0 .Read,
    .Run 0 (.Begin (armStart .Respawn 2)),
    .Run 0 .Fail,
    .Run 0 .Undo]

theorem the_cap_of_an_arm_that_crashed :
    ∃ s inst, runs.run step (Supervised.new armNode 0) armCrash = some s ∧
      s.node.instances = [inst] ∧ inst.supervision.attempt = 1 ∧ s.begun inst.cell = 1 ∧
      s.begun inst.cell ≤ 3 := by
  obtain ⟨s, hs⟩ : ∃ s, runs.run step (Supervised.new armNode 0) armCrash = some s :=
    ⟨_, rfl⟩
  obtain ⟨inst, hinst, hcap, hattempt, hbegun⟩ : ∃ inst, s.node.instances = [inst] ∧
      inst.supervision.restart.max_restarts = some 3 ∧ inst.supervision.attempt = 1 ∧
      s.begun inst.cell = 1 := by
    cases hs
    exact ⟨_, rfl, rfl, rfl, rfl⟩
  have hown : Meets step OwnSlot (Supervised.new armNode 0) armCrash := by
    decide
  have hlaw := the_cap_holds_the_restarts armNode 0 armCrash s hs hown inst (by simp [hinst]) 3 hcap
    (by decide)
  exact ⟨s, inst, hs, hinst, hattempt, hbegun, hlaw.1⟩

/-- A cap of `u32::MAX` restarts. -/
def longPolicy : FirstStart :=
  { restart :=
      { policy := .OnFailure, max_restarts := some U32_MAX, cap_range := by simp [U32_MAX] }
    goal := 0 }

def promptBackoff : RestartBackoff := ⟨0, 0, 300⟩

def armRetry : List Action :=
  [.Run 0 .Read,
    .Run 0 (.Begin (armStart .Respawn 2)),
    .Run 0 .Fail,
    .Run 0 .Undo,
    .Run 0 (.MarkFailed "no answer" promptBackoff 30 30)]

def armLong : List Action :=
  [.FirstStart (armStart (.New longPolicy) 1),
    .Run 0 (.Fork (.ok 41) ⟨"a.json5", "a.key"⟩),
    .Run 0 (.Commit "dir" [] 10 10),
    .Exit armId 41 (.Code 1) promptBackoff 20 20 {}] ++ armRetry

def armSlot (attempt : Nat) (next_start : Option Nat) : TrackedNodeInstance where
  instance_id := armId
  cell := 7
  state := .Restarting
  incarnation := 2
  instance_dir := some "dir"
  run_log_path := some "run.log"
  supervision :=
    { first_start := some longPolicy
      attempt
      last_exit := some (.Message "no answer")
      running_since := some 10
      next_start }

def armAt (attempt n : Nat) (next_start : Option Nat) (phase : StartPhase) : Supervised where
  node := ⟨armNode, .Ready [armSlot attempt next_start], 0⟩
  starts := [⟨armId, 7, true, phase⟩]
  drawn := [7]
  forks := [7]
  begun := update (fun _ => 0) 7 n

variable {n : Nat}

theorem armRetry_fails : run step (armAt (attempt + 1) n (some 30) .Waiting) (armRetry.take 4) =
      some { armAt (attempt + 1) n none .StartFailed with
        begun := update (update (fun _ => 0) 7 n) 7 (update (fun _ => 0) 7 n 7 + 1) } := rfl

theorem next_promptBackoff :
    promptBackoff.next (attempt + 1) none = ⟨min (attempt + 2) U32_MAX, 0⟩ := by
  simp only [RestartBackoff.next, promptBackoff, RestartBackoff.resets, saturating_add,
    Nat.min_zero, Bool.false_eq_true, if_false]
  congr 2
  omega

theorem armSlot_failed :
    (armSlot (attempt + 1) none).startFailed (.Message "no answer") promptBackoff 30 30 =
      (.Scheduled (min (attempt + 2) U32_MAX) 0 30,
        armSlot (min (attempt + 2) U32_MAX) (some 30)) := by
  have hnext : promptBackoff.next (armSlot (attempt + 1) none).supervision.attempt none =
    ⟨min (attempt + 2) U32_MAX, 0⟩ := next_promptBackoff
  have hcases := (armSlot (attempt + 1) none).take_next_attempt_cases promptBackoff none 30 30
  rw [hnext] at hcases
  rcases hcases with ⟨m, hm, hlt, _⟩ | ⟨_, heq⟩
  · cases hm
    exact absurd hlt (Nat.not_lt.mpr (Nat.min_le_right _ _))
  · exact heq

theorem mark_armSlot_failed :
    mark_start_failed ⟨armNode, .Ready [armSlot (attempt + 1) none], 0⟩ armId
      (.Message "no answer") promptBackoff 30 30 =
      (some (.Scheduled (min (attempt + 2) U32_MAX) 0 30),
        ⟨armNode, .Ready [armSlot (min (attempt + 2) U32_MAX) (some 30)], 0⟩) := by
  show (some ((armSlot (attempt + 1) none).startFailed (.Message "no answer") promptBackoff 30
    30).1, set_instance ⟨armNode, .Ready [armSlot (attempt + 1) none], 0⟩ armId
      ((armSlot (attempt + 1) none).startFailed (.Message "no answer") promptBackoff 30 30).2) = _
  rw [armSlot_failed]
  rfl

theorem armRetry_waits : run step (armAt (attempt + 1) n (some 30) .Waiting) armRetry =
      some (armAt (min (attempt + 2) U32_MAX) (n + 1) (some 30) .Waiting) := by
  have hsplit : armRetry = armRetry.take 4 ++ armRetry.drop 4 := rfl
  rw [hsplit, run_append, armRetry_fails, bind_some]
  simp only [armRetry, drop_succ_cons, drop_zero, run_cons, run_nil, armAt,
    step, act, Supervised.runStep, getElem?_cons_zero,
    bind_some, mark_armSlot_failed]
  rw [update_idem, update_self]
  rfl

theorem armRetry_meets :
    Meets step OwnSlot (armAt (attempt + 1) n (some 30) .Waiting) armRetry := by
  have hown : ∀ {s : Supervised} {act : RunAct} {phase inst}, s.starts = [⟨armId, 7, true, phase⟩] →
      s.node.instances = [inst] → inst.cell = 7 → OwnSlot s (.Run 0 act) := by
    intro s act phase inst hstarts hinst hcell task htask slot hslot
    have hmem := mem_of_find?_eq_some hslot
    rw [hinst, mem_singleton] at hmem
    rw [hstarts] at htask
    cases htask
    rw [hmem, hcell]
  refine ⟨hown rfl rfl rfl, fun s hs => ?_⟩
  cases hs
  refine ⟨hown rfl rfl rfl, fun s hs => ?_⟩
  cases hs
  refine ⟨hown rfl rfl rfl, fun s hs => ?_⟩
  cases hs
  refine ⟨hown rfl rfl rfl, fun s hs => ?_⟩
  cases hs
  exact ⟨hown rfl rfl rfl, fun _ _ => trivial⟩

theorem arm_restarts_again (k : Nat) : ∃ actions, run step (Supervised.new armNode 0) actions =
        some (armAt (min (k + 2) U32_MAX) (k + 1) (some 30) .Waiting) ∧
      Meets step OwnSlot (Supervised.new armNode 0) actions := by
  induction k with
  | zero => exact ⟨armLong, rfl, by decide⟩
  | succ k ih =>
    obtain ⟨actions, hrun, hmeets⟩ := ih
    have hmax : U32_MAX = 4294967295 := rfl
    obtain ⟨attempt, hattempt⟩ : ∃ attempt, min (k + 2) U32_MAX = attempt + 1 :=
      ⟨min (k + 2) U32_MAX - 1, by omega⟩
    have hnext : min (attempt + 2) U32_MAX = min (k + 1 + 2) U32_MAX := by omega
    rw [hattempt] at hrun
    refine ⟨actions ++ armRetry, ?_, hmeets.append hrun (armRetry_meets)⟩
    rw [run_append, hrun, bind_some, armRetry_waits, hnext]

/-- With the cap `u32::MAX` the attempt past the cap is never reached. -/
theorem restarts_past_a_cap_of_u32_max :
    ∃ actions s inst, run step (Supervised.new armNode 0) actions = some s ∧
      Meets step OwnSlot (Supervised.new armNode 0) actions ∧
      s.node.instances = [inst] ∧ inst.supervision.restart.max_restarts = some U32_MAX ∧
      U32_MAX < s.begun inst.cell := by
  obtain ⟨actions, hrun, hmeets⟩ := arm_restarts_again U32_MAX
  refine ⟨actions, _, _, hrun, hmeets, rfl, rfl, ?_⟩
  show U32_MAX < update (fun _ => 0) 7 (U32_MAX + 1) 7
  rw [update_self]
  exact Nat.lt_succ_self _

end peppy.supervisor
