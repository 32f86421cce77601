-- The laws of a claim. Once a stop path claimed a slot, no other task moves
-- it: the slot waits for its removal. Of all claims of a slot, one sets its
-- flag.
import Peppy.SlotStates
import Peppy.Supervisor

open changes runs peppy.node_config peppy.pairing peppy.supervision peppy.entity List

namespace peppy.supervisor

open NodeEntity

open Supervised

/-! ## A claimed slot under one move -/

/-- What stays of `x` until `y`. `InFlight`: its commit was on its way. -/
structure Held (InFlight : Prop) (x y : TrackedNodeInstance) : Prop where
  instance_id : y.instance_id = x.instance_id
  stopping : y.stopping = true
  token : x.supervision.restart_token = true → y.supervision.restart_token = true
  pid : y.pid = x.pid
  incarnation : y.incarnation = x.incarnation
  last_exit : y.supervision.last_exit = x.supervision.last_exit
  attempt : y.supervision.attempt = x.supervision.attempt
  next_start : y.supervision.next_start = x.supervision.next_start
  health_kill : y.supervision.health_kill = x.supervision.health_kill
  state : y.state = x.state ∨ (x.state = .Starting ∧ y.state = .Running ∧ InFlight)

variable {x : TrackedNodeInstance}

theorem Held.refl {InFlight : Prop} (h : x.stopping = true) : Held InFlight x x :=
  ⟨rfl, h, id, rfl, rfl, rfl, rfl, rfl, rfl, .inl rfl⟩

variable {R : Rights} {inst y : TrackedNodeInstance} {cell : Nat} {s s' v w : Supervised}

theorem Move.of_claimed {a b : TrackedNodeInstance} (h : Move R a b) (hstop : a.stopping = true) :
    (∃ instance_dir endpoints now system_now, R.commit a ∧ a.state = .Starting ∧
      b = a.committed instance_dir endpoints now system_now) ∨
    (∃ requests, b = { a with shutdown_requests := requests }) ∨ b = a.mark_stopping := by
  cases h with
  | commit instance_dir endpoints now system_now hstate right =>
    exact .inl ⟨instance_dir, endpoints, now, system_now, right, hstate, rfl⟩
  | note requests => exact .inr (.inl ⟨requests, rfl⟩)
  | claim => exact .inr (.inr rfl)
  | respawn _ h | fail _ _ _ _ h | refuse h | log _ h => simp [(state_of_awaits h).2] at hstop
  | fork _ _ _ hclaim | revert _ hclaim => simp [hclaim] at hstop
  | exit _ _ _ _ _ _ h => simp [(state_of_runs_unclaimed_process h).2] at hstop
  | arm _ h => simp [(state_of_runs_unclaimed h).2] at hstop

theorem Held.move {InFlight : Prop} {z : TrackedNodeInstance}
    (h : Held InFlight x y) (hmove : Move R y z) (hcommit : R.commit y → InFlight) :
    Held InFlight x z := by
  obtain ⟨hid, hstop, htoken, hpid, hinc, hexit, hattempt, hnext, hkill, hstate⟩ := h
  rcases Move.of_claimed hmove hstop with
    ⟨instance_dir, endpoints, now, system_now, hright, hstarting, rfl⟩ | ⟨requests, rfl⟩ | rfl
  · have hx : x.state = .Starting := by
      rcases hstate with heq | ⟨hx, _⟩
      · rw [← heq]
        exact hstarting
      · exact hx
    obtain ⟨restart_count, registrations, heq⟩ :=
      committed_shape y instance_dir endpoints now system_now
    rw [heq]
    exact ⟨hid, hstop, htoken, hpid, hinc, hexit, hattempt, hnext, hkill,
      Or.inr ⟨hx, rfl, hcommit hright⟩⟩
  · exact ⟨hid, hstop, htoken, hpid, hinc, hexit, hattempt, hnext, hkill, hstate⟩
  · exact ⟨hid, rfl, fun _ => rfl, hpid, hinc, hexit, hattempt, hnext, hkill, hstate⟩

theorem Held.swapped {InFlight : Prop} {x : TrackedNodeInstance} (h : Held InFlight x y) :
    Held InFlight x (Supervised.swapped y) :=
  ⟨h.instance_id, rfl, h.token, h.pid, h.incarnation, h.last_exit, h.attempt, h.next_start,
    h.health_kill, h.state⟩

theorem Held.cancelled {InFlight : Prop} {x : TrackedNodeInstance} (h : Held InFlight x y) :
    Held InFlight x (Supervised.cancelled y) :=
  ⟨h.instance_id, h.stopping, fun _ => rfl, h.pid, h.incarnation, h.last_exit, h.attempt,
    h.next_start, h.health_kill, h.state⟩

/-! ## The slots and the claims of a supervised node -/

/-- A task under the id of the slot holds a forked process. -/
def InFlight (s : Supervised) (x : TrackedNodeInstance) : Prop :=
  ∃ task ∈ s.starts, task.id = x.instance_id ∧ task.HasForked

/-- Only a task with a forked process commits, and no slot is claimed. -/
def stepRights (s s' : Supervised) : Rights where
  draw cell := cell ∉ s.drawn ∧ cell ∈ s'.drawn
  respawn _ := True
  commit inst := InFlight s inst
  exit _ := True
  fail _ := True

theorem allows_stepRights (s s' : Supervised) (a : Action) : s.Allows s' (stepRights s s') a := by
  refine ⟨fun cell h h' => ⟨h, h'⟩, ?_⟩
  split
  · exact fun _ => trivial
  · exact fun task htask hforked inst hid => ⟨task, mem_of_getElem? htask, hid.symm, hforked⟩
  · exact fun _ => trivial
  · exact fun _ => trivial
  · trivial

def Claim.Won (cell : Nat) (c : Claim) : Bool := c.cell = cell && c.phase = .Swapped true

def Answer.Won (cell : Nat) (a : Answer) : Bool := a.cell = cell && a.won

def wins (s : Supervised) (cell : Nat) : Nat :=
  s.claims.countP (Claim.Won cell) + s.answers.countP (Answer.Won cell)

/-- What the slots, the claims and the answers share. -/
structure Sound (s : Supervised) : Prop where
  ready : ∃ l, s.node.stage = .Ready l
  ids : (s.node.instances.map (·.instance_id)).Nodup
  cells : (s.node.instances.map (·.cell)).Nodup
  drawn : ∀ inst ∈ s.node.instances, inst.cell ∈ s.drawn
  answered : ∀ a ∈ s.answers, a.cell ∈ s.drawn
  /-- A claim holds the lock, so its slot stays. -/
  claims : ∀ c ∈ s.claims, ∃ inst ∈ s.node.instances,
    inst.instance_id = c.id ∧ inst.cell = c.cell
  token : ∀ inst ∈ s.node.instances, inst.stopping = true →
    inst.supervision.restart_token = true ∨
      ∃ c ∈ s.claims, c.cell = inst.cell ∧ ∃ won, c.phase = .Swapped won
  wins : ∀ inst ∈ s.node.instances,
    supervisor.wins s inst.cell = if inst.stopping then 1 else 0
  most : ∀ cell, supervisor.wins s cell ≤ 1
  results : ∀ a ∈ s.answers, a.result.isClaimed = (a.won && a.call ≠ .Instance)

theorem Sound.init (config : NodeConfig) (generation : Nat) :
    Sound (Supervised.new config generation) where
  ready := ⟨[], rfl⟩
  ids := nodup_nil
  cells := nodup_nil
  drawn := by simp [Supervised.new, built_in, NodeEntity.instances]
  answered := by simp [Supervised.new]
  claims := by simp [Supervised.new]
  token := by simp [Supervised.new, built_in, NodeEntity.instances]
  wins := by simp [Supervised.new, built_in, NodeEntity.instances]
  most := by simp [Supervised.new, supervisor.wins]
  results := by simp [Supervised.new]

theorem Sound.wins_of_fresh (hs : Sound s) (h : cell ∉ s.drawn) : supervisor.wins s cell = 0 := by
  have hclaims : s.claims.countP (Claim.Won cell) = 0 := by
    rw [countP_eq_zero]
    intro c hc hwon
    obtain ⟨inst, hinst, _, hcell⟩ := hs.claims c hc
    have hc' : c.cell = cell := by
      simp only [Claim.Won, Bool.and_eq_true, decide_eq_true_eq] at hwon
      exact hwon.1
    exact h (hc' ▸ hcell ▸ hs.drawn inst hinst)
  have hanswers : s.answers.countP (Answer.Won cell) = 0 := by
    rw [countP_eq_zero]
    intro a ha hwon
    have ha' : a.cell = cell := by
      simp only [Answer.Won, Bool.and_eq_true, decide_eq_true_eq] at hwon
      exact hwon.1
    exact h (ha' ▸ hs.answered a ha)
  rw [supervisor.wins, hclaims, hanswers]

theorem Sound.write (hs : Sound s) (hfree : s.claims = [])
    (hturn : Turn (stepRights s s') s.node s'.node) (hclaims : s'.claims = s.claims)
    (hanswers : s'.answers = s.answers) (hdrawn : s.drawn ⊆ s'.drawn) : Sound s' := by
  obtain ⟨l, l', hl, hnode, hchange⟩ := hturn
  have hinst := instances_ready hl
  have hinst' : s'.node.instances = l' := by rw [hnode]; rfl
  have hwins : ∀ cell, supervisor.wins s' cell = supervisor.wins s cell := by
    intro cell
    rw [supervisor.wins, supervisor.wins, hclaims, hanswers]
  have hflags : ∀ a b, Move (stepRights s s') a b → b.stopping = a.stopping ∧
      b.supervision.restart_token = a.supervision.restart_token := fun a b h => h.same.2.resolve_left id
  refine ⟨⟨l', by rw [hnode]⟩, ?_, ?_, ?_, ?_, ?_, ?_, ?_, fun cell => hwins cell ▸ hs.most cell,
    hanswers ▸ hs.results⟩
  · rw [hinst']
    refine hchange.nodup (hinst ▸ hs.ids) ?_ fun a b h => h.ids.1
    rintro a ⟨ctx, first_start, rfl, _, hid⟩
    exact hid
  · rw [hinst']
    refine hchange.nodup (hinst ▸ hs.cells) ?_ fun a b h => h.ids.2
    rintro a ⟨ctx, first_start, rfl, hdraw, _⟩ hmem
    obtain ⟨inst, hin, heq⟩ := mem_map.mp hmem
    have hold := hs.drawn inst (hinst ▸ hin)
    rw [heq] at hold
    exact hdraw.1 hold
  · rw [hinst']
    refine hchange.forall (P := fun inst => inst.cell ∈ s'.drawn) ?_ ?_ ?_
    · exact fun inst hin => hdrawn (hs.drawn inst (hinst ▸ hin))
    · rintro a ⟨ctx, first_start, rfl, hdraw, _⟩
      exact hdraw.2
    · exact fun a b ha hab => hab.ids.2 ▸ ha
  · rw [hanswers]
    exact fun a ha => hdrawn (hs.answered a ha)
  · rw [hclaims, hfree]
    simp
  · rw [hinst', hclaims, hfree]
    refine hchange.forall (P := fun inst => inst.stopping = true →
      inst.supervision.restart_token = true ∨ ∃ c ∈ ([] : List Claim), c.cell = inst.cell ∧
        ∃ won, c.phase = .Swapped won) ?_ ?_ ?_
    · intro inst hin hstop
      have := hs.token inst (hinst ▸ hin) hstop
      rwa [hfree] at this
    · rintro a ⟨ctx, first_start, rfl, _⟩ hstop
      cases hstop
    · intro a b ha hab hstop
      rw [(hflags a b hab).1] at hstop
      rw [(hflags a b hab).2, hab.ids.2]
      exact ha hstop
  · rw [hinst']
    refine hchange.forall (P := fun inst =>
      supervisor.wins s' inst.cell = if inst.stopping then 1 else 0) ?_ ?_ ?_
    · intro inst hin
      rw [hwins]
      exact hs.wins inst (hinst ▸ hin)
    · rintro a ⟨ctx, first_start, rfl, hdraw, _⟩
      rw [hwins]
      exact hs.wins_of_fresh hdraw.1
    · intro a b ha hab
      rw [hab.ids.2, (hflags a b hab).1]
      exact ha

/-! ## The atomic steps of a claim -/

variable {l : List TrackedNodeInstance} {id : Name}

theorem editSlot_ready {e : NodeEntity} {id : Name}
    (hl : e.stage = .Ready l) (hslot : e.instance_slot id = some inst)
    (edit : TrackedNodeInstance → TrackedNodeInstance) : ∃ l1 l2, l = l1 ++ inst :: l2 ∧
      editSlot e id edit = { e with stage := .Ready (l1 ++ edit inst :: l2) } := by
  have hfind : e.instance_mut id = some inst := by
    rw [instance_mut_ready hl, ← instance_slot_ready hl, hslot]
  obtain ⟨l1, l2, hsplit, heq⟩ := set_instance_split hl hfind (edit inst)
  exact ⟨l1, l2, hsplit, by rw [editSlot, hfind, ← heq]⟩

theorem Sound.mem_edited (hs : Sound s) {l1 l2 : List TrackedNodeInstance}
    {inst' : TrackedNodeInstance} {e : NodeEntity} (hl : s.node.stage = .Ready (l1 ++ inst :: l2))
    (hl' : e.stage = .Ready (l1 ++ inst' :: l2)) :
    ∀ x ∈ e.instances, x = inst' ∨ (x ∈ s.node.instances ∧ x.cell ≠ inst.cell) := by
  intro x hx
  rw [instances_ready hl'] at hx
  rw [instances_ready hl]
  exact mem_edit (instances_ready hl ▸ hs.cells) hx

theorem Sound.edit (hs : Sound s) {l1 l2 : List TrackedNodeInstance}
    {inst' : TrackedNodeInstance} (hl : s.node.stage = .Ready (l1 ++ inst :: l2))
    (hnode : s'.node = { s.node with stage := .Ready (l1 ++ inst' :: l2) })
    (hid : inst'.instance_id = inst.instance_id) (hcell : inst'.cell = inst.cell)
    (hdrawn : s'.drawn = s.drawn) (hanswers : ∀ a ∈ s'.answers, a ∈ s.answers ∨
      (a.cell = inst.cell ∧ a.result.isClaimed = (a.won && a.call ≠ .Instance)))
    (hclaims : ∀ c ∈ s'.claims, c ∈ s.claims ∨ (c.id = inst.instance_id ∧ c.cell = inst.cell))
    (hkept : ∀ c ∈ s.claims, c.cell ≠ inst.cell → c ∈ s'.claims)
    (hother : ∀ cell, cell ≠ inst.cell → supervisor.wins s' cell = supervisor.wins s cell)
    (htoken : inst'.stopping = true → inst'.supervision.restart_token = true ∨
      ∃ c ∈ s'.claims, c.cell = inst.cell ∧ ∃ won, c.phase = .Swapped won)
    (hwins : supervisor.wins s' inst.cell = if inst'.stopping then 1 else 0) : Sound s' := by
  have hinst := instances_ready hl
  have hinst' : s'.node.instances = l1 ++ inst' :: l2 := by rw [hnode]; rfl
  have hin := mem_ready hl
  have hin' : inst' ∈ s'.node.instances := by rw [hinst']; simp
  have hmem := hs.mem_edited (e := s'.node) hl (by rw [hnode])
  refine ⟨⟨_, by rw [hnode]⟩, ?_, ?_, ?_, ?_, ?_, ?_, ?_, ?_, ?_⟩
  · rw [hinst', map_append, map_cons, hid]
    have := hs.ids
    rwa [hinst, map_append, map_cons] at this
  · rw [hinst', map_append, map_cons, hcell]
    have := hs.cells
    rwa [hinst, map_append, map_cons] at this
  · intro x hx
    rw [hdrawn]
    rcases hmem x hx with rfl | ⟨hx, _⟩
    · rw [hcell]
      exact hs.drawn inst hin
    · exact hs.drawn x hx
  · intro a ha
    rw [hdrawn]
    rcases hanswers a ha with ha | ⟨ha, _⟩
    · exact hs.answered a ha
    · rw [ha]
      exact hs.drawn inst hin
  · intro c hc
    rcases hclaims c hc with hc | ⟨hcid, hccell⟩
    · obtain ⟨x, hx, hxid, hxcell⟩ := hs.claims c hc
      by_cases heq : x = inst
      · subst heq
        exact ⟨inst', hin', hid.trans hxid, hcell.trans hxcell⟩
      refine ⟨x, ?_, hxid, hxcell⟩
      rw [hinst] at hx
      rw [hinst']
      simp only [mem_append, mem_cons] at hx ⊢
      tauto
    · exact ⟨inst', hin', hid.trans hcid.symm, hcell.trans hccell.symm⟩
  · intro x hx hstop
    rcases hmem x hx with rfl | ⟨hx, hne⟩
    · rw [hcell]
      exact htoken hstop
    · rcases hs.token x hx hstop with h | ⟨c, hc, hccell, hphase⟩
      · exact .inl h
      · exact .inr ⟨c, hkept c hc (hccell ▸ hne), hccell, hphase⟩
  · intro x hx
    rcases hmem x hx with rfl | ⟨hx, hne⟩
    · rw [hcell]
      exact hwins
    · rw [hother x.cell hne]
      exact hs.wins x hx
  · intro cell
    by_cases hcell' : cell = inst.cell
    · rw [hcell', hwins]
      split <;> omega
    · rw [hother cell hcell']
      exact hs.most cell
  · intro a ha
    rcases hanswers a ha with ha | ⟨_, ha⟩
    · exact hs.results a ha
    · exact ha

variable {c : Claim}

theorem Sound.claim_cell (hs : Sound s) (hc : c ∈ s.claims)
    (hslot : s.node.instance_slot c.id = some inst) :
    c.id = inst.instance_id ∧ c.cell = inst.cell := by
  obtain ⟨x, hx, hid, hcell⟩ := hs.claims c hc
  have hin : inst ∈ s.node.instances := mem_of_find?_eq_some hslot
  have hid' : inst.instance_id = c.id := by
    simpa [has_id] using find?_some hslot
  have heq : x = inst := inj_on_of_nodup_map hs.ids hx hin (hid.trans hid'.symm)
  subst heq
  exact ⟨hid.symm, hcell.symm⟩

variable {i : Nat}

theorem Sound.swap (hs : Sound s) (hl : s.node.stage = .Ready l) (hclaim : s.claims[i]? = some c) (hphase : c.phase = .Entered)
    (hslot : s.node.instance_slot c.id = some inst) : Sound { s with
      node := editSlot s.node c.id swapped
      claims := s.claims.set i { c with phase := .Swapped (!inst.stopping) } } := by
  obtain ⟨hcid, hccell⟩ := hs.claim_cell (mem_of_getElem? hclaim) hslot
  obtain ⟨l1, l2, rfl, hnode⟩ := editSlot_ready hl hslot swapped
  have hperm := perm_cons_eraseIdx hclaim
  have hset := set_perm_cons hclaim { c with phase := .Swapped (!inst.stopping) }
  have hwon : c.Won inst.cell = false := by simp [Claim.Won, hphase]
  refine hs.edit hl hnode rfl rfl rfl (fun a ha => Or.inl ha) ?_ ?_ ?_ ?_ ?_
  · intro c' hc'
    rcases mem_cons.mp (hset.mem_iff.mp hc') with rfl | hc'
    · exact .inr ⟨hcid, hccell⟩
    · exact .inl (hperm.mem_iff.mpr (mem_cons_of_mem _ hc'))
  · intro c' hc' hne
    rcases mem_cons.mp (hperm.mem_iff.mp hc') with rfl | hc'
    · exact absurd hccell hne
    · exact hset.mem_iff.mpr (mem_cons_of_mem _ hc')
  · intro cell hne
    have hne' : c.cell ≠ cell := fun h => hne (h ▸ hccell)
    rw [supervisor.wins, supervisor.wins, hset.countP_eq, hperm.countP_eq, countP_cons,
      countP_cons]
    simp [Claim.Won, hne']
  · intro _
    exact .inr ⟨_, hset.mem_iff.mpr mem_cons_self, hccell, _, rfl⟩
  have hold := hs.wins inst (mem_of_find?_eq_some hslot)
  rw [supervisor.wins, hperm.countP_eq, countP_cons, hwon] at hold
  have hnew : Claim.Won inst.cell { c with phase := .Swapped (!inst.stopping) } =
      !inst.stopping := by
    cases hstop : inst.stopping <;> simp [Claim.Won, hccell]
  rw [supervisor.wins, hset.countP_eq, countP_cons, hnew]
  simp only [swapped, Bool.false_eq_true, if_true, if_false] at hold ⊢
  cases hstop : inst.stopping with
  | false =>
    simp only [hstop, Bool.false_eq_true, Bool.not_false, if_true, if_false] at hold ⊢
    omega
  | true =>
    simp only [hstop, Bool.not_true, Bool.false_eq_true, if_true, if_false] at hold ⊢
    omega

variable {call : ClaimCall} {won : Bool}

theorem isClaimed_result : (call.result won inst).isClaimed = (won && call ≠ .Instance) := by
  cases call <;> cases won <;> rfl

theorem Sound.cancel (hs : Sound s) (hl : s.node.stage = .Ready l) (hclaim : s.claims[i]? = some c)
    (hphase : c.phase = .Swapped won) (hslot : s.node.instance_slot c.id = some inst) :
    Sound { s with
      node := editSlot s.node c.id cancelled, claims := s.claims.eraseIdx i
      answers := ⟨c.call, c.cell, won, c.call.result won inst⟩ :: s.answers } := by
  obtain ⟨hcid, hccell⟩ := hs.claim_cell (mem_of_getElem? hclaim) hslot
  obtain ⟨l1, l2, rfl, hnode⟩ := editSlot_ready hl hslot cancelled
  have hperm := perm_cons_eraseIdx hclaim
  -- The win moves from the claims to the answers.
  have hmoved : ∀ cell, supervisor.wins { s with
      node := editSlot s.node c.id cancelled
      claims := s.claims.eraseIdx i
      answers := ⟨c.call, c.cell, won, c.call.result won inst⟩ :: s.answers } cell =
      supervisor.wins s cell := by
    intro cell
    rw [supervisor.wins, supervisor.wins, hperm.countP_eq, countP_cons, countP_cons]
    cases won <;> simp [Claim.Won, Answer.Won, hphase]
    omega
  refine hs.edit hl hnode rfl rfl rfl ?_ ?_ ?_ (fun cell _ => hmoved cell) (fun _ => Or.inl rfl) ?_
  · intro a ha
    rcases mem_cons.mp ha with rfl | ha
    · exact .inr ⟨hccell, isClaimed_result⟩
    · exact .inl ha
  · exact fun c' hc' => Or.inl (mem_of_mem_eraseIdx hc')
  · intro c' hc' hne
    rcases mem_cons.mp (hperm.mem_iff.mp hc') with rfl | hc'
    · exact absurd hccell hne
    · exact hc'
  · rw [hmoved]
    exact hs.wins inst (mem_of_find?_eq_some hslot)

theorem Sound.enter (hs : Sound s) {id : Name} (hslot : s.node.instance_slot id = some inst) :
    Sound { s with claims := s.claims ++ [⟨call, id, inst.cell, .Entered⟩] } := by
  have hwins : ∀ cell, supervisor.wins
      { s with claims := s.claims ++ [⟨call, id, inst.cell, .Entered⟩] } cell =
      supervisor.wins s cell := by
    intro cell
    rw [supervisor.wins, supervisor.wins, countP_append]
    simp [Claim.Won]
  refine ⟨hs.ready, hs.ids, hs.cells, hs.drawn, hs.answered, ?_, ?_,
    fun x hx => (hwins _).trans (hs.wins x hx), fun cell => hwins cell ▸ hs.most cell, hs.results⟩
  · intro c hc
    rcases mem_append.mp hc with hc | hc
    · exact hs.claims c hc
    · rw [mem_singleton.mp hc]
      exact ⟨inst, mem_of_find?_eq_some hslot,
        by simpa [has_id] using find?_some hslot, rfl⟩
  · intro x hx hstop
    rcases hs.token x hx hstop with h | ⟨c, hc, h⟩
    · exact .inl h
    · exact .inr ⟨c, mem_append_left _ hc, h⟩

theorem Sound.step {a : Action} (hs : Sound s) (h : s.step a = some s') : Sound s' := by
  obtain ⟨l, hl⟩ := hs.ready
  cases step_cases hl (allows_stepRights s s' a) h with
  | write hfree hturn hclaims hanswers hdrawn =>
    exact hs.write hfree hturn hclaims hanswers hdrawn
  | quiet hnode hclaims hanswers hdrawn =>
    refine ⟨?_, ?_, ?_, ?_, ?_, ?_, ?_, ?_, ?_, ?_⟩
    all_goals simp only [supervisor.wins, hnode, hclaims, hanswers, hdrawn]
    · exact hs.ready
    · exact hs.ids
    · exact hs.cells
    · exact hs.drawn
    · exact hs.answered
    · exact hs.claims
    · exact hs.token
    · exact hs.wins
    · exact hs.most
    · exact hs.results
  | enter call id inst hslot heq => exact heq ▸ hs.enter hslot
  | swap i claim inst hclaim hphase hslot heq => exact heq ▸ hs.swap hl hclaim hphase hslot
  | cancel i claim won inst hclaim hphase hslot heq =>
    exact heq ▸ hs.cancel hl hclaim hphase hslot

theorem Sound.run {acts : List Action} (hs : Sound s)
    (h : run Supervised.step s acts = some s') : Sound s' :=
  run_keeps (fun _ _ _ hs hstep => hs.step hstep) hs h

/-! ## A claimed slot along a run -/

theorem Supervised.Stepped.drawn (h : Stepped R s s') : s.drawn ⊆ s'.drawn := by
  cases h with
  | write _ _ _ _ hdrawn => exact hdrawn
  | quiet _ _ _ hdrawn => rw [hdrawn]; exact fun _ h => h
  | enter _ _ _ _ heq | swap _ _ _ _ _ _ heq | cancel _ _ _ _ _ _ _ heq =>
    rw [heq]; exact fun _ h => h

theorem mem_editSlot (hs : Sound s) (hslot : s.node.instance_slot id = some inst)
    {edit : TrackedNodeInstance → TrackedNodeInstance}
    (hy : y ∈ (editSlot s.node id edit).instances) :
    y ∈ s.node.instances ∨ (inst ∈ s.node.instances ∧ y = edit inst) := by
  obtain ⟨l, hl⟩ := hs.ready
  obtain ⟨l1, l2, rfl, hnode⟩ := editSlot_ready hl hslot edit
  rcases hs.mem_edited hl (by rw [hnode]) y hy with rfl | ⟨hy, _⟩
  · exact .inr ⟨mem_ready hl, rfl⟩
  · exact .inl hy

variable {a : Action}

theorem slot_before (hs : Sound s) (hR : s.Allows s' R a) (h : s.step a = some s')
    (hy : y ∈ s'.node.instances) :
    (∃ ctx first_start, y = NodeEntity.new_slot ctx first_start ∧ R.draw ctx.cell) ∨
      ∃ x ∈ s.node.instances, x = y ∨ Move R x y ∨ y = swapped x ∨ y = cancelled x := by
  obtain ⟨l, hl⟩ := hs.ready
  cases step_cases hl hR h with
  | write _ hturn =>
    obtain ⟨l1, l2, hl1, hnode, hchange⟩ := hturn
    have hy' : y ∈ l2 := by
      rw [hnode] at hy
      exact hy
    rw [instances_ready hl1]
    rcases hchange.mem hy' with ⟨ctx, first_start, heq, hdraw, _⟩ | ⟨x, hx, rfl | hmove⟩
    · exact .inl ⟨ctx, first_start, heq, hdraw⟩
    · exact .inr ⟨x, hx, .inl rfl⟩
    · exact .inr ⟨x, hx, .inr (.inl hmove)⟩
  | quiet hnode =>
    rw [hnode] at hy
    exact .inr ⟨y, hy, .inl rfl⟩
  | enter call id inst hslot heq =>
    rw [heq] at hy
    exact .inr ⟨y, hy, .inl rfl⟩
  | swap i claim inst hclaim hphase hslot heq =>
    rw [heq] at hy
    rcases mem_editSlot hs hslot hy with hy | ⟨hin, rfl⟩
    · exact .inr ⟨y, hy, .inl rfl⟩
    · exact .inr ⟨inst, hin, .inr (.inr (.inl rfl))⟩
  | cancel i claim won inst hclaim hphase hslot heq =>
    rw [heq] at hy
    rcases mem_editSlot hs hslot hy with hy | ⟨hin, rfl⟩
    · exact .inr ⟨y, hy, .inl rfl⟩
    · exact .inr ⟨inst, hin, .inr (.inr (.inr rfl))⟩

theorem cell_before (hs : Sound s) (hknown : cell ∈ s.drawn) (h : s.step a = some s')
    (hy : y ∈ s'.node.instances) (hcell : y.cell = cell) : ∃ x ∈ s.node.instances, x.cell = cell ∧
    (x = y ∨ Move (stepRights s s') x y ∨ y = swapped x ∨ y = cancelled x) := by
  rcases slot_before hs (allows_stepRights s s' a) h hy with
    ⟨ctx, first_start, rfl, hnew, _⟩ | ⟨x, hx, hmove⟩
  · rw [← hcell] at hknown
    exact absurd hknown hnew
  refine ⟨x, hx, ?_, hmove⟩
  rcases hmove with rfl | hmove | rfl | rfl
  · exact hcell
  · exact hmove.ids.2 ▸ hcell
  · exact hcell
  · exact hcell

/-- What holds of the slot `x` claimed in `w`, in every state `v` that follows. -/
structure Follows (w : Supervised) (x : TrackedNodeInstance) (v : Supervised) : Prop where
  sound : Sound v
  known : x.cell ∈ v.drawn
  held : ∀ y ∈ v.node.instances, y.cell = x.cell → Held (InFlight w x) x y
  inFlight : (∃ y ∈ v.node.instances, y.cell = x.cell) → InFlight v x → InFlight w x
  forks : v.forks.count x.cell = w.forks.count x.cell

theorem Follows.refl {x : TrackedNodeInstance} (hw : Sound w)
    (hx : x ∈ w.node.instances) (hclaimed : x.stopping = true) : Follows w x w where
  sound := hw
  known := hw.drawn x hx
  held y hy hcell := by
    rw [inj_on_of_nodup_map hw.cells hy hx hcell]
    exact .refl hclaimed
  inFlight _ h := h
  forks := rfl

theorem Follows.unforked (hv : Follows w x v) (hy : y ∈ v.node.instances) (hcell : y.cell = x.cell)
    (hclaim : ∀ inst, v.node.instance_slot id = some inst → inst.stopping = false) :
    id ≠ x.instance_id := by
  rintro rfl
  have hheld := hv.held y hy hcell
  have hslot : v.node.instance_slot x.instance_id = some y := by
    have hfind := find?_key hv.sound.ids hy
    rw [hheld.instance_id] at hfind
    exact hfind
  have hstop := hheld.stopping
  rw [hclaim y hslot] at hstop
  cases hstop

theorem Follows.step {v' : Supervised} {x : TrackedNodeInstance} {a : Action}
    (hv : Follows w x v) (h : v.step a = some v') : Follows w x v' := by
  obtain ⟨l, hl⟩ := hv.sound.ready
  have hR := allows_stepRights v v' a
  have hbefore := fun y (hy : y ∈ v'.node.instances) => cell_before hv.sound hv.known h hy
  refine ⟨hv.sound.step h, (step_cases hl hR h).drawn hv.known, ?_, ?_, ?_⟩
  · intro y hy hcell
    obtain ⟨z, hz, hzcell, hmove⟩ := hbefore y hy hcell
    have hheld := hv.held z hz hzcell
    rcases hmove with rfl | hmove | rfl | rfl
    · exact hheld
    · refine hheld.move hmove fun hright => hv.inFlight ⟨z, hz, hzcell⟩ ?_
      obtain ⟨task, htask, hid, hforked⟩ := hright
      exact ⟨task, htask, hid.trans hheld.instance_id, hforked⟩
    · exact hheld.swapped
    · exact hheld.cancelled
  · rintro ⟨y, hy, hcell⟩ ⟨task, htask, hid, hforked⟩
    obtain ⟨z, hz, hzcell, _⟩ := hbefore y hy hcell
    apply hv.inFlight ⟨z, hz, hzcell⟩
    cases step_forks h with
    | none _ hstarts => exact ⟨task, hstarts task htask hforked, hid, hforked⟩
    | one id hclaim _ hstarts =>
      rcases hstarts task htask hforked with rfl | htask
      · exact absurd hid (hv.unforked hz hzcell hclaim)
      · exact ⟨task, htask, hid, hforked⟩
  · cases step_forks h with
    | none hforks => rw [hforks, hv.forks]
    | one id hclaim hforks =>
      rw [hforks]
      cases hslot : v.node.instance_slot id with
      | none => exact hv.forks
      | some inst =>
        have hne : inst.cell ≠ x.cell := by
          intro hcell
          have hin := mem_of_find?_eq_some hslot
          have hid : inst.instance_id = id := by
            simpa [has_id] using find?_some hslot
          have hx := (hv.held inst hin hcell).instance_id
          exact hv.unforked hin hcell hclaim (hid.symm.trans hx)
        simpa [hne] using hv.forks

/-! ## The law of the claims -/

def claimedCalls (s : Supervised) (cell : Nat) : Nat :=
  s.answers.countP fun a => a.cell = cell && a.result.isClaimed

def instanceWins (s : Supervised) (cell : Nat) : Nat :=
  s.answers.countP fun a => a.cell = cell && a.won && a.call = .Instance

theorem calls_of_results {answers : List Answer}
    (hresults : ∀ a ∈ answers, a.result.isClaimed = (a.won && a.call ≠ .Instance)) :
    (answers.countP fun a => a.cell = cell && a.result.isClaimed) +
      (answers.countP fun a => a.cell = cell && a.won && a.call = .Instance) =
      answers.countP (Answer.Won cell) := by
  induction answers with
  | nil => rfl
  | cons a answers ih =>
    have ih := ih fun b hb => hresults b (mem_cons_of_mem _ hb)
    have ha := hresults a mem_cons_self
    rw [countP_cons, countP_cons, countP_cons, ← ih, ha]
    by_cases hcell : a.cell = cell
    · cases hwon : a.won <;> by_cases hcall : a.call = .Instance <;>
        simp [Answer.Won, hcell, hwon, hcall] <;> omega
    · simp [Answer.Won, hcell]

/-- Once a stop path claimed a slot, no process is forked for it and nothing is recorded on
it, but a commit that was on its way. Its token is cancelled, at most one call returns
`Claimed`, and exactly one claim sets the flag. -/
theorem a_claimed_slot_waits_for_its_removal (config : NodeConfig) (generation : Nat)
    (acts : List Action) (w : Supervised)
    (h : run step (Supervised.new config generation) acts = some w)
    (x : TrackedNodeInstance) (hx : x ∈ w.node.instances) (hclaimed : x.stopping = true)
    (acts' : List Action) (w' : Supervised) (h' : run step w acts' = some w') :
    (∀ y ∈ w'.node.instances, y.cell = x.cell →
      Held (InFlight w x) x y ∧
      (w'.claims = [] → y.supervision.restart_token = true) ∧
      (w'.claims = [] → claimedCalls w' x.cell + instanceWins w' x.cell = 1)) ∧
    w'.forks.count x.cell = w.forks.count x.cell ∧
    claimedCalls w' x.cell ≤ 1 := by
  have hw : Sound w := (Sound.init config generation).run h
  have hv : Follows w x w' :=
    run_keeps (fun _ _ _ hv hstep => hv.step hstep) (Follows.refl hw hx hclaimed) h'
  have hcalls : claimedCalls w' x.cell + instanceWins w' x.cell =
      w'.answers.countP (Answer.Won x.cell) := calls_of_results hv.sound.results
  have hmost := hv.sound.most x.cell
  rw [supervisor.wins] at hmost
  refine ⟨?_, hv.forks, by omega⟩
  intro y hy hcell
  have hheld := hv.held y hy hcell
  refine ⟨hheld, fun hfree => ?_, fun hfree => ?_⟩
  · rcases hv.sound.token y hy hheld.stopping with htoken | ⟨c, hc, _⟩
    · exact htoken
    · rw [hfree] at hc
      cases hc
  · have hwins := hv.sound.wins y hy
    rw [supervisor.wins, hfree, hcell, hheld.stopping] at hwins
    rw [hcalls]
    simpa using hwins

def armClaimed : List Action :=
  [.FirstStart (armStart (.New armPolicy) 1),
    .Run 0 (.Fork (.ok 41) ⟨"a.json5", "a.key"⟩),
    .Enter .Instance armId,
    .Claim 0]

def armAfterClaim : List Action :=
  [.Claim 0,
    .Run 0 (.Commit "dir" [] 10 10),
    .Exit armId 41 (.Code 1) armBackoff 20 20 {},
    .Enter (.Process 41) armId,
    .Claim 0,
    .Claim 0]

theorem the_claim_of_an_arm_that_commits :
    ∃ w x w' y, run step (Supervised.new armNode 0) armClaimed = some w ∧
      w.node.instances = [x] ∧ x.stopping = true ∧
      run step w armAfterClaim = some w' ∧ w'.node.instances = [y] ∧
      y.state = .Running ∧ Held (InFlight w x) x y ∧ claimedCalls w' x.cell ≤ 1 := by
  obtain ⟨w, hw⟩ : ∃ w, run step (Supervised.new armNode 0) armClaimed = some w :=
    ⟨_, rfl⟩
  obtain ⟨w', hw'⟩ : ∃ w', run step (Supervised.new armNode 0)
      (armClaimed ++ armAfterClaim) = some w' := ⟨_, rfl⟩
  obtain ⟨x, hx⟩ : ∃ x, w.node.instances = [x] := by
    cases hw
    exact ⟨_, rfl⟩
  obtain ⟨y, hy, hcell, hstate⟩ : ∃ y, w'.node.instances = [y] ∧ y.cell = x.cell ∧
      y.state = .Running := by
    cases hw
    cases hw'
    cases hx
    exact ⟨_, rfl, rfl, rfl⟩
  have hstop : x.stopping = true := by
    cases hw
    cases hx
    rfl
  rw [run_append, hw, Option.bind_some] at hw'
  have hlaw := a_claimed_slot_waits_for_its_removal armNode 0 armClaimed w hw x (by simp [hx]) hstop
    armAfterClaim w' hw'
  exact ⟨w, x, w', y, hw, hx, hstop, hw', hy, hstate, (hlaw.1 y (by simp [hy]) hcell).1,
    hlaw.2.2⟩

def armClaimedFirst : List Action :=
  [.FirstStart (armStart (.New armPolicy) 1),
    .Run 0 (.Fork (.ok 41) ⟨"a.json5", "a.key"⟩),
    .Run 0 (.Commit "dir" [] 10 10),
    .Enter .Instance armId,
    .Claim 0,
    .Claim 0,
    .Enter (.Process 41) armId,
    .Enter (.Process 41) armId,
    .Claim 0,
    .Claim 1,
    .Claim 0,
    .Claim 0]

/-- No call returns `Claimed` on a slot that `claim_instance` claimed
first. -/
theorem claim_calls_that_all_come_too_late :
    ∃ w x, run step (Supervised.new armNode 0) armClaimedFirst = some w ∧
      w.node.instances = [x] ∧ x.stopping = true ∧ w.claims = [] ∧
      (w.answers.countP fun a => a.cell = x.cell && a.call = .Process 41) = 2 ∧
      claimedCalls w x.cell = 0 :=
  ⟨_, _, rfl, rfl, rfl, rfl, rfl, rfl⟩

end peppy.supervisor
