-- The cached git checkouts. A hand-out tests, marks and returns a directory under
-- its lock, while a prune reads the marker before it tries the lock.
import Mathlib.Logic.Function.Basic
import Mathlib.Tactic.SplitIfs
import Peppy.Lib.Runs

open Function List runs

namespace peppy.git_checkouts

/-- In seconds. -/
def PRUNE_GRACE : Nat := 60 * 60

/-- A directory of the cache: whether its commit is checked out, and its marker. -/
structure Checkout where
  complete : Bool
  last_used : Option Nat

/-- A call by what it does next. `handsOut` is false in `adopt_checkout`. -/
inductive Task where
  | Lock (dir : String) (handsOut : Bool)
  | Look (dir : String) (handsOut : Bool)
  | Fill (dir : String) (handsOut : Bool)
  | Test (keep cached : List String)
  | TryLock (dir : String) (keep cached : List String)
  | Remove (dir : String) (keep cached : List String)

def Task.holds : Task → Option String
  | .Look dir _ | .Fill dir _ | .Remove dir _ _ => some dir
  | .Lock _ _ | .Test _ _ | .TryLock _ _ _ => none

/-- A directory was returned, or removed or emptied. -/
structure Event where
  dir : String
  t : Nat
  cleared : Bool

/-- The calls of the threads, and who holds each lock. The newest event is first. -/
structure Cache where
  now : Nat := 0
  dirs : String → Option Checkout
  lock : String → Option Nat := fun _ => none
  tasks : Nat → Option Task := fun _ => none
  log : List Event := []

namespace Cache

def is_checked_out_at (s : Cache) (dir : String) : Bool := (s.dirs dir).any Checkout.complete

/-- A marker of the future is in use. -/
def recently_used (s : Cache) (dir : String) : Bool :=
  match (s.dirs dir).bind Checkout.last_used with
  | none => false
  | some used => s.now < used || s.now - used < PRUNE_GRACE

/-- The thread goes to its next step, with the lock as long as that needs it. -/
def write (s : Cache) (i : Nat) (dir : String) (next : Option Task) (checkout : Option Checkout)
    (cleared : Option Bool) : Cache where
  now := s.now
  dirs := update s.dirs dir checkout
  lock := update s.lock dir ((next.bind Task.holds).map fun _ => i)
  tasks := update s.tasks i next
  log := (cleared.map (⟨dir, s.now, ·⟩)).toList ++ s.log

/-- `touch_last_used`, and the return of the call. -/
def touch (s : Cache) (i : Nat) (dir : String) (handsOut : Bool) : Cache :=
  s.write i dir none (some ⟨true, some s.now⟩) (if handsOut then some false else none)

inductive Act where
  | Call (i : Nat) (task : Task)
  | Tick (seconds : Nat)
  | Step (i : Nat) (ok : Bool) (left : Option Checkout)

/-- The next step of a call. A change that is not `ok` fails, with what is `left`. -/
def advance (s : Cache) (i : Nat) (ok : Bool) (left : Option Checkout) : Task → Option Cache
  | .Lock dir handsOut =>
    if s.lock dir = none then some (s.write i dir (some (.Look dir handsOut)) (s.dirs dir) none)
    else none
  | .Look dir handsOut => some (
    if s.is_checked_out_at dir then s.touch i dir handsOut
    else if ok then s.write i dir (some (.Fill dir handsOut)) none (some true)
    else s.write i dir none left (some true))
  | .Fill dir handsOut => some (
    if ok then s.touch i dir handsOut else s.write i dir none left none)
  | .Test _ [] => some { s with tasks := update s.tasks i none }
  | .Test keep (dir :: cached) => some { s with
      tasks := update s.tasks i (some (
        if dir ∈ keep ∨ s.recently_used dir then .Test keep cached else .TryLock dir keep cached)) }
  | .TryLock dir keep cached => some (
    if s.lock dir = none then s.write i dir (some (.Remove dir keep cached)) (s.dirs dir) none
    else { s with tasks := update s.tasks i (some (.Test keep cached)) })
  | .Remove dir keep cached => some (
    s.write i dir (some (.Test keep cached)) (if ok then none else left) (some true))

/-- A call begins with a lock, or with the test of the first directory read. -/
def begins : Task → Bool
  | .Lock _ _ | .Test _ _ => true
  | _ => false

def step (s : Cache) : Act → Option Cache
  | .Call i task =>
    if s.tasks i = none ∧ begins task then some { s with tasks := update s.tasks i (some task) }
    else none
  | .Tick seconds => some { s with now := s.now + seconds }
  | .Step i ok left => (s.tasks i).bind (s.advance i ok left)

/-! ## What the calls keep -/

/-- Nothing is cleared within the grace of a use before it. -/
def Kept (later earlier : Event) : Prop :=
  later.cleared → earlier.cleared = false → earlier.dir = later.dir →
    earlier.t + PRUNE_GRACE ≤ later.t

variable {s : Cache} {dir : String} {task : Task} {i : Nat}

/-- The grace of every use of the directory is over. -/
def Over (s : Cache) (dir : String) : Prop :=
  ∀ t, ⟨dir, t, false⟩ ∈ s.log → t + PRUNE_GRACE ≤ s.now

/-- The directory stands, with a marker as new as its hand-outs within the grace. -/
def Stands (s : Cache) (dir : String) : Prop :=
  ∀ t, ⟨dir, t, false⟩ ∈ s.log → t ≤ s.now ∧
    (t + PRUNE_GRACE ≤ s.now ∨ ∃ used, s.dirs dir = some ⟨true, some used⟩ ∧ t ≤ used)

/-- What a call that clears a directory relies on. -/
def Relies (s : Cache) : Task → Prop
  | .Fill dir _ | .Remove dir _ _ => Over s dir
  | _ => True

/-- What the locks and the tasks guarantee of the cache. -/
structure Safe (s : Cache) : Prop where
  locks : ∀ i task dir, s.tasks i = some task → task.holds = some dir → s.lock dir = some i
  stands : ∀ dir, Stands s dir
  relies : ∀ i task, s.tasks i = some task → Relies s task
  kept : s.log.Pairwise Kept

theorem Relies.same {s' : Cache} (h : Relies s task) (hnow : s.now ≤ s'.now)
    (hlog : ∀ dir, task.holds = some dir → ∀ t, ⟨dir, t, false⟩ ∈ s'.log → ⟨dir, t, false⟩ ∈ s.log) :
    Relies s' task := by
  cases task with
  | Fill dir _ => exact fun t ht => Nat.le_trans (h t (hlog dir rfl t ht)) hnow
  | Remove dir _ _ => exact fun t ht => Nat.le_trans (h t (hlog dir rfl t ht)) hnow
  | _ => trivial

theorem Stands.same {s' : Cache} (h : Stands s dir) (hnow : s.now ≤ s'.now)
    (hdir : s'.dirs dir = s.dirs dir)
    (hlog : ∀ t, ⟨dir, t, false⟩ ∈ s'.log → ⟨dir, t, false⟩ ∈ s.log) : Stands s' dir := by
  intro t ht
  obtain ⟨hle, hstands⟩ := h t (hlog t ht)
  rw [hdir]
  exact ⟨Nat.le_trans hle hnow, hstands.imp_left fun h => Nat.le_trans h hnow⟩

theorem Safe.turn {next : Option Task} (hs : Safe s) (hnext : ∀ task ∈ next, task.holds = none) :
    Safe { s with tasks := update s.tasks i next } := by
  refine ⟨fun j task dir hj hdir => ?_, hs.stands, fun j task hj => ?_, hs.kept⟩ <;>
    simp only [update_apply] at hj <;> split_ifs at hj
  · cases (hnext task hj).symm.trans hdir
  · exact hs.locks j task dir hj hdir
  · have hnone := hnext task hj
    cases task <;> trivial
  · exact (hs.relies j task hj).same (Nat.le_refl _) fun _ _ _ ht => ht

section
variable {next : Option Task} {checkout : Option Checkout} {cleared : Option Bool}

theorem mem_log_write {dir' : String} {t : Nat}
    (h : ⟨dir', t, false⟩ ∈ (s.write i dir next checkout cleared).log) :
    ⟨dir', t, false⟩ ∈ s.log ∨ (dir' = dir ∧ t = s.now ∧ cleared = some false) := by
  rcases mem_append.mp h with h | h
  · obtain ⟨_, hcleared, h⟩ := Option.map_eq_some_iff.mp (Option.mem_toList.mp h)
    cases h
    exact .inr ⟨rfl, rfl, hcleared⟩
  · exact .inl h

theorem Safe.write (hs : Safe s) (hlock : s.lock dir = none ∨ s.lock dir = some i)
    (hnext : ∀ task ∈ next, (task.holds = none ∨ task.holds = some dir) ∧
      Relies (s.write i dir next checkout cleared) task)
    (hstands : Stands (s.write i dir next checkout cleared) dir)
    (hover : cleared = some true → Over s dir) : Safe (s.write i dir next checkout cleared) := by
  have hlog : ∀ dir' ≠ dir, ∀ t, ⟨dir', t, false⟩ ∈ (s.write i dir next checkout cleared).log →
      ⟨dir', t, false⟩ ∈ s.log :=
    fun dir' hne t ht => (mem_log_write ht).resolve_right fun h => hne h.1
  -- The lock of another thread is not the lock of the directory.
  have hother : ∀ j ≠ i, ∀ dir', s.lock dir' = some j → dir' ≠ dir := by
    rintro j hj dir' hdir' rfl
    rcases hlock with hlock | hlock <;> rw [hlock] at hdir' <;> cases hdir'
    exact hj rfl
  refine ⟨fun j task dir' hj hdir' => ?_, fun dir' => ?_, fun j task hj => ?_, ?_⟩
  · simp only [Cache.write, update_apply] at hj ⊢
    split_ifs at hj with hji
    · rcases (hnext task hj).1 with hnone | hheld
      · cases hnone.symm.trans hdir'
      · cases hheld.symm.trans hdir'
        simp [hj, hheld, hji]
    · have hdir := hs.locks j task dir' hj hdir'
      rw [if_neg (hother j hji dir' hdir), hdir]
  · by_cases hne : dir' = dir
    · exact hne ▸ hstands
    · exact (hs.stands dir').same (Nat.le_refl _) (update_of_ne hne ..) (hlog dir' hne)
  · simp only [Cache.write, update_apply] at hj
    split_ifs at hj with hji
    · exact (hnext task hj).2
    · exact (hs.relies j task hj).same (Nat.le_refl _) fun dir' hdir' =>
        hlog dir' (hother j hji dir' (hs.locks j task dir' hj hdir'))
  · cases cleared with
    | none => exact hs.kept
    | some cleared =>
      refine pairwise_cons.mpr ⟨fun event hevent hcleared hreturned hdir => ?_, hs.kept⟩
      cases hcleared
      refine hover rfl event.t ?_
      rwa [← show _ = dir from hdir, ← hreturned]

theorem Over.write (h : Over s dir) (hcleared : cleared ≠ some false) :
    Over (s.write i dir next checkout cleared) dir :=
  fun t ht => h t ((mem_log_write ht).resolve_right fun h => hcleared h.2.2)

theorem Over.stands (h : Over s dir) : Stands s dir := fun t ht =>
  ⟨Nat.le_trans (Nat.le_add_right ..) (h t ht), .inl (h t ht)⟩

theorem Stands.over (h : Stands s dir)
    (hdir : ∀ used, s.dirs dir = some ⟨true, some used⟩ → used + PRUNE_GRACE ≤ s.now) :
    Over s dir := by
  intro t ht
  obtain ⟨-, hover | ⟨used, hused, hle⟩⟩ := h t ht
  · exact hover
  · have := hdir used hused
    omega

theorem Safe.lock (hs : Safe s) (hfree : s.lock dir = none) (hdir : task.holds = some dir)
    (hrelies : Relies (s.write i dir (some task) (s.dirs dir) none) task) :
    Safe (s.write i dir (some task) (s.dirs dir) none) := by
  refine hs.write (.inl hfree) ?_
    ((hs.stands dir).same (Nat.le_refl _) (update_self ..) fun _ ht => ht) nofun
  rintro _ ⟨⟩
  exact ⟨.inr hdir, hrelies⟩

theorem Safe.touch (hs : Safe s) (hlock : s.lock dir = some i) (handsOut : Bool) :
    Safe (s.touch i dir handsOut) := by
  refine hs.write (.inr hlock) nofun (fun t ht => ?_) (by split <;> nofun)
  have hle : t ≤ s.now := by
    rcases mem_log_write ht with ht | ⟨-, rfl, -⟩
    · exact (hs.stands dir t ht).1
    · exact Nat.le_refl _
  exact ⟨hle, .inr ⟨s.now, update_self .., hle⟩⟩

theorem Safe.clear (hs : Safe s) (hlock : s.lock dir = some i) (hover : Over s dir)
    (hcleared : cleared ≠ some false)
    (hnext : ∀ task ∈ next, (task.holds = none ∨ task.holds = some dir) ∧
      (Over (s.write i dir next checkout cleared) dir →
        Relies (s.write i dir next checkout cleared) task)) :
    Safe (s.write i dir next checkout cleared) :=
  hs.write (.inr hlock) (fun task h => ⟨(hnext task h).1, (hnext task h).2 (hover.write hcleared)⟩)
    (hover.write hcleared).stands fun _ => hover

end

/-- A prune that tries a free lock finds the directory still not recently used. -/
def unused (s : Cache) : Act → Bool
  | .Step i _ _ =>
    match s.tasks i with
    | some (.TryLock dir _ _) => (s.lock dir).isSome || !s.recently_used dir
    | _ => true
  | _ => true

theorem Safe.advance {s' : Cache} {ok : Bool} {left : Option Checkout} (hs : Safe s)
    (hunused : s.unused (.Step i ok left)) (hi : s.tasks i = some task)
    (h : s.advance i ok left task = some s') : Safe s' := by
  have hrelies := hs.relies i task hi
  have hlock := hs.locks i task
  cases task with
  | Lock dir handsOut =>
    obtain ⟨hfree, h⟩ := Option.ite_none_right_eq_some.mp h
    cases h
    exact hs.lock hfree rfl trivial
  | Look dir handsOut =>
    have hlock := hlock dir hi rfl
    cases h
    split_ifs with hready hok
    · exact hs.touch hlock handsOut
    all_goals
      have hover : Over s dir := (hs.stands dir).over fun used hused => by
        rw [is_checked_out_at, hused] at hready
        exact absurd rfl hready
      refine hs.clear hlock hover nofun ?_
      rintro _ ⟨⟩
    exact ⟨.inr rfl, fun h => h⟩
  | Fill dir handsOut =>
    have hlock := hlock dir hi rfl
    cases h
    split_ifs with hok
    · exact hs.touch hlock handsOut
    · exact hs.clear hlock hrelies nofun nofun
  | Test keep cached =>
    cases cached with
    | nil =>
      cases h
      exact hs.turn nofun
    | cons dir cached =>
      cases h
      refine hs.turn ?_
      rintro _ ⟨⟩
      split_ifs <;> rfl
  | TryLock dir keep cached =>
    cases h
    split_ifs with hfree
    · have hover : Over s dir := (hs.stands dir).over fun used hused => by
        simp only [unused, hi, hfree, recently_used, hused, Option.isSome_none, Option.bind_some,
          Bool.false_or, Bool.not_eq_true', Bool.or_eq_false_iff, decide_eq_false_iff_not] at hunused
        omega
      exact hs.lock hfree rfl (hover.write nofun)
    · refine hs.turn ?_
      rintro _ ⟨⟩
      rfl
  | Remove dir keep cached =>
    cases h
    refine hs.clear (hlock dir hi rfl) hrelies nofun ?_
    rintro _ ⟨⟩
    exact ⟨.inl rfl, fun _ => trivial⟩

theorem Safe.step {s' : Cache} {a : Act} (hs : Safe s) (hunused : s.unused a)
    (h : s.step a = some s') : Safe s' := by
  cases a with
  | Call i task =>
    obtain ⟨⟨-, hbegins⟩, h⟩ := Option.ite_none_right_eq_some.mp h
    cases h
    refine hs.turn ?_
    rintro _ ⟨⟩
    cases task <;> first | rfl | cases hbegins
  | Tick seconds =>
    cases h
    have hnow := Nat.le_add_right s.now seconds
    exact ⟨hs.locks, fun dir => (hs.stands dir).same hnow rfl fun _ ht => ht,
      fun i task hi => (hs.relies i task hi).same hnow fun _ _ _ ht => ht, hs.kept⟩
  | Step i ok left =>
    obtain ⟨task, hi, h⟩ := Option.bind_eq_some_iff.mp h
    exact hs.advance hunused hi h

/-- Where each prune that takes a lock finds the directory still unused, no directory is
removed or emptied within the grace of a hand-out. -/
theorem returned_checkouts_are_kept {dirs : String → Option Checkout} {now : Nat}
    {acts : List Act} (hunused : Meets Cache.step (fun s a => s.unused a) { dirs, now } acts)
    (h : run Cache.step { dirs, now } acts = some s) : s.log.Pairwise Kept := by
  have hstart : Safe { dirs, now } := ⟨nofun, nofun, nofun, .nil⟩
  exact (run_keeps_where (fun _ _ _ => Safe.step) hstart hunused h).kept

/-- A checkout is made and returned, and pruned an hour later. -/
theorem a_checkout_pruned_after_its_grace :
    let acts : List Act := .Call 0 (.Lock "a" true) :: replicate 3 (.Step 0 true none) ++
      .Tick 3600 :: .Call 1 (.Test [] ["a"]) :: replicate 3 (.Step 1 true none)
    ∃ s, run Cache.step { dirs := fun _ => none } acts = some s ∧
      s.log = [⟨"a", 3600, true⟩, ⟨"a", 0, false⟩, ⟨"a", 0, true⟩] ∧ s.log.Pairwise Kept := by
  intro acts
  have hunused : Meets Cache.step (fun s a => s.unused a) { dirs := fun _ => none } acts := by decide
  exact ⟨_, rfl, rfl, returned_checkouts_are_kept hunused rfl⟩

/-- A checkout is handed out between the test and the lock of a prune, which removes it. -/
theorem a_checkout_pruned_under_its_reader :
    let dirs : String → Option Checkout := fun dir => if dir = "a" then some ⟨true, some 0⟩ else none
    let acts : List Act := [.Call 1 (.Test [] ["a"]), .Step 1 true none] ++
      .Call 0 (.Lock "a" true) :: replicate 2 (.Step 0 true none) ++ replicate 2 (.Step 1 true none)
    ∃ s, run Cache.step { dirs, now := 3600 } acts = some s ∧
      s.log = [⟨"a", 3600, true⟩, ⟨"a", 3600, false⟩] ∧ ¬ s.log.Pairwise Kept := by
  intro dirs acts
  refine ⟨_, rfl, rfl, fun h => ?_⟩
  have hkept := (pairwise_cons.mp h).1 ⟨"a", 3600, false⟩ mem_cons_self rfl rfl rfl
  exact absurd hkept (by decide)

end Cache

end peppy.git_checkouts
