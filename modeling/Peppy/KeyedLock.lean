-- The mutexes of the cache directories, one a key, made on first use and dropped
-- from the map when no caller has a handle to them.
import Peppy.Lib.KeyMap
import Peppy.Lib.Runs
import Peppy.Lib.Tasks

open keymap runs tasks List Option

namespace peppy.keyed_lock

/-- An `Arc` that `lock_for` returned, and whether its thread holds the mutex. -/
structure Handle where
  thread : Nat
  key : String
  mutex : Nat
  locked : Bool := false

/-- A `lock_for` that holds the map, with what its `retain` has still to visit. -/
structure LockFor where
  thread : Nat
  key : String
  unseen : List String

/-- A mutex is named by the place of its allocation among all of them. -/
structure KeyedLocks where
  map : KeyMap String Nat := {}
  allocated : Nat := 0
  calling : Option LockFor := none
  handles : List Handle := []

namespace KeyedLocks

/-- The map's own reference to the mutex of an entry, and those of the handles. -/
def strong_count (s : KeyedLocks) (mutex : Nat) : Nat :=
  1 + s.handles.countP fun handle => handle.mutex = mutex

/-- `retain` looks at one entry. A handle may be dropped between two looks. -/
def look (s : KeyedLocks) (key : String) : KeyedLocks :=
  match s.map.get key with
  | some mutex => if s.strong_count mutex > 1 then s else { s with map := s.map.remove key }
  | none => s

/-- The entry of the key, made if the map has none, and a handle to it. -/
def hand_out (s : KeyedLocks) (thread : Nat) (key : String) : KeyedLocks :=
  match s.map.get key with
  | some mutex => { s with handles := ⟨thread, key, mutex, false⟩ :: s.handles }
  | none =>
    { s with
      map := s.map.insert key s.allocated
      allocated := s.allocated + 1
      handles := ⟨thread, key, s.allocated, false⟩ :: s.handles }

/-- The sections of `lock_for`, and the steps on the handle at an index. -/
inductive Act where
  | Call (thread : Nat) (key : String)
  | Look (key : String)
  | Return
  | Lock (i : Nat)
  | Unlock (i : Nat)
  | Drop (i : Nat)

/-- Locks wait. `retain` visits in any order, and a handle outlives its guard. -/
def step (s : KeyedLocks) : Act → Option KeyedLocks
  | .Call thread key =>
    if s.calling = none then some { s with calling := some ⟨thread, key, s.map.keys⟩ } else none
  | .Look key => do
    let call ← s.calling
    if key ∈ call.unseen then
      some { s.look key with calling := some { call with unseen := call.unseen.erase key } }
    else none
  | .Return => do
    let call ← s.calling
    if call.unseen = [] then some { s.hand_out call.thread call.key with calling := none } else none
  | .Lock i => do
    let handle ← s.handles[i]?
    if s.handles.any fun other => other.locked && other.mutex = handle.mutex then none
    else some { s with handles := s.handles.set i { handle with locked := true } }
  | .Unlock i => do
    let handle ← s.handles[i]?
    if handle.locked then some { s with handles := s.handles.set i { handle with locked := false } }
    else none
  | .Drop i => do
    let handle ← s.handles[i]?
    if handle.locked then none else some { s with handles := s.handles.eraseIdx i }

/-- A step begins, advances or ends a call, or moves one handle. -/
inductive Stepped (s : KeyedLocks) : KeyedLocks → Prop
  | call (thread : Nat) (key : String) (hfree : s.calling = none) :
    Stepped s { s with calling := some ⟨thread, key, s.map.keys⟩ }
  | look (key : String) (call : LockFor) (hcall : s.calling = some call) :
    Stepped s { s.look key with calling := some { call with unseen := call.unseen.erase key } }
  | handOut (call : LockFor) (hcall : s.calling = some call) (hseen : call.unseen = []) :
    Stepped s { s.hand_out call.thread call.key with calling := none }
  | handle (i : Nat) (handle : Handle) (next : Option Bool) (hhandle : s.handles[i]? = some handle)
    (hfree : next = some true → ∀ other ∈ s.handles, other.locked → other.mutex ≠ handle.mutex) :
    Stepped s { s with
      handles := put s.handles i (next.map fun locked => { handle with locked }) }

variable {s s' : KeyedLocks} {mutex : Nat}

theorem step_cases {a : Act} (h : s.step a = some s') : Stepped s s' := by
  cases a with
  | Call thread key =>
    obtain ⟨hfree, hs'⟩ := ite_none_right_eq_some.mp h
    cases hs'
    exact .call thread key hfree
  | Look key =>
    obtain ⟨call, hcall, h⟩ := bind_eq_some_iff.mp h
    obtain ⟨-, hs'⟩ := ite_none_right_eq_some.mp h
    cases hs'
    exact .look key call hcall
  | Return =>
    obtain ⟨call, hcall, h⟩ := bind_eq_some_iff.mp h
    obtain ⟨hseen, hs'⟩ := ite_none_right_eq_some.mp h
    cases hs'
    exact .handOut call hcall hseen
  | Lock i =>
    obtain ⟨handle, hhandle, h⟩ := bind_eq_some_iff.mp h
    obtain ⟨hfree, hs'⟩ := ite_none_left_eq_some.mp h
    cases hs'
    refine .handle i handle (some true) hhandle fun _ other hother hlocked hmutex => hfree ?_
    exact any_eq_true.mpr ⟨other, hother, by simp [hlocked, hmutex]⟩
  | Unlock i =>
    obtain ⟨handle, hhandle, h⟩ := bind_eq_some_iff.mp h
    obtain ⟨-, hs'⟩ := ite_none_right_eq_some.mp h
    cases hs'
    exact .handle i handle (some false) hhandle nofun
  | Drop i =>
    obtain ⟨handle, hhandle, h⟩ := bind_eq_some_iff.mp h
    obtain ⟨-, hs'⟩ := ite_none_left_eq_some.mp h
    cases hs'
    exact .handle i handle none hhandle nofun

theorem strong_count_gt :
    s.strong_count mutex > 1 ↔ ∃ handle ∈ s.handles, handle.mutex = mutex := by
  rw [strong_count, gt_iff_lt, Nat.lt_add_right_iff_pos, countP_pos_iff]
  simp

theorem look_eq {key : String} : ∃ map, s.look key = { s with map } := by
  unfold look
  split
  · split
    · exact ⟨s.map, rfl⟩
    · exact ⟨s.map.remove key, rfl⟩
  · exact ⟨s.map, rfl⟩

theorem get_look {s : KeyedLocks} {key other : String} {mutex : Nat} :
    (s.look key).map.get other = some mutex ↔
    s.map.get other = some mutex ∧ (other = key → ∃ handle ∈ s.handles, handle.mutex = mutex) := by
  rw [← strong_count_gt]
  unfold look
  split
  · rename_i found hget
    split
    · rename_i hcount
      refine ⟨fun h => ⟨h, fun hother => ?_⟩, And.left⟩
      rw [hother, hget, Option.some.injEq] at h
      exact h ▸ hcount
    · rename_i hcount
      rw [KeyMap.get_remove]
      split_ifs with hother
      · refine ⟨by rintro ⟨⟩, fun h => absurd (h.2 hother) ?_⟩
        obtain ⟨h, -⟩ := h
        rw [hother, hget, Option.some.injEq] at h
        exact h ▸ hcount
      · simp [hother]
  · rename_i hget
    refine ⟨fun h => ⟨h, fun hother => ?_⟩, And.left⟩
    rw [hother, hget] at h
    cases h

/-! ## Exclusion -/

/-- The map has the mutex of each live handle, and a mutex has one holder. -/
structure Linked (s : KeyedLocks) : Prop where
  known : ∀ key mutex, s.map.get key = some mutex → mutex < s.allocated
  entry : ∀ handle ∈ s.handles, s.map.get handle.key = some handle.mutex
  one_holder : s.handles.Pairwise fun a b => a.locked → b.locked → a.mutex ≠ b.mutex

theorem Linked.hand_out (h : Linked s) (thread : Nat) (key : String) :
    Linked (s.hand_out thread key) := by
  have hholder (handle : Handle) (hlocked : handle.locked = false) :
      (handle :: s.handles).Pairwise fun a b => a.locked → b.locked → a.mutex ≠ b.mutex :=
    pairwise_cons.mpr ⟨fun _ _ h => absurd h (by simp [hlocked]), h.one_holder⟩
  unfold KeyedLocks.hand_out
  split
  · rename_i mutex hget
    exact ⟨h.known, by simpa [hget] using h.entry, hholder _ rfl⟩
  rename_i hget
  refine ⟨fun other mutex hother => ?_, fun handle hhandle => ?_, hholder _ rfl⟩
  · rw [KeyMap.get_insert] at hother
    split_ifs at hother
    · cases hother
      exact Nat.lt_succ_self _
    · exact Nat.lt_succ_of_lt (h.known other mutex hother)
  · rcases mem_cons.mp hhandle with rfl | hhandle
    · exact KeyMap.get_insert_self _ _ _
    have hentry := h.entry handle hhandle
    rw [KeyMap.get_insert_of_ne, hentry]
    rintro rfl
    rw [hget] at hentry
    cases hentry

theorem Linked.step (h : Linked s) (hstep : Stepped s s') : Linked s' := by
  cases hstep with
  | call thread key hfree => exact ⟨h.known, h.entry, h.one_holder⟩
  | look key call hcall =>
    obtain ⟨map, hlook⟩ := look_eq
    have hget {other mutex} := @get_look s key other mutex
    rw [hlook] at hget ⊢
    refine ⟨fun other mutex hother => h.known other mutex (hget.mp hother).1, ?_, h.one_holder⟩
    exact fun handle hhandle => hget.mpr ⟨h.entry handle hhandle, fun _ => ⟨handle, hhandle, rfl⟩⟩
  | handOut call hcall hseen =>
    have hlinked := h.hand_out call.thread call.key
    exact ⟨hlinked.known, hlinked.entry, hlinked.one_holder⟩
  | handle i handle next hhandle hfree =>
    refine ⟨h.known, fun other hother => ?_, ?_⟩
    · rcases mem_put_map hother with hother | ⟨locked, -, rfl⟩
      · exact h.entry other hother
      · exact h.entry handle (mem_of_getElem? hhandle)
    refine ((put_perm hhandle).pairwise_iff fun hab hb ha => (hab ha hb).symm).mpr ?_
    have hrest := h.one_holder.sublist (eraseIdx_sublist s.handles i)
    cases next with
    | none => exact hrest
    | some locked =>
      refine pairwise_cons.mpr ⟨fun other hother hlocked hlocked' => ?_, hrest⟩
      cases hlocked
      exact (hfree rfl other (mem_of_mem_eraseIdx hother) hlocked').symm

/-! ## Entries without a handle -/

/-- No handle is left, and only the call in progress has still to visit it. -/
structure Leaving (mutex : Nat) (s : KeyedLocks) : Prop where
  known : mutex < s.allocated
  dropped : ∀ handle ∈ s.handles, handle.mutex ≠ mutex
  unseen : ∀ key, s.map.get key = some mutex → ∃ call, s.calling = some call ∧ key ∈ call.unseen

theorem Leaving.step (h : Leaving mutex s) (hstep : Stepped s s') : Leaving mutex s' := by
  cases hstep with
  | call thread key hfree =>
    refine ⟨h.known, h.dropped, fun other hother => ?_⟩
    obtain ⟨call, hcall, -⟩ := h.unseen other hother
    rw [hfree] at hcall
    cases hcall
  | look key call hcall =>
    obtain ⟨map, hlook⟩ := look_eq
    refine ⟨by rw [hlook]; exact h.known, by rw [hlook]; exact h.dropped, fun other hother => ?_⟩
    obtain ⟨hother, hlive⟩ := get_look.mp hother
    obtain ⟨call', hcall', hunseen⟩ := h.unseen other hother
    cases hcall.symm.trans hcall'
    refine ⟨_, rfl, (mem_erase_of_ne fun hkey => ?_).mpr hunseen⟩
    obtain ⟨handle, hhandle, hmutex⟩ := hlive hkey
    exact h.dropped handle hhandle hmutex
  | handOut call hcall hseen =>
    have hgone : ∀ key, s.map.get key ≠ some mutex := by
      intro key hkey
      obtain ⟨call', hcall', hunseen⟩ := h.unseen key hkey
      cases hcall.symm.trans hcall'
      rw [hseen] at hunseen
      cases hunseen
    unfold hand_out
    split
    · rename_i found hget
      have hfound : found ≠ mutex := fun heq => hgone call.key (heq ▸ hget)
      exact ⟨h.known, by simpa [hfound] using h.dropped, fun key hkey => absurd hkey (hgone key)⟩
    have hfresh : s.allocated ≠ mutex := Nat.ne_of_gt h.known
    refine ⟨Nat.lt_succ_of_lt h.known, by simpa [hfresh] using h.dropped, fun key hkey => ?_⟩
    rw [KeyMap.get_insert] at hkey
    split_ifs at hkey
    · exact absurd (Option.some.inj hkey) hfresh
    · exact absurd hkey (hgone key)
  | handle i handle next hhandle hfree =>
    refine ⟨h.known, fun other hother => ?_, h.unseen⟩
    rcases mem_put_map hother with hother | ⟨locked, -, rfl⟩
    · exact h.dropped other hother
    · exact h.dropped handle (mem_of_getElem? hhandle)

/-- In every run, two mutexes that are held at once are of different keys, and an entry
without a handle when a `lock_for` begins is gone when one has returned. -/
theorem one_holder_a_key {acts : List Act} (h : run step {} acts = some s) :
    s.handles.Pairwise (fun a b => a.locked → b.locked → a.key ≠ b.key) ∧
    ∀ key mutex thread key' during s', s.map.get key = some mutex →
      (∀ handle ∈ s.handles, handle.mutex ≠ mutex) →
      run step s (.Call thread key' :: (during ++ [.Return])) = some s' →
      ∀ key, s'.map.get key ≠ some mutex := by
  have hempty : Linked {} := by
    refine ⟨fun _ _ h => ?_, fun _ h => ?_, .nil⟩ <;> cases h
  have hlinked := run_keeps (fun _ _ _ hs h => Linked.step hs (step_cases h)) hempty h
  refine ⟨?_, fun key mutex thread key' during s' hmutex hdropped hrun other hother => ?_⟩
  · refine hlinked.one_holder.imp_of_mem fun {a b} ha hb hab hlocked hlocked' hkey => ?_
    have hentry := hlinked.entry a ha
    rw [hkey, hlinked.entry b hb] at hentry
    exact hab hlocked hlocked' (Option.some.inj hentry).symm
  · obtain ⟨called, hcall, hrun⟩ := run_cons_some.mp hrun
    obtain ⟨last, hduring, hreturn⟩ := run_concat_some hrun
    obtain ⟨-, hcalled⟩ := ite_none_right_eq_some.mp hcall
    cases hcalled
    have hbegun : Leaving mutex { s with calling := some ⟨thread, key', s.map.keys⟩ } := by
      refine ⟨hlinked.known key mutex hmutex, hdropped, fun key hkey => ⟨_, rfl, ?_⟩⟩
      rw [KeyMap.mem_keys_iff, hkey]
      exact nofun
    have hleaving := run_keeps (fun _ _ _ hs h => Leaving.step hs (step_cases h)) hbegun hduring
    obtain ⟨call, hcalling, -⟩ := (hleaving.step (step_cases hreturn)).unseen other hother
    obtain ⟨_, -, hreturn⟩ := bind_eq_some_iff.mp hreturn
    obtain ⟨-, hreturned⟩ := ite_none_right_eq_some.mp hreturn
    cases hreturned
    cases hcalling

/-- Of two clones of one directory one holds the lock, and the lock of a clone that is
over goes with the next call. -/
theorem the_lock_of_a_cloned_directory :
    let both : List Act := [.Call 0 "a", .Return, .Call 1 "a", .Look "a", .Return, .Lock 0]
    let acts : List Act := [.Call 0 "a", .Return, .Lock 0, .Unlock 0, .Drop 0]
    (∃ s, run step {} both = some s ∧ s.handles.map (·.key) = ["a", "a"] ∧
      s.handles.map (·.locked) = [true, false] ∧ run step s [.Lock 1] = none ∧
      s.handles.Pairwise fun a b => a.locked → b.locked → a.key ≠ b.key) ∧
    ∃ s s', run step {} acts = some s ∧ s.map.entries = [("a", 0)] ∧
      run step s [.Call 1 "b", .Look "a", .Return] = some s' ∧
      ∀ key, s'.map.get key ≠ some 0 := by
  intro both acts
  refine ⟨⟨_, rfl, rfl, rfl, rfl, ?_⟩, _, _, rfl, rfl, rfl, ?_⟩
  · exact (one_holder_a_key (show run step {} both = some _ from rfl)).1
  exact (one_holder_a_key (show run step {} acts = some _ from rfl)).2 "a" 0 1 "b" [.Look "a"] _ rfl (by decide) rfl

end KeyedLocks

end peppy.keyed_lock
