-- While the process that a key is bound to runs, the other instances neither store
-- nor remove the key, and it reads as written by its owner.
import Peppy.Datastore

open keymap runs tasks List Option

namespace peppy.datastore

open KeyMap Entry

/-! ## Owners -/

namespace Entry

variable {owner : Owner} {key key' : String} {entries : KeyMap String Entry}

theorem owner_in_eq_some : owner_in entries key = some owner ↔
      ∃ entry, entries.get key = some entry ∧ entry.stored.last_modified_by = owner.1 ∧
        entry.owner_incarnation = some owner.2 := by
  rw [owner_in, bind_eq_some_iff]
  refine exists_congr fun entry => and_congr_right fun _ => ?_
  rw [Entry.owner, map_eq_some_iff]
  constructor
  · rintro ⟨i, hi, rfl⟩
    exact ⟨rfl, hi⟩
  · rintro ⟨hwriter, hi⟩
    exact ⟨owner.2, hi, Prod.ext hwriter rfl⟩

theorem owner_in_congr {entries' : KeyMap String Entry}
    (h : entries'.get key = entries.get key) : owner_in entries' key = owner_in entries key := by
  rw [owner_in, h, owner_in]

theorem owner_in_insert_self {entry : Entry} :
    owner_in (entries.insert key entry) key = entry.owner := by
  rw [owner_in, get_insert_self, bind_some]

theorem owner_in_remove_of_ne
    (h : key' ≠ key) : owner_in (entries.remove key) key' = owner_in entries key' :=
  owner_in_congr (get_remove_of_ne entries h)

theorem owner_in_of_remove
    (h : owner_in (entries.remove key) key' = some owner) : owner_in entries key' = some owner := by
  by_cases hkey : key' = key
  · rw [hkey, owner_in, get_remove_self] at h
    cases h
  · rwa [owner_in_remove_of_ne hkey] at h

end Entry

section
variable {entries : KeyMap String Entry} {key : String} {owner : Owner}

variable {dead : List (String × Owner)}

theorem get_purge (h : owner_in entries key = some owner)
    (halive : (key, owner) ∉ dead) : (purge dead entries).get key = entries.get key := by
  induction dead generalizing entries with
  | nil => rfl
  | cons x dead ih =>
    obtain ⟨key', owner'⟩ := x
    obtain ⟨hne, halive⟩ := not_or.mp (fun hx => halive (mem_cons.mpr hx))
    rw [purge, foldl_cons, ← purge]
    dsimp only
    split_ifs with hdead
    · have hkey : key ≠ key' := by
        rintro rfl
        exact hne (Prod.ext rfl (Option.some.inj (h.symm.trans hdead)))
      rw [ih (by rwa [owner_in_remove_of_ne hkey]) halive,
        get_remove_of_ne entries hkey]
    · exact ih h halive

theorem owner_in_of_purge (h : owner_in (purge dead entries) key = some owner) :
    owner_in entries key = some owner := by
  induction dead generalizing entries with
  | nil => exact h
  | cons x dead ih =>
    rw [purge, foldl_cons, ← purge] at h
    dsimp only at h
    split_ifs at h
    · exact owner_in_of_remove (ih h)
    · exact ih h

end

variable {core_node_name : String}

namespace Datastore

/-! ## What a call does under the lock -/

section
variable {d : Datastore} {entries : KeyMap String Entry} {request : Request}
  {incarnation : Option Nat} {k : String}

theorem get_act_of_ne (h : k ≠ key request) :
    (d.act request incarnation entries).1.get k = entries.get k := by
  cases request with
  | Store key value encoding writer =>
    rw [act, store]
    split
    · exact get_insert_of_ne entries _ h
    · split
      · rfl
      · exact get_insert_of_ne entries _ h
  | StoreExclusive key value encoding writer =>
    rw [act, store_exclusive]
    split
    · exact get_insert_of_ne entries _ h
    · split_ifs
      · rfl
      · rfl
      · exact get_insert_of_ne entries _ h
  | Get key => rfl
  | List => rfl
  | Remove key remover =>
    rw [act, remove]
    split
    · rfl
    · split
      · rfl
      · exact get_remove_of_ne entries h

/-- The incarnation of an owner is one from before, or the one looked up. -/
theorem owner_in_act {owner : Owner}
    (h : owner_in (d.act request incarnation entries).1 k = some owner) :
    (∃ before, owner_in entries k = some before ∧ before.2 = owner.2) ∨
      incarnation = some owner.2 := by
  by_cases hk : k = key request
  · subst hk
    cases request with
    | Store key value encoding writer =>
      rw [act, store] at h
      split at h
      · rw [Datastore.key, owner_in_insert_self] at h
        cases h
      rename_i entry hget
      split at h
      · exact .inl ⟨owner, h, rfl⟩
      rw [Datastore.key, owner_in_insert_self, Entry.owner] at h
      obtain ⟨i, hi, rfl⟩ := map_eq_some_iff.mp h
      have hbefore : owner_in entries key = some (entry.stored.last_modified_by, i) :=
        owner_in_eq_some.mpr ⟨entry, hget, rfl, hi⟩
      exact .inl ⟨_, hbefore, rfl⟩
    | StoreExclusive key value encoding writer =>
      have hstored : owner_in
          (entries.insert key (.new value encoding writer incarnation)) key = some owner →
            incarnation = some owner.2 := by
        intro h
        rw [owner_in_insert_self, Entry.owner] at h
        obtain ⟨i, hi, rfl⟩ := map_eq_some_iff.mp h
        exact hi
      rw [act, store_exclusive] at h
      split at h
      · exact .inr (hstored h)
      · split_ifs at h
        · exact .inl ⟨owner, h, rfl⟩
        · exact .inl ⟨owner, h, rfl⟩
        · exact .inr (hstored h)
    | Get key => exact .inl ⟨owner, h, rfl⟩
    | List => exact .inl ⟨owner, h, rfl⟩
    | Remove key remover =>
      rw [act, remove] at h
      split at h
      · exact .inl ⟨owner, h, rfl⟩
      · split at h
        · exact .inl ⟨owner, h, rfl⟩
        · exact .inl ⟨owner, owner_in_of_remove h, rfl⟩
  · rw [owner_in_congr (get_act_of_ne hk)] at h
    exact .inl ⟨owner, h, rfl⟩

end

/-! ## What the calls looked up -/

def fits (request : Request) : Phase → Bool
  | .Incarnation =>
    match request with
    | .StoreExclusive .. => true
    | _ => false
  | .Owned => request = .List
  | .Lookups .. => request = .List
  | _ => request ≠ .List

/-- What a call looked up is before `next`, and the dead it found stay dead. -/
def FreshPhase (next : Nat) (live : KeyMap String Nat) : Phase → Prop
  | .Incarnation => True
  | .Owner incarnation => ∀ i ∈ incarnation, i < next
  | .Lookup incarnation owner => (∀ i ∈ incarnation, i < next) ∧ ∀ o ∈ owner, o.2 < next
  | .Act incarnation owner gone =>
    (∀ i ∈ incarnation, i < next) ∧ (∀ o ∈ owner, o.2 < next) ∧
      (gone = true → ∀ o ∈ owner, live.get o.1 ≠ some o.2)
  | .Owned => True
  | .Lookups owned dead =>
    (∀ x ∈ owned, x.2.2 < next) ∧ (∀ x ∈ dead, x.2.2 < next) ∧
      ∀ x ∈ dead, live.get x.2.1 ≠ some x.2.2

/-- Every incarnation in use was handed out before. -/
structure Fresh (d : Datastore) : Prop where
  live : ∀ a i, d.live.get a = some i → i < d.next_incarnation
  owners : ∀ key owner, owner_in d.entries key = some owner → owner.2 < d.next_incarnation
  calls : ∀ call ∈ d.calls, FreshPhase d.next_incarnation d.live call.phase
  phases : ∀ call ∈ d.calls, fits call.request call.phase = true

section
variable {d d' : Datastore} {call : Call}

variable {phase : Phase} {owner : Owner}

theorem FreshPhase.mono {next next' : Nat} {live live' : KeyMap String Nat} (hnext : next ≤ next')
    (hlive : ∀ a i, i < next → live.get a ≠ some i → live'.get a ≠ some i)
    (h : FreshPhase next live phase) : FreshPhase next' live' phase := by
  cases phase with
  | Incarnation => trivial
  | Owner incarnation => exact fun i hi => Nat.lt_of_lt_of_le (h i hi) hnext
  | Lookup incarnation owner =>
    exact ⟨fun i hi => Nat.lt_of_lt_of_le (h.1 i hi) hnext, fun o ho => Nat.lt_of_lt_of_le (h.2 o ho) hnext⟩
  | Act incarnation owner gone =>
    exact ⟨fun i hi => Nat.lt_of_lt_of_le (h.1 i hi) hnext, fun o ho => Nat.lt_of_lt_of_le (h.2.1 o ho) hnext,
      fun hgone o ho => hlive o.1 o.2 (h.2.1 o ho) (h.2.2 hgone o ho)⟩
  | Owned => trivial
  | Lookups owned dead =>
    exact ⟨fun x hx => Nat.lt_of_lt_of_le (h.1 x hx) hnext, fun x hx => Nat.lt_of_lt_of_le (h.2.1 x hx) hnext,
      fun x hx => hlive x.2.1 x.2.2 (h.2.1 x hx) (h.2.2 x hx)⟩

theorem Fresh.owners_turn (h : Fresh d) (hcall : call ∈ d.calls) {key : String}
    (howner : owner_in (d.turn call).1 key = some owner) : owner.2 < d.next_incarnation := by
  have hphase := h.calls call hcall
  rw [turn] at howner
  split at howner
  · split at howner
    · split at howner <;> exact h.owners key owner howner
    · exact h.owners key owner howner
  · exact h.owners key owner howner
  · exact h.owners key owner howner
  · rename_i incarnation looked gone heq
    rw [heq] at hphase
    split_ifs at howner with hchanged hgone
    · exact h.owners key owner howner
    · rcases owner_in_act howner with ⟨before, hbefore, hsame⟩ | hinc
      · rw [← hsame]
        exact h.owners key before (owner_in_of_remove hbefore)
      · exact hphase.1 owner.2 hinc
    · rcases owner_in_act howner with ⟨before, hbefore, hsame⟩ | hinc
      · rw [← hsame]
        exact h.owners key before hbefore
      · exact hphase.1 owner.2 hinc
  · exact h.owners key owner howner
  · exact h.owners key owner howner
  · exact h.owners key owner (owner_in_of_purge howner)

theorem runs_eq_false (h : d.runs owner = false) : d.live.get owner.1 ≠ some owner.2 := by
  rw [runs, live_incarnation, decide_eq_false_iff_not] at h
  exact h

theorem Fresh.phase_turn (h : Fresh d) (hcall : call ∈ d.calls)
    (hnext : (d.turn call).2.next = some phase) :
    FreshPhase d.next_incarnation d.live phase ∧ fits call.request phase = true := by
  have hphase := h.calls call hcall
  have hfits := h.phases call hcall
  rw [turn] at hnext
  split at hnext
  · rename_i heq
    rw [heq] at hfits
    split at hnext
    · rename_i key value encoding writer hreq
      rw [hreq]
      split at hnext
      · cases hnext
      rename_i i hlive
      cases hnext
      refine ⟨?_, rfl⟩
      rintro j ⟨⟩
      exact h.live writer i hlive
    · rename_i hreq
      cases hrequest : call.request with
      | StoreExclusive key value encoding writer => exact absurd hrequest (hreq _ _ _ _)
      | _ => rw [hrequest] at hfits; cases hfits
  · rename_i incarnation heq
    rw [heq] at hphase hfits
    cases hnext
    exact ⟨⟨hphase, fun o ho => h.owners _ o ho⟩, hfits⟩
  · rename_i incarnation owner heq
    rw [heq] at hphase hfits
    cases hnext
    refine ⟨⟨hphase.1, hphase.2, fun hgone o ho => ?_⟩, hfits⟩
    rw [mem_def.mp ho, any_some, Bool.not_eq_true'] at hgone
    exact runs_eq_false hgone
  · rename_i incarnation owner gone heq
    rw [heq] at hphase hfits
    split_ifs at hnext
    · cases hnext
      exact ⟨hphase.1, hfits⟩
    · cases hnext
    · cases hnext
  · rename_i heq
    rw [heq] at hfits
    cases hnext
    refine ⟨⟨fun x hx => ?_, nofun, nofun⟩, hfits⟩
    obtain ⟨⟨key, entry⟩, hentry, hx⟩ := mem_filterMap.mp hx
    obtain ⟨owner, howner, rfl⟩ := map_eq_some_iff.mp hx
    refine h.owners key owner ?_
    rw [owner_in, get_eq_some_iff.mpr hentry, bind_some]
    exact howner
  · rename_i key owner owned dead heq
    rw [heq] at hphase hfits
    obtain ⟨howned, hdead, hgone⟩ := hphase
    cases hnext
    refine ⟨⟨fun x hx => howned x (mem_cons_of_mem _ hx), ?_, ?_⟩, hfits⟩
    · intro x hx
      split_ifs at hx with hruns
      · exact hdead x hx
      · rcases changes.mem_push hx with hx | rfl
        · exact hdead x hx
        · exact howned _ mem_cons_self
    · intro x hx
      split_ifs at hx with hruns
      · exact hgone x hx
      · rcases changes.mem_push hx with hx | rfl
        · exact hgone x hx
        · exact runs_eq_false (Bool.eq_false_iff.mpr hruns)
  · cases hnext

theorem Fresh.step (h : Fresh d) {act : StoreAct} (hstep : d.step act = some d') : Fresh d' := by
  cases act with
  | Send request =>
    cases hstep
    refine ⟨h.live, h.owners, fun call hcall => ?_, fun call hcall => ?_⟩
    · rcases changes.mem_push hcall with hcall | rfl
      · exact h.calls call hcall
      · cases request <;> first | trivial | rintro _ ⟨⟩
    · rcases changes.mem_push hcall with hcall | rfl
      · exact h.phases call hcall
      · cases request <;> rfl
  | Turn index =>
    rw [Datastore.step] at hstep
    split at hstep
    · cases hstep
    rename_i call hget
    have hin := mem_of_getElem? hget
    cases hstep
    refine ⟨h.live, fun key owner => h.owners_turn hin, fun call' hcall' => ?_,
      fun call' hcall' => ?_⟩
    · rcases mem_put_map hcall' with hold | ⟨phase, hphase, rfl⟩
      · exact h.calls call' hold
      · exact (h.phase_turn hin hphase).1
    · rcases mem_put_map hcall' with hold | ⟨phase, hphase, rfl⟩
      · exact h.phases call' hold
      · exact (h.phase_turn hin hphase).2
  | Start instance_id =>
    rw [Datastore.step] at hstep
    split_ifs at hstep
    cases hstep
    refine ⟨fun a i hi => ?_, fun key owner ho => Nat.lt_succ_of_lt (h.owners key owner ho),
      fun call hcall => ?_, h.phases⟩
    · dsimp only at hi ⊢
      rw [get_insert] at hi
      split_ifs at hi
      · cases hi
        exact Nat.lt_succ_self _
      · exact Nat.lt_succ_of_lt (h.live a i hi)
    · -- the process that starts is none of those that were looked up
      refine (h.calls call hcall).mono (Nat.le_succ _) fun a i hi hne => ?_
      rw [get_insert]
      split_ifs
      · intro heq
        cases heq
        exact Nat.lt_irrefl _ hi
      · exact hne
  | End instance_id =>
    cases hstep
    refine ⟨fun a i hi => ?_, h.owners, fun call hcall => ?_, h.phases⟩
    · dsimp only at hi
      rw [get_remove] at hi
      split_ifs at hi
      exact h.live a i hi
    · refine (h.calls call hcall).mono (Nat.le_refl _) fun a i _ hne => ?_
      rw [get_remove]
      split_ifs
      · rintro ⟨⟩
      · exact hne

theorem fresh_of_run {acts : List StoreAct}
    (hrun : run step (new core_node_name) acts = some d) : Fresh d := by
  refine run_keeps (fun d act d' h hstep => h.step hstep) ?_ hrun
  refine ⟨?_, ?_, ?_, ?_⟩
  · intro a i h
    cases h
  · intro key owner h
    cases h
  · intro call h
    cases h
  · intro call h
    cases h

end

/-! ## A key whose owner runs -/

/-- The key is the owner's, whose process runs. -/
structure OwnedBy (k owner : String) (process : Nat) (d : Datastore) : Prop where
  owned : owner_in d.entries k = some (owner, process)
  runs : d.live_incarnation owner = some process

/-- The answer leaves the key to its owner. -/
def Respects (k owner : String) (d : Datastore) (call : Call) (answer : Answer) : Prop :=
  match call.request with
  | .Store key _ _ writer => key = k → writer ≠ owner → ∃ error, answer = .Store (.error error)
  | .StoreExclusive key _ _ writer => key = k → writer ≠ owner →
    (∃ value encoding, answer = .StoreExclusive (.ok (.Refused value encoding owner))) ∨
      d.live_incarnation writer = none ∧
        answer = .StoreExclusive (.error (.DatastoreOwnerNotRunning writer))
  | .Get key => key = k → ∃ stored, answer = .Get (some stored) ∧ stored.last_modified_by = owner
  | .List => ∃ listed, answer = .List listed ∧ (∃ entry ∈ listed, entry.key = k) ∧
    ∀ entry ∈ listed, entry.key = k → entry.last_modified_by = owner
  | .Remove key remover => key = k → remover ≠ owner → ∃ error, answer = .Remove (.error error)

/-- The turn does not remove the key, and stores it only for the process that runs. -/
def KeepsKey (k owner : String) (d : Datastore) (call : Call) : Prop :=
  match call.request, call.phase with
  | .StoreExclusive key _ _ writer, .Act incarnation _ _ =>
    key = k → writer = owner → d.live_incarnation owner = incarnation
  | .Remove key remover, .Act _ looked _ =>
    key = k → remover = owner → owner_in d.entries k ≠ looked
  | _, _ => True

section
variable {d d' : Datastore} {call : Call} {k owner : String} {process : Nat}

variable {encoding writer : String} {entry : Entry} {gone : Bool} {looked : Option Owner}
  {incarnation : Option Nat} {answer : Answer} {entries : KeyMap String Entry} {value : bytes.Bytes}

theorem refuse_other_writer_of_ne
    (howned : entry.owner_incarnation ≠ none) (hne : entry.stored.last_modified_by ≠ writer) :
    ∃ error, refuse_other_writer core_node_name entry k writer = .error error := by
  rw [refuse_other_writer, owner_other_than,
    if_pos ⟨isSome_iff_ne_none.mpr howned, hne⟩]
  exact ⟨_, rfl⟩

theorem OwnedBy.act (h : OwnedBy k owner process d) {request : Request}
    (hcall : call = { request, phase := .Act incarnation looked gone })
    (hlist : request ≠ .List) (hlooked : owner_in d.entries k = looked)
    (hkey : key request = k) (hkeeps : KeepsKey k owner d call) :
    owner_in (d.act request incarnation d.entries).1 k = some (owner, process) ∧
      Respects k owner d call (d.act request incarnation d.entries).2 := by
  obtain ⟨entry, hget, hwriter, hinc⟩ := owner_in_eq_some.mp h.owned
  have hne : entry.owner_incarnation ≠ none := by rw [hinc]; exact nofun
  subst hcall
  cases request with
  | Store key value encoding writer =>
    obtain rfl : key = k := hkey
    rw [Datastore.act, store, hget]
    dsimp only
    by_cases hown : entry.stored.last_modified_by = writer
    · rw [refuse_other_writer, owner_other_than, if_neg fun h => h.2 hown]
      refine ⟨?_, fun _ hother => absurd (hown.symm.trans hwriter) hother⟩
      dsimp only
      rw [owner_in_insert_self, Entry.owner]
      dsimp only [Entry.new]
      rw [hinc, ← hown, hwriter]
      rfl
    · obtain ⟨error, herror⟩ := refuse_other_writer_of_ne hne hown
      rw [herror]
      exact ⟨h.owned, fun _ _ => ⟨error, rfl⟩⟩
  | StoreExclusive key value encoding writer =>
    obtain rfl : key = k := hkey
    rw [Datastore.act, store_exclusive, hget]
    dsimp only
    rw [if_neg hne]
    by_cases hown : entry.stored.last_modified_by = writer
    · have howner : writer = owner := hown.symm.trans hwriter
      have hsame : (entry.owner_other_than writer).isSome = false := by
        rw [owner_other_than, if_neg (fun h => h.2 hown)]
        rfl
      rw [hsame, if_neg (by simp)]
      refine ⟨?_, fun _ hother => absurd howner hother⟩
      have hinc' : d.live_incarnation owner = incarnation := hkeeps rfl howner
      dsimp only
      rw [owner_in_insert_self, Entry.owner]
      dsimp only [Entry.new]
      rw [← hinc', h.runs, howner]
      rfl
    · have hother : (entry.owner_other_than writer).isSome = true := by
        rw [owner_other_than, if_pos ⟨isSome_iff_ne_none.mpr hne, hown⟩]
        rfl
      rw [hother, if_pos rfl]
      refine ⟨h.owned, fun _ _ => Or.inl ⟨entry.stored.value, entry.stored.encoding, ?_⟩⟩
      rw [hwriter]
  | Get key =>
    obtain rfl : key = k := hkey
    refine ⟨h.owned, fun _ => ⟨entry.stored, ?_, hwriter⟩⟩
    rw [Datastore.act, get, hget]
    rfl
  | List => exact absurd rfl hlist
  | Remove key remover =>
    obtain rfl : key = k := hkey
    rw [Datastore.act, remove, hget]
    dsimp only
    by_cases hown : entry.stored.last_modified_by = remover
    · exact absurd hlooked (hkeeps rfl (hown.symm.trans hwriter))
    · obtain ⟨error, herror⟩ := refuse_other_writer_of_ne hne hown
      rw [herror]
      exact ⟨h.owned, fun _ _ => ⟨error, rfl⟩⟩

theorem respects_of_ne (hlist : call.request ≠ .List)
    (hkey : key call.request ≠ k) : Respects k owner d call answer := by
  rw [Respects]
  split
  · rename_i hreq
    exact fun heq => absurd (by rw [hreq]; exact heq) hkey
  · rename_i hreq
    exact fun heq => absurd (by rw [hreq]; exact heq) hkey
  · rename_i hreq
    exact fun heq => absurd (by rw [hreq]; exact heq) hkey
  · rename_i hreq
    exact absurd hreq hlist
  · rename_i hreq
    exact fun heq => absurd (by rw [hreq]; exact heq) hkey

theorem respects_of_not_keepsKey (h : ¬ KeepsKey k owner d call) :
    Respects k owner d call answer := by
  rw [KeepsKey] at h
  split at h
  · rename_i hreq _
    rw [Respects, hreq]
    exact fun hkey hne => absurd (fun _ heq => absurd heq hne) h
  · rename_i hreq _
    rw [Respects, hreq]
    exact fun hkey hne => absurd (fun _ heq => absurd heq hne) h
  · exact absurd trivial h

theorem mem_list_entries {listed : DatastoreListEntry} :
    listed ∈ list_entries entries ↔ ∃ entry, entries.get listed.key = some entry ∧
      listed.encoding = entry.stored.encoding ∧
      listed.last_modified_by = entry.stored.last_modified_by := by
  rw [list_entries, List.mem_map]
  constructor
  · rintro ⟨⟨key, entry⟩, hmem, rfl⟩
    exact ⟨entry, get_eq_some_iff.mpr hmem, rfl, rfl⟩
  rintro ⟨entry, hget, hencoding, hwriter⟩
  refine ⟨(listed.key, entry), get_eq_some_iff.mp hget, ?_⟩
  cases listed
  cases hencoding
  cases hwriter
  rfl

theorem OwnedBy.turn (h : OwnedBy k owner process d) (hfresh : Fresh d) (hcall : call ∈ d.calls)
    (hkeeps : KeepsKey k owner d call) : owner_in (d.turn call).1 k = some (owner, process) ∧
      ∀ answer, (d.turn call).2 = .Answered answer → Respects k owner d call answer := by
  have hphase := hfresh.calls call hcall
  have hfits := hfresh.phases call hcall
  rw [Datastore.turn]
  split
  · rename_i heq
    rw [heq] at hfits
    split
    · rename_i key value encoding writer hreq
      split
      · rename_i hnone
        refine ⟨h.owned, ?_⟩
        rintro answer ⟨⟩
        rw [Respects, hreq]
        exact fun _ _ => Or.inr ⟨hnone, rfl⟩
      · exact ⟨h.owned, nofun⟩
    · exact ⟨h.owned, nofun⟩
  · exact ⟨h.owned, nofun⟩
  · exact ⟨h.owned, nofun⟩
  · rename_i incarnation looked gone heq
    rw [heq] at hphase hfits
    have hlist : call.request ≠ .List := of_decide_eq_true hfits
    have hcall' : call = { request := call.request, phase := .Act incarnation looked gone } := by
      rw [← heq]
    split_ifs with hchanged hgone
    · exact ⟨h.owned, nofun⟩
    · -- the owner that was found dead is not the one that runs
      have hlooked := not_not.mp hchanged
      have hne : k ≠ key call.request := by
        rintro rfl
        rw [h.owned] at hlooked
        exact hphase.2.2 hgone _ hlooked.symm h.runs
      refine ⟨?_, ?_⟩
      · dsimp only
        rw [owner_in_congr (get_act_of_ne hne), owner_in_remove_of_ne hne]
        exact h.owned
      · rintro answer -
        exact respects_of_ne hlist hne.symm
    · have hlooked := not_not.mp hchanged
      by_cases hkey : key call.request = k
      · obtain ⟨howner, hrespects⟩ := h.act hcall' hlist (hkey ▸ hlooked) hkey hkeeps
        refine ⟨howner, ?_⟩
        rintro answer ⟨⟩
        exact hrespects
      · refine ⟨?_, ?_⟩
        · dsimp only
          rw [owner_in_congr (get_act_of_ne (Ne.symm hkey))]
          exact h.owned
        · rintro answer -
          exact respects_of_ne hlist hkey
  · exact ⟨h.owned, nofun⟩
  · exact ⟨h.owned, nofun⟩
  rename_i dead heq
  rw [heq] at hphase hfits
  have hlist : call.request = .List := of_decide_eq_true hfits
  have halive : (k, (owner, process)) ∉ dead := fun hin => hphase.2.2 _ hin h.runs
  have hget := get_purge h.owned halive
  have howner : owner_in (purge dead d.entries) k = some (owner, process) :=
    (owner_in_congr hget).trans h.owned
  refine ⟨howner, ?_⟩
  rintro answer ⟨⟩
  obtain ⟨entry, hentry, hwriter, -⟩ := owner_in_eq_some.mp howner
  rw [Respects, hlist]
  refine ⟨_, rfl, ⟨⟨k, entry.stored.encoding, entry.stored.last_modified_by⟩,
    mem_list_entries.mpr ⟨entry, hentry, rfl, rfl⟩, rfl⟩, ?_⟩
  intro listed hlisted hk
  obtain ⟨entry', hentry', -, hwriter'⟩ := mem_list_entries.mp hlisted
  rw [hk, hentry] at hentry'
  cases hentry'
  exact hwriter'.trans hwriter

/-- The owner runs on, does not remove the key, and stores it for its process. -/
def keeps_key (k owner : String) (d : Datastore) : StoreAct → Prop
  | .Turn index => ∀ call ∈ d.calls[index]?, KeepsKey k owner d call
  | .End instance_id => instance_id ≠ owner
  | _ => True

instance (k owner : String) (d : Datastore) (call : Call) : Decidable (KeepsKey k owner d call) := by
  unfold KeepsKey
  split <;> infer_instance

instance (k owner : String) (d : Datastore) (act : StoreAct) :
    Decidable (keeps_key k owner d act) := by
  cases act <;> unfold keeps_key <;> infer_instance

theorem OwnedBy.step (h : OwnedBy k owner process d) (hfresh : Fresh d) {act : StoreAct}
    (hact : keeps_key k owner d act) (hstep : d.step act = some d') :
    OwnedBy k owner process d' := by
  cases act with
  | Send request =>
    cases hstep
    exact ⟨h.owned, h.runs⟩
  | Turn index =>
    rw [Datastore.step] at hstep
    split at hstep
    · cases hstep
    · rename_i call hget
      cases hstep
      exact ⟨(h.turn hfresh (mem_of_getElem? hget) (hact call hget)).1, h.runs⟩
  | Start instance_id =>
    rw [Datastore.step] at hstep
    split_ifs at hstep with hrunning
    cases hstep
    refine ⟨h.owned, ?_⟩
    have hne : owner ≠ instance_id := by
      rintro rfl
      rw [KeyMap.contains, show d.live.get owner = some process from h.runs] at hrunning
      exact hrunning rfl
    exact (get_insert_of_ne d.live _ hne).trans h.runs
  | End instance_id =>
    cases hstep
    exact ⟨h.owned, (get_remove_of_ne d.live (Ne.symm hact)).trans h.runs⟩

theorem entries_of_stored (h : (store_exclusive k value encoding owner incarnation entries).2 =
      .StoreExclusive (.ok .Stored)) :
    (store_exclusive k value encoding owner incarnation entries).1 =
      entries.insert k (.new value encoding owner incarnation) := by
  rw [store_exclusive] at h ⊢
  cases hget : entries.get k with
  | none => rfl
  | some current =>
    rw [hget] at h
    dsimp only at h ⊢
    split_ifs at h ⊢
    · cases h
    · cases h
    · rfl

/-- A `store_exclusive` answered `Stored` binds the key to the process looked up. -/
theorem ownedBy_of_stored (hruns : d.live_incarnation owner = some process) (hcall : call =
    { request := .StoreExclusive k value encoding owner, phase := .Act incarnation looked gone })
    (hkeeps : KeepsKey k owner d call)
    (hstored : (d.turn call).2 = .Answered (.StoreExclusive (.ok .Stored))) :
    owner_in (d.turn call).1 k = some (owner, process) := by
  subst hcall
  have hinc : incarnation = some process := (hkeeps rfl rfl).symm.trans hruns
  have hnew : ∀ entries : KeyMap String Entry, owner_in
      (entries.insert k (.new value encoding owner incarnation)) k = some (owner, process) := by
    intro entries
    rw [owner_in_insert_self, Entry.owner]
    dsimp only [Entry.new]
    rw [hinc]
    rfl
  rw [Datastore.turn] at hstored ⊢
  dsimp only at hstored ⊢
  split_ifs at hstored ⊢ with hchanged hgone
  all_goals
    rw [Datastore.act, entries_of_stored (Turned.Answered.inj hstored)]
    exact hnew _

/-- After a `store_exclusive` by a running owner was answered `Stored`, while the owner
keeps the key: calls of other instances on it fail or are refused, and `get` and `list` give
what the owner wrote last. -/
theorem a_key_that_is_stored_exclusively_stays_with_its_owner (core_node_name : String)
    {k owner : String} {process : Nat} {before acts : List StoreAct} {d₀ d₁ d : Datastore}
    {index : Nat} {call : Call} {value : bytes.Bytes} {encoding : String}
    (hbefore : run step (new core_node_name) before = some d₀)
    (hcall : d₀.calls[index]? = some call)
    (hrequest : call.request = .StoreExclusive k value encoding owner)
    (hstored : (d₀.turn call).2 = .Answered (.StoreExclusive (.ok .Stored)))
    (hruns : d₀.live_incarnation owner = some process) (hstep : d₀.step (.Turn index) = some d₁)
    (hrun : run step d₁ acts = some d)
    (hacts : Meets step (keeps_key k owner) d₀ (.Turn index :: acts)) :
    ∀ next ∈ d.calls, ∀ answer, (d.turn next).2 = .Answered answer →
      Respects k owner d next answer := by
  have hfresh₀ := fresh_of_run hbefore
  have hfresh₁ := hfresh₀.step hstep
  obtain ⟨hfirst, hrest⟩ := hacts
  -- the answer `Stored` is given under the lock
  have hphase : ∃ incarnation looked gone, call.phase = .Act incarnation looked gone := by
    have hfits := hfresh₀.phases call (mem_of_getElem? hcall)
    cases hp : call.phase with
    | Act incarnation looked gone => exact ⟨incarnation, looked, gone, rfl⟩
    | Incarnation =>
      rw [turn, hp, hrequest] at hstored
      dsimp only at hstored
      rw [hruns] at hstored
      cases hstored
    | Owner | Lookup | Owned =>
      rw [turn, hp] at hstored
      cases hstored
    | Lookups owned dead =>
      rw [hp, hrequest] at hfits
      cases hfits
  obtain ⟨incarnation, looked, gone, hphase⟩ := hphase
  have hcall' : call =
      { request := .StoreExclusive k value encoding owner
        phase := .Act incarnation looked gone } := by
    rw [← hrequest, ← hphase]
  have howned₁ : OwnedBy k owner process d₁ := by
    rw [step, hcall] at hstep
    cases hstep
    exact ⟨ownedBy_of_stored hruns hcall' (hfirst call hcall) hstored, hruns⟩
  have hlast : OwnedBy k owner process d ∧ Fresh d := by
    refine run_keeps_where (I := fun d => OwnedBy k owner process d ∧ Fresh d)
      (fun d act d' h hact hs => ⟨h.1.step h.2 hact hs, h.2.step hs⟩) ⟨howned₁, hfresh₁⟩
      (hrest d₁ hstep) hrun
  intro next hnext answer hanswer
  by_cases hkeeps : KeepsKey k owner d next
  · exact (hlast.1.turn hlast.2 hnext hkeeps).2 answer hanswer
  · exact respects_of_not_keepsKey hkeeps

/-! ## The bus of an arm -/

def storeBus : List StoreAct :=
  [.Start "arm", .Send (.StoreExclusive "bus" [1] "bytes" "arm"), .Turn 0, .Turn 0, .Turn 0]

def storingBus : Call :=
  { request := .StoreExclusive "bus" [1] "bytes" "arm", phase := .Act (some 0) none false }

def beforeBus : Datastore :=
  { core_node_name := "cn-desk"
    live := ⟨[("arm", 0)], by decide⟩
    next_incarnation := 1
    calls := [storingBus] }

def withBus (calls : List Call) : Datastore :=
  { core_node_name := "cn-desk"
    entries := ⟨[("bus", .new [1] "bytes" "arm" (some 0))], by decide⟩
    live := ⟨[("arm", 0)], by decide⟩
    next_incarnation := 1
    calls }

def grippersStore : Call :=
  { request := .Store "bus" [2] "bytes" "gripper", phase := .Act none (some ("arm", 0)) false }

theorem the_gripper_does_not_store_the_bus_of_the_arm :
    run step (new "cn-desk") storeBus = some beforeBus ∧
      (beforeBus.turn storingBus).2 = .Answered (.StoreExclusive (.ok .Stored)) ∧
      run step (withBus []) [.Send (.Store "bus" [2] "bytes" "gripper"), .Turn 0, .Turn 0] =
        some (withBus [grippersStore]) ∧
      Respects "bus" "arm" (withBus [grippersStore]) grippersStore
        (.Store (.error (.DatastoreKeyOwned "bus" "arm" (stop_command "arm" "cn-desk")))) := by
  have hbefore : run step (new "cn-desk") storeBus = some beforeBus := by decide +kernel
  have hstep : beforeBus.step (.Turn 0) = some (withBus []) := by decide +kernel
  have hrun : run step (withBus []) [.Send (.Store "bus" [2] "bytes" "gripper"), .Turn 0,
      .Turn 0] = some (withBus [grippersStore]) := by decide +kernel
  refine ⟨hbefore, rfl, hrun, ?_⟩
  refine a_key_that_is_stored_exclusively_stays_with_its_owner "cn-desk" hbefore rfl rfl rfl rfl
    hstep hrun ?_ grippersStore (mem_singleton_self _) _ rfl
  decide +kernel

/-- The gripper, which runs on no process of this daemon, asks for the bus of
the arm: it is not answered `Refused`. -/
theorem an_exclusive_store_that_is_not_answered_refused : (∃ call ∈ beforeBus.calls,
      (beforeBus.turn call).2 = .Answered (.StoreExclusive (.ok .Stored))) ∧
    run step (new "cn-desk") (storeBus ++
        [.Turn 0, .Send (.StoreExclusive "bus" [2] "bytes" "gripper")]) = some (withBus
        [{ request := .StoreExclusive "bus" [2] "bytes" "gripper", phase := .Incarnation }]) ∧
    run step (new "cn-desk") storeBus = some beforeBus ∧
    ((withBus
        [{ request := .StoreExclusive "bus" [2] "bytes" "gripper", phase := .Incarnation }]).turn
      { request := .StoreExclusive "bus" [2] "bytes" "gripper", phase := .Incarnation }).2 =
        .Answered (.StoreExclusive (.error (.DatastoreOwnerNotRunning "gripper"))) := by
  refine ⟨⟨storingBus, mem_singleton_self _, rfl⟩, ?_, ?_, rfl⟩
  · decide +kernel
  · decide +kernel

end

end Datastore

end peppy.datastore
