-- Maps that are read in the order of their keys, as a list of entries with one entry
-- a key. A new key comes before the first greater one.
import Mathlib.Data.List.Nodup

open List

namespace keymap

variable {κ α : Type}

structure KeyMap (κ α : Type) where
  entries : List (κ × α) := []
  nodup : (entries.map Prod.fst).Nodup := by exact List.nodup_nil
  deriving DecidableEq

abbrev KeySet (κ : Type) := KeyMap κ Unit

section
variable [DecidableEq κ]

/-! ## Entries -/

def lookup (k : κ) : List (κ × α) → Option α
  | [] => none
  | (a, x) :: l => if k = a then some x else lookup k l

def setEntry (k : κ) (x : α) (l : List (κ × α)) : List (κ × α) :=
  l.map fun e => if e.1 = k then (k, x) else e

def newEntry [Ord κ] (k : κ) (x : α) : List (κ × α) → List (κ × α)
  | [] => [(k, x)]
  | e :: l => if compare k e.1 = .lt then (k, x) :: e :: l else e :: newEntry k x l

variable {l : List (κ × α)} {k : κ}

theorem lookup_eq_some {x : α} (hl : (l.map Prod.fst).Nodup) :
    lookup k l = some x ↔ (k, x) ∈ l := by
  induction l with
  | nil => simp [lookup]
  | cons e l ih =>
    obtain ⟨a, y⟩ := e
    obtain ⟨hnot, hl⟩ := nodup_cons.mp hl
    rw [lookup]
    by_cases hk : k = a
    · subst hk
      have hno : (k, x) ∉ l := fun h => hnot (mem_map.mpr ⟨(k, x), h, rfl⟩)
      rw [if_pos rfl, mem_cons, Option.some.injEq, Prod.mk.injEq]
      constructor
      · intro h
        exact .inl ⟨rfl, h.symm⟩
      · rintro (h | h)
        · exact h.2.symm
        · exact absurd h hno
    · rw [if_neg hk, ih hl, mem_cons, Prod.mk.injEq]
      exact ⟨.inr, fun h => h.resolve_left fun h => hk h.1⟩

theorem lookup_eq_none : lookup k l = none ↔ k ∉ l.map Prod.fst := by
  induction l with
  | nil => simp [lookup]
  | cons e l ih =>
    rw [lookup, map_cons, mem_cons, not_or]
    split_ifs with hk
    · simp [hk]
    · rw [ih]
      exact ⟨fun h => ⟨hk, h⟩, fun h => h.2⟩

theorem map_setEntry {x : α} : (setEntry k x l).map Prod.fst = l.map Prod.fst := by
  rw [setEntry, map_map]
  refine map_congr_left fun e _ => ?_
  rw [Function.comp]
  split_ifs with h
  · exact h.symm
  · rfl

theorem lookup_setEntry {k' : κ} {x : α} (hk : k ∈ l.map Prod.fst) :
    lookup k' (setEntry k x l) = if k' = k then some x else lookup k' l := by
  induction l with
  | nil => simp at hk
  | cons e l ih =>
    obtain ⟨a, y⟩ := e
    rw [setEntry, map_cons, ← setEntry]
    by_cases hak : a = k
    · subst hak
      by_cases hk' : k' = a
      · simp [lookup, hk']
      rw [if_pos rfl, lookup, if_neg hk', if_neg hk', lookup, if_neg hk']
      by_cases hin : a ∈ l.map Prod.fst
      · rw [ih hin, if_neg hk']
      · congr 1
        refine (map_congr_left fun e he => ?_).trans (map_id l)
        rw [if_neg fun h : e.1 = a => hin (h ▸ mem_map_of_mem he), id]
    · have hin : k ∈ l.map Prod.fst := (mem_cons.mp hk).resolve_left (Ne.symm hak)
      rw [if_neg hak, lookup, ih hin, lookup]
      split_ifs with h1 h2 <;> simp_all

omit [DecidableEq κ] in
theorem newEntry_perm [Ord κ] {x : α} : (newEntry k x l).Perm ((k, x) :: l) := by
  induction l with
  | nil => exact .refl _
  | cons e l ih =>
    rw [newEntry]
    split_ifs
    · exact .refl _
    · exact (ih.cons e).trans (.swap _ _ _)

theorem lookup_newEntry [Ord κ] {k' : κ} {x : α} (hk : k ∉ l.map Prod.fst) :
    lookup k' (newEntry k x l) = if k' = k then some x else lookup k' l := by
  induction l with
  | nil => rfl
  | cons e l ih =>
    obtain ⟨a, y⟩ := e
    obtain ⟨hka, hk⟩ := not_or.mp (fun h => hk (mem_cons.mpr h))
    rw [newEntry]
    by_cases hlt : compare k a = .lt
    · rw [if_pos hlt, lookup]
    · rw [if_neg hlt, lookup, ih hk, lookup]
      split_ifs with h1 h2 <;> simp_all

theorem setEntry_setEntry {x y : α} : setEntry k y (setEntry k x l) = setEntry k y l := by
  rw [setEntry, setEntry, setEntry, map_map]
  refine map_congr_left fun e _ => ?_
  rw [Function.comp]
  split_ifs <;> simp_all

theorem setEntry_newEntry [Ord κ] {x y : α}
    (hk : k ∉ l.map Prod.fst) : setEntry k y (newEntry k x l) = newEntry k y l := by
  have hrest : ∀ l' : List (κ × α), k ∉ l'.map Prod.fst → setEntry k y l' = l' := by
    intro l' hk'
    refine (map_congr_left fun e he => ?_).trans (map_id l')
    rw [if_neg fun h : e.1 = k => hk' (h ▸ mem_map_of_mem he), id]
  induction l with
  | nil => simp [newEntry, setEntry]
  | cons e l ih =>
    obtain ⟨hke, hkl⟩ := not_or.mp (fun h => hk (mem_cons.mpr h))
    rw [newEntry, newEntry]
    split_ifs
    · rw [setEntry, map_cons, if_pos rfl, ← setEntry, hrest _ hk]
    · rw [setEntry, map_cons, if_neg (Ne.symm hke), ← setEntry, ih hkl]

/-! ## Maps -/

namespace KeyMap

def empty : KeyMap κ α := {}

def get (m : KeyMap κ α) (k : κ) : Option α := lookup k m.entries

def contains (m : KeyMap κ α) (k : κ) : Bool := (m.get k).isSome

def keys (m : KeyMap κ α) : List κ := m.entries.map Prod.fst

def insert [Ord κ] (m : KeyMap κ α) (k : κ) (x : α) : KeyMap κ α where
  entries := if k ∈ m.entries.map Prod.fst then setEntry k x m.entries else newEntry k x m.entries
  nodup := by
    split_ifs with h
    · rw [map_setEntry]
      exact m.nodup
    · exact ((newEntry_perm).map Prod.fst).nodup_iff.mpr
        (nodup_cons.mpr ⟨h, m.nodup⟩)

def remove (m : KeyMap κ α) (k : κ) : KeyMap κ α where
  entries := m.entries.filter fun e => e.1 ≠ k
  nodup := m.nodup.sublist (filter_sublist.map Prod.fst)

@[simp] theorem get_empty (k : κ) : (empty : KeyMap κ α).get k = none := rfl

theorem get_insert [Ord κ] (m : KeyMap κ α) (k k' : κ) (x : α) :
    (m.insert k x).get k' = if k' = k then some x else m.get k' := by
  rw [get, insert]
  dsimp only
  by_cases h : k ∈ m.entries.map Prod.fst
  · rw [if_pos h, lookup_setEntry h, get]
  · rw [if_neg h, lookup_newEntry h, get]

@[simp] theorem get_insert_self [Ord κ] (m : KeyMap κ α) (k : κ) (x : α) :
    (m.insert k x).get k = some x := by
  rw [get_insert, if_pos rfl]

variable {k : κ}

theorem get_insert_of_ne [Ord κ] (m : KeyMap κ α) {k' : κ} (x : α) (h : k' ≠ k) :
    (m.insert k x).get k' = m.get k' := by
  rw [get_insert, if_neg h]

theorem entries_insert [Ord κ] {m : KeyMap κ α} {x : α} : (m.insert k x).entries =
    if k ∈ m.entries.map Prod.fst then setEntry k x m.entries else newEntry k x m.entries := rfl

theorem insert_insert [Ord κ] (m : KeyMap κ α) (k : κ) (x y : α) :
    (m.insert k x).insert k y = m.insert k y := by
  have hin : k ∈ (m.insert k x).entries.map Prod.fst := by
    rw [← not_not (a := k ∈ _), ← lookup_eq_none]
    exact fun h => nomatch (get_insert_self m k x).symm.trans h
  have hentries : ((m.insert k x).insert k y).entries = (m.insert k y).entries := by
    rw [entries_insert, if_pos hin, entries_insert, entries_insert]
    split_ifs with h
    · exact setEntry_setEntry
    · exact setEntry_newEntry h
  cases h : (m.insert k x).insert k y
  cases h' : m.insert k y
  rw [h, h'] at hentries
  cases hentries
  rfl

theorem get_eq_some_iff {m : KeyMap κ α} {x : α} : m.get k = some x ↔ (k, x) ∈ m.entries :=
  lookup_eq_some m.nodup

theorem mem_keys_iff {m : KeyMap κ α} : k ∈ m.keys ↔ m.get k ≠ none := by
  rw [get, ne_eq, lookup_eq_none, not_not, keys]

theorem get_remove (m : KeyMap κ α) (k k' : κ) :
    (m.remove k).get k' = if k' = k then none else m.get k' := by
  split_ifs with h
  · rw [get, lookup_eq_none, remove]
    simp [h]
  · refine Option.ext fun x => ?_
    rw [get_eq_some_iff, get_eq_some_iff, remove, mem_filter]
    simp [h]

@[simp] theorem get_remove_self (m : KeyMap κ α) (k : κ) : (m.remove k).get k = none := by
  rw [get_remove, if_pos rfl]

theorem get_remove_of_ne (m : KeyMap κ α) {k' : κ} (h : k' ≠ k) :
    (m.remove k).get k' = m.get k' := by
  rw [get_remove, if_neg h]

theorem contains_insert [Ord κ] (m : KeyMap κ α) (k k' : κ) (x : α) :
    (m.insert k x).contains k' = (k' = k || m.contains k') := by
  rw [contains, get_insert, contains]
  split_ifs with h <;> simp [h]

theorem contains_remove (m : KeyMap κ α) (k k' : κ) :
    (m.remove k).contains k' = (k' ≠ k && m.contains k') := by
  rw [contains, get_remove, contains]
  split_ifs with h <;> simp [h]

section
variable [Ord κ] {β : Type} {key : β → κ} {f : β → α} {l : List β}

theorem get_foldl_insert_of_not_mem (h : k ∉ l.map key) (m : KeyMap κ α) :
    (l.foldl (fun m b => m.insert (key b) (f b)) m).get k = m.get k := by
  induction l generalizing m with
  | nil => rfl
  | cons b l ih =>
    obtain ⟨hb, hl⟩ := not_or.mp (mt mem_cons.mpr h)
    rw [foldl_cons, ih hl, get_insert_of_ne _ _ hb]

theorem get_foldl_insert_of_mem (h : k ∈ l.map key) : ∃ b ∈ l, key b = k ∧
    ∀ m : KeyMap κ α, (l.foldl (fun m b => m.insert (key b) (f b)) m).get k = some (f b) := by
  induction l with
  | nil => cases h
  | cons b l ih =>
    by_cases hl : k ∈ l.map key
    · obtain ⟨last, hlast, hkey, hget⟩ := ih hl
      exact ⟨last, mem_cons_of_mem _ hlast, hkey, fun m => hget _⟩
    · obtain rfl := (mem_cons.mp h).resolve_right hl
      refine ⟨b, mem_cons_self, rfl, fun m => ?_⟩
      rw [foldl_cons, get_foldl_insert_of_not_mem hl, get_insert_self]

theorem isSome_get_foldl_insert {m : KeyMap κ α} :
    ((l.foldl (fun m b => m.insert (key b) (f b)) m).get k).isSome = true ↔
      k ∈ l.map key ∨ (m.get k).isSome = true := by
  by_cases h : k ∈ l.map key
  · obtain ⟨b, -, -, hget⟩ := get_foldl_insert_of_mem (f := f) h
    rw [hget]
    exact iff_of_true rfl (.inl h)
  · rw [get_foldl_insert_of_not_mem h]
    exact (or_iff_right h).symm

end

end KeyMap

end

end keymap
