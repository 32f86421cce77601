-- Keys that are texts joined by `/`. A key is cut into its chunks, and two
-- keys meet when their chunks do, one by one, where `*` meets any one chunk.
import Mathlib.Data.List.Forall2

open List

namespace keys

def chunks (key : String) : List String := (key.toList.splitOn '/').map String.ofList

@[simp] theorem chunks_slash (a b : String) : chunks (a ++ "/" ++ b) = chunks a ++ chunks b := by
  have hlist : (a ++ "/" ++ b).toList = a.toList ++ '/' :: b.toList := by simp
  rw [chunks, hlist, splitOn_append_cons_self, map_append]
  rfl

theorem chunks_of_not_mem {a : String} (h : '/' ∉ a.toList) : chunks a = [a] := by
  rw [chunks, splitOn_eq_singleton h, map_singleton, String.ofList_toList]

theorem notMem_of_mem_splitOn {c : Char} {text piece : List Char} (h : piece ∈ text.splitOn c) :
    c ∉ piece := by
  -- on the length of the text, whose first cut leaves a shorter one
  induction hlength : text.length using Nat.strongRecOn generalizing text with
  | ind n ih =>
    by_cases hin : c ∈ text
    · obtain ⟨before, after, rfl, hbefore⟩ := eq_append_cons_of_mem hin
      rw [splitOn_append_cons_self, splitOn_eq_singleton hbefore, singleton_append,
        mem_cons] at h
      rcases h with rfl | h
      · exact hbefore
      · refine ih after.length ?_ h rfl
        rw [← hlength, length_append, length_cons]
        omega
    · rw [splitOn_eq_singleton hin, mem_singleton] at h
      exact h ▸ hin

theorem slash_notMem_chunks {key chunk : String} (h : chunk ∈ chunks key) : '/' ∉ chunk.toList := by
  obtain ⟨piece, hpiece, rfl⟩ := mem_map.mp h
  rw [String.toList_ofList]
  exact notMem_of_mem_splitOn hpiece

theorem exists_chunks {words : List String} (hne : words ≠ [])
    (h : ∀ word ∈ words, '/' ∉ word.toList) : ∃ key, chunks key = words := by
  induction words with
  | nil => exact absurd rfl hne
  | cons word words ih =>
    obtain ⟨hword, hrest⟩ := forall_mem_cons.mp h
    by_cases hnil : words = []
    · subst hnil
      exact ⟨word, chunks_of_not_mem hword⟩
    · obtain ⟨key, rfl⟩ := ih hnil hrest
      exact ⟨word ++ "/" ++ key, by rw [chunks_slash, chunks_of_not_mem hword, singleton_append]⟩

theorem chunks_ne_nil (key : String) : chunks key ≠ [] := by
  simp [chunks, splitOn_ne_nil]

def WILDCARD : String := "*"

/-- Two chunks that match. -/
def Meets (a b : String) : Prop := a = WILDCARD ∨ b = WILDCARD ∨ a = b

instance (a b : String) : Decidable (Meets a b) := inferInstanceAs (Decidable (_ ∨ _))

/-- Two keys whose chunks match one by one. -/
def Intersect (a b : String) : Prop := List.Forall₂ Meets (chunks a) (chunks b)

@[simp] theorem meets_wildcard_left (b : String) : Meets WILDCARD b := .inl rfl

@[simp] theorem meets_wildcard_right (a : String) : Meets a WILDCARD := .inr (.inl rfl)

theorem meets_of_ne {a b : String} (ha : a ≠ WILDCARD) (hb : b ≠ WILDCARD) : Meets a b ↔ a = b := by
  simp [Meets, ha, hb]

@[simp] theorem meets_self (a : String) : Meets a a := .inr (.inr rfl)

end keys
