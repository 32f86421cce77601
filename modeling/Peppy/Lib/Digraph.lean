-- Finite directed graphs: cycles and strongly connected components. An
-- algorithm that splits a graph into its components decides whether the
-- graph has a cycle.
import Mathlib.Logic.Relation
import Mathlib.Data.List.Basic

open List

namespace digraph

open Relation

variable {α : Type}

/-! ## Cycles -/

/-- No walk of one or more edges leads back to its start. -/
def Acyclic (r : α → α → Prop) : Prop := ∀ a, ¬ TransGen r a a

variable {r : α → α → Prop} {a b : α} {nodes : List α} {e : α → α → Bool}

theorem Acyclic.mono {q : α → α → Prop} (h : Acyclic q) (hr : ∀ a b, r a b → q a b) : Acyclic r :=
  fun a ha => h a (TransGen.mono hr a a ha)

/-- A map that keeps edges carries the cycles of the first graph to the
second. -/
theorem Acyclic.of_map {β : Type} {q : β → β → Prop} (f : α → β)
    (h : Acyclic q) (hr : ∀ a b, r a b → q (f a) (f b)) : Acyclic r :=
  fun a ha => h (f a) (TransGen.lift f hr a a ha)

theorem exists_edge_of_walk (h : TransGen r a b) : ∃ c, r a c := by
  obtain ⟨c, hc, _⟩ := TransGen.head'_iff.mp h
  exact ⟨c, hc⟩

theorem acyclic_of_no_edge (h : ∀ a b, ¬ r a b) : Acyclic r := by
  intro a ha
  obtain ⟨c, hc⟩ := exists_edge_of_walk ha
  exact h a c hc

/-! ## Strongly connected components -/

/-- `cs` are the strongly connected components of the graph. -/
structure IsScc (nodes : List α) (r : α → α → Prop) (cs : List (List α)) : Prop where
  covers : ∀ a ∈ nodes, ∃ c ∈ cs, a ∈ c
  within : ∀ c ∈ cs, ∀ a ∈ c, a ∈ nodes
  strong : ∀ c ∈ cs, ∀ a ∈ c, ∀ b ∈ nodes,
    b ∈ c ↔ b = a ∨ (TransGen r a b ∧ TransGen r b a)

/-- An algorithm that computes the strongly connected components of each
finite graph. -/
structure SccAlgorithm (α : Type) where
  components : List α → (α → α → Bool) → List (List α)
  correct : ∀ nodes e, (∀ a b, e a b = true → a ∈ nodes ∧ b ∈ nodes) →
    IsScc nodes (fun a b => e a b = true) (components nodes e)

/-- A component of a cycle: two nodes, or one node with an edge to itself. -/
def Cyclic (r : α → α → Prop) (c : List α) : Prop :=
  (∃ a ∈ c, ∃ b ∈ c, a ≠ b) ∨ ∃ a ∈ c, r a a

theorem IsScc.acyclic_iff {cs : List (List α)}
    (h : IsScc nodes r cs) (hr : ∀ a b, r a b → a ∈ nodes ∧ b ∈ nodes) :
    Acyclic r ↔ ∀ c ∈ cs, ¬ Cyclic r c := by
  constructor
  · rintro hac c hc (⟨a, ha, b, hb, hne⟩ | ⟨a, _, haa⟩)
    · rcases (h.strong c hc a ha b (h.within c hc b hb)).mp hb with rfl | ⟨hab, hba⟩
      · exact hne rfl
      · exact hac a (hab.trans hba)
    · exact hac a (TransGen.single haa)
  · intro hcs a ha
    -- the next node of the cycle is in the component of `a`
    obtain ⟨b, hab, hba⟩ := TransGen.head'_iff.mp ha
    obtain ⟨c, hc, hac⟩ := h.covers a (hr a b hab).1
    rcases eq_or_ne b a with rfl | hne
    · exact hcs c hc (.inr ⟨b, hac, hab⟩)
    have hbc : b ∈ c := by
      rcases reflTransGen_iff_eq_or_transGen.mp hba with heq | hba'
      · exact absurd heq.symm hne
      · exact (h.strong c hc a hac b (hr a b hab).2).mpr (.inr ⟨TransGen.single hab, hba'⟩)
    exact hcs c hc (.inl ⟨a, hac, b, hbc, hne.symm⟩)

theorem IsScc.next_inside {cs : List (List α)}
    (h : IsScc nodes r cs) (hr : ∀ a b, r a b → a ∈ nodes ∧ b ∈ nodes) {c : List α} (hc : c ∈ cs)
    (ha : a ∈ c) (hab : TransGen r a b) (hba : TransGen r b a) : ∃ d ∈ c, r a d := by
  obtain ⟨d, had, hdb⟩ := TransGen.head'_iff.mp hab
  refine ⟨d, (h.strong c hc a ha d (hr a d had).2).mpr (.inr ⟨TransGen.single had, ?_⟩), had⟩
  exact hba.trans_right hdb

/-! ## An algorithm -/

/-- There is a walk from `a` to `b` whose inner nodes are all in the list. -/
def walkVia (e : α → α → Bool) : List α → α → α → Bool
  | [], a, b => e a b
  | v :: vs, a, b => walkVia e vs a b || (walkVia e vs a v && walkVia e vs v b)

theorem walkVia_sound {vs : List α} (h : walkVia e vs a b = true) :
    TransGen (fun a b => e a b = true) a b := by
  induction vs generalizing a b with
  | nil => exact TransGen.single h
  | cons v vs ih =>
    simp only [walkVia, Bool.or_eq_true, Bool.and_eq_true] at h
    rcases h with h | ⟨h1, h2⟩
    · exact ih h
    · exact (ih h1).trans (ih h2)

theorem walkVia_of_edge (vs : List α) (h : e a b = true) : walkVia e vs a b = true := by
  induction vs with
  | nil => exact h
  | cons v vs ih => simp [walkVia, ih]

/-- Two walks that meet in a node of the list are one walk. -/
theorem walkVia_trans {vs : List α} {w : α} (hw : w ∈ vs)
    (h1 : walkVia e vs a w = true) (h2 : walkVia e vs w b = true) : walkVia e vs a b = true := by
  induction vs generalizing a b w with
  | nil => cases hw
  | cons v vs ih =>
    simp only [walkVia, Bool.or_eq_true, Bool.and_eq_true] at h1 h2 ⊢
    rcases mem_cons.mp hw with rfl | hw
    · exact .inr ⟨h1.elim id And.left, h2.elim id And.right⟩
    rcases h1 with h1 | ⟨h1, h1'⟩ <;> rcases h2 with h2 | ⟨h2, h2'⟩
    · exact .inl (ih hw h1 h2)
    · exact .inr ⟨ih hw h1 h2, h2'⟩
    · exact .inr ⟨h1, ih hw h1' h2⟩
    · exact .inr ⟨h1, h2'⟩

theorem walkVia_iff (hn : ∀ a b, e a b = true → a ∈ nodes)
    : walkVia e nodes a b = true ↔ TransGen (fun a b => e a b = true) a b := by
  refine ⟨walkVia_sound, fun h => ?_⟩
  induction h with
  | single h => exact walkVia_of_edge nodes h
  | tail _ hbc ih => exact walkVia_trans (hn _ _ hbc) ih (walkVia_of_edge nodes hbc)

variable [DecidableEq α]

def componentOf (nodes : List α) (e : α → α → Bool) (a : α) : List α :=
  nodes.filter fun b => b = a || (walkVia e nodes a b && walkVia e nodes b a)

theorem mem_componentOf (he : ∀ a b, e a b = true → a ∈ nodes ∧ b ∈ nodes) :
    b ∈ componentOf nodes e a ↔ b ∈ nodes ∧ (b = a ∨ (TransGen (fun a b => e a b = true) a b ∧
        TransGen (fun a b => e a b = true) b a)) := by
  have hw := fun a b => walkVia_iff (fun a b h => (he a b h).1) (a := a) (b := b)
  simp [componentOf, mem_filter, hw]

/-- The components, each as often as it has nodes. -/
def walkScc : SccAlgorithm α where
  components nodes e := nodes.map (componentOf nodes e)
  correct nodes e he := by
    refine ⟨fun a ha => ⟨_, mem_map_of_mem ha, ?_⟩, ?_, ?_⟩
    · exact (mem_componentOf he).mpr ⟨ha, .inl rfl⟩
    · intro c hc a ha
      obtain ⟨x, _, rfl⟩ := mem_map.mp hc
      exact ((mem_componentOf he).mp ha).1
    intro c hc a ha b hb
    obtain ⟨x, _, rfl⟩ := mem_map.mp hc
    rw [mem_componentOf he]
    have hxa := ((mem_componentOf he).mp ha).2
    constructor
    · rintro ⟨_, hbx⟩
      rcases hxa with rfl | ⟨hxa, hax⟩
      · exact hbx
      · rcases hbx with rfl | ⟨hxb, hbx⟩
        · exact .inr ⟨hax, hxa⟩
        · exact .inr ⟨hax.trans hxb, hbx.trans hxa⟩
    · intro hba
      refine ⟨hb, ?_⟩
      rcases hba with rfl | ⟨hab, hba⟩
      · exact hxa
      · rcases hxa with rfl | ⟨hxa, hax⟩
        · exact .inr ⟨hab, hba⟩
        · exact .inr ⟨hxa.trans hab, hba.trans hax⟩

end digraph
