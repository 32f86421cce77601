-- Runs of a system that takes one action at a time. A step may refuse an
-- action, and a run is a list of actions that were all taken. A rule that
-- one step keeps is a rule that every run keeps.
import Mathlib.Logic.Relation

namespace runs

variable {σ α : Type}

/-- A relation that each turn of a loop keeps relates its two ends. -/
theorem rel_foldl {R : σ → σ → Prop} (hrefl : ∀ s, R s s)
    (htrans : ∀ {s t u}, R s t → R t u → R s u) {f : σ → α → σ} (hf : ∀ s a, R s (f s a))
    (l : List α) (s : σ) : R s (l.foldl f s) := by
  induction l generalizing s with
  | nil => exact hrefl s
  | cons a l ih => exact htrans (hf s a) (ih (f s a))

/-- The state after the actions of the list, or `none` when a step refuses
its action. -/
def run (step : σ → α → Option σ) : σ → List α → Option σ
  | s, [] => some s
  | s, a :: as => (step s a).bind fun s' => run step s' as

section
variable {step : σ → α → Option σ}

@[simp] theorem run_nil (s : σ) : run step s [] = some s := rfl

@[simp] theorem run_cons (s : σ) (a : α) (as : List α) :
    run step s (a :: as) = (step s a).bind fun s' => run step s' as := rfl

theorem run_cons_some {s s' : σ} {a : α} {as : List α} :
    run step s (a :: as) = some s' ↔ ∃ t, step s a = some t ∧ run step t as = some s' := by
  simp [Option.bind_eq_some_iff]

theorem run_append (s : σ) (as bs : List α) :
    run step s (as ++ bs) = (run step s as).bind fun s' => run step s' bs := by
  induction as generalizing s with
  | nil => rfl
  | cons a as ih =>
    simp only [List.cons_append, run_cons, Option.bind_assoc]
    congr 1
    funext t
    exact ih t

theorem run_concat_some {s s' : σ} {as : List α} {a : α} (h : run step s (as ++ [a]) = some s') :
    ∃ t, run step s as = some t ∧ step t a = some s' := by
  rw [run_append] at h
  obtain ⟨t, ht, hlast⟩ := Option.bind_eq_some_iff.mp h
  obtain ⟨t', hstep, hdone⟩ := run_cons_some.mp hlast
  cases hdone
  exact ⟨t, ht, hstep⟩

/-- What holds at the start and after each step holds after each run. -/
theorem run_keeps {I : σ → Prop} (hstep : ∀ s a s', I s → step s a = some s' → I s')
    {s s' : σ} {as : List α} (hs : I s) (h : run step s as = some s') : I s' := by
  induction as generalizing s with
  | nil => cases h; exact hs
  | cons a as ih =>
    obtain ⟨t, ht, h'⟩ := run_cons_some.mp h
    exact ih (hstep s a t hs ht) h'

/-- Each action of the list meets `C` in the state in which the run takes it. -/
def Meets (step : σ → α → Option σ) (C : σ → α → Prop) : σ → List α → Prop
  | _, [] => True
  | s, a :: as => C s a ∧ ∀ s', step s a = some s' → Meets step C s' as

theorem Meets.append {C : σ → α → Prop} {s s' : σ} {as bs : List α}
    (h : run step s as = some s') (has : Meets step C s as) (hbs : Meets step C s' bs) :
    Meets step C s (as ++ bs) := by
  induction as generalizing s with
  | nil => cases h; exact hbs
  | cons a as ih =>
    obtain ⟨t, ht, h'⟩ := run_cons_some.mp h
    refine ⟨has.1, fun u hu => ?_⟩
    cases ht.symm.trans hu
    exact ih h' (has.2 t ht)

instance Meets.decidable {C : σ → α → Prop} [∀ s a, Decidable (C s a)] :
    ∀ s as, Decidable (Meets step C s as)
  | _, [] => .isTrue trivial
  | s, a :: as =>
    match hs : step s a with
    | none => decidable_of_iff (C s a) (by simp [Meets, hs])
    | some s' =>
      have : Decidable (Meets step C s' as) := Meets.decidable s' as
      decidable_of_iff (C s a ∧ Meets step C s' as) (by simp [Meets, hs])

/-- `run_keeps`, for a rule that only the steps that meet a condition keep. -/
theorem run_keeps_where {I : σ → Prop} {C : σ → α → Prop}
    (hstep : ∀ s a s', I s → C s a → step s a = some s' → I s')
    {s s' : σ} {as : List α} (hs : I s) (hc : Meets step C s as)
    (h : run step s as = some s') : I s' := by
  induction as generalizing s with
  | nil => cases h; exact hs
  | cons a as ih =>
    obtain ⟨t, ht, h'⟩ := run_cons_some.mp h
    exact ih (hstep s a t hs hc.1 ht) (hc.2 t ht) h'

/-- The action, taken alone and again, leads from one state to the other. -/
def Leads (step : σ → α → Option σ) (a : α) (s s' : σ) : Prop :=
  ∃ n, run step s (List.replicate n a) = some s'

theorem Leads.refl (a : α) (s : σ) : Leads step a s s := ⟨0, rfl⟩

theorem Leads.head {a : α} {s t s' : σ} (h : step s a = some t) (h' : Leads step a t s') :
    Leads step a s s' := by
  obtain ⟨n, hn⟩ := h'
  exact ⟨n + 1, run_cons_some.mpr ⟨t, h, hn⟩⟩

end

end runs
