-- The order of the words of a join. A join depends on the set of its words alone.
import Peppy.CopyWords

open List results
open keymap (KeyMap)
open peppy.node_config (Name)

namespace peppy.compose

open words

variable {V : Type}

/-- What a word chooses for its axis. -/
def pick (word : SelectionWord) : Name × Option CoreNodeTarget :=
  (word.choice.option, word.core_node)

namespace LoadedOption

variable {loaded : LoadedOption V} {axis : ComponentAxis V} {word : SelectionWord}
  {words : List SelectionWord} {chosen found last : KeyMap Name SelectionWord}

/-- The word names the axis and one of its options. -/
def Names (loaded : LoadedOption V) (word : SelectionWord) (axis : ComponentAxis V) : Prop :=
  loaded.match_word word.choice = [axis] ∧ word.choice.option ∈ axis.options

/-- Every word of the second map chooses the same as the word of its axis in the first. -/
def Within (last chosen : KeyMap Name SelectionWord) : Prop :=
  ∀ key word, chosen.get key = some word → (last.get key).map pick = some (pick word)

theorem Names.mem (h : Names loaded word axis) : axis ∈ loaded.axes := by
  have haxis : axis ∈ loaded.match_word word.choice := h.1 ▸ mem_singleton_self axis
  unfold match_word at haxis
  split at haxis <;> exact mem_of_mem_filter haxis

/-- The words that are accepted are words of the map, each for its axis. -/
theorem within_of_ok (h : loaded.copy_words chosen words = .ok found) : Within found chosen ∧
    (∀ word ∈ words, ∃ axis, Names loaded word axis ∧
      (found.get axis.name).map pick = some (pick word)) ∧
    ∀ key word, found.get key = some word →
      chosen.get key = some word ∨
        word ∈ words ∧ ∃ axis, Names loaded word axis ∧ axis.name = key := by
  induction words generalizing chosen with
  | nil =>
    cases h
    exact ⟨fun _ _ h => by rw [h]; rfl, nofun, fun _ _ => .inl⟩
  | cons first words ih =>
    rw [copy_words] at h
    split at h
    · rename_i axis hmatch
      split at h
      · cases h
      rename_i hoption
      have hnames : Names loaded first axis := ⟨hmatch, not_not.mp hoption⟩
      split at h
      · rename_i old hold
        split at h
        · cases h
        rename_i hoption
        split at h
        · cases h
        rename_i hcore
        obtain ⟨hwithin, hwords, hfound⟩ := ih h
        have hpick : pick old = pick first := Prod.ext (not_not.mp hoption) (not_not.mp hcore)
        refine ⟨hwithin, forall_mem_cons.mpr ⟨⟨axis, hnames, ?_⟩, hwords⟩, fun key word hword => ?_⟩
        · rw [← hpick]
          exact hwithin _ _ hold
        · exact (hfound key word hword).imp_right (And.imp_left (mem_cons_of_mem _))
      · rename_i hnone
        split at h
        · cases h
        obtain ⟨hwithin, hwords, hfound⟩ := ih h
        refine ⟨fun key word hword => hwithin key word ?_,
          forall_mem_cons.mpr ⟨⟨axis, hnames, ?_⟩, hwords⟩, fun key word hword => ?_⟩
        · rw [KeyMap.get_insert_of_ne _ _ (by rintro rfl; rw [hnone] at hword; cases hword), hword]
        · exact hwithin _ _ (KeyMap.get_insert_self ..)
        · rcases hfound key word hword with hword | ⟨hmem, haxis⟩
          · rw [KeyMap.get_insert] at hword
            split_ifs at hword with hkey
            · cases hword
              exact .inr ⟨mem_cons_self, axis, hnames, hkey.symm⟩
            · exact .inl hword
          · exact .inr ⟨mem_cons_of_mem _ hmem, haxis⟩
    · cases h
    · cases h

/-- Words that choose what an accepted map has are accepted, in any order. -/
theorem ok_of_within (hlast : FitsAll loaded last)
    (hwords : ∀ word ∈ words, ∃ axis, Names loaded word axis ∧
      (last.get axis.name).map pick = some (pick word)) (hchosen : Within last chosen) :
    ∃ found, loaded.copy_words chosen words = .ok found ∧ Within last found := by
  induction words generalizing chosen with
  | nil => exact ⟨chosen, rfl, hchosen⟩
  | cons first words ih =>
    obtain ⟨⟨axis, hnames, hpick⟩, hwords⟩ := forall_mem_cons.mp hwords
    obtain ⟨word, hword, hfirst⟩ := Option.map_eq_some_iff.mp hpick
    obtain ⟨hoption, hcore⟩ := Prod.mk.inj hfirst
    rw [copy_words, hnames.1]
    dsimp only
    rw [if_neg (not_not.mpr hnames.2)]
    cases hold : chosen.get axis.name with
    | some old =>
      obtain ⟨hoption, hcore⟩ := Prod.mk.inj (Option.some.inj ((hchosen _ _ hold).symm.trans hpick))
      dsimp only
      rw [if_neg (not_not.mpr hoption), if_neg (not_not.mpr hcore)]
      exact ih hwords hchosen
    | none =>
      obtain ⟨other, hother, hname, -, hbrings⟩ := hlast _ word hword
      cases eq_of_name hnames.mem hother hname
      rw [hoption, hcore] at hbrings
      dsimp only
      rw [if_neg (by simpa using hbrings)]
      refine ih hwords fun key word hword => ?_
      rw [KeyMap.get_insert] at hword
      split_ifs at hword with hkey
      · cases hword
        rw [hkey, hpick]
      · exact hchosen key word hword

/-- The same words in another order choose the same. -/
theorem same_picks {words' : List SelectionWord} (h : loaded.copy_words {} words = .ok last)
    (hwords : ∀ word, word ∈ words' ↔ word ∈ words) :
    ∃ found, loaded.copy_words {} words' = .ok found ∧
      ∀ key, (found.get key).map pick = (last.get key).map pick := by
  obtain ⟨-, hpicks, hlast⟩ := within_of_ok h
  obtain ⟨found, hfound, hwithin⟩ := ok_of_within (copy_words_fit h nofun)
    (fun word hword => hpicks word ((hwords word).mp hword))
    (show Within last {} from nofun)
  refine ⟨found, hfound, fun key => ?_⟩
  cases hkey : last.get key with
  | none =>
    cases hnone : found.get key with
    | none => rfl
    | some word => exact absurd (hwithin key word hnone) (by simp [hkey])
  | some word =>
    rcases hlast key word hkey with hword | ⟨hword, axis, hnames, rfl⟩
    · cases hword
    obtain ⟨axis', hnames', hpick⟩ := (within_of_ok hfound).2.1 word ((hwords word).mpr hword)
    cases hnames.1.symm.trans hnames'.1
    exact hpick

end LoadedOption

open LoadedOption PreparedLauncher

/-- A join is the same for the same words, in any order and however often each is given. -/
theorem a_join_depends_on_the_set_of_its_words {p : PreparedLauncher V} {running : RunningStack V}
    {request : JoinRequest} {joined : ComposedJoin V} (h : p.join running request = .ok joined)
    {words : List SelectionWord} (hwords : ∀ word, word ∈ words ↔ word ∈ request.words) :
    p.join running { request with words } = .ok joined := by
  obtain ⟨⟨axis, loaded⟩, haxis, h⟩ := bind_ok.mp h
  obtain ⟨chosen, hchosen, h⟩ := bind_ok.mp h
  obtain ⟨copy, hcopy, h⟩ := bind_ok.mp h
  obtain ⟨own, hown, h⟩ := bind_ok.mp h
  cases h
  obtain ⟨found, hfound, hsame⟩ := same_picks hchosen hwords
  have hget (selects : KeyMap Name Name) (key : Name) :
      (overlaid_by selects found).get key = (overlaid_by selects chosen).get key := by
    have hoption := congrArg (Option.map Prod.fst) (hsame key)
    rw [Option.map_map, Option.map_map] at hoption
    exact get_overlaid.trans ((congrArg (Option.or · _) hoption).trans get_overlaid.symm)
  have hown' := resolve_copy_ok.mp hown
  simp only [filled, ← hget] at hown'
  have hown' := resolve_copy_ok.mpr hown'
  have hparts : part_machine running request.machine found =
      part_machine running request.machine chosen := by
    funext key
    have hcore := congrArg (Option.bind · Prod.snd) (hsame key)
    rw [Option.bind_map, Option.bind_map] at hcore
    exact congrArg (Option.elim · _ _) hcore
  refine bind_ok.mpr ⟨_, haxis, bind_ok.mpr ⟨found, hfound, bind_ok.mpr ⟨copy, ?_, bind_ok.mpr
    ⟨own, hown', ?_⟩⟩⟩⟩
  · rw [hown', ← hown]
    exact hcopy
  · have hplaced (instances : List CopyInstance) :
        placements running request.machine found instances =
          placements running request.machine chosen instances := by
      funext id
      rw [placements, hparts, placements]
    rw [ComposedJoin.of, hplaced]
    rfl

theorem an_arm_that_is_asked_for_twice :
    let name := machine .arm_1 (by decide)
    let running : RunningStack String := ⟨[], ⟨[], []⟩, name, fun _ => name⟩
    let request : JoinRequest :=
      ⟨.arm, name, name, [⟨⟨none, .grips⟩, some (.Named (machine .grips (by decide)))⟩]⟩
    ∃ joined, armLauncher.join running request = .ok joined ∧
      armLauncher.join running { request with words := request.words ++ request.words } =
        .ok joined :=
  ⟨_, rfl, a_join_depends_on_the_set_of_its_words rfl fun word => by rw [mem_append, or_self]⟩

end peppy.compose
