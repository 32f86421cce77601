-- The convergence of the wire subscriptions of a slot onto the pins that the
-- slot follows now.
import Peppy.Lib.Changes

open changes List

namespace peppy.slot_stream

section
variable {Pin Sub E : Type} [DecidableEq Pin]

/-! ## The convergence -/

/-- `Vec::swap_remove`: the last element takes the place of the removed one. -/
def swap_remove {α : Type} (l : List α) (i : Nat) : List α :=
  match l.getLast? with
  | none => []
  | some last => (l.set i last).dropLast

inductive Event (Pin Sub : Type) where
  | Drop (pin : Pin) (subscription : Sub)
  | Declare (pin : Pin)

structure Converged (Pin Sub E : Type) where
  current : List (Pin × Sub)
  failed : List (Pin × E)

/-- Claims what is still followed: entries, owed declarations and the rest. -/
def claim (current : List (Pin × Sub)) (position : Nat) :
    List Pin → List (Option (Pin × Sub)) × List (Nat × Pin) × List (Pin × Sub)
  | [] => ([], [], current)
  | pin :: desired =>
    match current.findIdx? fun followed => followed.1 = pin with
    | some idx =>
      let (converged, pending, current') := claim (swap_remove current idx) (position + 1) desired
      (current[idx]? :: converged, pending, current')
    | none =>
      let (converged, pending, current') := claim current (position + 1) desired
      (none :: converged, (position, pin) :: pending, current')

def file (subscribe : Pin → Except E Sub) :
    List (Option (Pin × Sub)) → List (Nat × Pin) → List (Option (Pin × Sub)) × List (Pin × E)
  | converged, [] => (converged, [])
  | converged, (position, pin) :: pending =>
    match subscribe pin with
    | .ok subscription => file subscribe (converged.set position (some (pin, subscription))) pending
    | .error error =>
      let (converged, failed) := file subscribe converged pending
      (converged, (pin, error) :: failed)

def retained (is_open : Sub → Bool) (desired : List Pin) (entry : Pin × Sub) : Bool :=
  desired.contains entry.1 && is_open entry.2

/-- The convergence and its wire events. `subscribe` ends each declaration. -/
def converge_subscriptions (is_open : Sub → Bool) (subscribe : Pin → Except E Sub)
    (current : List (Pin × Sub)) (desired : List Pin) :
    Converged Pin Sub E × List (Event Pin Sub) :=
  let dropped := current.filter fun entry => !retained is_open desired entry
  let current := current.filter (retained is_open desired)
  let (converged, pending, unclaimed) := claim current 0 desired
  let (converged, failed) := file subscribe converged pending
  ({ current := converged.filterMap id, failed },
    dropped.map (fun entry => .Drop entry.1 entry.2) ++
      pending.map (fun owed => .Declare owed.2) ++
      unclaimed.map fun entry => .Drop entry.1 entry.2)

/-! ## The claims -/

def held (current : List (Pin × Sub)) (pin : Pin) : Option (Pin × Sub) :=
  current.find? fun entry => entry.1 = pin

variable {entry : Pin × Sub} {pin : Pin} {current : List (Pin × Sub)}

theorem held_eq_some (hpins : (current.map Prod.fst).Nodup)
    : held current pin = some entry ↔ entry ∈ current ∧ entry.1 = pin := by
  constructor
  · intro h
    exact ⟨mem_of_find?_eq_some h, by simpa using find?_some h⟩
  · rintro ⟨hmem, rfl⟩
    exact find?_key hpins hmem

theorem swap_remove_perm {α : Type} {l : List α} {i : Nat} {a : α} (h : l[i]? = some a) :
    (swap_remove l i).Perm (l.eraseIdx i) := by
  rcases eq_nil_or_concat l with rfl | ⟨init, last, rfl⟩
  · cases h
  rw [concat_eq_append] at h ⊢
  rw [swap_remove, getLast?_concat]
  dsimp only
  by_cases hi : i < init.length
  · have hget : init[i]? = some a := by rwa [getElem?_append_left hi] at h
    rw [set_append_left _ _ hi, dropLast_concat, eraseIdx_append_of_lt_length hi]
    exact (set_perm_cons hget last).trans (perm_append_singleton last _).symm
  have hlt : i < (init ++ [last]).length := (List.getElem?_eq_some_iff.mp h).1
  have heq : i = init.length := by
    simp at hlt
    omega
  subst heq
  rw [eraseIdx_append_of_length_le (Nat.le_refl _)]
  simp

theorem held_swap_remove (hpins : (current.map Prod.fst).Nodup)
    {i : Nat} (h : current[i]? = some entry) : ((swap_remove current i).map Prod.fst).Nodup ∧
      ∀ pin, pin ≠ entry.1 → held (swap_remove current i) pin = held current pin := by
  have hperm := swap_remove_perm h
  have hall := perm_cons_eraseIdx h
  have hrest : ((current.eraseIdx i).map Prod.fst).Nodup :=
    hpins.sublist ((eraseIdx_sublist current i).map _)
  have hnodup := (hperm.map Prod.fst).nodup_iff.mpr hrest
  refine ⟨hnodup, fun pin hne => Option.ext fun other => ?_⟩
  rw [held_eq_some hnodup, held_eq_some hpins, hperm.mem_iff, hall.mem_iff, mem_cons]
  constructor
  · rintro ⟨hmem, hpin⟩
    exact ⟨.inr hmem, hpin⟩
  · rintro ⟨rfl | hmem, hpin⟩
    · exact absurd hpin.symm hne
    · exact ⟨hmem, hpin⟩

def owed (current : List (Pin × Sub)) : Nat → List Pin → List (Nat × Pin)
  | _, [] => []
  | position, pin :: desired =>
    if (held current pin).isNone then (position, pin) :: owed current (position + 1) desired
    else owed current (position + 1) desired

theorem owed_congr {current' : List (Pin × Sub)} {desired : List Pin}
    (h : ∀ pin ∈ desired, held current pin = held current' pin) (position : Nat) :
    owed current position desired = owed current' position desired := by
  induction desired generalizing position with
  | nil => rfl
  | cons pin desired ih =>
    obtain ⟨hpin, hrest⟩ := forall_mem_cons.mp h
    simp only [owed, hpin, ih hrest]

theorem claim_eq (hpins : (current.map Prod.fst).Nodup)
    {desired : List Pin} (hdesired : desired.Nodup) (position : Nat) :
    (claim current position desired).1 = desired.map (held current) ∧
    (claim current position desired).2.1 = owed current position desired ∧
    ∀ entry, entry ∈ (claim current position desired).2.2 ↔
      entry ∈ current ∧ entry.1 ∉ desired := by
  induction desired generalizing current position with
  | nil => simp [claim, owed]
  | cons pin desired ih =>
    obtain ⟨hnew, hrest⟩ := nodup_cons.mp hdesired
    rw [claim]
    cases hfind : current.findIdx? fun followed => followed.1 = pin with
    | none =>
      have hother : ∀ entry ∈ current, entry.1 ≠ pin := by
        simpa using findIdx?_eq_none_iff.mp hfind
      have hheld : held current pin = none := by
        simpa [held, find?_eq_none] using hother
      obtain ⟨hconverged, hpending, hleft⟩ := ih hpins hrest (position + 1)
      refine ⟨?_, ?_, fun entry => ?_⟩
      · simp [hconverged, hheld]
      · simp [hpending, owed, hheld]
      · simp only [hleft, mem_cons, not_or]
        exact and_congr_right fun hmem => ⟨fun h => ⟨hother entry hmem, h⟩, fun h => h.2⟩
    | some idx =>
      obtain ⟨hlt, hpin, -⟩ := findIdx?_eq_some_iff_getElem.mp hfind
      have hget : current[idx]? = some current[idx] := getElem?_eq_getElem hlt
      have hpin : current[idx].1 = pin := by simpa using hpin
      have hheld : held current pin = some current[idx] :=
        (held_eq_some hpins).mpr ⟨getElem_mem hlt, hpin⟩
      obtain ⟨hpins', hkeep⟩ := held_swap_remove hpins hget
      have hsame : ∀ other ∈ desired, held (swap_remove current idx) other = held current other := by
        intro other hother
        refine hkeep other fun heq => hnew ?_
        rw [← hpin, ← heq]
        exact hother
      obtain ⟨hconverged, hpending, hleft⟩ := ih hpins' hrest (position + 1)
      refine ⟨?_, ?_, fun entry => ?_⟩
      · simp only [hconverged, hget, map_cons, hheld]
        rw [map_congr_left hsame]
      · simp only [hpending, owed, hheld, Option.isNone_some, Bool.false_eq_true, if_false]
        exact owed_congr hsame _
      have hall := perm_cons_eraseIdx hget
      have hnodup := (hall.map Prod.fst).nodup_iff.mp hpins
      simp only [hleft, (swap_remove_perm hget).mem_iff, hall.mem_iff, mem_cons, not_or]
      constructor
      · rintro ⟨hmem, hnot⟩
        refine ⟨.inr hmem, fun heq => ?_, hnot⟩
        refine (nodup_cons.mp hnodup).1 ?_
        rw [hpin, ← heq]
        exact mem_map_of_mem hmem
      · rintro ⟨rfl | hmem, hne, hnot⟩
        · exact absurd hpin hne
        · exact ⟨hmem, hnot⟩

/-! ## The declarations -/

/-- A desired pin ends with its subscription, or the one declared. -/
def settled (current : List (Pin × Sub)) (subscribe : Pin → Except E Sub) (pin : Pin) :
    Option (Pin × Sub) :=
  match held current pin with
  | some entry => some entry
  | none => (subscribe pin).toOption.map fun subscription => (pin, subscription)

def failures (current : List (Pin × Sub)) (subscribe : Pin → Except E Sub) (desired : List Pin) :
    List (Pin × E) :=
  desired.filterMap fun pin =>
    match held current pin, subscribe pin with
    | none, .error error => some (pin, error)
    | _, _ => none

/-- Each declaration is filed at its pin. `before` are settled. -/
theorem file_eq (current : List (Pin × Sub)) (subscribe : Pin → Except E Sub) (desired : List Pin)
    (before : List (Option (Pin × Sub))) :
    file subscribe (before ++ desired.map (held current)) (owed current before.length desired) =
      (before ++ desired.map (settled current subscribe), failures current subscribe desired) := by
  induction desired generalizing before with
  | nil => simp [owed, file, failures]
  | cons pin desired ih =>
    have hnext : ∀ x : Option (Pin × Sub), (before ++ [x]).length = before.length + 1 := by simp
    cases hheld : held current pin with
    | some entry =>
      have hrest := ih (before ++ [some entry])
      rw [hnext] at hrest
      simpa [owed, hheld, settled, failures] using hrest
    | none =>
      cases hdeclared : subscribe pin with
      | ok subscription =>
        have hrest := ih (before ++ [some (pin, subscription)])
        rw [hnext] at hrest
        simpa [owed, hheld, settled, failures, file, hdeclared, Except.toOption] using hrest
      | error error =>
        have hrest := ih (before ++ [none])
        rw [hnext] at hrest
        simp only [append_assoc, singleton_append] at hrest
        simp [owed, hheld, settled, failures, file, hdeclared, Except.toOption, hrest]

theorem map_snd_owed (current : List (Pin × Sub)) (desired : List Pin) (position : Nat) :
    (owed current position desired).map Prod.snd =
      desired.filter fun pin => (held current pin).isNone := by
  induction desired generalizing position with
  | nil => rfl
  | cons pin desired ih =>
    rw [owed, filter_cons]
    split
    · rw [map_cons, ih]
    · exact ih _

/-! ## What a convergence leaves -/

section
variable {is_open : Sub → Bool} {subscribe : Pin → Except E Sub} {current : List (Pin × Sub)}
  {desired : List Pin}

theorem converge_eq (hpins : (current.map Prod.fst).Nodup) (hdesired : desired.Nodup) :
    let kept := current.filter (retained is_open desired)
    converge_subscriptions is_open subscribe current desired =
      ({ current := desired.filterMap (settled kept subscribe)
         failed := failures kept subscribe desired },
        (current.filter fun entry => !retained is_open desired entry).map
          (fun entry => .Drop entry.1 entry.2) ++
        (desired.filter fun pin => (held kept pin).isNone).map .Declare) := by
  intro kept
  have hkept : (kept.map Prod.fst).Nodup := hpins.sublist (filter_sublist.map _)
  obtain ⟨hconverged, hpending, hleft⟩ := claim_eq hkept hdesired 0
  have hfile := file_eq kept subscribe desired []
  simp only [nil_append, length_nil] at hfile
  have hunclaimed : (claim kept 0 desired).2.2 = [] := by
    refine eq_nil_iff_forall_not_mem.mpr fun entry hentry => ?_
    obtain ⟨hmem, hnot⟩ := (hleft entry).mp hentry
    have hretained := (mem_filter.mp hmem).2
    simp only [retained, Bool.and_eq_true, contains_iff_mem] at hretained
    exact hnot hretained.1
  rw [converge_subscriptions, ← map_snd_owed kept desired 0]
  dsimp only
  rw [hconverged, hpending, hfile, hunclaimed]
  simp [filterMap_map]

def open_in (is_open : Sub → Bool) (current : List (Pin × Sub)) (pin : Pin) : Bool :=
  current.any fun entry => entry.1 = pin && is_open entry.2

theorem held_kept (hpins : (current.map Prod.fst).Nodup) {pin : Pin} (hpin : pin ∈ desired)
    {entry : Pin × Sub} : held (current.filter (retained is_open desired)) pin = some entry ↔
      entry ∈ current ∧ is_open entry.2 = true ∧ entry.1 = pin := by
  have hkept : ((current.filter (retained is_open desired)).map Prod.fst).Nodup :=
    hpins.sublist (filter_sublist.map _)
  rw [held_eq_some hkept, mem_filter]
  simp only [retained, Bool.and_eq_true, contains_iff_mem]
  constructor
  · rintro ⟨⟨hmem, -, hopen⟩, hkey⟩
    exact ⟨hmem, hopen, hkey⟩
  · rintro ⟨hmem, hopen, hkey⟩
    exact ⟨⟨hmem, hkey ▸ hpin, hopen⟩, hkey⟩

theorem isSome_held_kept (hpins : (current.map Prod.fst).Nodup) {pin : Pin} (hpin : pin ∈ desired) :
    (held (current.filter (retained is_open desired)) pin).isSome = open_in is_open current pin := by
  rw [Bool.eq_iff_iff, Option.isSome_iff_exists, open_in, List.any_eq_true]
  refine exists_congr fun entry => ?_
  rw [held_kept hpins hpin, Bool.and_eq_true, decide_eq_true_eq]
  exact and_congr_right fun _ => And.comm

omit [DecidableEq Pin] in
theorem map_fst_filterMap {β : Type} {f : Pin → Option (Pin × β)}
    (hf : ∀ pin entry, f pin = some entry → entry.1 = pin) (l : List Pin) :
    (l.filterMap f).map Prod.fst = l.filter fun pin => (f pin).isSome := by
  induction l with
  | nil => rfl
  | cons pin l ih =>
    cases hentry : f pin with
    | none => simp [hentry, ih]
    | some entry => simp [hentry, ih, hf pin entry hentry]

end

/-- The subscriptions of the desired pins in order, and the wire events. -/
structure Followed (is_open : Sub → Bool) (subscribe : Pin → Except E Sub)
    (current : List (Pin × Sub)) (desired : List Pin) (result : Converged Pin Sub E)
    (events : List (Event Pin Sub)) : Prop where
  pins : result.current.map Prod.fst =
    desired.filter fun pin => open_in is_open current pin || (subscribe pin).isOk
  nodup : (result.current.map Prod.fst).Nodup
  /-- An open subscription of a desired pin stays, and is not declared again. -/
  kept : ∀ entry ∈ current, entry.1 ∈ desired → is_open entry.2 = true →
    entry ∈ result.current ∧ .Declare entry.1 ∉ events
  /-- Every other subscription is the one that its declaration gave. -/
  declared : ∀ entry ∈ result.current, open_in is_open current entry.1 = false →
    subscribe entry.1 = .ok entry.2
  failed : result.failed.map Prod.fst =
    desired.filter fun pin => !(open_in is_open current pin || (subscribe pin).isOk)
  /-- Undesired and closed subscriptions drop, then owed ones start. -/
  events : events =
    (current.filter fun entry => !(decide (entry.1 ∈ desired) && is_open entry.2)).map
      (fun entry => .Drop entry.1 entry.2) ++
    (desired.filter fun pin => !open_in is_open current pin).map .Declare

theorem isSome_settled {kept : List (Pin × Sub)} {subscribe : Pin → Except E Sub} :
    (settled kept subscribe pin).isSome = ((held kept pin).isSome || (subscribe pin).isOk) := by
  unfold settled
  cases held kept pin with
  | some entry => rfl
  | none => cases subscribe pin <;> rfl

theorem settled_fst {kept : List (Pin × Sub)} {subscribe : Pin → Except E Sub}
    (h : settled kept subscribe pin = some entry) : entry.1 = pin := by
  unfold settled at h
  cases hheld : held kept pin with
  | some found =>
    rw [hheld] at h
    cases h
    simpa using find?_some hheld
  | none =>
    rw [hheld] at h
    obtain ⟨subscription, -, rfl⟩ := Option.map_eq_some_iff.mp h
    rfl

theorem map_fst_failures (kept : List (Pin × Sub)) (subscribe : Pin → Except E Sub)
    (desired : List Pin) : (failures kept subscribe desired).map Prod.fst =
      desired.filter fun pin => !((held kept pin).isSome || (subscribe pin).isOk) := by
  induction desired with
  | nil => rfl
  | cons pin desired ih =>
    unfold failures at ih ⊢
    cases hheld : held kept pin with
    | some entry => simp [hheld, ih]
    | none => cases hdeclared : subscribe pin <;> simp [hheld, hdeclared, ih, Except.isOk, Except.toBool]

/-- A convergence onto the desired pins, from any subscriptions and with any
outcome of each declaration. -/
theorem the_subscriptions_after_a_convergence (is_open : Sub → Bool)
    (subscribe : Pin → Except E Sub) (current : List (Pin × Sub)) (desired : List Pin)
    (hpins : (current.map Prod.fst).Nodup) (hdesired : desired.Nodup) :
    Followed is_open subscribe current desired
      (converge_subscriptions is_open subscribe current desired).1
      (converge_subscriptions is_open subscribe current desired).2 := by
  rw [converge_eq hpins hdesired]
  dsimp only
  have hopen : ∀ pin ∈ desired, (held (current.filter (retained is_open desired)) pin).isSome =
      open_in is_open current pin := fun pin hpin => isSome_held_kept hpins hpin
  have hpinsEq : (desired.filterMap (settled (current.filter (retained is_open desired)) subscribe)).map
      Prod.fst = desired.filter fun pin => open_in is_open current pin || (subscribe pin).isOk := by
    rw [map_fst_filterMap fun pin entry => settled_fst]
    refine filter_congr fun pin hpin => ?_
    rw [isSome_settled, hopen pin hpin]
  have hdeclares : (desired.filter fun pin =>
      (held (current.filter (retained is_open desired)) pin).isNone) =
        desired.filter fun pin => !open_in is_open current pin := by
    refine filter_congr fun pin hpin => ?_
    rw [← hopen pin hpin, Option.not_isSome]
  refine ⟨hpinsEq, ?_, fun entry hentry hin hisOpen => ⟨?_, ?_⟩, fun entry hentry hclosed => ?_, ?_, ?_⟩
  · rw [hpinsEq]
    exact hdesired.filter _
  · refine mem_filterMap.mpr ⟨entry.1, hin, ?_⟩
    rw [settled, (held_kept hpins hin).mpr ⟨hentry, hisOpen, rfl⟩]
  · rw [hdeclares]
    simp only [mem_append, mem_map, not_or, not_exists, not_and]
    refine ⟨(fun _ _ h => nomatch h), fun pin hpin heq => ?_⟩
    cases heq
    have hnot := (mem_filter.mp hpin).2
    have hany : open_in is_open current entry.1 = true :=
      List.any_eq_true.mpr ⟨entry, hentry, by simp [hisOpen]⟩
    simp [hany] at hnot
  · obtain ⟨pin, hpin, hsettled⟩ := mem_filterMap.mp hentry
    obtain rfl := settled_fst hsettled
    have hnone : held (current.filter (retained is_open desired)) entry.1 = none := by
      rw [← Option.not_isSome_iff_eq_none, hopen _ hpin, hclosed]
      simp
    rw [settled, hnone] at hsettled
    obtain ⟨subscription, hdeclared, heq⟩ := Option.map_eq_some_iff.mp hsettled
    cases hresult : subscribe entry.1 with
    | error error =>
      rw [hresult] at hdeclared
      cases hdeclared
    | ok other =>
      rw [hresult] at hdeclared
      cases hdeclared
      rw [← heq]
  · rw [map_fst_failures]
    refine filter_congr fun pin hpin => ?_
    rw [hopen pin hpin]
  · rw [hdeclares]
    congr 2
    refine filter_congr fun entry _ => ?_
    simp [retained]

end

/-- Pins 1 and 2 are followed, 2 over a closed channel, and 3 is new. The
declaration of 3 fails. -/
theorem the_subscriptions_of_three_pins :
    (converge_subscriptions (fun channel : Nat => channel ≠ 20)
        (fun pin => if pin = 3 then Except.error "no route" else .ok (pin * 100))
        [(1, 10), (2, 20), (4, 40)] [3, 2, 1]).1 =
      { current := [(2, 200), (1, 10)], failed := [(3, "no route")] } ∧
    Followed (fun channel : Nat => channel ≠ 20)
      (fun pin => if pin = 3 then Except.error "no route" else .ok (pin * 100))
      [(1, 10), (2, 20), (4, 40)] [3, 2, 1]
      { current := [(2, 200), (1, 10)], failed := [(3, "no route")] }
      [.Drop 2 20, .Drop 4 40, .Declare 3, .Declare 2] :=
  ⟨rfl, the_subscriptions_after_a_convergence (fun channel : Nat => channel ≠ 20)
    (fun pin => if pin = 3 then Except.error "no route" else .ok (pin * 100))
    [(1, 10), (2, 20), (4, 40)] [3, 2, 1] (by decide) (by decide)⟩

end peppy.slot_stream
