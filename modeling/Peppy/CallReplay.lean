-- The checks of the calls of one boot, which run at the same time. While no check
-- takes its nonce with a clock behind the last prune, no nonce of a key is taken
-- twice.
import Peppy.Lib.Runs
import Peppy.Lib.Tasks
import Peppy.Credentials

open bytes runs tasks List

namespace peppy.credentials

open call_proof machine_proof

/-! ## The checks in progress -/

inductive CheckPhase where
  | Clock
  | Key (proof : CallProof) (now_ms : Nat)
  | Nonce (proof : CallProof) (now_ms : Nat) (key : ClientPublicKey) (kind : CallerKind)

structure Check where
  call : ReceivedCall
  phase : CheckPhase := .Clock

structure AcceptedCall where
  call : ReceivedCall
  proof : CallProof
  key : ClientPublicKey

/-- One boot of the daemon: live key files, nonce window, checks and accepted calls. -/
structure Boot where
  now_ms : Nat := 0
  keys : DaemonKeys
  live : String → Option KeyFile := fun _ => none
  nonces : NonceWindow := {}
  checks : List Check := []
  accepted : List AcceptedCall := []

inductive CheckAct where
  | Tick (ms : Nat)
  | Change (keys : DaemonKeys) (live : String → Option KeyFile)
  | Receive (call : ReceivedCall)
  | Step (i : Nat)

namespace Boot

variable (out : Outside)

def setCheck (b : Boot) (i : Nat) (check : Check) (phase : Option CheckPhase) : Boot :=
  { b with checks := put b.checks i (phase.map fun phase => { check with phase }) }

def checkStep (b : Boot) (i : Nat) (check : Check) : Boot :=
  match check.phase with
  | .Clock =>
    match check_timestamp check.call b.now_ms with
    | .error _ => b.setCheck i check none
    | .ok proof => b.setCheck i check (some (.Key proof b.now_ms))
  | .Key proof now_ms =>
    match check_signature out b.keys b.live check.call proof now_ms with
    | .error _ => b.setCheck i check none
    | .ok (key, kind) => b.setCheck i check (some (.Nonce proof now_ms key kind))
  | .Nonce proof now_ms key kind =>
    match take_nonce b.nonces check.call proof key kind now_ms with
    | (.error _, nonces) => { b with nonces }.setCheck i check none
    | (.ok _, nonces) =>
      { b with
        nonces
        accepted := ⟨check.call, proof, key⟩ :: b.accepted }.setCheck i check none

def step (b : Boot) : CheckAct → Option Boot
  | .Tick ms => some { b with now_ms := b.now_ms + ms }
  | .Change keys live => some { b with keys, live }
  | .Receive call => some { b with checks := b.checks ++ [{ call }] }
  | .Step i => (b.checks[i]?).map (b.checkStep out i)

def start (keys : DaemonKeys) : Boot := { keys }

/-! ## The condition -/

/-- A check takes its nonce with a clock not behind the last prune, signed at one time. -/
def timely (b : Boot) : CheckAct → Bool
  | .Step i =>
    match b.checks[i]? with
    | some { phase := .Nonce proof now_ms key _, .. } =>
      b.nonces.last_prune_ms ≤ now_ms ∧
        b.accepted.all fun a => a.key = key → a.proof.nonce = proof.nonce →
          a.proof.timestamp_ms = proof.timestamp_ms
    | _ => true
  | _ => true

/-- The window holds each accepted nonce that is not too old, and accepted none twice. -/
structure Fresh (b : Boot) : Prop where
  checks : ∀ check ∈ b.checks, ∀ proof now_ms key kind,
    check.phase = .Key proof now_ms ∨ check.phase = .Nonce proof now_ms key kind →
      now_ms - TIMESTAMP_WINDOW ≤ proof.timestamp_ms.toNat
  held : ∀ a ∈ b.accepted, b.nonces.last_prune_ms - TIMESTAMP_WINDOW ≤ a.proof.timestamp_ms.toNat →
    ((a.key, a.proof.nonce), a.proof.timestamp_ms.toNat) ∈ b.nonces.taken
  once : (b.accepted.map fun a => (a.key, a.proof.nonce)).Nodup

section
variable {out} {b b' : Boot} {i : Nat}

variable {proof : CallProof} {now_ms : Nat} {check : Check} {w : NonceWindow}
  {key : ClientPublicKey}

theorem timestamp_of_check {call : ReceivedCall} (h : check_timestamp call now_ms = .ok proof) :
    now_ms - TIMESTAMP_WINDOW ≤ proof.timestamp_ms.toNat := by
  unfold check_timestamp at h
  split at h
  · cases h
  dsimp only at h
  split at h
  · cases h
  · cases h
    omega

variable {phase : Option CheckPhase} {entry : (ClientPublicKey × Fixed NONCE_LEN) × Nat}
  {timestamp_ms : Nat}

theorem mem_setCheck {c : Check} (h : c ∈ (b.setCheck i check phase).checks) :
    c ∈ b.checks ∨ ∃ p, phase = some p ∧ c = { check with phase := p } :=
  mem_put_map h

theorem Fresh.setCheck (inv : b.Fresh) (hphase : ∀ p, phase = some p → ∀ proof now_ms key kind,
      p = .Key proof now_ms ∨ p = .Nonce proof now_ms key kind →
        now_ms - TIMESTAMP_WINDOW ≤ proof.timestamp_ms.toNat) :
    (b.setCheck i check phase).Fresh where
  checks := by
    intro c hc proof now_ms key kind hp
    rcases mem_setCheck hc with hc | ⟨p, hsome, rfl⟩
    · exact inv.checks c hc proof now_ms key kind hp
    · exact hphase p hsome proof now_ms key kind hp
  held := inv.held
  once := inv.once

/-! The window before and after a nonce is taken. -/

theorem prune_last (h : w.last_prune_ms ≤ now_ms) :
    w.last_prune_ms ≤ (w.prune now_ms).last_prune_ms ∧ (w.prune now_ms).last_prune_ms ≤ now_ms := by
  unfold NonceWindow.prune
  split
  · exact ⟨h, Nat.le_refl _⟩
  · exact ⟨Nat.le_refl _, h⟩

theorem mem_prune (h : entry ∈ w.taken)
    (hkept : (w.prune now_ms).last_prune_ms - TIMESTAMP_WINDOW ≤ entry.2) :
    entry ∈ (w.prune now_ms).taken := by
  unfold NonceWindow.prune at hkept ⊢
  split
  · rename_i hlong
    rw [if_pos hlong] at hkept
    exact mem_filter.mpr ⟨h, decide_eq_true hkept⟩
  · exact h

theorem mem_take {nonce : Fixed NONCE_LEN}
    (h : entry ∈ (w.prune now_ms).taken) (hsame : entry.1 = (key, nonce) → entry.2 = timestamp_ms) :
    entry ∈ (w.take key nonce timestamp_ms now_ms).2.taken := by
  by_cases hkey : entry.1 = (key, nonce)
  · obtain ⟨k, t⟩ := entry
    cases hkey
    cases hsame rfl
    exact mem_cons_self
  · exact mem_cons_of_mem _ (mem_filter.mpr ⟨h, decide_eq_true hkey⟩)

theorem take_refused {nonce : Fixed NONCE_LEN}
    {t : Nat} (h : ((key, nonce), t) ∈ (w.prune now_ms).taken) :
    (w.take key nonce timestamp_ms now_ms).1 = false := by
  rw [NonceWindow.take]
  apply Bool.eq_false_iff.mpr
  intro hall
  have := all_eq_true.mp hall _ h
  simp at this

theorem Fresh.held_take (inv : b.Fresh) (hlast : b.nonces.last_prune_ms ≤ now_ms)
    (hsame : ∀ a ∈ b.accepted, a.key = key → a.proof.nonce = proof.nonce →
      a.proof.timestamp_ms = proof.timestamp_ms) {a : AcceptedCall} (ha : a ∈ b.accepted)
    (hkept : (b.nonces.prune now_ms).last_prune_ms - TIMESTAMP_WINDOW ≤
      a.proof.timestamp_ms.toNat) :
    ((a.key, a.proof.nonce), a.proof.timestamp_ms.toNat) ∈ (b.nonces.prune now_ms).taken ∧
    ((a.key, a.proof.nonce), a.proof.timestamp_ms.toNat) ∈
        (b.nonces.take key proof.nonce proof.timestamp_ms.toNat now_ms).2.taken := by
  have hmono := (prune_last hlast).1
  have hheld := mem_prune (inv.held a ha (by omega)) hkept
  refine ⟨hheld, mem_take hheld ?_⟩
  intro hkey
  obtain ⟨hk, hn⟩ := Prod.mk.inj hkey
  exact congrArg UInt64.toNat (hsame a ha hk hn)

theorem Fresh.nonce (inv : b.Fresh) {kind : CallerKind} (hcheck : b.checks[i]? = some check)
    (hphase : check.phase = .Nonce proof now_ms key kind) (hlast : b.nonces.last_prune_ms ≤ now_ms)
    (hsame : ∀ a ∈ b.accepted, a.key = key → a.proof.nonce = proof.nonce →
      a.proof.timestamp_ms = proof.timestamp_ms) : (b.checkStep out i check).Fresh := by
  have hwindow := inv.checks check (mem_of_getElem? hcheck) proof now_ms key kind (.inr hphase)
  have hprune := (prune_last hlast).2
  have hnone : ∀ p, (none : Option CheckPhase) = some p → ∀ proof now_ms key kind,
      p = .Key proof now_ms ∨ p = .Nonce proof now_ms key kind →
        now_ms - TIMESTAMP_WINDOW ≤ proof.timestamp_ms.toNat := fun _ h => nomatch h
  simp only [checkStep, hphase, take_nonce]
  by_cases hfresh : (b.nonces.take key proof.nonce proof.timestamp_ms.toNat now_ms).1 = true
  · rw [if_pos hfresh]
    refine Fresh.setCheck ?_ hnone
    refine { checks := inv.checks, held := ?_, once := ?_ }
    · intro a ha hkept
      rcases mem_cons.mp ha with rfl | ha
      · exact mem_cons_self
      · exact (inv.held_take hlast hsame ha hkept).2
    · refine nodup_cons.mpr ⟨?_, inv.once⟩
      intro hmem
      obtain ⟨a, ha, hkey⟩ := mem_map.mp hmem
      obtain ⟨hk, hn⟩ := Prod.mk.inj hkey
      -- the earlier call is still in the window, so the nonce is refused
      have htime := hsame a ha hk hn
      have hheld := (inv.held_take hlast hsame ha (by rw [htime]; omega)).1
      rw [hkey] at hheld
      exact Bool.false_ne_true ((take_refused hheld).symm.trans hfresh)
  · rw [if_neg hfresh]
    refine Fresh.setCheck ?_ hnone
    refine { checks := inv.checks, held := ?_, once := inv.once }
    intro a ha hkept
    exact (inv.held_take hlast hsame ha hkept).2

theorem Fresh.step (inv : b.Fresh) {a : CheckAct} (htimely : b.timely a = true)
    (h : b.step out a = some b') : b'.Fresh := by
  cases a with
  | Tick ms | Change keys live => cases h; exact ⟨inv.checks, inv.held, inv.once⟩
  | Receive call =>
    cases h
    refine ⟨?_, inv.held, inv.once⟩
    intro check hcheck proof now_ms key kind hp
    rcases changes.mem_push hcheck with hcheck | rfl
    · exact inv.checks check hcheck proof now_ms key kind hp
    · rcases hp with hp | hp <;> cases hp
  | Step i =>
    obtain ⟨check, hcheck, rfl⟩ := Option.map_eq_some_iff.mp h
    cases hphase : check.phase with
    | Clock =>
      simp only [checkStep, hphase]
      split
      · exact inv.setCheck fun _ h => nomatch h
      rename_i proof hproof
      apply inv.setCheck
      rintro _ ⟨⟩ proof' now_ms key kind (hp | hp)
      · cases hp
        exact timestamp_of_check hproof
      · cases hp
    | Key proof now_ms =>
      simp only [checkStep, hphase]
      split
      · exact inv.setCheck fun _ h => nomatch h
      rename_i key kind _
      apply inv.setCheck
      rintro _ ⟨⟩ proof' now_ms' key' kind' (hp | hp)
      · cases hp
      · cases hp
        exact inv.checks check (mem_of_getElem? hcheck) proof now_ms key kind (.inl hphase)
    | Nonce proof now_ms key kind =>
      obtain ⟨call, phase⟩ := check
      cases hphase
      simp only [timely, hcheck, decide_eq_true_eq, all_eq_true] at htimely
      exact inv.nonce hcheck rfl htimely.1 htimely.2

theorem Fresh.start (keys : DaemonKeys) : (start keys).Fresh where
  checks := fun _ h => nomatch h
  held := fun _ h => nomatch h
  once := nodup_nil

end

/-- Where no check takes its nonce with a clock behind the last prune, no two accepted
calls carry the same key and nonce. -/
theorem no_nonce_of_a_key_is_accepted_twice (keys : DaemonKeys) (acts : List CheckAct) (b : Boot)
    (htimely : Meets (step out) (fun b a => b.timely a = true) (start keys) acts)
    (h : run (step out) (start keys) acts = some b) :
    (b.accepted.map fun a => (a.key, a.proof.nonce)).Nodup :=
  (run_keeps_where (fun _ _ _ inv htimely h => Fresh.step inv htimely h) (Fresh.start keys) htimely
    h).once

/-! ## A replay behind a prune -/

theorem length_plainKeys {key : ClientPublicKey} : (key.val ++ List.replicate 32 0).length = 64 := by
  rw [length_append, key.property]
  rfl

/-- Keys whose signature is the key, and machines without certificates. -/
def plainKeys : Outside where
  sign := fun key _ => ⟨key.val ++ List.replicate 32 0, length_plainKeys⟩
  verifies := fun key _ signature => signature = key.val ++ List.replicate 32 0
  machine_sign := fun _ _ => []
  verify_chain := fun _ _ _ => .error "no CA"
  common_name := fun _ => .error "no certificate"
  verify_signature := fun _ _ _ _ => false
  encode := fun _ => []
  decode := fun _ => .error "no proof"

theorem length_bootKey : (List.replicate 32 (1 : UInt8)).length = 32 := rfl

def bootKey : ClientPublicKey := ⟨List.replicate 32 1, length_bootKey⟩

def deskKeys : DaemonKeys := DaemonKeys.new plainKeys "local" "cn-desk" "boot" none bootKey

def deskCall (timestamp_ms : UInt64) (nonce : UInt8) : ReceivedCall where
  caller_core_node := "cn-desk"
  caller_instance_id := "boot"
  signed := SignedCall.resetCall
  proof := some {
    timestamp_ms
    nonce := ⟨List.replicate 16 nonce, rfl⟩
    signature := plainKeys.sign bootKey []
    machine_proof := none }

def replayedCall : List CheckAct :=
  [.Tick 100000, .Receive (deskCall 100000 1), .Step 0, .Step 0, .Step 0, .Tick 1000,
    .Receive (deskCall 100000 1), .Step 0, .Step 0, .Step 0]

theorem the_replay_of_a_call_is_refused :
    ∃ b, run (step plainKeys) (start deskKeys) replayedCall = some b ∧
      b.accepted.map (fun a => a.call) = [deskCall 100000 1] ∧
      (b.accepted.map fun a => (a.key, a.proof.nonce)).Nodup := by
  have hrun : (run (step plainKeys) (start deskKeys) replayedCall).map
      (fun b => b.accepted.map fun a => a.call) = some [deskCall 100000 1] := by decide +kernel
  obtain ⟨b, hb, hcalls⟩ := Option.map_eq_some_iff.mp hrun
  exact ⟨b, hb, hcalls,
    no_nonce_of_a_key_is_accepted_twice plainKeys deskKeys replayedCall b (by decide +kernel) hb⟩

/-- Before a replay takes its nonce, a call with a later clock prunes the window. -/
def waitingReplay : List CheckAct :=
  [.Tick 100000, .Receive (deskCall 100000 1), .Step 0, .Step 0, .Step 0, .Tick 30000,
    .Receive (deskCall 100000 1), .Step 0, .Step 0, .Tick 1, .Receive (deskCall 130001 2),
    .Step 1, .Step 1, .Step 1, .Step 0]

/-- The replay is accepted, so one signed call is accepted twice. -/
theorem a_replay_that_waits_for_a_prune :
    ∃ b, run (step plainKeys) (start deskKeys) waitingReplay = some b ∧
      b.accepted.map (fun a => a.call) = [deskCall 100000 1, deskCall 130001 2, deskCall 100000 1] ∧
      ¬ (b.accepted.map fun a => (a.key, a.proof.nonce)).Nodup := by
  have hrun : (run (step plainKeys) (start deskKeys) waitingReplay).map
      (fun b => (b.accepted.map fun a => a.call, b.accepted.map fun a => (a.key, a.proof.nonce))) =
      some ([deskCall 100000 1, deskCall 130001 2, deskCall 100000 1],
        [(bootKey, ⟨List.replicate 16 1, rfl⟩), (bootKey, ⟨List.replicate 16 2, rfl⟩),
          (bootKey, ⟨List.replicate 16 1, rfl⟩)]) := by decide +kernel
  obtain ⟨b, hb, hlogs⟩ := Option.map_eq_some_iff.mp hrun
  obtain ⟨hcalls, hnonces⟩ := Prod.mk.inj hlogs
  refine ⟨b, hb, hcalls, ?_⟩
  rw [hnonces]
  decide +kernel

end Boot

end peppy.credentials
