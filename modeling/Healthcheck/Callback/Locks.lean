import Healthcheck.Callback.ProbeSteps

/-!
The operations on the shared records as transactions: they take their locks in one order, keep none
of them, and publish once or not at all.
-/

namespace Healthcheck

open Program

/-- A call that takes the lock of its own worker slot first and the peer's second, and leaves the
process with the locks it had. -/
structure Disciplined (worker i : Nat) (before after : List LockEvent) : Prop where
  grown : before <:+ after
  ordered : ∀ past mutex, before <:+ past → LockEvent.acquired mutex :: past <:+ after →
    (mutex = .worker worker ∧ heldLocks past = heldLocks before) ∨
      (mutex = .peer i ∧ heldLocks past = .worker worker :: heldLocks before)
  released : heldLocks after = heldLocks before

/-- No acquisition of a call lies in the history before it. -/
theorem not_suffix_before {before past : List LockEvent} {event : LockEvent}
    (during : before <:+ past) : ¬ event :: past <:+ before := by
  -- A longer history is no part of a shorter one.
  intro earlier
  have longer := earlier.length_le
  have shorter := during.length_le
  simp only [List.length_cons] at longer
  omega

/-- Every critical section is disciplined. -/
theorem CriticalSection.disciplined {worker i : Nat} {before after : List LockEvent}
    (critical : CriticalSection worker i before after) : Disciplined worker i before after := by
  -- The acquisitions of a section are read off its few events, the newest first.
  cases critical with
  | none =>
    exact ⟨List.suffix_refl _, fun past mutex during found =>
      (not_suffix_before during found).elim, rfl⟩
  | outer =>
    refine ⟨(List.suffix_cons _ _).trans (List.suffix_cons _ _), fun past mutex during found => ?_,
      by simp [heldLocks]⟩
    simp only [List.suffix_cons_iff, List.cons.injEq, reduceCtorEq, false_and, false_or,
      LockEvent.acquired.injEq] at found
    rcases found with ⟨rfl, rfl⟩ | earlier
    · exact .inl ⟨rfl, rfl⟩
    · exact (not_suffix_before during earlier).elim
  | both =>
    refine ⟨((List.suffix_cons _ _).trans (List.suffix_cons _ _)).trans
      ((List.suffix_cons _ _).trans (List.suffix_cons _ _)), fun past mutex during found => ?_,
      by simp [heldLocks]⟩
    simp only [List.suffix_cons_iff, List.cons.injEq, reduceCtorEq, false_and, false_or,
      LockEvent.acquired.injEq] at found
    rcases found with ⟨rfl, rfl⟩ | ⟨rfl, rfl⟩ | earlier
    · exact .inr ⟨rfl, rfl⟩
    · exact .inl ⟨rfl, rfl⟩
    · exact (not_suffix_before during earlier).elim

/-- A call on one peer's record: disciplined with the locks, and the record it found, both slots
and the published word, is left alone or, on success, published to once. -/
structure Atomic (i : Nat) (found : PeerShm) (w : World) (rc : Rc) (w' : World) : Prop where
  locks : Disciplined w.self.runtime.worker i w.locks w'.locks
  record : w'.sys.shared.peers i = found ∨
    rc = .ok ∧ ∃ state, w'.sys.shared.peers i = publish found state

/-- A record as a call may find it after the other processes ran. -/
def LeftByOthers (w : World) (i : Nat) (found : PeerShm) : Prop :=
  found = w.sys.shared.peers i ∨
    ∃ k s, s.shared.peers i = w.sys.shared.peers i ∧ found = ((w.script k).others s).shared.peers i

section Calls

variable {gen : Generation} {i : Nat}

/-- A call that kept the record. -/
theorem atomic_kept {w w' : World} {rc : Rc}
    (critical : CriticalSection w.self.runtime.worker i w.locks w'.locks)
    (kept : w'.sys.shared = w.sys.shared) : Atomic i (w.sys.shared.peers i) w rc w' :=
  -- Nothing was published.
  ⟨critical.disciplined, .inl (by rw [kept])⟩

/-- A call that published to the record. -/
theorem atomic_published {w w' : World} (state : PeerState)
    (critical : CriticalSection w.self.runtime.worker i w.locks w'.locks)
    (published : w'.sys.shared.peers = Function.update w.sys.shared.peers i
      (publish (w.sys.shared.peers i) state)) : Atomic i (w.sys.shared.peers i) w .ok w' :=
  -- One publication, and the code is OK.
  ⟨critical.disciplined, .inr ⟨rfl, state, by rw [published, Function.update_self]⟩⟩

/-- The validation is atomic and publishes nothing. -/
theorem probeValid_atomic (w : World) :
    wp (probeValid gen i) (Atomic i (w.sys.shared.peers i) w) w :=
  wp_probeValid (fun _ _ _ _ _ released => atomic_kept released rfl)
    fun _ _ _ _ _ released => atomic_kept released rfl

/-- The publication of INFLIGHT is atomic. -/
theorem probeWaiting_atomic (w : World) :
    wp (probeWaiting gen i) (Atomic i (w.sys.shared.peers i) w) w :=
  wp_probeWaiting (fun _ _ _ _ released => atomic_kept released rfl)
    (fun _ _ _ _ _ released => atomic_kept released rfl)
    fun _ _ _ _ _ released => atomic_published _ released rfl

/-- A submission is atomic. -/
theorem submit_atomic (limit : Nat) (w : World) :
    wp (submit gen i limit) (Atomic i (w.sys.shared.peers i) w) w :=
  wp_submit (fun _ _ _ _ _ released => atomic_kept released rfl)
    fun _ _ _ _ _ _ _ released => atomic_published _ released rfl

/-- A claim that is refused leaves every round of the process, the allocated probe included. -/
theorem claimRound_atomic (takeover : Option PeerState) (limit : Nat) (w : World) :
    wp (claimRound gen i takeover limit) (fun r w' => Atomic i (w.sys.shared.peers i) w r.1 w' ∧
      (r.1 ≠ .ok → w'.self.round = w.self.round)) w := by
  -- Only a claim that succeeded changes the rounds.
  refine wp_claimRound (fun rs pos => ⟨atomic_kept .none rfl, fun _ => ?_⟩)
    (fun rc wait rs pos locks _ _ released => ⟨atomic_kept released rfl, fun _ => ?_⟩)
    (fun t rs pos locks _ _ _ released => ⟨atomic_published _ released rfl, fun failed => ?_⟩)
  · funext j
    exact passed_round w rs pos _ j
  · funext j
    by_cases same : j = i
    · subst same
      simp [Proc.round, Proc.allocate, Proc.setPeer]
    · simp [Proc.round, Proc.allocate, Proc.setPeer, same]
  · exact absurd rfl failed

/-- Answers of the environment and changes of the process may precede a call. -/
theorem Atomic.earlier {w x : World} {rc : Rc} {w' : World} {found : PeerShm}
    (atomic : Atomic i found x rc w') (worker : x.self.runtime.worker = w.self.runtime.worker)
    (locks : x.locks = w.locks) : Atomic i found w rc w' := by
  -- Neither the worker nor the locks have changed.
  obtain ⟨discipline, record⟩ := atomic
  rw [worker, locks] at discipline
  exact ⟨discipline, record⟩

/-- What the other processes leave when they run once. -/
theorem leftByOthers_preempted {w x : World} (script : x.script = w.script)
    (shared : x.sys.shared = w.sys.shared) :
    LeftByOthers w i (x.preempted.sys.shared.peers i) := by
  -- The others start from the same memory.
  refine .inr ⟨x.pos, x.sys, by rw [shared], ?_⟩
  rw [← script]
  rfl

/-- Stopping publishes to no peer, and takes no lock but that of the worker slot. -/
theorem runtimeStop_atomic (rc : Rc) (w : World) :
    wp (runtimeStop gen) (fun _ w' => w'.self.runtime.stopping = true ∧
      ∃ found, LeftByOthers w i found ∧ Atomic i found w rc w') w := by
  unfold runtimeStop
  simp only [wp_bind, wp_self, wp_modifyRuntime, wp_ite, wp_pure, self_setSelf, setSelf_setSelf,
    wp_stopPeers]
  refine ⟨fun _ => ⟨trivial, _, .inl rfl, atomic_kept .none rfl⟩, fun _ => wp_preempt ?_⟩
  -- After the other processes ran only the registration can change.
  have left : LeftByOthers w i ((w.setSelf (w.self.stop gen)).preempted.sys.shared.peers i) :=
    leftByOthers_preempted rfl rfl
  have worker : (w.setSelf (w.self.stop gen)).preempted.self.runtime.worker =
      w.self.runtime.worker := by
    rw [preempted_self, self_setSelf, stop_runtime]
  refine wp_retire (fun rs pos locks released => ?_) (fun rs pos locks _ _ _ released => ?_)
  · exact ⟨by simp, _, left, .earlier ⟨(released i).disciplined, .inl rfl⟩ worker rfl⟩
  · exact ⟨by simp, _, left, .earlier ⟨(released i).disciplined, .inl rfl⟩ worker rfl⟩

/-- The part of `ngx_healthcheck_claim` before it starts the protocol I/O. -/
def claimEntry (gen : Generation) (i : Nat) (takeover : Option PeerState) (limit : Nat) :
    Action (Rc × Nat) := do
  if ¬ (← self).runtime.registered then return (.declined, 0)
  else if ← stopping gen then return (.declined, 0)
  else do
    preempt
    claimRound gen i takeover limit

/-- The part of `ngx_healthcheck_claim` from the start of the protocol I/O. -/
def claimStart (gen : Generation) (i : Nat) : Rc × Nat → Action (Rc × Nat)
  | (.ok, _) => do
    probeStart gen i
    return (.ok, 0)
  | refused => return refused

/-- A claim is its entry and the start of the probe. -/
theorem claim_eq (gen : Generation) (i : Nat) (takeover : Option PeerState) (limit : Nat) :
    claim gen i takeover limit = claimEntry gen i takeover limit >>= claimStart gen i := by
  -- Each of the early returns ends both.
  unfold claim claimEntry claimStart
  simp only [bind_assoc]
  refine bind_congr fun p => ?_
  split
  · simp only [pure_bind]
  · simp only [bind_assoc]
    refine bind_congr fun stops => ?_
    split
    · simp only [pure_bind]
    · exact (bind_assoc ..).symm

/-- The entry of a claim is atomic, from what the others left. -/
theorem claimEntry_atomic (takeover : Option PeerState) (limit : Nat) (w : World) :
    wp (claimEntry gen i takeover limit) (fun r w' =>
      (∃ found, LeftByOthers w i found ∧ Atomic i found w r.1 w') ∧
        (r.1 ≠ .ok → w'.self.runtime.stopping = true ∨ w'.self.round = w.self.round)) w := by
  -- The tests in the order of the source.
  unfold claimEntry stopping
  simp only [wp_bind, wp_self, wp_ite, wp_pure, wp_quitting]
  refine ⟨fun _ => ⟨⟨_, .inl rfl, atomic_kept .none rfl⟩, fun _ => .inr trivial⟩, fun _ =>
    ⟨fun _ => ?_, fun _ => ⟨by simp, fun _ => wp_preempt ?_⟩⟩⟩
  · refine wp_mono (runtimeStop_atomic (i := i) .declined (w.passed [] (w.pos + 1) w.locks)) ?_
    rintro _ w' ⟨stopping, found, left, atomic⟩
    have mine : Atomic i found w .declined w' := atomic.earlier (by rw [passed_self]) rfl
    exact ⟨fun _ => ⟨⟨found, left, mine⟩, fun _ => .inl stopping⟩, by simp⟩
  · refine wp_mono (claimRound_atomic takeover limit (w.passed [] (w.pos + 1) w.locks).preempted) ?_
    rintro r w' ⟨atomic, kept⟩
    have worker : (w.passed [] (w.pos + 1) w.locks).preempted.self.runtime.worker =
        w.self.runtime.worker := by
      rw [preempted_self, passed_self]
    refine ⟨⟨_, leftByOthers_preempted (x := w.passed [] (w.pos + 1) w.locks) rfl rfl,
      atomic.earlier worker rfl⟩, fun failed => .inr ?_⟩
    · rw [kept failed, preempted_self]
      funext j
      exact passed_round w [] _ _ j

end Calls

/-- Checking, publishing progress, submitting and claiming are transactions on the peer's record,
and a claim that fails leaves the process's rounds unless the process stops. -/
theorem atomic_operations (gen : Generation) (i limit : Nat) (takeover : Option PeerState)
    (w : World) :
    wp (probeValid gen i) (Atomic i (w.sys.shared.peers i) w) w ∧
      wp (probeWaiting gen i) (Atomic i (w.sys.shared.peers i) w) w ∧
      wp (submit gen i limit) (Atomic i (w.sys.shared.peers i) w) w ∧
      wp (claimEntry gen i takeover limit) (fun r w' =>
        (∃ found, LeftByOthers w i found ∧ Atomic i found w r.1 w') ∧
          (r.1 ≠ .ok → w'.self.runtime.stopping = true ∨ w'.self.round = w.self.round)) w ∧
      claim gen i takeover limit = claimEntry gen i takeover limit >>= claimStart gen i :=
  -- One lemma for each operation.
  ⟨probeValid_atomic w, probeWaiting_atomic w, submit_atomic limit w,
    claimEntry_atomic takeover limit w, claim_eq gen i takeover limit⟩

end Healthcheck
