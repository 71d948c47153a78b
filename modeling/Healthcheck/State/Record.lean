import Mathlib.Data.Nat.Bitwise
import Healthcheck.Library.Saturating
import Healthcheck.Library.DoubleSlot

/-! The shared records of one configuration generation, their time arithmetic and their publication. -/

namespace Healthcheck

/-- The width of `ngx_uint_t`, `ngx_msec_t` and `size_t` on the platform. -/
inductive Word where
  | bits32
  | bits64
  deriving DecidableEq, Repr

/-- The number of values a machine word has. -/
def Word.size : Word → Nat
  | .bits32 => 2 ^ 32
  | .bits64 => 2 ^ 64

/-- The largest machine word, `(ngx_uint_t) -1`. -/
def Word.max (word : Word) : Nat :=
  word.size - 1

/-- The largest `uint64_t`. -/
def uint64Max : Nat :=
  2 ^ 64 - 1

/-- Deadlines saturate in the future, so that an overflow never looks expired. -/
def addTime (a b : Nat) : Nat :=
  Saturating.add uint64Max a b

/-- The product used for wide time constants. -/
def mulTime (a b : Nat) : Nat :=
  Saturating.mul uint64Max a b

/-- `NGX_HEALTHCHECK_LOCK_NS`: how long a lock attempt may take, in nanoseconds. -/
def lockNs : Nat := 1000000

/-- `NGX_HEALTHCHECK_BATCH`: how many records one pass visits. -/
def batch : Nat := 256

/-- `NGX_INVALID_PID`. -/
def invalidPid : Int := -1

/-- Nanoseconds of the monotonic clock as whole milliseconds. -/
def milliseconds (now : Nat) : Nat :=
  now / 1000000

/-- The stage of a peer's current round. -/
inductive Phase where
  | initial
  | waiting
  | preparing
  | inflight
  deriving DecidableEq, Repr

/-- A complete health sample, inherited on reload and shown by the status pages. -/
structure Health where
  accessTime : Nat := 0
  riseCount : Nat := 0
  fallCount : Nat := 0
  down : Nat := 0
  lastCheckDelay : Nat := 0
  avgCheckDelay : Nat := 0
  minCheckDelay : Nat := 0
  maxCheckDelay : Nat := 0
  delayTotal : Nat := 0
  delaySampleCount : Nat := 0
  deriving DecidableEq, Repr

/-- Health, ownership and progress of one peer, published together. -/
structure PeerState where
  health : Health := {}
  /-- When the latest round started, in monotonic milliseconds. -/
  started : Nat := 0
  owner : Int := 0
  worker : Nat := 0
  /-- The source's `instance`, a reserved word here. -/
  inst : Nat := 0
  term : Nat := 0
  round : Nat := 0
  deadline : Nat := 0
  phase : Phase := .initial
  deriving DecidableEq, Repr

/-- The registration of the process that currently holds a worker number. -/
structure WorkerState where
  pid : Int := 0
  inst : Nat := 0
  heartbeat : Nat := 0
  exiting : Bool := false
  deriving DecidableEq, Repr

/-- The mutable part of `ngx_upstream_check_peer_shm_t`, its lock apart. -/
abbrev PeerShm := DoubleSlot PeerState

/-- The mutable part of `ngx_healthcheck_worker_shm_t`, its lock apart. -/
abbrev WorkerShm := DoubleSlot WorkerState

/-- Zeroed shared memory, as the slab allocator hands it out. -/
def PeerShm.zero : PeerShm :=
  { published := 0, slots := fun _ => {} }

/-- A worker's record that was never published. -/
def WorkerShm.zero : WorkerShm :=
  { published := 0, slots := fun _ => {} }

/-- The second bit of the published word tells the balancers that the peer is down. -/
def downTag (state : PeerState) : Nat :=
  if state.health.down ≠ 0 then 2 else 0

/-- `ngx_healthcheck_publish`. -/
def publish (peer : PeerShm) (state : PeerState) : PeerShm :=
  peer.publish (downTag state) state

/-- `ngx_healthcheck_publish_worker`. -/
def publishWorker (worker : WorkerShm) (state : WorkerState) : WorkerShm :=
  worker.publish 0 state

/-- The routing bit as the balancers read it, without a lock. -/
def PeerShm.downBit (peer : PeerShm) : Bool :=
  peer.published &&& 2 != 0

/-- The bound is positive. -/
theorem uint64Max_pos : 0 < uint64Max := by decide

/-- A product is in range. -/
theorem mulTime_le (a b : Nat) : mulTime a b ≤ uint64Max :=
  Saturating.mul_le

/-- A sum is in range. -/
theorem addTime_le {a b : Nat} (small : b ≤ uint64Max) : addTime a b ≤ uint64Max :=
  Saturating.add_le small

/-- A sum grows with its parts. -/
theorem addTime_mono {a a' b b' : Nat} (left : a ≤ a') (right : b ≤ b')
    (small : b' ≤ uint64Max) : addTime a b ≤ addTime a' b' :=
  Saturating.add_mono left right small

/-- The tag leaves the lowest bit to the slot's number. -/
theorem downTag_even (state : PeerState) : downTag state % 2 = 0 := by
  -- It is two or zero.
  unfold downTag
  split <;> rfl

/-- What was published is current. -/
@[simp] theorem current_publish (peer : PeerShm) (state : PeerState) :
    (publish peer state).current = state :=
  DoubleSlot.current_publish (downTag_even state) peer state

/-- What a worker published is current. -/
@[simp] theorem current_publishWorker (worker : WorkerShm) (state : WorkerState) :
    (publishWorker worker state).current = state :=
  DoubleSlot.current_publish rfl worker state

/-- Testing the second bit of a word reads its quotient by two. -/
theorem and_two_ne_zero (word : Nat) : (word &&& 2 != 0) = decide (word / 2 % 2 = 1) := by
  -- Bit one of a word is the lowest bit of its half.
  have bit : word.testBit 1 = decide (word / 2 % 2 = 1) := Nat.testBit_eq_decide_div_mod_eq
  have masked : word &&& 2 = (word.testBit 1).toNat * 2 := Nat.and_two_pow word 1
  rw [masked, bit]
  by_cases odd : word / 2 % 2 = 1 <;> simp [odd]

/-- A publication sets the routing bit exactly when it publishes a peer that is down. -/
theorem downBit_publish (peer : PeerShm) (state : PeerState) :
    (publish peer state).downBit = decide (state.health.down ≠ 0) := by
  -- The bit is the tag of the published state.
  unfold PeerShm.downBit
  rw [and_two_ne_zero, publish, DoubleSlot.published_div_two]
  unfold downTag
  by_cases up : state.health.down = 0 <;> simp [up]

end Healthcheck
