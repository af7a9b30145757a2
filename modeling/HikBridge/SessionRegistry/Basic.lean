import HikBridge.Basic

/-!
This module contains `SessionRegistry`: who may play and which generation of clients is current.
Every function here is the body of one critical section of `mutex_`.
-/

namespace HikBridge

def invalidSocket : Int := -1

/--
`SessionRegistry::State`. A `shared_ptr` to it is known by `id`: the registry and a lease hold the
same state if and only if the ids agree.
-/
structure State where
  id : Nat
  sid : Bytes
  fd : Int
  generation : Bytes
  cancelled : Bool := false
  deriving DecidableEq, Repr

structure SessionRegistry where
  max : Int32
  states : List State := []
  epoch : Bytes
  generation : Bytes
  sequence : UInt64 := 0
  cleaned : Bool := false
  deriving DecidableEq, Repr

structure Counts where
  active : Int
  maximum : Int
  available : Int
  deriving DecidableEq, Repr

inductive ReserveFault where
  | stateAlloc
  | initializeThrows
  | vectorGrowth
  | leaseAlloc
  deriving DecidableEq, Repr

namespace SessionRegistry

def token (epoch : Bytes) (sequence : UInt64) : Bytes :=
  epoch ++ Bytes.lit "-" ++ Bytes.ofNat sequence.toNat

def create (max : Int32) (now : Int) : SessionRegistry :=
  let epoch := Bytes.ofInt now
  { max, epoch, generation := epoch ++ Bytes.lit "-0" }

def maxSize (r : SessionRegistry) : Nat := (r.max.toInt % 2 ^ 64).toNat

def restartRequired : BridgeError :=
  ⟨409, "MANUAL_RESTART_REQUIRED", "播放已被清理，请点击播放重新连接。"⟩

/--
Legacy clients can play before the first cleanup only. A missing token never bypasses a cleanup.
-/
def stale (r : SessionRegistry) (generation : Bytes) : Bool :=
  (generation.isEmpty && r.cleaned) || (!generation.isEmpty && generation != r.generation)

def newState (r : SessionRegistry) (id : Nat) (sid : Bytes) (fd : Int) : State :=
  { id, sid, fd, generation := r.generation }

/--
The result is the id in the new lease, `none` when the registry is full.
-/
def reserve (r : SessionRegistry) (id : Nat) (sid : Bytes) (fd : Int) (generation : Bytes)
    (fault : Option ReserveFault := none) : Except Exn (Option Nat) × SessionRegistry :=
  if r.stale generation then
    (.error (.bridge restartRequired), r)
  else if r.states.length ≥ r.maxSize then
    (.ok none, r)
  else
    let registered := { r with states := r.states ++ [r.newState id sid fd] }
    match fault with
    | none => (.ok (some id), registered)
    | some .leaseAlloc => (.error .other, registered)
    | some .stateAlloc | some .initializeThrows | some .vectorGrowth => (.error .other, r)

def nextGeneration (r : SessionRegistry) : SessionRegistry :=
  let sequence := r.sequence + 1
  { r with sequence, generation := token r.epoch sequence, cleaned := true }

/--
The loop of `clean`: the states after it and, in their order, those it marked and cancelled.
-/
def cancelAll : List State → List State × List State
  | [] => ([], [])
  | state :: rest =>
    let (states, affected) := cancelAll rest
    if state.cancelled then
      (state :: states, affected)
    else
      ({ state with cancelled := true } :: states, state :: affected)

/--
The new registry and the states that were affected; `clean` returns how many they are.
-/
def clean (r : SessionRegistry) : SessionRegistry × List State :=
  let r := r.nextGeneration
  let (states, affected) := cancelAll r.states
  ({ r with states }, affected)

def size (r : SessionRegistry) : Int := Int.bmod r.states.length (2 ^ 32)

def counts (r : SessionRegistry) : Counts :=
  { active := r.size, maximum := r.max.toInt, available := r.max.toInt - r.size }

def cleaning (r : SessionRegistry) : Nat := r.states.countP (·.cancelled)

def release (r : SessionRegistry) (id : Nat) : SessionRegistry :=
  { r with states := r.states.filter (·.id != id) }

def leaseCancelled (r : SessionRegistry) (id : Nat) : Bool :=
  r.states.any fun state => state.id == id && state.cancelled

section Lemmas

variable (r : SessionRegistry) (id : Nat) (sid : Bytes) (fd : Int) (generation : Bytes)
  (fault : Option ReserveFault)

theorem cancelAll_fst (states : List State)
    : (cancelAll states).1 = states.map fun state => { state with cancelled := true } := by
  induction states with
  | nil => rfl
  | cons state rest ih =>
    rcases state with ⟨id, sid, fd, generation, cancelled⟩
    cases cancelled <;> simp [cancelAll, ih]

theorem cancelAll_snd (states : List State)
    : (cancelAll states).2 = states.filter fun state => !state.cancelled := by
  induction states with
  | nil => rfl
  | cons state rest ih =>
    cases h : state.cancelled <;> simp [cancelAll, ih, h]

@[simp]
theorem nextGeneration_states : r.nextGeneration.states = r.states := rfl

@[simp]
theorem clean_states
    : (r.clean).1.states = r.states.map fun state => { state with cancelled := true } :=
  cancelAll_fst r.states

@[simp]
theorem clean_affected : (r.clean).2 = r.states.filter fun state => !state.cancelled :=
  cancelAll_snd r.states

@[simp]
theorem clean_max : (r.clean).1.max = r.max := rfl

@[simp]
theorem clean_epoch : (r.clean).1.epoch = r.epoch := rfl

@[simp]
theorem clean_sequence : (r.clean).1.sequence = r.sequence + 1 := rfl

@[simp]
theorem clean_generation : (r.clean).1.generation = token r.epoch (r.sequence + 1) := rfl

@[simp]
theorem clean_cleaned : (r.clean).1.cleaned = true := rfl

/--
What `reserve` can do: it either leaves the registry as it is and returns no lease, or registers the
new state, whose lease is lost if its allocation fails.
-/
theorem reserve_cases
    : ((r.reserve id sid fd generation fault).2 = r
        ∧ ∀ lease, (r.reserve id sid fd generation fault).1 ≠ .ok (some lease))
      ∨ (r.stale generation = false ∧ r.states.length < r.maxSize
        ∧ (r.reserve id sid fd generation fault).2
            = { r with states := r.states ++ [r.newState id sid fd] }
        ∧ ((fault = none ∧ (r.reserve id sid fd generation fault).1 = .ok (some id))
          ∨ (fault = some .leaseAlloc
            ∧ (r.reserve id sid fd generation fault).1 = .error .other))) := by
  unfold reserve
  split
  . simp
  . next hstale =>
    split
    . simp
    . next hfull =>
      cases fault with
      | none => simp_all
      | some fault => cases fault <;> simp_all

theorem reserve_isLease_iff
    : (∃ lease, (r.reserve id sid fd generation).1 = .ok (some lease))
        ↔
      r.stale generation = false ∧ r.states.length < r.maxSize := by
  unfold reserve
  split
  . simp_all
  . split
    . simp_all
    . simp_all

end Lemmas

end SessionRegistry
end HikBridge
