import HikBridge.ByteQueue.Basic

/-!
This module contains `ByteBoundedQueue`, the queue of the C# bridge, and shows that both queues meet
the specification of a bounded FIFO queue.
-/

namespace HikBridge

structure ByteBoundedQueue where
  capacity : Int
  items : List Bytes := []
  bytes : Int := 0
  completed : Bool := false
  peakBytes : Int := 0
  backpressureEvents : Int := 0
  deriving DecidableEq

namespace ByteBoundedQueue

open BoundedFifo

variable (q : ByteBoundedQueue) (data : Bytes)

def enqueue : ByteBoundedQueue :=
  let bytes := q.bytes + data.length
  { q with
    items := q.items ++ [data]
    bytes
    peakBytes := if bytes > q.peakBytes then bytes else q.peakBytes }

-- One round of the waiting loop and what follows it, `expired` when no time remains.
def enqueueLoop (expired : Bool) : Push Bytes × ByteBoundedQueue :=
  if !q.completed && decide (q.bytes + data.length > q.capacity) then
    let q := { q with backpressureEvents := q.backpressureEvents + 1 }
    if expired then (.refused, q) else (.waiting, q)
  else if q.completed then
    (.refused, q)
  else
    (.accepted data, q.enqueue data)

def tryEnqueue (data : Option Bytes) (expired : Bool) : Push Bytes × ByteBoundedQueue :=
  match data with
  | none => (.refused, q)
  | some data =>
    if q.completed || decide (data.length = 0) || decide ((data.length : Int) > q.capacity) then
      (.refused, q)
    else
      q.enqueueLoop data expired

-- `Monitor.Wait` returns false after its time, whatever the queue looks like by then.
def tryEnqueueWake (data : Option Bytes) (timedOut expired : Bool)
    : Push Bytes × ByteBoundedQueue :=
  match data with
  | none => (.refused, q)
  | some data => if timedOut then (.refused, q) else q.enqueueLoop data expired

def dequeue (expired : Bool) : Pop Bytes × ByteBoundedQueue :=
  match q.items with
  | [] =>
    if q.completed || expired then (.nothing, q) else (.waiting, q)
  | item :: items => (.taken item, { q with items, bytes := q.bytes - item.length })

def dequeueWake (timedOut expired : Bool) : Pop Bytes × ByteBoundedQueue :=
  if timedOut then (.nothing, q) else q.dequeue expired

def complete : ByteBoundedQueue := { q with completed := true }

def isCompleted : Bool := q.completed && decide (q.items.length = 0)

@[simp]
theorem enqueueLoop_completed (expired : Bool)
    : (q.enqueueLoop data expired).2.completed = q.completed := by
  unfold enqueueLoop
  split
  . cases expired <;> rfl
  . split <;> rfl

@[simp]
theorem tryEnqueue_completed (data : Option Bytes) (expired : Bool)
    : (q.tryEnqueue data expired).2.completed = q.completed := by
  unfold tryEnqueue
  split
  . rfl
  . split
    . rfl
    . exact q.enqueueLoop_completed _ expired

@[simp]
theorem tryEnqueueWake_completed (data : Option Bytes) (timedOut expired : Bool)
    : (q.tryEnqueueWake data timedOut expired).2.completed = q.completed := by
  unfold tryEnqueueWake
  split
  . rfl
  . split
    . rfl
    . exact q.enqueueLoop_completed _ expired

@[simp]
theorem dequeue_completed (expired : Bool) : (q.dequeue expired).2.completed = q.completed := by
  unfold dequeue
  split
  . split <;> rfl
  . rfl

def impl : Impl ByteBoundedQueue (Option Bytes) Bytes where
  push q data expired := q.tryEnqueue data expired
  pushWake q data timedOut expired := q.tryEnqueueWake data timedOut expired
  pop q expired := q.dequeue expired
  popWake q timedOut expired := q.dequeueWake timedOut expired
  close q := q.complete

def view : View ByteBoundedQueue Bytes where
  items := items
  bytes := bytes
  peak := peakBytes
  closed := completed
  drained := isCompleted

structure Represents (limit : Nat) (s : ByteBoundedQueue)
    (q : BoundedFifo (@List.length UInt8) limit) : Prop where
  capacity_eq : s.capacity = limit
  items_eq : s.items = q.queued
  bytes_eq : s.bytes = q.load
  peak_eq : s.peakBytes = q.peak
  completed_eq : s.completed = q.closed

variable {limit : Nat} {s : ByteBoundedQueue} {q : BoundedFifo (@List.length UInt8) limit}
  {data : Bytes}

theorem Represents.enqueue (h : Represents limit s q) (hopen : s.completed = false)
    (hfit : s.bytes + data.length ≤ s.capacity)
    : Impl.PushMeets (Represents limit) q (.accepted data, s.enqueue data) := by
  have hload : q.load + data.length ≤ limit := by
    rw [h.bytes_eq, h.capacity_eq] at hfit
    omega
  refine ⟨h.completed_eq ▸ hopen, hload, h.capacity_eq, ?_, ?_, ?_, h.completed_eq⟩
  . simp [ByteBoundedQueue.enqueue, BoundedFifo.accept, h.items_eq]
  . simp [ByteBoundedQueue.enqueue, BoundedFifo.accept, BoundedFifo.load, h.bytes_eq]
  . simp only [ByteBoundedQueue.enqueue, BoundedFifo.accept, h.bytes_eq, h.peak_eq]
    split
    all_goals omega

theorem Represents.enqueueLoop (h : Represents limit s q) (data : Bytes) (expired : Bool)
    : Impl.PushMeets (Represents limit) q (s.enqueueLoop data expired) := by
  unfold ByteBoundedQueue.enqueueLoop
  split
  . cases expired
    . exact ⟨h.capacity_eq, h.items_eq, h.bytes_eq, h.peak_eq, h.completed_eq⟩
    . exact ⟨h.capacity_eq, h.items_eq, h.bytes_eq, h.peak_eq, h.completed_eq⟩
  . next hwait =>
    split
    . exact h
    . next hopen =>
      apply h.enqueue
      . simpa using hopen
      . simpa [hopen] using hwait

theorem Represents.tryEnqueue (h : Represents limit s q) (data : Option Bytes) (expired : Bool)
    : Impl.PushMeets (Represents limit) q (s.tryEnqueue data expired) := by
  cases data with
  | none => exact h
  | some data =>
    simp only [ByteBoundedQueue.tryEnqueue]
    split
    . exact h
    . exact h.enqueueLoop data expired

theorem Represents.tryEnqueueWake (h : Represents limit s q) (data : Option Bytes)
    (timedOut expired : Bool)
    : Impl.PushMeets (Represents limit) q (s.tryEnqueueWake data timedOut expired) := by
  cases data with
  | none => exact h
  | some data =>
    cases timedOut
    . exact h.enqueueLoop data expired
    . exact h

theorem Represents.dequeue (h : Represents limit s q) (expired : Bool)
    : Impl.PopMeets (Represents limit) q (s.dequeue expired) := by
  unfold ByteBoundedQueue.dequeue
  split
  . split
    . exact h
    . exact h
  . next item items hitems =>
    have hqueued : q.queued = item :: items := by rw [← h.items_eq, hitems]
    refine ⟨items, hqueued, h.capacity_eq, rfl, ?_, h.peak_eq, h.completed_eq⟩
    have hload : q.load = item.length + (items.map List.length).sum := by
      rw [BoundedFifo.load, hqueued]
      rfl
    have htake : (q.take item items hqueued).load = (items.map List.length).sum := rfl
    rw [htake, h.bytes_eq, hload]
    dsimp only
    omega

theorem Represents.dequeueWake (h : Represents limit s q) (timedOut expired : Bool)
    : Impl.PopMeets (Represents limit) q (s.dequeueWake timedOut expired) := by
  cases timedOut
  . exact h.dequeue expired
  . exact h

theorem refines (limit : Nat) : impl.Refines (Represents limit) where
  push _ _ data expired h := h.tryEnqueue data expired
  pushWake _ _ data timedOut expired h := h.tryEnqueueWake data timedOut expired
  pop _ _ expired h := h.dequeue expired
  popWake _ _ timedOut expired h := h.dequeueWake timedOut expired
  close _ _ h := ⟨h.capacity_eq, h.items_eq, h.bytes_eq, h.peak_eq, rfl⟩
  pop_of_ne_nil s q _ h hne := by
    rw [← h.items_eq] at hne
    obtain ⟨item, items, hitems⟩ := List.exists_cons_of_ne_nil hne
    exact ⟨item, by simp [impl, ByteBoundedQueue.dequeue, hitems]⟩

theorem Represents.shows (h : Represents limit s q) : view.Shows s q where
  items_eq := h.items_eq
  bytes_eq := h.bytes_eq
  peak_eq := h.peak_eq
  closed_eq := h.completed_eq
  drained_eq := by
    simp only [view, isCompleted, h.completed_eq, h.items_eq]
    cases q.queued with
    | nil => rfl
    | cons item rest => simp

end ByteBoundedQueue

open BoundedFifo in
/--
Both queues are bounded FIFO queues in every state that any interleaving of producers, consumers
and closes reaches.
-/
theorem ByteQueue.bounded_fifo {limit : Nat} {capacity : Int} (hcapacity : 0 ≤ capacity)
    : (∀ calls w, Machine.run ByteQueue.impl.step { queue := { limit } } calls = some w
        → Spec ByteQueue.impl ByteQueue.view List.length limit w)
      ∧ ∀ calls w, Machine.run ByteBoundedQueue.impl.step { queue := { capacity } } calls = some w
        → Spec ByteBoundedQueue.impl ByteBoundedQueue.view List.length capacity w := by
  constructor
  . intro calls w hrun
    apply spec_of_run (ByteQueue.refines limit) _ (ByteQueue.represents_empty limit) hrun
    intro s q h
    exact h.shows
  . intro calls w hrun
    obtain ⟨limit, rfl⟩ := Int.eq_ofNat_of_zero_le hcapacity
    apply spec_of_run (ByteBoundedQueue.refines limit) _ ⟨rfl, rfl, rfl, rfl, rfl⟩ hrun
    intro s q h
    exact h.shows

open BoundedFifo in
/--
A producer that finds a queue of four bytes full waits until a consumer has made room.
-/
theorem ByteQueue.bounded_fifo_four
    : ∃ v w, Machine.run ByteQueue.impl.step { queue := { limit := 4 } }
          [.push 0 [1, 2, 3] false, .push 1 [4, 5] false, .pop 0 false, .pushWake 1 false false,
            .close] = some v
        ∧ Spec ByteQueue.impl ByteQueue.view List.length 4 v
        ∧ Machine.run ByteBoundedQueue.impl.step { queue := { capacity := 4 } }
          [.push 0 (some [1, 2, 3]) false, .push 1 (some [4, 5]) false, .pop 0 false,
            .pushWake 1 false false, .close] = some w
        ∧ Spec ByteBoundedQueue.impl ByteBoundedQueue.view List.length 4 w := by
  have hmain := @ByteQueue.bounded_fifo 4 4 (by decide)
  refine ⟨_, _, rfl, ?_, rfl, ?_⟩
  . exact hmain.1 [.push 0 [1, 2, 3] false, .push 1 [4, 5] false, .pop 0 false,
      .pushWake 1 false false, .close] _ rfl
  . exact hmain.2 [.push 0 (some [1, 2, 3]) false, .push 1 (some [4, 5]) false, .pop 0 false,
      .pushWake 1 false false, .close] _ rfl

end HikBridge
