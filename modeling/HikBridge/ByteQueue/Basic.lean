import HikBridge.Basic
import HikBridge.Lib.BoundedFifo

/-!
This module contains `ByteQueue`, the queue between the SDK callback and the FFmpeg input pump. A
call of `push` or `pop` is cut where it releases the mutex, so each function here is one critical
section.
-/

namespace HikBridge

-- The buffers in a queue exist at the same time, so that their sizes add up without wrapping.
structure ByteQueue where
  limit : Nat
  items : List Bytes := []
  bytes : Nat := 0
  peakBytes : Nat := 0
  backpressureEvents : Nat := 0
  closed : Bool := false
  deriving DecidableEq

namespace ByteQueue

open BoundedFifo

variable (q : ByteQueue) (data : Bytes)

def fits : Bool := decide (q.bytes + data.length ≤ q.limit)

def enqueue : ByteQueue :=
  { q with
    bytes := q.bytes + data.length
    peakBytes := max q.peakBytes (q.bytes + data.length)
    items := q.items ++ [data] }

-- From the call to its return or to `wait_until`, which is reached unless the deadline has passed.
def push (expired : Bool) : Push Bytes × ByteQueue :=
  if q.closed || data.isEmpty || decide (data.length > q.limit) then
    (.refused, q)
  else if q.fits data then
    (.accepted data, q.enqueue data)
  else
    let q := { q with backpressureEvents := q.backpressureEvents + 1 }
    if expired then (.refused, q) else (.waiting, q)

-- `wait_until` checks its predicate before it reports a timeout and waits on while it does not hold.
def pushWake (timedOut : Bool) : Push Bytes × ByteQueue :=
  if q.closed then
    (.refused, q)
  else if q.fits data then
    (.accepted data, q.enqueue data)
  else if timedOut then
    (.refused, q)
  else
    (.waiting, q)

def popFront : Pop Bytes × ByteQueue :=
  match q.items with
  | [] => (.nothing, q)
  | data :: items => (.taken data, { q with bytes := q.bytes - data.length, items })

-- The predicate of `wait_for` is checked when `pop` enters and whenever it wakes up.
def popWake (timedOut : Bool) : Pop Bytes × ByteQueue :=
  if q.closed || !q.items.isEmpty then
    q.popFront
  else if timedOut then
    (.nothing, q)
  else
    (.waiting, q)

def pop : Pop Bytes × ByteQueue := q.popWake false

def close : ByteQueue := { q with closed := true }

-- The member function `closed()`.
def isClosed : Bool := q.closed && q.items.isEmpty

theorem eq_of_push_accepted {expired : Bool} {item : Bytes} {q' : ByteQueue}
    (h : q.push data expired = (.accepted item, q')) : item = data := by
  unfold push at h
  split at h
  . cases h
  . split at h
    . cases h
      rfl
    . cases expired <;> cases h

theorem eq_of_pushWake_accepted {timedOut : Bool} {item : Bytes} {q' : ByteQueue}
    (h : q.pushWake data timedOut = (.accepted item, q')) : item = data := by
  unfold pushWake at h
  split at h
  . cases h
  . split at h
    . cases h
      rfl
    . cases timedOut <;> cases h

@[simp]
theorem push_closed (expired : Bool) : (q.push data expired).2.closed = q.closed := by
  unfold push
  split
  . rfl
  . split
    . rfl
    . cases expired <;> rfl

@[simp]
theorem pushWake_closed (timedOut : Bool) : (q.pushWake data timedOut).2.closed = q.closed := by
  unfold pushWake
  split
  . rfl
  . split
    . rfl
    . cases timedOut <;> rfl

@[simp]
theorem popWake_closed (timedOut : Bool) : (q.popWake timedOut).2.closed = q.closed := by
  unfold popWake popFront
  split
  . split <;> rfl
  . cases timedOut <;> rfl

section IsClosed

variable {q : ByteQueue}

theorem isClosed_push (h : q.isClosed = true) (data : Bytes) (expired : Bool)
    : (q.push data expired).2.isClosed = true := by
  have hclosed : q.closed = true := (Bool.and_eq_true_iff.mp h).1
  simp [push, hclosed, h]

theorem isClosed_pushWake (h : q.isClosed = true) (data : Bytes) (timedOut : Bool)
    : (q.pushWake data timedOut).2.isClosed = true := by
  have hclosed : q.closed = true := (Bool.and_eq_true_iff.mp h).1
  simp [pushWake, hclosed, h]

theorem isClosed_close (h : q.isClosed = true) : q.close.isClosed = true := by
  obtain ⟨-, hitems⟩ := Bool.and_eq_true_iff.mp h
  simp [isClosed, close, List.isEmpty_iff.mp hitems]

end IsClosed

def impl : Impl ByteQueue Bytes Bytes where
  push q data expired := q.push data expired
  pushWake q data timedOut _ := q.pushWake data timedOut
  pop q _ := q.pop
  popWake q timedOut _ := q.popWake timedOut
  close q := q.close

def view : View ByteQueue Bytes where
  items := items
  bytes q := q.bytes
  peak q := q.peakBytes
  closed := closed
  drained := isClosed

structure Represents (limit : Nat) (s : ByteQueue) (q : BoundedFifo (@List.length UInt8) limit)
    : Prop where
  limit_eq : s.limit = limit
  items_eq : s.items = q.queued
  bytes_eq : s.bytes = q.load
  peak_eq : s.peakBytes = q.peak
  closed_eq : s.closed = q.closed

variable {limit : Nat} {s : ByteQueue} {q : BoundedFifo (@List.length UInt8) limit}
  {data : Bytes}

theorem Represents.enqueue (h : Represents limit s q) (hopen : s.closed = false)
    (hfit : s.fits data = true) : Impl.PushMeets (Represents limit) q (.accepted data, s.enqueue data) := by
  have hload : q.load + data.length ≤ limit := by
    rw [← h.bytes_eq, ← h.limit_eq]
    simpa [fits] using hfit
  refine ⟨h.closed_eq ▸ hopen, hload, h.limit_eq, ?_, ?_, ?_, h.closed_eq⟩
  . simp [ByteQueue.enqueue, BoundedFifo.accept, h.items_eq]
  . simp [ByteQueue.enqueue, BoundedFifo.accept, BoundedFifo.load, h.bytes_eq]
  . simp [ByteQueue.enqueue, BoundedFifo.accept, h.bytes_eq, h.peak_eq]

theorem Represents.push (h : Represents limit s q) (data : Bytes) (expired : Bool)
    : Impl.PushMeets (Represents limit) q (s.push data expired) := by
  unfold ByteQueue.push
  split
  . exact h
  . next hpass =>
    split
    . next hfit =>
      apply h.enqueue _ hfit
      simp only [Bool.or_eq_true, not_or] at hpass
      simpa using hpass.1.1
    . cases expired
      . exact ⟨h.limit_eq, h.items_eq, h.bytes_eq, h.peak_eq, h.closed_eq⟩
      . exact ⟨h.limit_eq, h.items_eq, h.bytes_eq, h.peak_eq, h.closed_eq⟩

theorem Represents.pushWake (h : Represents limit s q) (data : Bytes) (timedOut : Bool)
    : Impl.PushMeets (Represents limit) q (s.pushWake data timedOut) := by
  unfold ByteQueue.pushWake
  split
  . exact h
  . next hopen =>
    split
    . next hfit => exact h.enqueue (by simpa using hopen) hfit
    . cases timedOut
      . exact h
      . exact h

theorem Represents.popFront (h : Represents limit s q)
    : Impl.PopMeets (Represents limit) q s.popFront := by
  unfold ByteQueue.popFront
  split
  . exact h
  . next data items hitems =>
    have hqueued : q.queued = data :: items := by rw [← h.items_eq, hitems]
    refine ⟨items, hqueued, h.limit_eq, rfl, ?_, h.peak_eq, h.closed_eq⟩
    have hload : s.bytes = data.length + (items.map List.length).sum := by
      rw [h.bytes_eq, BoundedFifo.load, hqueued]
      rfl
    simp [BoundedFifo.take, BoundedFifo.load, hload]

theorem Represents.popWake (h : Represents limit s q) (timedOut : Bool)
    : Impl.PopMeets (Represents limit) q (s.popWake timedOut) := by
  unfold ByteQueue.popWake
  split
  . exact h.popFront
  . cases timedOut
    . exact h
    . exact h

theorem refines (limit : Nat) : impl.Refines (Represents limit) where
  push _ _ data expired h := h.push data expired
  pushWake _ _ data timedOut _ h := h.pushWake data timedOut
  pop _ _ _ h := h.popWake false
  popWake _ _ timedOut _ h := h.popWake timedOut
  close _ _ h := ⟨h.limit_eq, h.items_eq, h.bytes_eq, h.peak_eq, rfl⟩
  pop_of_ne_nil s q _ h hne := by
    rw [← h.items_eq] at hne
    obtain ⟨data, items, hitems⟩ := List.exists_cons_of_ne_nil hne
    exact ⟨data, by simp [impl, pop, ByteQueue.popWake, ByteQueue.popFront, hitems]⟩

theorem Represents.shows (h : Represents limit s q) : view.Shows s q where
  items_eq := h.items_eq
  bytes_eq := by simp [view, h.bytes_eq]
  peak_eq := by simp [view, h.peak_eq]
  closed_eq := h.closed_eq
  drained_eq := by simp [view, isClosed, h.closed_eq, h.items_eq]

theorem represents_empty (limit : Nat) : Represents limit { limit } .empty :=
  ⟨rfl, rfl, rfl, rfl, rfl⟩

end ByteQueue
end HikBridge
