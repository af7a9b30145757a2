import HikBridge.Basic
import HikBridge.Lib.Machine

/-!
This module contains the session registry of the C# bridge: a semaphore for the slots and a dictionary
for the session ids, each of which is atomic on its own.
-/

namespace HikBridge
namespace Sessions

/--
`SemaphoreSlim`. `Wait(0)` takes a slot if there is one, `Release` throws once all are back.
-/
structure SemaphoreSlim where
  maximum : Nat
  currentCount : Nat
  deriving DecidableEq, Repr

namespace SemaphoreSlim

def wait (slots : SemaphoreSlim) : Option SemaphoreSlim :=
  if slots.currentCount = 0 then none
  else some { slots with currentCount := slots.currentCount - 1 }

def release (slots : SemaphoreSlim) : Option SemaphoreSlim :=
  if slots.currentCount = slots.maximum then none
  else some { slots with currentCount := slots.currentCount + 1 }

end SemaphoreSlim

def isSafe (c : UInt8) : Bool :=
  (97 ≤ c && c ≤ 122) || (65 ≤ c && c ≤ 90) || (48 ≤ c && c ≤ 57) || c == 45 || c == 95

structure SessionId where
  chars : Bytes
  safe : ∀ c ∈ chars, isSafe c
  deriving DecidableEq

/--
What `StringComparer.OrdinalIgnoreCase` compares of a character. Keys are ASCII.
-/
def toUpper (c : UInt8) : UInt8 := if 97 ≤ c && c ≤ 122 then c - 32 else c

def ignoreCase (key : Bytes) : Bytes := key.map toUpper

-- Where a `Reserve` call and then the `Reservation` that it returned stand.
inductive ReservePc where
  | entered
  | holding
  | refused
  | reserved
  | disposing
  | removed
  | kept
  | released
  | limited
  | duplicate
  | faulted
  deriving DecidableEq, Repr

namespace ReservePc

def live : ReservePc → Bool
  | .reserved | .disposing => true
  | _ => false

/--
The call holds a slot, but its key is not in the dictionary: `Reserve` has not come to `TryAdd` or has
to give the slot back, or `Dispose` has not come to `Release`.
-/
def inProgress : ReservePc → Bool
  | .holding | .refused | .removed => true
  | _ => false

def holdsSlot (pc : ReservePc) : Bool := pc.live || pc.inProgress

def disposed : ReservePc → Bool
  | .disposing | .removed | .kept | .released => true
  | _ => false

def gaveBack : ReservePc → Bool
  | .released | .duplicate => true
  | _ => false

end ReservePc

structure ReserveCall where
  sid : SessionId
  allowDuplicate : Bool
  key : Bytes := []
  pc : ReservePc := .entered
  deriving DecidableEq

namespace ReserveCall

variable (c : ReserveCall)

def live : Bool := c.pc.live

def inProgress : Bool := c.pc.inProgress

def holdsSlot : Bool := c.pc.holdsSlot

def keyFor (guid : Bytes) : Bytes :=
  if c.allowDuplicate then c.sid.chars ++ Bytes.lit "#retry-" ++ guid else c.sid.chars

end ReserveCall

/--
`ids` and `guids` hold what the comparer makes of the keys in the dictionary and of the GUIDs so far.
-/
structure SessionRegistry where
  slots : SemaphoreSlim
  ids : List Bytes := []
  guids : List Bytes := []
  calls : List ReserveCall := []
  deriving DecidableEq

/--
The steps of the call `i`. Any thread may call `Dispose` at any time and several times.
-/
inductive ReserveEvent where
  | reserve (sid : SessionId) (allowDuplicate : Bool)
  | wait (i : Nat)
  | tryAdd (i : Nat) (guid : Bytes)
  | dispose (i : Nat)
  | tryRemove (i : Nat)
  | release (i : Nat)
  deriving DecidableEq

namespace SessionRegistry

variable (s : SessionRegistry)

def create (maximum : Nat) : SessionRegistry := { slots := ⟨maximum, maximum⟩ }

def callAt (i : Nat) (pc : ReservePc) : Option ReserveCall := s.calls[i]?.filter fun c => c.pc = pc

def setCall (i : Nat) (c : ReserveCall) : SessionRegistry := { s with calls := s.calls.set i c }

def stepWait (i : Nat) (c : ReserveCall) : SessionRegistry :=
  match s.slots.wait with
  | some slots => { s.setCall i { c with pc := .holding } with slots }
  | none => s.setCall i { c with pc := .limited }

def stepTryAdd (i : Nat) (guid : Bytes) (c : ReserveCall) : SessionRegistry :=
  let key := c.keyFor guid
  let guids := if c.allowDuplicate then ignoreCase guid :: s.guids else s.guids
  if ignoreCase key ∈ s.ids then { s.setCall i { c with pc := .refused } with guids }
  else { s.setCall i { c with key, pc := .reserved } with ids := ignoreCase key :: s.ids, guids }

def stepTryRemove (i : Nat) (c : ReserveCall) : SessionRegistry :=
  if ignoreCase c.key ∈ s.ids then
    { s.setCall i { c with pc := .removed } with ids := s.ids.erase (ignoreCase c.key) }
  else
    s.setCall i { c with pc := .kept }

def stepRelease (i : Nat) (c : ReserveCall) (pc : ReservePc) : SessionRegistry :=
  match s.slots.release with
  | some slots => { s.setCall i { c with pc } with slots }
  | none => s.setCall i { c with pc := .faulted }

def step (s : SessionRegistry) : ReserveEvent → Option SessionRegistry
  | .reserve sid allowDuplicate => some { s with calls := s.calls ++ [{ sid, allowDuplicate }] }
  | .wait i => (s.callAt i .entered).map (s.stepWait i)
  | .tryAdd i guid =>
    match s.callAt i .holding with
    | none => none
    -- `Guid.NewGuid` never answers twice with the same text.
    | some c => if c.allowDuplicate && ignoreCase guid ∈ s.guids then none else some (s.stepTryAdd i guid c)
  | .dispose i =>
    match s.calls[i]? with
    | none => none
    | some c =>
      if c.pc = .reserved then some (s.setCall i { c with pc := .disposing })
      else if c.pc.disposed then some s
      else none
  | .tryRemove i => (s.callAt i .disposing).map (s.stepTryRemove i)
  | .release i =>
    match s.calls[i]? with
    | none => none
    | some c =>
      if c.pc = .refused then some (s.stepRelease i c .duplicate)
      else if c.pc = .removed then some (s.stepRelease i c .released)
      else none

end SessionRegistry
end Sessions
end HikBridge
