import HikBridge.Lib.Machine
import HikBridge.SessionRegistry.Basic

/-!
This module contains the runs of a `SessionRegistry`: calls of `reserve` and `clean` and destructions
of leases, in any order and from any number of clients. Each call is atomic under `mutex_`.
-/

namespace HikBridge

structure Lease where
  id : Nat
  born : Nat
  deriving DecidableEq, Repr

/--
A registry and its clients. `affected` keeps, for every clean so far, the leases that it counted.
-/
structure Admission where
  registry : SessionRegistry
  leases : List Lease := []
  fresh : Nat := 0
  affected : List (List Nat) := []
  deriving DecidableEq, Repr

inductive RegistryCall where
  | reserve (sid : Bytes) (fd : Int) (generation : Bytes) (initializeThrows : Bool)
  | clean
  | release (id : Nat)
  deriving DecidableEq, Repr

namespace Admission

def create (max : Int32) (now : Int) : Admission :=
  { registry := SessionRegistry.create max now }

def cleans (w : Admission) : Nat := w.affected.length

def initializeFault (initializeThrows : Bool) : Option ReserveFault :=
  if initializeThrows then some .initializeThrows else none

def step (w : Admission) (call : RegistryCall) : Option Admission :=
  match call with
  | .reserve sid fd generation initializeThrows =>
    let fault := initializeFault initializeThrows
    match w.registry.reserve w.fresh sid fd generation fault with
    | (.ok (some id), registry) =>
      some { w with
        registry, leases := w.leases ++ [⟨id, w.cleans⟩], fresh := w.fresh + 1 }
    | (_, registry) => some { w with registry, fresh := w.fresh + 1 }
  | .clean =>
    let (registry, affected) := w.registry.clean
    some { w with registry, affected := w.affected ++ [affected.map State.id] }
  | .release id =>
    if id ∈ w.leases.map Lease.id then
      some { w with
        registry := w.registry.release id
        leases := w.leases.filter fun lease => lease.id != id }
    else
      none

/--
What a call can do to the registry and its leases.
-/
theorem step_cases {w w' : Admission} {call : RegistryCall} (h : step w call = some w')
    : (w' = { w with fresh := w.fresh + 1 } ∧ call ≠ .clean)
      ∨ (∃ sid fd generation initializeThrows,
        call = .reserve sid fd generation initializeThrows
          ∧ w.registry.states.length < w.registry.maxSize
          ∧ w' = { w with
              registry := { w.registry with
                states := w.registry.states ++ [w.registry.newState w.fresh sid fd] }
              leases := w.leases ++ [⟨w.fresh, w.cleans⟩]
              fresh := w.fresh + 1 })
      ∨ (call = .clean
        ∧ w' = { w with
            registry := w.registry.clean.1
            affected := w.affected ++ [w.registry.clean.2.map State.id] })
      ∨ (∃ id, call = .release id
        ∧ w' = { w with
            registry := w.registry.release id
            leases := w.leases.filter fun lease => lease.id != id }) := by
  cases call with
  | reserve sid fd generation initializeThrows =>
    simp only [step] at h
    rcases w.registry.reserve_cases w.fresh sid fd generation (initializeFault initializeThrows)
      with ⟨hkeep, hlease⟩ | ⟨-, hroom, hreg, hres⟩
    . left
      split at h
      . next heq =>
        rw [heq] at hlease
        exact absurd rfl (hlease _)
      . next heq =>
        rw [heq] at hkeep
        cases h
        dsimp at hkeep
        rw [hkeep]
        simp
    . right
      left
      refine ⟨sid, fd, generation, initializeThrows, rfl, hroom, ?_⟩
      rcases hres with ⟨-, hres⟩ | ⟨hfault, -⟩
      . split at h
        . next heq =>
          rw [heq] at hreg hres
          dsimp at hreg hres
          cases h
          cases hres
          rw [hreg]
        . next hne heq =>
          rw [heq] at hres
          exact (hne w.fresh hres).elim
      . cases initializeThrows <;> simp [initializeFault] at hfault
  | clean =>
    simp only [step] at h
    cases h
    simp
  | release id =>
    simp only [step] at h
    split at h
    . cases h
      simp
    . contradiction

end Admission
end HikBridge
