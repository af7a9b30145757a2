import HikBridge.SessionRegistry.Basic

/-!
This module contains `SessionRegistry::reserve` statement by statement, with an exception possible
wherever the source allocates or calls back.
-/

namespace HikBridge

inductive ReservePoint where
  | makeState
  | copySid
  | copyGeneration
  | callInitialize
  | growStates
  | makeLease
  deriving DecidableEq, Repr

namespace SessionRegistry

abbrev ReserveM := ExceptT Exn (StateM SessionRegistry)

section Statements

variable (fails : ReservePoint → Option Exn)

def attempt (point : ReservePoint) : ReserveM Unit :=
  match fails point with
  | none => pure ()
  | some exn => throw exn

def pushBack (id : Nat) (sid : Bytes) (fd : Int) : ReserveM Unit :=
  modify fun r => { r with states := r.states ++ [r.newState id sid fd] }

/--
`growStates` throws before `push_back` has changed the vector. The `Lease` is made last, so what it
throws leaves a state that no lease will release.
-/
def reserveStatements (id : Nat) (sid : Bytes) (fd : Int) (generation : Bytes)
    : ReserveM (Option Nat) := do
  let r ← get
  if r.stale generation then
    throw (.bridge restartRequired)
  else if r.states.length ≥ r.maxSize then
    return none
  else
    attempt fails .makeState
    attempt fails .copySid
    attempt fails .copyGeneration
    attempt fails .callInitialize
    attempt fails .growStates
    pushBack id sid fd
    attempt fails .makeLease
    return some id

def reserveCall (r : SessionRegistry) (id : Nat) (sid : Bytes) (fd : Int) (generation : Bytes)
    : Except Exn (Option Nat) × SessionRegistry :=
  (reserveStatements fails id sid fd generation).run.run r

def firstFault : Option ReserveFault :=
  if fails .makeState ≠ none ∨ fails .copySid ≠ none ∨ fails .copyGeneration ≠ none then
    some .stateAlloc
  else if fails .callInitialize ≠ none then
    some .initializeThrows
  else if fails .growStates ≠ none then
    some .vectorGrowth
  else if fails .makeLease ≠ none then
    some .leaseAlloc
  else
    none

/--
The request is let in, every statement up to the registration succeeds and the `Lease` cannot be
made.
-/
def FailsAtLease (r : SessionRegistry) (generation : Bytes) : Prop :=
  r.stale generation = false ∧ r.states.length < r.maxSize
    ∧ (∀ point, point ≠ .makeLease → fails point = none) ∧ fails .makeLease ≠ none

end Statements

section Lemmas

variable {fails : ReservePoint → Option Exn} {point : ReservePoint} {exn : Exn}
variable {α : Type} {next : ReserveM α} {r : SessionRegistry}
variable {id : Nat} {sid : Bytes} {fd : Int} {generation : Bytes}

theorem get_run {next : SessionRegistry → ReserveM α}
    : (do let r ← get; next r).run.run r = (next r).run.run r :=
  rfl

theorem throw_run : (throw exn : ReserveM α).run.run r = (.error exn, r) :=
  rfl

theorem attempt_run_none (h : fails point = none)
    : (do attempt fails point; next).run.run r = next.run.run r := by
  simp [attempt, h]

theorem attempt_run_some (h : fails point = some exn)
    : (do attempt fails point; next).run.run r = (.error exn, r) := by
  simp only [attempt, h]
  rfl

theorem pushBack_run
    : (do pushBack id sid fd; next).run.run r
        =
      next.run.run { r with states := r.states ++ [r.newState id sid fd] } :=
  rfl

theorem firstFault_eq_leaseAlloc_iff
    : firstFault fails = some .leaseAlloc
        ↔
      (∀ point, point ≠ .makeLease → fails point = none) ∧ fails .makeLease ≠ none := by
  constructor
  . intro h
    unfold firstFault at h
    constructor
    . intro point hpoint
      cases point
      all_goals grind
    . grind
  . intro h
    simp [firstFault, h.1, h.2]

/--
The statements compute what `reserve` says of the first fault among them.
-/
theorem reserveCall_refines
    : (reserveCall fails r id sid fd generation).2
          = (r.reserve id sid fd generation (firstFault fails)).2
        ∧ ∀ lease, (reserveCall fails r id sid fd generation).1 = .ok lease
            ↔ (r.reserve id sid fd generation (firstFault fails)).1 = .ok lease := by
  unfold reserveCall reserveStatements reserve firstFault
  rw [get_run]
  split
  . rw [throw_run]
    exact ⟨rfl, fun lease => by simp⟩
  . split
    . exact ⟨rfl, fun lease => Iff.rfl⟩
    . cases hstate : fails .makeState with
      | some exn =>
        rw [attempt_run_some hstate]
        exact ⟨rfl, fun lease => by simp⟩
      | none =>
        rw [attempt_run_none hstate]
        cases hsid : fails .copySid with
        | some exn =>
          rw [attempt_run_some hsid]
          exact ⟨rfl, fun lease => by simp⟩
        | none =>
          rw [attempt_run_none hsid]
          cases hgeneration : fails .copyGeneration with
          | some exn =>
            rw [attempt_run_some hgeneration]
            exact ⟨rfl, fun lease => by simp⟩
          | none =>
            rw [attempt_run_none hgeneration]
            cases hcall : fails .callInitialize with
            | some exn =>
              rw [attempt_run_some hcall]
              exact ⟨rfl, fun lease => by simp⟩
            | none =>
              rw [attempt_run_none hcall]
              cases hgrow : fails .growStates with
              | some exn =>
                rw [attempt_run_some hgrow]
                exact ⟨rfl, fun lease => by simp⟩
              | none =>
                rw [attempt_run_none hgrow, pushBack_run]
                cases hlease : fails .makeLease with
                | some exn =>
                  rw [attempt_run_some hlease]
                  exact ⟨rfl, fun lease => by simp⟩
                | none =>
                  rw [attempt_run_none hlease]
                  exact ⟨rfl, fun lease => Iff.rfl⟩

/--
If a call of `reserve` returns no lease then the registered sessions and their counts are as before,
unless the call fails at its last allocation.
-/
theorem reserveCall_atomic_iff
    : ((∀ lease, (reserveCall fails r id sid fd generation).1 ≠ .ok (some lease)) →
          (reserveCall fails r id sid fd generation).2.states = r.states
            ∧ (reserveCall fails r id sid fd generation).2.counts = r.counts)
        ↔
      ¬FailsAtLease fails r generation := by
  have hstate : (reserveCall fails r id sid fd generation).2
      = (r.reserve id sid fd generation (firstFault fails)).2 := reserveCall_refines.1
  have hnone : (∀ lease, (reserveCall fails r id sid fd generation).1 ≠ .ok (some lease))
      ↔ ∀ lease, (r.reserve id sid fd generation (firstFault fails)).1 ≠ .ok (some lease) :=
    forall_congr' fun lease => not_congr (reserveCall_refines.2 (some lease))
  rw [hnone, hstate]
  constructor
  . rintro hkeep ⟨hstale, hfree, hlease⟩
    have hfault := firstFault_eq_leaseAlloc_iff.mpr hlease
    have hstates := hkeep fun lease => by simp [reserve, hstale, Nat.not_le.mpr hfree, hfault]
    simp [reserve, hstale, Nat.not_le.mpr hfree, hfault] at hstates
  . intro hpoint hnolease
    rcases r.reserve_cases id sid fd generation (firstFault fails) with
      ⟨hsame, -⟩ | ⟨hstale, hfree, -, ⟨-, hok⟩ | ⟨hfault, -⟩⟩
    . rw [hsame]
      exact ⟨rfl, rfl⟩
    . exact absurd hok (hnolease id)
    . exact absurd ⟨hstale, hfree, firstFault_eq_leaseAlloc_iff.mp hfault⟩ hpoint

/--
One slot, one request, no memory for the `Lease`: the slot is taken and nothing will give it back.
-/
theorem slot_lost_without_lease
    : let r := create 1 1700000000
      let fails := fun point => if point = ReservePoint.makeLease then some Exn.other else none
      let call := reserveCall fails r 0 (Bytes.lit "live-001") 7 []
      call.1 = .error .other ∧ r.counts = ⟨0, 1, 1⟩ ∧ call.2.counts = ⟨1, 1, 0⟩ := by
  decide

end Lemmas
end SessionRegistry
end HikBridge
