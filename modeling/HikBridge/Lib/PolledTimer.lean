import Mathlib.Tactic.Common

/-!
This module contains timers that a loop polls: a round that finds the timer due fires it and sets it
a period later, counted from the reading of the clock of that round. How far the firings are apart
depends on the period and on how far the polls are apart.
-/

structure PolledTimer where
  next : Int
  fired : List Int := []
  deriving DecidableEq, Repr

namespace PolledTimer

def due (timer : PolledTimer) (now : Int) : Bool := decide (timer.next ≤ now)

def fire (timer : PolledTimer) (period now : Int) : PolledTimer where
  next := now + period
  fired := timer.fired ++ [now]

@[simp]
theorem fire_next (timer : PolledTimer) (period now : Int) : (timer.fire period now).next = now + period := rfl

@[simp]
theorem fire_fired (timer : PolledTimer) (period now : Int)
    : (timer.fire period now).fired = timer.fired ++ [now] := rfl

/--
The timer has been set to `first` and fired whenever it was due, `slack` late at most.
-/
inductive Paced (period slack first : Int) : PolledTimer → Prop where
  | start : Paced period slack first { next := first }
  | fire {timer : PolledTimer} {now : Int} (h : Paced period slack first timer)
    (hdue : timer.next ≤ now) (hlate : now ≤ timer.next + slack)
    : Paced period slack first (timer.fire period now)

variable {period slack first a b : Int} {timer : PolledTimer} {before after : List Int}

theorem Paced.next_of_last (h : Paced period slack first timer) (hfired : timer.fired = before ++ [a])
    : timer.next = a + period := by
  cases h with
  | start => simp at hfired
  | fire h hdue hlate =>
    have hlast := (List.append_inj' hfired rfl).2
    rw [List.singleton_inj] at hlast
    rw [fire_next, hlast]

theorem Paced.next_of_nil (h : Paced period slack first timer) (hfired : timer.fired = [])
    : timer.next = first := by
  cases h with
  | start => rfl
  | fire h hdue hlate => simp at hfired

theorem Paced.first_fired (h : Paced period slack first timer) (hfired : timer.fired = a :: after)
    : first ≤ a ∧ a ≤ first + slack := by
  induction h generalizing after with
  | start => simp at hfired
  | @fire timer now h hdue hlate ih =>
    cases hbefore : timer.fired with
    | nil =>
      rw [fire_fired, hbefore, List.nil_append, List.cons.injEq] at hfired
      obtain ⟨rfl, -⟩ := hfired
      cases h with
      | start => exact ⟨hdue, hlate⟩
      | fire => simp at hbefore
    | cons head tail =>
      rw [fire_fired, hbefore, List.cons_append, List.cons.injEq] at hfired
      rw [hfired.1] at hbefore
      exact ih hbefore

theorem Paced.gap (h : Paced period slack first timer) (hfired : timer.fired = before ++ a :: b :: after)
    : a + period ≤ b ∧ b ≤ a + period + slack := by
  induction h generalizing after with
  | start => simp at hfired
  | @fire timer now h hdue hlate ih =>
    rw [fire_fired] at hfired
    rcases List.eq_nil_or_concat after with rfl | ⟨front, last, rfl⟩
    . have hsplit : timer.fired ++ [now] = (before ++ [a]) ++ [b] := by
        rw [List.append_assoc]
        exact hfired
      obtain ⟨hbefore, hlast⟩ := List.append_inj' hsplit rfl
      rw [List.singleton_inj] at hlast
      rw [h.next_of_last hbefore] at hdue hlate
      omega
    . have hsplit : timer.fired ++ [now] = (before ++ a :: b :: front) ++ [last] := by
        rw [List.append_assoc]
        simpa [List.concat_eq_append] using hfired
      exact ih (List.append_inj' hsplit rfl).1

end PolledTimer
