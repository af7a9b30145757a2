import Mathlib.Data.Option.Basic
import Mathlib.Logic.Function.Basic
import Mathlib.Tactic.Common

/-!
This module contains the theory of maps whose entries expire. What such a map means at a time is
what it holds of the entries that expire later, so an implementation may drop an expired entry
whenever it likes.
-/

namespace Expiring

variable {κ α : Type*} {expires : α → Int} {now later t : Int} {f g h : κ → Option α}

def live (expires : α → Int) (t : Int) (entry : Option α) : Option α :=
  entry.filter fun a => decide (t < expires a)

/--
No lookup from `now` on tells the two maps apart.
-/
def Agree (expires : α → Int) (now : Int) (f g : κ → Option α) : Prop :=
  ∀ t, now ≤ t → ∀ k, live expires t (f k) = live expires t (g k)

@[simp]
theorem live_none : live expires t none = none := rfl

theorem live_some (a : α) : live expires t (some a) = if t < expires a then some a else none := by
  simp [live, Option.filter]

theorem live_some_of_lt {a : α} (h : t < expires a) : live expires t (some a) = some a := by
  rw [live_some, if_pos h]

theorem live_some_of_le {a : α} (h : expires a ≤ t) : live expires t (some a) = none := by
  rw [live_some, if_neg (by omega)]

theorem live_eq_some {entry : Option α} {a : α}
    : live expires t entry = some a ↔ entry = some a ∧ t < expires a := by
  simp [live]

theorem live_live (ht : now ≤ t) (entry : Option α)
    : live expires t (live expires now entry) = live expires t entry := by
  cases entry with
  | none => rfl
  | some a =>
    by_cases hnow : now < expires a
    . rw [live_some_of_lt hnow]
    . rw [live_some_of_le (by omega), live_some_of_le (by omega), live_none]

theorem Agree.refl (f : κ → Option α) : Agree expires now f f := by
  intro t _ k
  rfl

theorem Agree.trans (hfg : Agree expires now f g) (hgh : Agree expires now g h)
    : Agree expires now f h := by
  intro t ht k
  rw [hfg t ht k, hgh t ht k]

theorem Agree.mono (hfg : Agree expires now f g) (hle : now ≤ later) : Agree expires later f g := by
  intro t ht k
  exact hfg t (by omega) k

theorem Agree.update [DecidableEq κ] (hfg : Agree expires now f g) (k : κ) (entry : Option α)
    : Agree expires now (Function.update f k entry) (Function.update g k entry) := by
  intro t ht j
  by_cases hj : j = k
  . rw [hj, Function.update_self, Function.update_self]
  . rw [Function.update_of_ne hj, Function.update_of_ne hj, hfg t ht j]

theorem agree_erase [DecidableEq κ] {k : κ} {a : α} (hk : f k = some a) (hle : expires a ≤ now)
    : Agree expires now (Function.update f k none) f := by
  intro t ht j
  by_cases hj : j = k
  . rw [hj, Function.update_self, hk, live_none, live_some_of_le (by omega)]
  . rw [Function.update_of_ne hj]

theorem agree_live (f : κ → Option α)
    : Agree expires now (fun k => live expires now (f k)) f := by
  intro t ht k
  apply live_live ht

end Expiring
