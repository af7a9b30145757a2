/-!
32-bit signed arithmetic on integers: which values a signed number can take, the conversion that keeps
the low bits, and operations that are undefined where their result does not fit.
-/

namespace Signed

def Fits (n : Int) : Prop := -2147483648 ≤ n ∧ n ≤ 2147483647

instance (n : Int) : Decidable (Fits n) := by
  unfold Fits
  infer_instance

def wrap (n : Int) : Int := (n + 2147483648) % 4294967296 - 2147483648

def add? (a b : Int) : Option Int := if Fits (a + b) then some (a + b) else none

def sub? (a b : Int) : Option Int := if Fits (a - b) then some (a - b) else none

theorem wrap_of_fits {n : Int} (h : Fits n) : wrap n = n := by
  unfold Fits at h
  unfold wrap
  omega

theorem fits_wrap (n : Int) : Fits (wrap n) := by
  unfold Fits wrap
  omega

theorem wrap_ofNat {n : Nat} (h : n < 4294967296)
    : wrap n = if n ≤ 2147483647 then (n : Int) else (n : Int) - 4294967296 := by
  unfold wrap
  split <;> omega

theorem add?_of_fits {a b : Int} (h : Fits (a + b)) : add? a b = some (a + b) := if_pos h

theorem add?_of_not_fits {a b : Int} (h : ¬ Fits (a + b)) : add? a b = none := if_neg h

theorem sub?_of_fits {a b : Int} (h : Fits (a - b)) : sub? a b = some (a - b) := if_pos h

end Signed
