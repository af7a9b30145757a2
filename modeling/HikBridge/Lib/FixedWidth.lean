import HikBridge.Lib.Numeral
import Mathlib.Data.List.Induction

/-!
This module contains decimal numbers of a fixed width, whose order as texts is that of the numbers.
-/

namespace Numeral

section Lex

variable {α : Type*} [LT α] {xs xs' ys ys' : List α}

theorem append_lt_append_iff (h : xs.length = xs'.length)
    : xs ++ ys < xs' ++ ys' ↔ xs < xs' ∨ xs = xs' ∧ ys < ys' := by
  induction xs generalizing xs' with
  | nil =>
    obtain rfl := List.eq_nil_of_length_eq_zero h.symm
    simp
  | cons x xs ih =>
    cases xs' with
    | nil => cases h
    | cons x' xs' =>
      rw [List.cons_append, List.cons_append, List.cons_lt_cons_iff, List.cons_lt_cons_iff,
        ih (Nat.succ.inj h), List.cons.injEq]
      grind

end Lex

def digit (n : Nat) : UInt8 := UInt8.ofNat (48 + n % 10)

def fixed : Nat → Nat → List UInt8
  | 0, _ => []
  | width + 1, n => fixed width (n / 10) ++ [digit n]

section Fixed

variable {width m n : Nat}

theorem length_fixed (width n : Nat) : (fixed width n).length = width := by
  induction width generalizing n with
  | zero => rfl
  | succ width ih => rw [fixed, List.length_append, ih, List.length_singleton]

theorem digit_lt_iff : digit m < digit n ↔ m % 10 < n % 10 := by
  unfold digit
  rw [UInt8.lt_iff_toNat_lt, UInt8.toNat_ofNat', UInt8.toNat_ofNat']
  omega

theorem digit_inj : digit m = digit n ↔ m % 10 = n % 10 := by
  unfold digit
  rw [← UInt8.toNat_inj, UInt8.toNat_ofNat', UInt8.toNat_ofNat']
  omega

theorem toNat_digit (n : Nat) : (digit n).toNat = 48 + n % 10 := by
  unfold digit
  rw [UInt8.toNat_ofNat']
  omega

theorem isDecimal_digit (n : Nat) : isDecimal (digit n) = true := by
  have h := toNat_digit n
  simp only [isDecimal, decide_eq_true_eq, UInt8.le_iff_toNat_le]
  change 48 ≤ (digit n).toNat ∧ (digit n).toNat ≤ 57
  omega

theorem exists_digit {c : UInt8} (h : isDecimal c = true) : ∃ d < 10, digit d = c := by
  simp only [isDecimal, decide_eq_true_eq, UInt8.le_iff_toNat_le] at h
  change 48 ≤ c.toNat ∧ c.toNat ≤ 57 at h
  refine ⟨c.toNat - 48, by omega, ?_⟩
  rw [← UInt8.toNat_inj, toNat_digit]
  omega

theorem exists_fixed {text : List UInt8} (h : ∀ c ∈ text, isDecimal c = true)
    : ∃ n < 10 ^ text.length, text = fixed text.length n := by
  induction text using List.reverseRecOn with
  | nil => exact ⟨0, Nat.one_pos, rfl⟩
  | append_singleton text c ih =>
    obtain ⟨n, hn, htext⟩ := ih fun c hc => h c (List.mem_append_left _ hc)
    obtain ⟨d, hd, rfl⟩ := exists_digit (h c (by simp))
    refine ⟨n * 10 + d, ?_, ?_⟩
    . rw [List.length_append, List.length_singleton, Nat.pow_succ]
      omega
    . have hdiv : (n * 10 + d) / 10 = n := by omega
      have hmod : digit (n * 10 + d) = digit d := digit_inj.mpr (by omega)
      rw [List.length_append, List.length_singleton, fixed, hdiv, hmod, ← htext]

theorem fixed_injective (hm : m < 10 ^ width) (hn : n < 10 ^ width) (h : fixed width m = fixed width n)
    : m = n := by
  induction width generalizing m n with
  | zero =>
    rw [Nat.pow_zero] at hm hn
    omega
  | succ width ih =>
    rw [Nat.pow_succ] at hm hn
    rw [fixed, fixed] at h
    obtain ⟨hfront, hlast⟩ := List.append_inj' h rfl
    have hdiv := @ih (m / 10) (n / 10) (by omega) (by omega) hfront
    have hmod := digit_inj.mp (List.singleton_inj.mp hlast)
    omega

theorem fixed_lt_iff (hm : m < 10 ^ width) (hn : n < 10 ^ width) : fixed width m < fixed width n ↔ m < n := by
  induction width generalizing m n with
  | zero =>
    rw [Nat.pow_zero] at hm hn
    simp only [fixed]
    exact ⟨fun h => absurd h (List.not_lt_nil _), fun h => by omega⟩
  | succ width ih =>
    rw [Nat.pow_succ] at hm hn
    have hdiv := @ih (m / 10) (n / 10) (by omega) (by omega)
    rw [fixed, fixed, append_lt_append_iff (by rw [length_fixed, length_fixed]), hdiv, List.cons_lt_cons_iff,
      digit_lt_iff]
    constructor
    . rintro (hless | ⟨heq, hmod | ⟨_, hnil⟩⟩)
      . omega
      . have heq' := @fixed_injective width (m / 10) (n / 10) (by omega) (by omega) heq
        omega
      . exact absurd hnil (List.not_lt_nil _)
    . intro hless
      by_cases heq : m / 10 = n / 10
      . rw [heq]
        exact .inr ⟨rfl, .inl (by omega)⟩
      . exact .inl (by omega)

theorem numeral_eq_fixed (hlow : width = 0 ∨ 10 ^ width ≤ n) (hn : n < 10 ^ (width + 1))
    : numeral 10 n = fixed (width + 1) n := by
  have hdigit : ∀ d < 10, UInt8.ofNat d.digitChar.toNat = digit d := by decide
  induction width generalizing n with
  | zero =>
    have hlt : n < 10 := by simpa using hn
    rw [numeral_of_lt hlt, hdigit n hlt]
    rfl
  | succ width ih =>
    rw [Nat.pow_succ] at hn hlow
    have hlow' : 10 ^ width * 10 ≤ n := hlow.resolve_left (by omega)
    have hpos : 0 < 10 ^ width := Nat.pow_pos (by omega)
    have hmod : digit (n % 10) = digit n := digit_inj.mpr (Nat.mod_mod _ _)
    rw [numeral_of_le (by omega) (by omega), fixed, hdigit _ (Nat.mod_lt _ (by omega)), hmod,
      ih (.inr (by omega)) (by omega)]

end Fixed

end Numeral
