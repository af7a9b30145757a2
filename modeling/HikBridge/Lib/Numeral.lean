import Mathlib.Data.List.Basic
import Mathlib.Tactic.IntervalCases

/-!
Numerals as bytes: the digits of a number in a base up to sixteen, most significant digit first and
in lower case, together with the reader that inverts them.
-/

namespace Numeral

def numeral (b n : Nat) : List UInt8 := (Nat.toDigits b n).map fun c => UInt8.ofNat c.toNat

def digitVal (c : UInt8) : Option Nat :=
  if 48 ≤ c ∧ c ≤ 57 then some (c.toNat - 48)
  else if 97 ≤ c ∧ c ≤ 102 then some (c.toNat - 87)
  else if 65 ≤ c ∧ c ≤ 70 then some (c.toNat - 55)
  else none

theorem digitVal_digitChar {d : Nat} (hd : d < 16)
    : digitVal (UInt8.ofNat d.digitChar.toNat) = some d := by
  interval_cases d <;> decide

def value (b acc : Nat) : List UInt8 → Option Nat
  | [] => some acc
  | c :: cs => (digitVal c).bind fun d => value b (acc * b + d) cs

theorem value_append (b acc : Nat) (xs ys : List UInt8)
    : value b acc (xs ++ ys) = (value b acc xs).bind fun v => value b v ys := by
  induction xs generalizing acc with
  | nil => rfl
  | cons c cs ih =>
    simp only [List.cons_append, value]
    rw [Option.bind_assoc]
    simp only [ih]

theorem numeral_of_lt {b n : Nat} (h : n < b)
    : numeral b n = [UInt8.ofNat n.digitChar.toNat] := by
  simp [numeral, Nat.toDigits_of_lt_base h]

theorem numeral_of_le {b n : Nat} (hb : 1 < b) (h : b ≤ n)
    : numeral b n = numeral b (n / b) ++ [UInt8.ofNat (n % b).digitChar.toNat] := by
  simp [numeral, Nat.toDigits_of_base_le hb h]

theorem numeral_ne_nil (b n : Nat) : numeral b n ≠ [] := by
  simp [numeral, Nat.toDigits_ne_nil]

theorem value_numeral {b : Nat} (hb : 1 < b) (hb' : b ≤ 16) (n : Nat)
    : value b 0 (numeral b n) = some n := by
  induction n using Nat.strongRecOn with
  | ind n ih =>
    rcases Nat.lt_or_ge n b with hlt | hge
    . rw [numeral_of_lt hlt]
      simp [value, digitVal_digitChar (by omega : n < 16)]
    . have hmod : n % b < b := Nat.mod_lt n (by omega)
      rw [numeral_of_le hb hge]
      rw [value_append]
      rw [ih (n / b) (Nat.div_lt_self (by omega) hb)]
      simp [value, digitVal_digitChar (by omega : n % b < 16), Nat.div_add_mod']

theorem numeral_injective {b : Nat} (hb : 1 < b) (hb' : b ≤ 16) {m n : Nat}
    (h : numeral b m = numeral b n) : m = n := by
  have hm := value_numeral hb hb' m
  rw [h, value_numeral hb hb' n] at hm
  injection hm with hm
  exact hm.symm

theorem exists_digit_of_mem {b : Nat} (hb : 1 < b) (n : Nat)
    : ∀ c ∈ numeral b n, ∃ d < b, c = UInt8.ofNat d.digitChar.toNat := by
  induction n using Nat.strongRecOn with
  | ind n ih =>
    rcases Nat.lt_or_ge n b with hlt | hge
    . rw [numeral_of_lt hlt]
      intro c hc
      exact ⟨n, hlt, List.mem_singleton.mp hc⟩
    . rw [numeral_of_le hb hge]
      intro c hc
      rcases List.mem_append.mp hc with hc | hc
      . exact ih (n / b) (Nat.div_lt_self (by omega) hb) c hc
      . exact ⟨n % b, Nat.mod_lt n (by omega), List.mem_singleton.mp hc⟩

theorem digitVal_isSome_of_mem {b : Nat} (hb : 1 < b) (hb' : b ≤ 16) (n : Nat)
    : ∀ c ∈ numeral b n, (digitVal c).isSome := by
  intro c hc
  obtain ⟨d, hd, rfl⟩ := exists_digit_of_mem hb n c hc
  simp [digitVal_digitChar (by omega : d < 16)]

def isDecimal (c : UInt8) : Bool := 48 ≤ c ∧ c ≤ 57

theorem digitVal_isSome_of_value {b acc n : Nat} {text : List UInt8} (h : value b acc text = some n)
    : ∀ c ∈ text, (digitVal c).isSome := by
  induction text generalizing acc with
  | nil => exact fun c hc => absurd hc List.not_mem_nil
  | cons c text ih =>
    rw [value, Option.bind_eq_some_iff] at h
    rcases h with ⟨d, hd, h⟩
    exact List.forall_mem_cons.mpr ⟨by rw [hd]; rfl, ih h⟩

theorem isDecimal_of_mem (n : Nat) : ∀ c ∈ numeral 10 n, isDecimal c := by
  intro c hc
  obtain ⟨d, hd, rfl⟩ := exists_digit_of_mem (by omega) n c hc
  interval_cases d <;> decide

theorem eq_zero_of_head {n : Nat} (h : (numeral 10 n).head? = some 48) : numeral 10 n = [48] := by
  induction n using Nat.strongRecOn with
  | ind n ih =>
    rcases Nat.lt_or_ge n 10 with hlt | hge
    . rw [numeral_of_lt hlt] at h ⊢
      rw [List.head?_cons] at h
      rw [Option.some.inj h]
    . rw [numeral_of_le (by omega) hge,
        List.head?_append_of_ne_nil _ (numeral_ne_nil 10 (n / 10))] at h
      have hzero := ih (n / 10) (by omega) h
      have hnumeral : numeral 10 (n / 10) = numeral 10 0 := hzero.trans (by decide)
      have hdiv := numeral_injective (by omega) (by omega) hnumeral
      omega

theorem not_mem_numeral {b : Nat} (hb : 1 < b) (hb' : b ≤ 16) (n : Nat) {c : UInt8}
    (hc : digitVal c = none) : c ∉ numeral b n := by
  intro hmem
  have := digitVal_isSome_of_mem hb hb' n c hmem
  simp [hc] at this

/--
A separator that does not occur after the split determines where two equal lists were joined.
-/
theorem eq_of_append_cons_eq {α : Type*} {c : α} {xs ys us vs : List α} (hus : c ∉ us)
    (hvs : c ∉ vs) (h : xs ++ c :: us = ys ++ c :: vs) : xs = ys ∧ us = vs := by
  induction xs generalizing ys with
  | nil =>
    cases ys with
    | nil => simpa using h
    | cons y ys =>
      have hmem : c ∈ us := by
        injection h with _ h
        simp [h]
      contradiction
  | cons x xs ih =>
    cases ys with
    | nil =>
      have hmem : c ∈ vs := by
        injection h with _ h
        simp [← h]
      contradiction
    | cons y ys =>
      injection h with hxy h
      obtain ⟨hxs, hus⟩ := ih h
      exact ⟨by rw [hxy, hxs], hus⟩

end Numeral
