import HikBridge.Basic
import Mathlib.Data.List.TakeWhile

/-!
This module contains the reading of numbers that `std::to_string` or a stream has written.
-/

namespace HikBridge

namespace Bytes

def isSpace (c : UInt8) : Bool := c = 32 ∨ 9 ≤ c ∧ c ≤ 13

def sign (text : Bytes) : Bool × Bytes :=
  match text with
  | 45 :: digits => (true, digits)
  | 43 :: digits => (false, digits)
  | digits => (false, digits)

/--
`std::stoll`: blanks, a sign, and digits up to the first byte that is none. It throws where there is
no digit, and where the number does not fit a `long long`.
-/
def stoll (text : Bytes) : Option Int :=
  let (negative, rest) := sign (text.dropWhile isSpace)
  let digits := rest.takeWhile Numeral.isDecimal
  if digits = [] then
    none
  else
    match Numeral.value 10 0 digits with
    | none => none
    | some value =>
      let number : Int := if negative then -value else value
      if -2 ^ 63 ≤ number ∧ number < 2 ^ 63 then some number else none

theorem ofNat_ne_nil (n : Nat) : ofNat n ≠ [] := Numeral.numeral_ne_nil 10 n

theorem not_mem_ofNat {c : UInt8} (hc : Numeral.digitVal c = none) (n : Nat) : c ∉ ofNat n :=
  Numeral.not_mem_numeral (by omega) (by omega) n hc

theorem not_mem_ofInt {c : UInt8} (hc : Numeral.digitVal c = none) (hsign : c ≠ 45) (n : Int)
    : c ∉ ofInt n := by
  unfold ofInt
  split
  . simp [hsign, not_mem_ofNat hc]
  . apply not_mem_ofNat hc

theorem sign_ofNat (n : Nat) : sign (ofNat n) = (false, ofNat n) := by
  unfold sign
  split
  . next digits h =>
    have hmem : (45 : UInt8) ∈ ofNat n := by simp [h]
    exact absurd hmem (not_mem_ofNat (by decide) n)
  . next digits h =>
    have hmem : (43 : UInt8) ∈ ofNat n := by simp [h]
    exact absurd hmem (not_mem_ofNat (by decide) n)
  . rfl

theorem sign_ofInt (n : Int) : sign (ofInt n) = (decide (n < 0), ofNat n.natAbs) := by
  unfold ofInt
  by_cases hn : n < 0
  . rw [if_pos hn]
    simp [sign, hn]
  . rw [if_neg hn, sign_ofNat]
    simp [hn]

theorem ofInt_injective {m n : Int} (h : ofInt m = ofInt n) : m = n := by
  have hsign := congrArg sign h
  rw [sign_ofInt, sign_ofInt, Prod.mk.injEq, decide_eq_decide] at hsign
  have habs := ofNat_injective hsign.2
  omega

theorem isSpace_of_isDecimal {c : UInt8} (h : Numeral.isDecimal c = true) : isSpace c = false := by
  simp only [Numeral.isDecimal, decide_eq_true_eq] at h
  simp only [isSpace, decide_eq_false_iff_not]
  rw [UInt8.le_iff_toNat_le, UInt8.le_iff_toNat_le] at h
  rw [UInt8.le_iff_toNat_le, UInt8.le_iff_toNat_le, ← UInt8.toNat_inj]
  change 48 ≤ c.toNat ∧ c.toNat ≤ 57 at h
  change ¬ (c.toNat = 32 ∨ 9 ≤ c.toNat ∧ c.toNat ≤ 13)
  omega

theorem isSpace_of_mem_ofInt {n : Int} : ∀ c ∈ ofInt n, isSpace c = false := by
  intro c hc
  unfold ofInt at hc
  have hdigit : ∀ c ∈ ofNat n.natAbs, isSpace c = false :=
    fun c hc => isSpace_of_isDecimal (Numeral.isDecimal_of_mem _ c hc)
  split at hc
  . rcases List.mem_cons.mp hc with hc | hc
    . rw [hc]
      decide
    . exact hdigit c hc
  . exact hdigit c hc

theorem dropWhile_ofInt (n : Int) : (ofInt n).dropWhile isSpace = ofInt n := by
  cases htext : ofInt n with
  | nil => rfl
  | cons c cs =>
    have hspace : isSpace c = false := by
      apply isSpace_of_mem_ofInt (n := n)
      simp [htext]
    simp [hspace]

theorem stoll_ofInt {n : Int} (hlow : -2 ^ 63 ≤ n) (hhigh : n < 2 ^ 63) : stoll (ofInt n) = some n := by
  have hdigits : (ofNat n.natAbs).takeWhile Numeral.isDecimal = ofNat n.natAbs :=
    List.takeWhile_eq_self_iff.mpr (Numeral.isDecimal_of_mem _)
  have hvalue : Numeral.value 10 0 (ofNat n.natAbs) = some n.natAbs :=
    Numeral.value_numeral (by omega) (by omega) _
  have hnumber : (if n < 0 then -(n.natAbs : Int) else n.natAbs) = n := by
    split <;> omega
  unfold stoll
  simp only [dropWhile_ofInt, sign_ofInt, hdigits, hvalue, if_neg (ofNat_ne_nil n.natAbs),
    decide_eq_true_eq, hnumber]
  rw [if_pos ⟨hlow, hhigh⟩]

section Reading

variable {text blanks sign' digits rest : Bytes} {n : Int}

inductive StartsWith : Bytes → Int → Prop where
  | mk {blanks sign' digits rest : Bytes} {value : Nat} (hblanks : ∀ c ∈ blanks, isSpace c = true)
      (hsign : sign' = [] ∨ sign' = [43] ∨ sign' = [45]) (hne : digits ≠ [])
      (hdigits : ∀ c ∈ digits, Numeral.isDecimal c = true)
      (hrest : ∀ c ∈ rest.head?, Numeral.isDecimal c = false)
      (hvalue : Numeral.value 10 0 digits = some value)
      : StartsWith (blanks ++ (sign' ++ (digits ++ rest))) (if sign' = [45] then -value else value)

theorem sign_append (hsign : sign' = [] ∨ sign' = [43] ∨ sign' = [45])
    (hrest : ∀ c ∈ rest.head?, Numeral.isDecimal c = true)
    : sign (sign' ++ rest) = (decide (sign' = [45]), rest) := by
  rcases hsign with rfl | rfl | rfl
  . cases rest with
    | nil => rfl
    | cons c rest =>
      have hc := hrest c rfl
      rw [List.nil_append, sign.eq_3]
      . rfl
      . rintro _ ⟨⟩
        contradiction
      . rintro _ ⟨⟩
        contradiction
  . rfl
  . rfl

theorem exists_sign (text : Bytes)
    : ∃ sign', (sign' = [] ∨ sign' = [43] ∨ sign' = [45]) ∧ text = sign' ++ (sign text).2
        ∧ (sign text).1 = decide (sign' = [45]) := by
  unfold sign
  split
  . exact ⟨[45], by simp⟩
  . exact ⟨[43], by simp⟩
  . exact ⟨[], by simp⟩

theorem startsWith_of_value {value : Nat} (hsign : sign' = [] ∨ sign' = [43] ∨ sign' = [45])
    (htext : text.dropWhile isSpace = sign' ++ rest) (hne : rest.takeWhile Numeral.isDecimal ≠ [])
    (hvalue : Numeral.value 10 0 (rest.takeWhile Numeral.isDecimal) = some value)
    : StartsWith text (if sign' = [45] then -value else value) := by
  have hrest : ∀ c ∈ (rest.dropWhile Numeral.isDecimal).head?, Numeral.isDecimal c = false := by
    intro c hc
    have hnot := List.head?_dropWhile_not Numeral.isDecimal rest
    rw [Option.mem_def] at hc
    rw [hc] at hnot
    simpa using hnot
  have hblanks : ∀ c ∈ text.takeWhile isSpace, isSpace c = true :=
    fun c hc => List.mem_takeWhile_imp hc
  have hdigits : ∀ c ∈ rest.takeWhile Numeral.isDecimal, Numeral.isDecimal c = true :=
    fun c hc => List.mem_takeWhile_imp hc
  have hstarts := StartsWith.mk hblanks hsign hne hdigits hrest hvalue
  rwa [List.takeWhile_append_dropWhile, ← htext, List.takeWhile_append_dropWhile] at hstarts

theorem dropWhile_sign (hblanks : ∀ c ∈ blanks, isSpace c = true)
    (hsign : sign' = [] ∨ sign' = [43] ∨ sign' = [45])
    (hrest : ∀ c ∈ rest.head?, Numeral.isDecimal c = true)
    : (blanks ++ (sign' ++ rest)).dropWhile isSpace = sign' ++ rest := by
  rw [List.dropWhile_append_of_pos hblanks]
  rcases hsign with rfl | rfl | rfl
  . cases rest with
    | nil => rfl
    | cons c rest =>
      rw [List.nil_append, List.dropWhile_cons_of_neg]
      simp [isSpace_of_isDecimal (hrest c rfl)]
  . rfl
  . rfl

theorem isDecimal_head (hne : digits ≠ []) (hdigits : ∀ c ∈ digits, Numeral.isDecimal c = true)
    (rest : Bytes) : ∀ c ∈ (digits ++ rest).head?, Numeral.isDecimal c = true := by
  rcases List.exists_cons_of_ne_nil hne with ⟨d, digits, rfl⟩
  intro c hc
  rw [List.cons_append, List.head?_cons, Option.mem_some] at hc
  exact hdigits c (by simp [hc])

theorem takeWhile_digits (hdigits : ∀ c ∈ digits, Numeral.isDecimal c = true)
    (hrest : ∀ c ∈ rest.head?, Numeral.isDecimal c = false)
    : (digits ++ rest).takeWhile Numeral.isDecimal = digits := by
  rw [List.takeWhile_append_of_pos hdigits, List.append_right_eq_self]
  cases rest with
  | nil => rfl
  | cons c rest => rw [List.takeWhile_cons_of_neg (by simp [hrest c rfl])]

theorem stoll_append (hne : digits ≠ []) (hdigits : ∀ c ∈ digits, Numeral.isDecimal c = true)
    (hrest : ∀ c ∈ rest.head?, Numeral.isDecimal c = false) : stoll (digits ++ rest) = stoll digits := by
  have hsign : ∀ rest, sign ((digits ++ rest).dropWhile isSpace) = (false, digits ++ rest) := by
    intro rest
    have hhead := isDecimal_head hne hdigits rest
    have hdrop : ([] ++ ([] ++ (digits ++ rest))).dropWhile isSpace = [] ++ (digits ++ rest) :=
      dropWhile_sign (by simp) (.inl rfl) hhead
    have hnone : sign ([] ++ (digits ++ rest)) = (decide (([] : Bytes) = [45]), digits ++ rest) :=
      sign_append (.inl rfl) hhead
    simp only [List.nil_append] at hdrop hnone
    rw [hdrop, hnone]
    rfl
  have hnil := hsign []
  rw [List.append_nil] at hnil
  unfold stoll
  rw [hsign rest, hnil]
  dsimp only
  rw [takeWhile_digits hdigits hrest, List.takeWhile_eq_self_iff.mpr hdigits]

theorem stoll_eq_some_iff
    : stoll text = some n ↔ StartsWith text n ∧ -2 ^ 63 ≤ n ∧ n < 2 ^ 63 := by
  constructor
  . intro h
    rcases exists_sign (text.dropWhile isSpace) with ⟨sign', hsign, htext, hnegative⟩
    unfold stoll at h
    generalize sign (text.dropWhile isSpace) = parts at h htext hnegative
    rcases parts with ⟨negative, rest⟩
    dsimp only at h htext hnegative
    subst hnegative
    split at h
    . contradiction
    . next hne =>
      split at h
      . contradiction
      . next value hvalue =>
        have hstarts := startsWith_of_value hsign htext hne hvalue
        simp only [decide_eq_true_eq] at h
        generalize (if sign' = [45] then -(value : Int) else (value : Int)) = number at h hstarts
        split at h
        . next hfits =>
          cases h
          exact ⟨hstarts, hfits⟩
        . contradiction
  . rintro ⟨hstarts, hfits⟩
    cases hstarts with
    | @mk blanks sign' digits rest value hblanks hsign hne hdigits hrest hvalue =>
      have hhead := isDecimal_head hne hdigits rest
      unfold stoll
      rw [dropWhile_sign hblanks hsign hhead, sign_append hsign hhead]
      dsimp only
      rw [takeWhile_digits hdigits hrest, if_neg hne, hvalue]
      dsimp only
      simp only [decide_eq_true_eq]
      exact if_pos hfits

end Reading

end Bytes

end HikBridge
