import Mathlib.Data.List.Basic

/-!
This module contains the reading of lines from a stream that comes in pieces: the lines depend on the
stream only, not on where it is cut. It also contains a buffer that keeps the end of what is appended
to it.
-/

namespace LineBuffer

variable {α : Type} (isSep : α → Bool)

def takeLine : List α → Option (List α × List α)
  | [] => none
  | x :: xs =>
    if isSep x then
      some ([], xs)
    else
      (takeLine xs).map fun taken => (x :: taken.1, taken.2)

def completed (start : List α) : List α → List (List α)
  | [] => []
  | x :: xs => if isSep x then start :: completed [] xs else completed (start ++ [x]) xs

def pending (start : List α) : List α → List α
  | [] => start
  | x :: xs => if isSep x then pending [] xs else pending (start ++ [x]) xs

-- The last `n` elements.
def keepLast (n : Nat) (xs : List α) : List α := xs.drop (xs.length - n)

variable {isSep}

theorem completed_append (start xs ys : List α)
    : completed isSep start (xs ++ ys)
        = completed isSep start xs ++ completed isSep (pending isSep start xs) ys := by
  induction xs generalizing start with
  | nil => rfl
  | cons x xs ih =>
    rw [List.cons_append, completed, completed, pending]
    split
    . rw [ih, List.cons_append]
    . rw [ih]

theorem pending_append (start xs ys : List α)
    : pending isSep start (xs ++ ys) = pending isSep (pending isSep start xs) ys := by
  induction xs generalizing start with
  | nil => rfl
  | cons x xs ih =>
    rw [List.cons_append, pending, pending]
    split
    . rw [ih]
    . rw [ih]

theorem takeLine_eq_some {text line rest : List α} (h : takeLine isSep text = some (line, rest))
    : ∃ sep, isSep sep = true ∧ (∀ x ∈ line, isSep x = false) ∧ text = line ++ sep :: rest := by
  induction text generalizing line with
  | nil => cases h
  | cons x xs ih =>
    rw [takeLine] at h
    split at h
    . next hx =>
      cases h
      exact ⟨x, hx, by simp, rfl⟩
    . next hx =>
      obtain ⟨⟨line', rest'⟩, htaken, heq⟩ := Option.map_eq_some_iff.mp h
      cases heq
      obtain ⟨sep, hsep, hline, rfl⟩ := ih htaken
      refine ⟨sep, hsep, ?_, rfl⟩
      intro y hy
      cases hy with
      | head => exact Bool.eq_false_iff.mpr hx
      | tail _ hy => exact hline y hy

theorem takeLine_eq_none {text : List α} (h : takeLine isSep text = none)
    : ∀ x ∈ text, isSep x = false := by
  induction text with
  | nil => simp
  | cons x xs ih =>
    rw [takeLine] at h
    split at h
    . cases h
    . next hx =>
      intro y hy
      cases hy with
      | head => exact Bool.eq_false_iff.mpr hx
      | tail _ hy => exact ih (Option.map_eq_none_iff.mp h) y hy

theorem completed_of_not_sep {start text : List α} (h : ∀ x ∈ text, isSep x = false)
    : completed isSep start text = [] := by
  induction text generalizing start with
  | nil => rfl
  | cons x xs ih =>
    rw [completed, if_neg (by simp [h x])]
    exact ih fun y hy => h y (by simp [hy])

theorem pending_of_not_sep {start text : List α} (h : ∀ x ∈ text, isSep x = false)
    : pending isSep start text = start ++ text := by
  induction text generalizing start with
  | nil => simp [pending]
  | cons x xs ih =>
    rw [pending, if_neg (by simp [h x]), ih fun y hy => h y (by simp [hy])]
    simp

theorem completed_line {taken line : List α} {sep : α} (htaken : pending isSep [] taken = [])
    (hline : ∀ x ∈ line, isSep x = false) (hsep : isSep sep = true)
    : completed isSep [] (taken ++ line ++ [sep]) = completed isSep [] taken ++ [line]
        ∧ pending isSep [] (taken ++ line ++ [sep]) = [] := by
  rw [List.append_assoc, completed_append, pending_append, htaken, completed_append, pending_append,
    completed_of_not_sep hline, pending_of_not_sep hline]
  simp [completed, pending, hsep]

theorem keepLast_append (n : Nat) (xs ys : List α)
    : keepLast n (keepLast n xs ++ ys) = keepLast n (xs ++ ys) := by
  have hdrop : keepLast n xs ++ ys = (xs ++ ys).drop (xs.length - n) :=
    (List.drop_append_of_le_length (by omega)).symm
  rw [hdrop, keepLast, keepLast, List.drop_drop, List.length_drop]
  congr 1
  rw [List.length_append]
  omega

theorem keepLast_of_length_le {n : Nat} {xs : List α} (h : xs.length ≤ n) : keepLast n xs = xs := by
  unfold keepLast
  rw [show xs.length - n = 0 by omega, List.drop_zero]

end LineBuffer
