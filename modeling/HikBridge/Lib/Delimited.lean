import Mathlib.Data.List.Induction
import Mathlib.Tactic.Common

/-!
This module contains the reading of text up to a separator, and the lines that repeated reading
gives.
-/

namespace Delimited

variable {α : Type*} [DecidableEq α] {sep : α} {xs ys : List α}

def getline (sep : α) : List α → Option (List α × List α)
  | [] => none
  | x :: xs =>
    if x = sep then
      some ([], xs)
    else
      match getline sep xs with
      | none => some ([x], [])
      | some (line, rest) => some (x :: line, rest)

def lines (sep : α) : List α → List (List α)
  | [] => []
  | x :: xs =>
    if x = sep then
      [] :: lines sep xs
    else
      match lines sep xs with
      | [] => [[x]]
      | line :: rest => (x :: line) :: rest

theorem getline_append_sep (h : sep ∉ xs) : getline sep (xs ++ sep :: ys) = some (xs, ys) := by
  induction xs with
  | nil =>
    unfold getline
    simp
  | cons x xs ih =>
    rw [List.mem_cons, not_or] at h
    rw [List.cons_append]
    unfold getline
    rw [if_neg (Ne.symm h.1), ih h.2]

theorem getline_of_not_mem (hne : xs ≠ []) (h : sep ∉ xs) : getline sep xs = some (xs, []) := by
  induction xs with
  | nil => contradiction
  | cons x xs ih =>
    rw [List.mem_cons, not_or] at h
    unfold getline
    rw [if_neg (Ne.symm h.1)]
    by_cases hxs : xs = []
    . rw [hxs]
      rfl
    . rw [ih hxs h.2]

theorem lines_eq (text : List α)
    : lines sep text
        =
      match getline sep text with
      | none => []
      | some (line, rest) => line :: lines sep rest := by
  induction text with
  | nil => rfl
  | cons x xs ih =>
    simp only [lines, getline]
    by_cases hx : x = sep
    . simp only [if_pos hx]
    . simp only [if_neg hx, ih]
      cases getline sep xs with
      | none => rfl
      | some read => rfl

theorem lines_append_sep (xs ys : List α)
    : lines sep (xs ++ sep :: ys) = lines sep (xs ++ [sep]) ++ lines sep ys := by
  induction xs with
  | nil => simp [lines]
  | cons x xs ih =>
    rw [List.cons_append, List.cons_append, lines, lines, ih]
    split
    . rfl
    . cases hlines : lines sep (xs ++ [sep]) with
      | nil =>
        have hnil : xs ++ [sep] = [] := by
          cases hxs : xs ++ [sep] with
          | nil => rfl
          | cons z zs =>
            rw [hxs, lines] at hlines
            split at hlines
            . contradiction
            . split at hlines <;> contradiction
        exact absurd hnil (by simp)
      | cons line rest => rfl

theorem lines_flatMap_append {rows : List (List α)} (h : ∀ row ∈ rows, sep ∉ row) (ys : List α)
    : lines sep ((rows.flatMap fun row => row ++ [sep]) ++ ys) = rows ++ lines sep ys := by
  induction rows with
  | nil => rfl
  | cons row rows ih =>
    have hrow := h row (by simp)
    have hrows := ih fun r hr => h r (by simp [hr])
    rw [List.flatMap_cons, List.append_assoc, List.append_assoc, List.singleton_append, lines_eq,
      getline_append_sep hrow]
    simp only [hrows, List.cons_append]

theorem lines_flatMap {rows : List (List α)} (h : ∀ row ∈ rows, sep ∉ row)
    : lines sep (rows.flatMap fun row => row ++ [sep]) = rows := by
  have happend := lines_flatMap_append h []
  rwa [List.append_nil, lines, List.append_nil] at happend

theorem flatMap_prefix_iff {rows rows' : List (List α)} (h : ∀ row ∈ rows, sep ∉ row)
    (h' : ∀ row ∈ rows', sep ∉ row)
    : (rows.flatMap fun row => row ++ [sep]) <+: (rows'.flatMap fun row => row ++ [sep]) ↔ rows <+: rows' := by
  constructor
  . rintro ⟨ys, hys⟩
    refine ⟨lines sep ys, ?_⟩
    rw [← lines_flatMap_append h, hys, lines_flatMap h']
  . rintro ⟨rest, rfl⟩
    rw [List.flatMap_append]
    exact List.prefix_append _ _

theorem lines_of_not_mem (h : sep ∉ xs) : lines sep xs = if xs = [] then [] else [xs] := by
  split
  . next hnil => rw [hnil, lines]
  . next hne =>
    rw [lines_eq, getline_of_not_mem hne h]
    rfl

def scanStep (sep : α) (scanned : List (List α) × List α) (x : α) : List (List α) × List α :=
  if x = sep then (scanned.1 ++ [scanned.2], []) else (scanned.1, scanned.2 ++ [x])

def scan (sep : α) (text : List α) : List (List α) × List α := text.foldl (scanStep sep) ([], [])

theorem scan_concat (text : List α) (x : α) : scan sep (text ++ [x]) = scanStep sep (scan sep text) x := by
  unfold scan
  rw [List.foldl_append]
  rfl

theorem foldl_scanStep_of_not_mem (h : sep ∉ xs) (scanned : List (List α) × List α)
    : xs.foldl (scanStep sep) scanned = (scanned.1, scanned.2 ++ xs) := by
  induction xs generalizing scanned with
  | nil => simp
  | cons x xs ih =>
    rw [List.mem_cons, not_or] at h
    rw [List.foldl_cons, ih h.2, scanStep, if_neg (Ne.symm h.1)]
    simp

theorem scan_of_not_mem (h : sep ∉ xs) : scan sep xs = ([], xs) :=
  foldl_scanStep_of_not_mem h ([], [])

theorem scan_open_no_sep (text : List α) : sep ∉ (scan sep text).2 := by
  induction text using List.reverseRecOn with
  | nil => exact List.not_mem_nil
  | append_singleton text x ih =>
    rw [scan_concat, scanStep]
    split
    . exact List.not_mem_nil
    . next hx =>
      rw [List.mem_append, not_or]
      exact ⟨ih, fun h => hx (List.mem_singleton.mp h).symm⟩

theorem scan_closed_no_sep (text : List α) : ∀ line ∈ (scan sep text).1, sep ∉ line := by
  induction text using List.reverseRecOn with
  | nil => simp [scan]
  | append_singleton text x ih =>
    rw [scan_concat, scanStep]
    split
    . intro line hline
      rcases List.mem_append.mp hline with hline | hline
      . exact ih line hline
      . rw [List.mem_singleton.mp hline]
        exact scan_open_no_sep text
    . exact ih

theorem scan_text (text : List α)
    : text = ((scan sep text).1.flatMap fun line => line ++ [sep]) ++ (scan sep text).2 := by
  induction text using List.reverseRecOn with
  | nil => rfl
  | append_singleton text x ih =>
    rw [scan_concat, scanStep]
    split
    . next hx =>
      rw [List.flatMap_append]
      nth_rewrite 1 [ih]
      simp [hx]
    . nth_rewrite 1 [ih]
      simp

theorem lines_eq_scan (text : List α)
    : lines sep text
        =
      (scan sep text).1 ++ if (scan sep text).2 = [] then [] else [(scan sep text).2] := by
  rw [← lines_of_not_mem (scan_open_no_sep text), ← lines_flatMap_append (scan_closed_no_sep text),
    ← scan_text]

end Delimited
