import Mathlib.Data.List.Basic
import Mathlib.Data.List.Infix
import Mathlib.Data.List.TakeWhile
import Mathlib.Tactic.Common

/-!
This module contains the search for the first occurrence of a text in another one, and the words of a
text.
-/

namespace Search

variable {α : Type*} {needle text more before after : List α}

theorem prefix_append_iff (h : needle.length ≤ text.length)
    : needle <+: text ++ more ↔ needle <+: text := by
  constructor
  . intro hstart
    exact List.prefix_of_prefix_length_le hstart (List.prefix_append _ _) h
  . intro hstart
    exact hstart.trans (List.prefix_append _ _)

section Words

variable {blank : α → Bool}

def word? (blank : α → Bool) (text : List α) : Option (List α × List α) :=
  let text := text.dropWhile blank
  if text.isEmpty then
    none
  else
    some (text.takeWhile (!blank ·), text.dropWhile (!blank ·))

def words (blank : α → Bool) (text : List α) : List (List α) :=
  (text.splitOnP blank).filter (!·.isEmpty)

theorem words_nil : words blank [] = [] := by
  simp [words]

theorem words_cons_blank {x : α} (h : blank x = true) : words blank (x :: text) = words blank text := by
  unfold words
  rw [List.splitOnP_cons_eq_if_modifyHead, if_pos h]
  rfl

theorem words_dropWhile : words blank (text.dropWhile blank) = words blank text := by
  induction text with
  | nil => rfl
  | cons x text ih =>
    by_cases hx : blank x = true
    . rw [List.dropWhile_cons_of_pos hx, words_cons_blank hx]
      exact ih
    . rw [List.dropWhile_cons_of_neg hx]

theorem words_word {word : List α} (hword : ∀ x ∈ word, blank x = false) (hne : word ≠ [])
    (hmore : ∀ x ∈ more.head?, blank x = true)
    : words blank (word ++ more) = word :: words blank more := by
  cases more with
  | nil =>
    rw [List.append_nil, words_nil]
    unfold words
    rw [List.splitOnP_eq_singleton hword]
    simp [hne]
  | cons x more =>
    have hx : blank x = true := hmore x rfl
    rw [words_cons_blank hx]
    unfold words
    rw [List.splitOnP_append_cons_of_forall_mem hword x hx]
    simp [hne]

theorem words_eq
    : words blank text
        =
      match word? blank text with
      | none => []
      | some (word, rest) => word :: words blank rest := by
  have hhead := List.head?_dropWhile_not blank text
  unfold word?
  dsimp only
  rw [← words_dropWhile]
  generalize text.dropWhile blank = text at hhead
  cases text with
  | nil => exact words_nil
  | cons x text =>
    have hx : blank x = false := by simpa using hhead
    rw [List.isEmpty_cons]
    simp only [Bool.false_eq_true, if_false]
    rw [← words_word]
    . rw [List.takeWhile_append_dropWhile]
    . intro y hy
      simpa using List.mem_takeWhile_imp hy
    . rw [List.takeWhile_cons_of_pos (by rw [hx]; rfl)]
      exact List.cons_ne_nil _ _
    . intro y hy
      have hnot := List.head?_dropWhile_not (!blank ·) (x :: text)
      rw [Option.mem_def] at hy
      rw [hy] at hnot
      simpa using hnot

theorem words_eq_cons_iff {word : List α} {others : List (List α)}
    : words blank text = word :: others
        ↔
      ∃ rest, word? blank text = some (word, rest) ∧ words blank rest = others := by
  rw [words_eq]
  cases word? blank text with
  | none => simp
  | some read => simp [Prod.ext_iff]

end Words

section Avoids

def Avoids (needle text rest : List α) : Prop :=
  ∀ i < text.length, ¬ needle <+: text.drop i ++ rest

theorem avoids_nil (needle rest : List α) : Avoids needle [] rest :=
  fun _ h => absurd h (Nat.not_lt_zero _)

theorem Avoids.cons {x : α} {rest : List α} (hx : ¬ needle <+: x :: (text ++ rest))
    (h : Avoids needle text rest) : Avoids needle (x :: text) rest := by
  intro i hi
  cases i with
  | zero => exact hx
  | succ i => exact h i (Nat.lt_of_succ_lt_succ hi)

theorem Avoids.append {xs ys rest : List α} (hxs : Avoids needle xs (ys ++ rest))
    (hys : Avoids needle ys rest) : Avoids needle (xs ++ ys) rest := by
  induction xs with
  | nil => exact hys
  | cons x xs ih =>
    apply Avoids.cons
    . have hzero := hxs 0 (Nat.zero_lt_succ _)
      simpa using hzero
    . apply ih
      intro i hi
      exact hxs (i + 1) (Nat.succ_lt_succ hi)

end Avoids

section Cut

variable [DecidableEq α]

def cut (needle : List α) : List α → Option (List α × List α)
  | [] => if needle = [] then some ([], []) else none
  | x :: xs =>
    if needle <+: x :: xs then
      some ([], (x :: xs).drop needle.length)
    else
      (cut needle xs).map fun (before, after) => (x :: before, after)

theorem cut_cons_eq_some {x : α} (h : cut needle (x :: text) = some (before, after))
    : (needle <+: x :: text ∧ before = [] ∧ after = (x :: text).drop needle.length)
      ∨ (¬ needle <+: x :: text
        ∧ ∃ rest, before = x :: rest ∧ cut needle text = some (rest, after)) := by
  unfold cut at h
  split at h
  . next hstart =>
    cases h
    exact .inl ⟨hstart, rfl, rfl⟩
  . next hstart =>
    obtain ⟨⟨rest, after'⟩, hcut, heq⟩ := Option.map_eq_some_iff.mp h
    cases heq
    exact .inr ⟨hstart, rest, rfl, hcut⟩

theorem cut_eq (h : cut needle text = some (before, after)) : text = before ++ (needle ++ after) := by
  induction text generalizing before with
  | nil =>
    unfold cut at h
    split at h
    . next hnil =>
      cases h
      rw [hnil]
      rfl
    . contradiction
  | cons x text ih =>
    rcases cut_cons_eq_some h with ⟨hstart, rfl, rfl⟩ | ⟨-, rest, rfl, hcut⟩
    . obtain ⟨tail, htail⟩ := hstart
      rw [← htail, List.drop_left, List.nil_append]
    . rw [ih hcut, List.cons_append]

theorem length_le_of_cut (h : cut needle text = some (before, after))
    : before.length + needle.length ≤ text.length := by
  have hlength := congrArg List.length (cut_eq h)
  rw [List.length_append, List.length_append] at hlength
  omega

theorem cut_append (more : List α) (h : cut needle text = some (before, after))
    : cut needle (text ++ more) = some (before, after ++ more) := by
  induction text generalizing before with
  | nil =>
    unfold cut at h
    split at h
    . next hnil =>
      cases h
      subst hnil
      cases more <;> simp [cut]
    . contradiction
  | cons x text ih =>
    have hlength := length_le_of_cut h
    have hiff : needle <+: x :: (text ++ more) ↔ needle <+: x :: text := by
      rw [← List.cons_append]
      exact prefix_append_iff (by omega)
    rw [List.cons_append]
    unfold cut
    rcases cut_cons_eq_some h with ⟨hstart, rfl, rfl⟩ | ⟨hstart, rest, rfl, hcut⟩
    . rw [if_pos (hiff.mpr hstart), ← List.cons_append,
        List.drop_append_of_le_length hstart.length_le]
    . rw [if_neg (fun hmore => hstart (hiff.mp hmore)), ih hcut]
      rfl

theorem cut_of_append (h : cut needle (text ++ more) = some (before, after))
    (hlength : before.length + needle.length ≤ text.length)
    : ∃ rest, cut needle text = some (before, rest) ∧ after = rest ++ more := by
  induction text generalizing before with
  | nil =>
    have hneedle : needle = [] := by
      rw [← List.length_eq_zero_iff]
      have := hlength
      rw [List.length_nil] at this
      omega
    have hbefore : before = [] := by
      rw [← List.length_eq_zero_iff]
      have := hlength
      rw [List.length_nil] at this
      omega
    subst hneedle hbefore
    refine ⟨[], by simp [cut], ?_⟩
    have htext := cut_eq h
    simpa using htext.symm
  | cons x text ih =>
    rw [List.cons_append] at h
    have hiff : needle <+: x :: (text ++ more) ↔ needle <+: x :: text := by
      rw [← List.cons_append]
      exact prefix_append_iff (by omega)
    rcases cut_cons_eq_some h with ⟨hstart, rfl, rfl⟩ | ⟨hstart, rest, rfl, hcut⟩
    . rw [hiff] at hstart
      refine ⟨(x :: text).drop needle.length, ?_, ?_⟩
      . unfold cut
        rw [if_pos hstart]
      . rw [← List.cons_append, List.drop_append_of_le_length hstart.length_le]
    . rw [List.length_cons, List.length_cons] at hlength
      obtain ⟨tail, htail, hafter⟩ := ih hcut (by omega)
      refine ⟨tail, ?_, hafter⟩
      unfold cut
      rw [if_neg (fun htext => hstart (hiff.mpr htext)), htail]
      rfl

theorem exists_cut (needle xs ys : List α)
    : ∃ before after, cut needle (xs ++ (needle ++ ys)) = some (before, after)
        ∧ before.length ≤ xs.length := by
  induction xs with
  | nil =>
    rw [List.nil_append]
    cases htext : needle ++ ys with
    | nil =>
      rw [List.append_eq_nil_iff] at htext
      exact ⟨[], [], by simp [cut, htext.1], Nat.le_refl _⟩
    | cons x text =>
      have hstart : needle <+: x :: text := htext ▸ List.prefix_append needle ys
      refine ⟨[], (x :: text).drop needle.length, ?_, Nat.le_refl _⟩
      unfold cut
      rw [if_pos hstart]
  | cons x xs ih =>
    obtain ⟨before, after, hcut, hle⟩ := ih
    rw [List.cons_append]
    unfold cut
    split
    . exact ⟨[], _, rfl, Nat.zero_le _⟩
    . rw [hcut]
      exact ⟨x :: before, after, rfl, Nat.succ_le_succ hle⟩

theorem cut_append_of_avoids {rest : List α} (h : Avoids needle text rest)
    : cut needle (text ++ rest) = (cut needle rest).map fun found => (text ++ found.1, found.2) := by
  induction text with
  | nil => simp
  | cons x text ih =>
    have htext : Avoids needle text rest := fun i hi => h (i + 1) (Nat.succ_lt_succ hi)
    have hx : ¬ needle <+: x :: (text ++ rest) := h 0 (Nat.zero_lt_succ _)
    rw [List.cons_append, cut, if_neg hx, ih htext, Option.map_map]
    rfl

theorem cut_self {rest : List α} (hne : needle ≠ [])
    : cut needle (needle ++ rest) = some ([], rest) := by
  cases needle with
  | nil => contradiction
  | cons x needle =>
    rw [List.cons_append]
    unfold cut
    rw [if_pos (by rw [← List.cons_append]; exact List.prefix_append _ _), ← List.cons_append,
      List.drop_left]

section FirstMatch

variable {β : Type*} {p : List α → Option β} {key : List α} {m : β}

def firstMatch (p : List α → Option β) : List α → Option β
  | [] => p []
  | x :: text =>
    match p (x :: text) with
    | some m => some m
    | none => firstMatch p text

theorem firstMatch_of_cut (hkey : ∀ text m, p text = some m → key <+: text)
    (hcut : cut key text = some (before, after)) (hmatch : p (key ++ after) = some m)
    : firstMatch p text = some m := by
  have htext := cut_eq hcut
  induction text generalizing before with
  | nil =>
    rw [eq_comm, List.append_eq_nil_iff] at htext
    rw [htext.2] at hmatch
    exact hmatch
  | cons x text ih =>
    unfold firstMatch
    rcases cut_cons_eq_some hcut with ⟨hstart, rfl, -⟩ | ⟨hstart, rest, rfl, hrest⟩
    . rw [htext, List.nil_append, hmatch]
    . cases hx : p (x :: text) with
      | some m' => exact absurd (hkey _ _ hx) hstart
      | none => exact ih hrest (cut_eq hrest)

end FirstMatch

end Cut

end Search
