import Mathlib.Logic.Function.Basic
import Mathlib.Data.List.Basic

/-!
This module contains the descriptor table of a process: descriptors are handed out from the lowest
free number on, and a spawned process starts with a copy that file actions rearrange and from which
its `exec` drops the close-on-exec descriptors. `Owned` says which descriptors are whose.
-/

namespace Descriptors

structure Descriptor (α : Type) where
  file : α
  cloexec : Bool
  deriving DecidableEq, Repr

structure Table (α : Type) where
  get : Nat → Option (Descriptor α)
  top : Nat
  above : ∀ fd, top ≤ fd → get fd = none

namespace Table

variable {α : Type}

theorem update_above {get : Nat → Option (Descriptor α)} {top : Nat}
    (above : ∀ fd, top ≤ fd → get fd = none) (fd : Nat) (entry : Option (Descriptor α))
    : ∀ other, max top (fd + 1) ≤ other → Function.update get fd entry other = none := by
  intro other h
  rw [Function.update_of_ne (by omega)]
  exact above other (by omega)

def empty : Table α where
  get _ := none
  top := 0
  above _ _ := rfl

def set (t : Table α) (fd : Nat) (entry : Option (Descriptor α)) : Table α where
  get := Function.update t.get fd entry
  top := max t.top (fd + 1)
  above := update_above t.above fd entry

def search (t : Table α) : Nat → Nat → Nat
  | 0, fd => fd
  | fuel + 1, fd => if (t.get fd).isNone then fd else search t fuel (fd + 1)

def free (t : Table α) (least : Nat) : Nat := t.search (t.top - least) least

def close (t : Table α) (fd : Nat) : Table α := t.set fd none

def inherited (t : Table α) (fd : Nat) : Option (Descriptor α) :=
  (t.get fd).filter fun d => !d.cloexec

theorem inherited_above (t : Table α) (fd : Nat) (h : t.top ≤ fd) : t.inherited fd = none := by
  rw [inherited, t.above fd h]
  rfl

def exec (t : Table α) : Table α where
  get := t.inherited
  top := t.top
  above := t.inherited_above

variable {t u : Table α} {fd least old new : Nat} {d : Descriptor α} {entry : Option (Descriptor α)}

@[simp]
theorem get_empty : (empty : Table α).get fd = none := rfl

@[simp]
theorem get_set_self : (t.set fd entry).get fd = entry := Function.update_self ..

@[simp]
theorem get_set_of_ne (h : old ≠ fd) : (t.set fd entry).get old = t.get old :=
  Function.update_of_ne h ..

@[simp]
theorem get_close_self : (t.close fd).get fd = none := get_set_self

@[simp]
theorem get_close_of_ne (h : old ≠ fd) : (t.close fd).get old = t.get old := get_set_of_ne h

theorem get_exec_eq_some : t.exec.get fd = some d ↔ t.get fd = some d ∧ d.cloexec = false := by
  show (t.get fd).filter (fun d => !d.cloexec) = some d ↔ _
  rw [Option.filter_eq_some_iff]
  simp

theorem get_search (fuel : Nat) (h : t.top ≤ fd + fuel) : t.get (t.search fuel fd) = none := by
  induction fuel generalizing fd with
  | zero => exact t.above fd h
  | succ fuel ih =>
    rw [search]
    split
    . next hnone => exact Option.isNone_iff_eq_none.mp hnone
    . exact ih (by omega)

theorem le_search (fuel : Nat) : fd ≤ t.search fuel fd := by
  induction fuel generalizing fd with
  | zero => exact Nat.le_refl fd
  | succ fuel ih =>
    rw [search]
    split
    . exact Nat.le_refl fd
    . exact Nat.le_trans (Nat.le_succ fd) ih

@[simp]
theorem get_free : t.get (t.free least) = none := get_search _ (by omega)

theorem le_free : least ≤ t.free least := le_search _

/--
The actions that a spawned process performs on its own descriptors before its `exec`.
-/
inductive Action where
  | dup2 (old new : Nat)
  | close (fd : Nat)
  deriving DecidableEq, Repr

def act (t : Table α) : Action → Option (Table α)
  | .dup2 old new => (t.get old).map fun d => t.set new (some { d with cloexec := false })
  | .close fd => some (t.close fd)

def spawn (t : Table α) (actions : List Action) : Option (Table α) := (actions.foldlM act t).map exec

theorem redirect {pairs : List (Nat × Nat)} (hopen : ∀ p ∈ pairs, t.get p.1 ≠ none)
    (hapart : ∀ p ∈ pairs, ∀ q ∈ pairs, p.1 ≠ q.2) (hnodup : (pairs.map Prod.snd).Nodup)
    : ∃ u,
        (pairs.map fun p => Action.dup2 p.1 p.2).foldlM act t = some u
          ∧ (∀ p ∈ pairs, ∀ d, t.get p.1 = some d → u.get p.2 = some { d with cloexec := false })
          ∧ ∀ fd, (∀ p ∈ pairs, fd ≠ p.2) → u.get fd = t.get fd := by
  induction pairs generalizing t with
  | nil => exact ⟨t, rfl, by simp, by simp⟩
  | cons pair pairs ih =>
    obtain ⟨d, hd⟩ := Option.ne_none_iff_exists'.mp (hopen pair (by simp))
    rw [List.map_cons, List.nodup_cons] at hnodup
    have hsource : ∀ p ∈ pairs, p.1 ≠ pair.2 := fun p hp => hapart p (by simp [hp]) pair (by simp)
    let next := t.set pair.2 (some { d with cloexec := false })
    have hnext : ∀ p ∈ pairs, next.get p.1 = t.get p.1 := fun p hp => get_set_of_ne (hsource p hp)
    obtain ⟨u, hu, hpairs, hrest⟩ := @ih next
      (fun p hp => by
        rw [hnext p hp]
        exact hopen p (by simp [hp]))
      (fun p hp q hq => hapart p (by simp [hp]) q (by simp [hq])) hnodup.2
    refine ⟨u, ?_, ?_, ?_⟩
    . rw [List.map_cons, List.foldlM_cons, act, hd]
      exact hu
    . intro p hp e he
      cases hp with
      | head =>
        rw [hrest pair.2 fun q hq h => hnodup.1 (List.mem_map.mpr ⟨q, hq, h.symm⟩)]
        rw [hd] at he
        cases he
        exact get_set_self
      | tail _ hp => exact hpairs p hp e (by rw [hnext p hp, he])
    . intro fd hfd
      rw [hrest fd fun p hp => hfd p (by simp [hp])]
      exact get_set_of_ne (hfd pair (by simp))

theorem closes (fds : List Nat)
    : ∃ u,
        (fds.map Action.close).foldlM act t = some u
          ∧ ∀ fd, u.get fd = if fd ∈ fds then none else t.get fd := by
  induction fds generalizing t with
  | nil => exact ⟨t, rfl, by simp⟩
  | cons closed fds ih =>
    obtain ⟨u, hu, hget⟩ := @ih (t.close closed)
    refine ⟨u, hu, ?_⟩
    intro fd
    rw [hget fd]
    by_cases hfd : fd = closed
    . subst hfd
      simp
    . simp [hfd]

end Table

/--
The descriptors on the files of `mine` are those that `held` tells, all of them close-on-exec.
-/
structure Owned {α : Type} (mine : α → Prop) (held : Nat → α → Prop) (t : Table α) : Prop where
  accounted : ∀ fd d, t.get fd = some d → mine d.file → held fd d.file ∧ d.cloexec = true
  isOpen : ∀ fd file, held fd file → t.get fd = some ⟨file, true⟩

namespace Owned

variable {α : Type} {mine : α → Prop} {held held' : Nat → α → Prop} {t : Table α} {fd : Nat} {file : α}

theorem unique (h : Owned mine held t) {other : α} (hfd : held fd file) (hother : held fd other)
    : file = other := by
  have h₁ := h.isOpen fd file hfd
  rw [h.isOpen fd other hother] at h₁
  cases h₁
  rfl

theorem free (h : Owned mine held t) (hnone : t.get fd = none) : ¬ held fd file := by
  intro hheld
  rw [h.isOpen fd file hheld] at hnone
  cases hnone

theorem congr (h : Owned mine held t) (hheld : ∀ fd file, held' fd file ↔ held fd file)
    : Owned mine held' t := by
  refine ⟨?_, ?_⟩
  . intro fd d hd hmine
    rw [hheld]
    exact h.accounted fd d hd hmine
  . intro fd file hfile
    exact h.isOpen fd file ((hheld fd file).mp hfile)

theorem install (h : Owned mine held t) (hnone : t.get fd = none)
    (hheld : ∀ fd' file', held' fd' file' ↔ held fd' file' ∨ fd' = fd ∧ file' = file)
    : Owned mine held' (t.set fd (some ⟨file, true⟩)) := by
  refine ⟨?_, ?_⟩
  . intro fd' d hd hmine
    by_cases hfd : fd' = fd
    . subst hfd
      rw [Table.get_set_self] at hd
      cases hd
      exact ⟨(hheld fd' file).mpr (.inr ⟨rfl, rfl⟩), rfl⟩
    . rw [Table.get_set_of_ne hfd] at hd
      obtain ⟨hold, hcloexec⟩ := h.accounted fd' d hd hmine
      exact ⟨(hheld fd' d.file).mpr (.inl hold), hcloexec⟩
  . intro fd' file' hfile
    cases (hheld fd' file').mp hfile with
    | inl hold =>
      have hfd : fd' ≠ fd := fun heq => h.free hnone (heq ▸ hold)
      rw [Table.get_set_of_ne hfd]
      exact h.isOpen fd' file' hold
    | inr hnew =>
      rw [hnew.1, hnew.2]
      exact Table.get_set_self

theorem close (h : Owned mine held t)
    (hheld : ∀ fd' file', held' fd' file' ↔ held fd' file' ∧ fd' ≠ fd)
    : Owned mine held' (t.close fd) := by
  refine ⟨?_, ?_⟩
  . intro fd' d hd hmine
    have hfd : fd' ≠ fd := by
      intro heq
      rw [heq, Table.get_close_self] at hd
      cases hd
    rw [Table.get_close_of_ne hfd] at hd
    obtain ⟨hold, hcloexec⟩ := h.accounted fd' d hd hmine
    exact ⟨(hheld fd' d.file).mpr ⟨hold, hfd⟩, hcloexec⟩
  . intro fd' file' hfile
    obtain ⟨hold, hfd⟩ := (hheld fd' file').mp hfile
    rw [Table.get_close_of_ne hfd]
    exact h.isOpen fd' file' hold

theorem setOther (h : Owned mine held t) {entry : Option (Descriptor α)}
    (hold : ∀ d, t.get fd = some d → ¬ mine d.file) (hheld : ∀ fd file, held fd file → mine file)
    (hnew : ∀ d, entry = some d → ¬ mine d.file) : Owned mine held (t.set fd entry) := by
  refine ⟨?_, ?_⟩
  . intro fd' d hd hmine
    by_cases hfd : fd' = fd
    . subst hfd
      rw [Table.get_set_self] at hd
      exact absurd hmine (hnew d hd)
    . rw [Table.get_set_of_ne hfd] at hd
      exact h.accounted fd' d hd hmine
  . intro fd' file hfile
    have hopen := h.isOpen fd' file hfile
    have hfd : fd' ≠ fd := by
      intro heq
      rw [heq] at hopen
      exact hold _ hopen (hheld fd' file hfile)
    rw [Table.get_set_of_ne hfd]
    exact hopen

end Owned
end Descriptors
