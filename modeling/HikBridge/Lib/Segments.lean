import Mathlib.Data.List.Basic
import Mathlib.Data.Nat.Find

/-!
This module contains loops that collect the pieces of a stream until they have seen enough. Whether
such a loop depends on where the stream is cut is decided by two of its prefixes.
-/

namespace Segments

variable {α β : Type}

structure Cuts (size : Nat) (stream : List α) (pieces : List (List α)) : Prop where
  flatten : pieces.flatten = stream
  nonempty : ∀ piece ∈ pieces, piece ≠ []
  bounded : ∀ piece ∈ pieces, piece.length ≤ size

def collect (ready : List α → Bool) (limit : Nat) (result : List α) : List (List α) → Option (List α)
  | [] => none
  | piece :: pieces =>
    if limit ≤ result.length then
      none
    else if ready (result ++ piece) then
      some (result ++ piece)
    else
      collect ready limit (result ++ piece) pieces

-- What was enough once is enough with more behind it.
def Grows (ready : List α → Bool) : Prop := ∀ xs ys, ready xs = true → ready (xs ++ ys) = true

-- What two prefixes agree on, those between them say too.
def Convex (f : List α → β) : Prop := ∀ xs ys zs, f xs = f (xs ++ ys ++ zs) → f (xs ++ ys) = f xs

structure Completes (ready : List α → Bool) (stream : List α) (k : Nat) : Prop where
  le : k ≤ stream.length
  enough : ready (stream.take k) = true
  before : ∀ n < k, ready (stream.take n) = false

-- Every element on its own, but for one piece.
def cutAt (c size : Nat) (stream : List α) : List (List α) :=
  (stream.take c).map (fun x => [x]) ++ (stream.drop c).take size ::
    ((stream.drop c).drop size).map fun x => [x]

section

variable {ready : List α → Bool} {limit size k : Nat} {stream : List α}

theorem flatten_singletons (xs : List α) : (xs.map fun x => [x]).flatten = xs := by
  induction xs with
  | nil => rfl
  | cons x xs ih => simp [ih]

theorem cuts_cutAt {c len : Nat} (hc : c < stream.length) (hlen : 0 < len) (hsize : len ≤ size)
    : Cuts size stream (cutAt c len stream) := by
  have hmem : ∀ piece ∈ cutAt c len stream,
      (∃ x, piece = [x]) ∨ piece = (stream.drop c).take len := by
    intro piece hpiece
    unfold cutAt at hpiece
    rw [List.mem_append, List.mem_cons, List.mem_map, List.mem_map] at hpiece
    rcases hpiece with ⟨x, _, hx⟩ | hpiece | ⟨x, _, hx⟩
    . exact .inl ⟨x, hx.symm⟩
    . exact .inr hpiece
    . exact .inl ⟨x, hx.symm⟩
  constructor
  . unfold cutAt
    rw [List.flatten_append, List.flatten_cons, flatten_singletons, flatten_singletons,
      List.take_append_drop, List.take_append_drop]
  . intro piece hpiece hnil
    rcases hmem piece hpiece with ⟨x, hx⟩ | hx
    . simp [hx] at hnil
    . have hlength := congrArg List.length (hx.symm.trans hnil)
      simp at hlength
      omega
  . intro piece hpiece
    rcases hmem piece hpiece with ⟨x, hx⟩ | hx
    . simp [hx]
      omega
    . simp [hx]
      omega

theorem Completes.ready_iff (h : Completes ready stream k) (hready : Grows ready) {result : List α}
    (hresult : result <+: stream) : ready result = true ↔ k ≤ result.length := by
  obtain ⟨rest, rfl⟩ := hresult
  constructor
  . intro hr
    by_contra hlt
    have := h.before result.length (by omega)
    rw [List.take_left, hr] at this
    contradiction
  . intro hle
    have := hready _ (result.drop k) h.enough
    rw [List.take_append_of_le_length hle, List.take_append_drop] at this
    exact this

theorem exists_completes {n : Nat} (h : ready (stream.take n) = true)
    : ∃ k, Completes ready stream k ∧ k ≤ n := by
  have hex : ∃ n, ready (stream.take n) = true := ⟨n, h⟩
  have hfind := Nat.find_spec hex
  have hmin : ∀ m < Nat.find hex, ready (stream.take m) = false := by
    intro m hm
    simpa using Nat.find_min hex hm
  refine ⟨Nat.find hex, ⟨?_, hfind, hmin⟩, Nat.find_min' hex h⟩
  by_contra hlt
  have hlong := hmin stream.length (by omega)
  rw [List.take_length] at hlong
  rw [List.take_of_length_le (by omega)] at hfind
  rw [hlong] at hfind
  contradiction

theorem collect_eq_some {result r : List α} {pieces : List (List α)}
    (hstream : result ++ pieces.flatten = stream) (hresult : ready result = false)
    (hbounded : ∀ piece ∈ pieces, piece.length ≤ size)
    (h : collect ready limit result pieces = some r)
    : r <+: stream ∧ ready r = true ∧
        ∃ c, c <+: r ∧ ready c = false ∧ c.length < limit ∧ r.length ≤ c.length + size := by
  induction pieces generalizing result with
  | nil => contradiction
  | cons piece pieces ih =>
    unfold collect at h
    rw [List.flatten_cons, ← List.append_assoc] at hstream
    split at h
    . contradiction
    . next hlimit =>
      split at h
      . next hr =>
        cases h
        refine ⟨⟨_, hstream⟩, hr, result, List.prefix_append _ _, hresult, by omega, ?_⟩
        have := hbounded piece (by simp)
        simp
        omega
      . next hr =>
        apply ih hstream (by simpa using hr) _ h
        intro other hother
        exact hbounded other (by simp [hother])

theorem collect_ne_none (hk : Completes ready stream k) (hready : Grows ready) (hlimit : k ≤ limit)
    {result : List α} {pieces : List (List α)} (hstream : result ++ pieces.flatten = stream)
    (hresult : ready result = false) : collect ready limit result pieces ≠ none := by
  induction pieces generalizing result with
  | nil =>
    intro _
    have hstart : result <+: stream := ⟨_, hstream⟩
    have hlength := congrArg List.length hstream
    simp at hlength
    have := (hk.ready_iff hready hstart).mpr (by have := hk.le; omega)
    rw [hresult] at this
    contradiction
  | cons piece pieces ih =>
    have hstart : result <+: stream := ⟨_, hstream⟩
    rw [List.flatten_cons, ← List.append_assoc] at hstream
    unfold collect
    split
    . have := (hk.ready_iff hready hstart).mpr (by omega)
      rw [hresult] at this
      contradiction
    . split
      . simp
      . next hr => exact ih hstream (by simpa using hr)

theorem collect_singletons {result xs : List α} {pieces : List (List α)}
    (hlimit : result.length + xs.length ≤ limit)
    (hnot : ∀ n, ready (result ++ xs.take n) = false)
    : collect ready limit result (xs.map (fun x => [x]) ++ pieces)
        = collect ready limit (result ++ xs) pieces := by
  induction xs generalizing result with
  | nil => simp
  | cons x xs ih =>
    rw [List.map_cons, List.cons_append, collect]
    simp at hlimit
    have hx := hnot 1
    simp at hx
    rw [if_neg (by omega), hx]
    rw [if_neg (by simp), ih]
    . simp
    . simp
      omega
    . intro n
      have := hnot (n + 1)
      simpa using this

theorem collect_take (hk : Completes ready stream k) {c : Nat} (hc : c < k) (hlimit : c ≤ limit)
    (pieces : List (List α))
    : collect ready limit [] ((stream.take c).map (fun x => [x]) ++ pieces)
        = collect ready limit (stream.take c) pieces := by
  have := hk.le
  rw [collect_singletons]
  . simp
  . simp
    omega
  . intro n
    rw [List.nil_append, List.take_take]
    apply hk.before
    omega

theorem collect_cutAt (hk : Completes ready stream k) (hready : Grows ready) {c len : Nat}
    (hc : c < k) (hlimit : c < limit) (hlen : k ≤ c + len)
    : collect ready limit [] (cutAt c len stream) = some (stream.take (c + len)) := by
  have hle := hk.le
  unfold cutAt
  rw [collect_take hk hc (by omega), collect, if_neg (by simp; omega), ← List.take_add, if_pos]
  apply (hk.ready_iff hready (List.take_prefix _ _)).mpr
  simp
  omega

theorem collect_cutAt_limit (hk : Completes ready stream k) (hlimit : limit < k)
    : collect ready limit [] (cutAt limit 1 stream) = none := by
  have hle := hk.le
  unfold cutAt
  rw [collect_take hk hlimit (by omega), collect, if_pos (by simp; omega)]

theorem collect_eq_take (hk : Completes ready stream k) (hready : Grows ready)
    (hnil : ready [] = false) {pieces : List (List α)} (hcuts : Cuts size stream pieces)
    {r : List α} (h : collect ready limit [] pieces = some r)
    : k < limit + size ∧ ∃ n, k ≤ n ∧ n ≤ k - 1 + size ∧ r = stream.take n := by
  have ⟨hstart, hr, c, hc, hnot, hlimit, hlength⟩ :=
    collect_eq_some hcuts.flatten hnil hcuts.bounded h
  have hk_r := (hk.ready_iff hready hstart).mp hr
  have hk_c : ¬ k ≤ c.length := by
    rw [← hk.ready_iff hready (hc.trans hstart), hnot]
    simp
  exact ⟨by omega, r.length, hk_r, by omega, List.prefix_iff_eq_take.mp hstart⟩

/--
A loop does not depend on the cuts exactly if it is complete within its limit or not at all, and the
prefix that completes it says the same as the longest one that may arrive with it.
-/
theorem collect_independent {f : List α → β} (hready : Grows ready) (hnil : ready [] = false)
    (hlimit : 0 < limit) (hsize : 0 < size) (hf : Convex f) (stream : List α)
    : (∀ pieces pieces', Cuts size stream pieces → Cuts size stream pieces' →
          (collect ready limit [] pieces).map f = (collect ready limit [] pieces').map f)
        ↔
      ∀ k, Completes ready stream k → k < limit + size →
        k ≤ limit ∧ f (stream.take k) = f (stream.take (k - 1 + size)) := by
  constructor
  . intro h k hk hbound
    have hle := hk.le
    have hpos : 0 < k := by
      rcases Nat.eq_zero_or_pos k with hzero | hpos
      . have := hk.enough
        simp [hzero, hnil] at this
      . exact hpos
    by_cases hwithin : k ≤ limit
    . refine ⟨hwithin, ?_⟩
      have := h (cutAt (k - 1) 1 stream) (cutAt (k - 1) size stream)
        (cuts_cutAt (by omega) (by omega) (by omega)) (cuts_cutAt (by omega) hsize (by omega))
      rw [collect_cutAt hk hready (by omega) (by omega) (by omega),
        collect_cutAt hk hready (by omega) (by omega) (by omega)] at this
      rw [Nat.sub_add_cancel hpos] at this
      simpa using this
    . have := h (cutAt limit 1 stream) (cutAt (limit - 1) size stream)
        (cuts_cutAt (by omega) (by omega) (by omega)) (cuts_cutAt (by omega) hsize (by omega))
      rw [collect_cutAt_limit hk (by omega),
        collect_cutAt hk hready (by omega) (by omega) (by omega)] at this
      simp at this
  . intro h
    by_cases hex : ∃ k, Completes ready stream k ∧ k < limit + size
    . obtain ⟨k, hk, hbound⟩ := hex
      have ⟨hwithin, hends⟩ := h k hk hbound
      have hsome : ∀ pieces, Cuts size stream pieces →
          (collect ready limit [] pieces).map f = some (f (stream.take k)) := by
        intro pieces hcuts
        have hne := collect_ne_none hk hready hwithin hcuts.flatten hnil
        obtain ⟨r, hr⟩ := Option.ne_none_iff_exists'.mp hne
        have ⟨_, n, hkn, hn, htake⟩ := collect_eq_take hk hready hnil hcuts hr
        rw [hr, Option.map_some, htake]
        obtain ⟨d, rfl⟩ := Nat.exists_eq_add_of_le hkn
        obtain ⟨e, he⟩ := Nat.exists_eq_add_of_le hn
        rw [he, List.take_add, List.take_add] at hends
        rw [List.take_add]
        exact congrArg some (hf _ _ _ hends)
      intro pieces pieces' hcuts hcuts'
      rw [hsome pieces hcuts, hsome pieces' hcuts']
    . have hnone : ∀ pieces, Cuts size stream pieces → collect ready limit [] pieces = none := by
        intro pieces hcuts
        by_contra hne
        obtain ⟨r, hr⟩ := Option.ne_none_iff_exists'.mp hne
        have hstart := (collect_eq_some hcuts.flatten hnil hcuts.bounded hr)
        have htake := hstart.2.1
        rw [List.prefix_iff_eq_take.mp hstart.1] at htake
        obtain ⟨k, hk, _⟩ := exists_completes htake
        exact hex ⟨k, hk, (collect_eq_take hk hready hnil hcuts hr).1⟩
      intro pieces pieces' hcuts hcuts'
      rw [hnone pieces hcuts, hnone pieces' hcuts']

end

end Segments
