import HikBridge.Lib.Expiring
import HikBridge.VideoCodecCache.Persistence

/-!
This module contains the round trip of the cache through its file: a process loads what an earlier
one saved, except for what has expired in between.
-/

namespace HikBridge

namespace VideoCodecCache

open Expiring

structure Valid (key : Bytes) (entry : Entry) : Prop where
  key : key ≠ []
  codec : entry.codec ≠ .Unknown
  time : IsTime entry.expires

def lookup (items : Items) (key : Bytes) : Option Entry := items[key]?

structure Saved (file : Option Bytes) (f : Bytes → Option Entry) : Prop where
  valid : ∀ key entry, f key = some entry → Valid key entry
  loads : ∀ ttl cacheFile now, 0 < ttl → cacheFile ≠ [] →
    lookup (Cache.create ttl cacheFile file now).items = fun key => live Entry.expires now (f key)

theorem lookup_empty : lookup ∅ = fun _ => none := by
  funext key
  simp [lookup]

theorem lookup_insert (items : Items) (key : Bytes) (entry : Entry)
    : lookup (items.insert key entry) = Function.update (lookup items) key (some entry) := by
  funext k
  unfold lookup
  rw [Std.TreeMap.getElem?_insert]
  by_cases hk : k = key
  . rw [hk, Function.update_self]
    simp
  . rw [Function.update_of_ne hk]
    simp [Ne.symm hk]

theorem lookup_erase (items : Items) (key : Bytes)
    : lookup (items.erase key) = Function.update (lookup items) key none := by
  funext k
  unfold lookup
  rw [Std.TreeMap.getElem?_erase]
  by_cases hk : k = key
  . rw [hk, Function.update_self]
    simp
  . rw [Function.update_of_ne hk]
    simp [Ne.symm hk]

section

variable {ttl now saved : Int} {cacheFile : Bytes} {items : Items}

theorem loadRow_row {key : Bytes} {entry : Entry} (hvalid : Valid key entry)
    : Cache.loadRow now items (row key entry)
        =
      if now < entry.expires then items.insert key entry else items := by
  unfold Cache.loadRow
  rw [parseRow_row hvalid.key hvalid.codec hvalid.time]
  by_cases hlt : now < entry.expires
  . simp [hlt, hvalid.codec]
  . simp [hlt, Int.not_lt.mp hlt]

theorem foldl_loadRow {written : List (Bytes × Entry)}
    (hvalid : ∀ item ∈ written, Valid item.1 item.2)
    (hkeys : written.Pairwise fun x y => x.1 ≠ y.1) (key : Bytes) (entry : Entry)
    : lookup ((written.map fun item => row item.1 item.2).foldl (Cache.loadRow now) items) key
          = some entry
        ↔
      ((key, entry) ∈ written ∧ now < entry.expires)
        ∨ (lookup items key = some entry ∧ ∀ e, (key, e) ∈ written → ¬ now < e.expires) := by
  induction written generalizing items with
  | nil => simp
  | cons item written ih =>
    obtain ⟨k, e⟩ := item
    rw [List.pairwise_cons] at hkeys
    rw [List.map_cons, List.foldl_cons, loadRow_row (hvalid (k, e) (by simp)),
      ih (fun item h => hvalid item (by simp [h])) hkeys.2]
    have hother : ∀ e', (k, e') ∉ written := fun e' hmem => hkeys.1 (k, e') hmem rfl
    by_cases hlt : now < e.expires
    . rw [if_pos hlt, lookup_insert]
      by_cases hk : key = k
      . subst hk
        simp [hother, eq_comm]
        grind
      . simp [hk]
    . rw [if_neg hlt]
      by_cases hk : key = k
      . subst hk
        simp [hother]
        grind
      . simp [hk]

theorem applyAll_write (disk : Disk) (text : Bytes) (lines : List Bytes)
    : Disk.applyAll { disk with temporary := some text }
          (lines.map fun line => .write (line ++ [newline]))
        =
      { disk with temporary := some (text ++ lines.flatMap fun line => line ++ [newline]) } := by
  unfold Disk.applyAll
  induction lines generalizing text with
  | nil => simp
  | cons line lines ih =>
    rw [List.map_cons, List.foldl_cons, List.flatMap_cons, ← List.append_assoc text]
    exact ih (text ++ (line ++ [newline]))

theorem file_persistLocked {cache : Cache} (httl : 0 < cache.ttl) (hfile : cache.cacheFile ≠ [])
    (disk : Disk)
    : (disk.applyAll (cache.persistLocked saved)).file
        =
      some ((Cache.rows cache.items saved).flatMap fun line => line ++ [newline]) := by
  have hguard : ¬ (cache.ttl ≤ 0 ∨ cache.cacheFile = []) := by
    simp [hfile, httl]
  have hwrite := applyAll_write disk [] (Cache.rows cache.items saved)
  unfold Disk.applyAll at hwrite
  unfold Cache.persistLocked Disk.applyAll
  rw [if_neg hguard, List.foldl_append, List.foldl_append]
  simp only [List.foldl_cons, List.foldl_nil, Disk.apply, hwrite, List.nil_append]

theorem lookup_load {text : Bytes} (httl : 0 < ttl) (hfile : cacheFile ≠ [])
    : lookup (Cache.create ttl cacheFile (some text) now).items
        =
      lookup ((Delimited.lines newline text).foldl (Cache.loadRow now) ∅) := by
  have hguard : ¬ (ttl ≤ 0 ∨ cacheFile = []) := by
    simp [hfile, httl]
  unfold Cache.create Cache.load
  simp only [if_neg hguard]

theorem saved_persistLocked (cache : Cache) (saved : Int) (httl : 0 < cache.ttl) (hfile : cache.cacheFile ≠ [])
    (hvalid : ∀ key entry, lookup cache.items key = some entry → Valid key entry) (disk : Disk)
    : Saved (disk.applyAll (cache.persistLocked saved)).file fun key =>
        live Entry.expires saved (lookup cache.items key) := by
  constructor
  . intro key entry h
    exact hvalid key entry (live_eq_some.mp h).1
  . intro ttl' cacheFile' now httl' hfile'
    let written := cache.items.toList.filter fun item => decide (saved < item.2.expires)
    have hmem : ∀ key entry, (key, entry) ∈ written
        ↔ live Entry.expires saved (lookup cache.items key) = some entry := by
      intro key entry
      rw [live_eq_some, List.mem_filter, Std.TreeMap.mem_toList_iff_getElem?_eq_some,
        decide_eq_true_eq]
      rfl
    have hwritten : ∀ item ∈ written, Valid item.1 item.2 := by
      intro item hitem
      exact hvalid _ _ (live_eq_some.mp ((hmem item.1 item.2).mp hitem)).1
    have hkeys : written.Pairwise fun x y => x.1 ≠ y.1 := by
      apply List.Pairwise.filter
      apply Std.TreeMap.distinct_keys_toList.imp
      intro x y hne heq
      exact hne (by simp [heq])
    have hlines : ∀ line ∈ Cache.rows cache.items saved, newline ∉ line := by
      intro line hline
      obtain ⟨item, _, rfl⟩ := List.mem_map.mp hline
      apply newline_not_mem_row
    rw [file_persistLocked httl hfile, lookup_load httl' hfile', Delimited.lines_flatMap hlines]
    funext key
    apply Option.ext
    intro entry
    unfold Cache.rows
    rw [foldl_loadRow hwritten hkeys, live_eq_some, hmem]
    simp [lookup]

theorem saved_none : Saved none fun _ => none := by
  constructor
  . intro key entry h
    contradiction
  . intro ttl cacheFile now httl hfile
    unfold Cache.create Cache.load
    rw [ite_self, lookup_empty]
    rfl

end

end VideoCodecCache

end HikBridge
