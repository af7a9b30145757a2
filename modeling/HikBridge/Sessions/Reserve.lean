import HikBridge.Sessions.SessionRegistry
import Mathlib.Data.List.Infix

/-!
This module shows what the two atomic steps of an admission guarantee together: every slot comes back
once, and a refusal is always due to calls that held the slots or to a live reservation with the sid.
-/

namespace HikBridge
namespace Sessions

section Keys

theorem toUpper_ne_of_safe {c : UInt8} (h : isSafe c) : toUpper c ≠ 35 := by
  unfold toUpper
  split
  next hlower =>
    intro heq
    have hnat := congrArg UInt8.toNat heq
    simp only [Bool.and_eq_true, decide_eq_true_eq, UInt8.le_iff_toNat_le, UInt8.toNat_sub,
      UInt8.reduceToNat] at hlower hnat
    omega
  next =>
    intro heq
    rw [heq] at h
    exact absurd h (by decide)

theorem hash_not_mem (sid : SessionId) : (35 : UInt8) ∉ ignoreCase sid.chars := by
  unfold ignoreCase
  intro hmem
  obtain ⟨c, hc, heq⟩ := List.mem_map.mp hmem
  exact toUpper_ne_of_safe (sid.safe c hc) heq

theorem ignoreCase_retry (sid : SessionId) (guid : Bytes)
    : ignoreCase (sid.chars ++ Bytes.lit "#retry-" ++ guid)
        =
      ignoreCase sid.chars ++ 35 :: (ignoreCase (Bytes.lit "retry-") ++ ignoreCase guid) := by
  have hlit : Bytes.lit "#retry-" = 35 :: Bytes.lit "retry-" := by decide
  have hhash : toUpper 35 = 35 := by decide
  simp [ignoreCase, hlit, hhash]

theorem ignoreCase_retry_ne (sid sid' : SessionId) (guid : Bytes)
    : ignoreCase (sid.chars ++ Bytes.lit "#retry-" ++ guid) ≠ ignoreCase sid'.chars := by
  rw [ignoreCase_retry]
  intro h
  apply hash_not_mem sid'
  rw [← h]
  simp

theorem ignoreCase_retry_inj {sid sid' : SessionId} {guid guid' : Bytes}
    (h : ignoreCase (sid.chars ++ Bytes.lit "#retry-" ++ guid)
      = ignoreCase (sid'.chars ++ Bytes.lit "#retry-" ++ guid'))
    : ignoreCase guid = ignoreCase guid' := by
  rw [ignoreCase_retry, ignoreCase_retry] at h
  have hcut := congrArg (List.dropWhile (· != 35)) h
  have hne : ∀ sid : SessionId, ∀ c ∈ ignoreCase sid.chars, (c != 35) = true := by
    intro sid c hc
    rw [bne_iff_ne]
    intro heq
    exact hash_not_mem sid (heq ▸ hc)
  rw [List.dropWhile_append_of_pos (hne sid), List.dropWhile_append_of_pos (hne sid')] at hcut
  simpa using hcut

end Keys

section Calls

theorem exists_split {α : Type} {xs : List α} {i : Nat} {x : α} (h : xs[i]? = some x)
    : ∃ before after, xs = before ++ x :: after ∧ ∀ y, xs.set i y = before ++ y :: after := by
  obtain ⟨hi, rfl⟩ := List.getElem?_eq_some_iff.mp h
  refine ⟨xs.take i, xs.drop (i + 1), ?_, ?_⟩
  . simp
  . intro y
    rw [List.set_eq_take_append_cons_drop, if_pos hi]

variable {s s' : SessionRegistry} {i : Nat} {c : ReserveCall}

def ReserveCall.liveKey (c : ReserveCall) : Option Bytes :=
  if c.live then some (ignoreCase c.key) else none

theorem getElem?_of_callAt {pc : ReservePc} (h : s.callAt i pc = some c)
    : s.calls[i]? = some c ∧ c.pc = pc := by
  unfold SessionRegistry.callAt at h
  rw [Option.filter_eq_some_iff] at h
  simpa using h

/--
What is in the dictionary are the keys of the live reservations, all slots that are not free are held
by a call, and the key of a reservation is made from its sid.
-/
structure Inv (s : SessionRegistry) : Prop where
  slots : s.slots.currentCount + s.calls.countP ReserveCall.holdsSlot = s.slots.maximum
  keys : s.ids.Perm (s.calls.filterMap ReserveCall.liveKey)
  nodup : s.ids.Nodup
  plain : ∀ c ∈ s.calls, c.live → c.allowDuplicate = false → c.key = c.sid.chars
  retry : ∀ c ∈ s.calls, c.live → c.allowDuplicate = true →
    ∃ guid, ignoreCase guid ∈ s.guids ∧ c.key = c.sid.chars ++ Bytes.lit "#retry-" ++ guid
  sound : ∀ c ∈ s.calls, c.pc ≠ .kept ∧ c.pc ≠ .faulted

theorem filterMap_liveKey_perm (before after : List ReserveCall) (c : ReserveCall)
    : ((before ++ c :: after).filterMap ReserveCall.liveKey).Perm
        (c.liveKey.toList ++ (before ++ after).filterMap ReserveCall.liveKey) := by
  rw [List.filterMap_append, List.filterMap_append, List.filterMap_cons]
  cases c.liveKey with
  | none => simp
  | some key => exact List.perm_middle

def slotsOf (pc : ReservePc) : Nat := if pc.holdsSlot then 1 else 0

theorem Inv.change (h : Inv s) (hc : s.calls[i]? = some c) (c' : ReserveCall)
    (hcalls : s'.calls = s.calls.set i c') (hmax : s'.slots.maximum = s.slots.maximum)
    (hslots : s'.slots.currentCount + slotsOf c'.pc = s.slots.currentCount + slotsOf c.pc)
    (hkeys : ∀ rest, s.ids.Perm (c.liveKey.toList ++ rest) → s'.ids.Perm (c'.liveKey.toList ++ rest))
    (hnodup : s'.ids.Nodup) (hguids : s.guids ⊆ s'.guids)
    (hplain : c'.live → c'.allowDuplicate = false → c'.key = c'.sid.chars)
    (hretry : c'.live → c'.allowDuplicate = true → ∃ guid, ignoreCase guid ∈ s'.guids
      ∧ c'.key = c'.sid.chars ++ Bytes.lit "#retry-" ++ guid)
    (hsound : c'.pc ≠ .kept ∧ c'.pc ≠ .faulted) : Inv s' := by
  obtain ⟨before, after, hbefore, hset⟩ := exists_split hc
  rw [hset c'] at hcalls
  have hmem : ∀ d ∈ s'.calls, d = c' ∨ d ∈ s.calls := by
    intro d hd
    rw [hcalls] at hd
    rw [hbefore]
    simp only [List.mem_append, List.mem_cons] at hd ⊢
    tauto
  refine ⟨?_, ?_, hnodup, ?_, ?_, ?_⟩
  . have hold := h.slots
    rw [hbefore, List.countP_append, List.countP_cons] at hold
    rw [hcalls, List.countP_append, List.countP_cons, hmax]
    unfold slotsOf at hslots
    unfold ReserveCall.holdsSlot at hold ⊢
    omega
  . rw [hcalls]
    have hperm := h.keys
    rw [hbefore] at hperm
    exact (hkeys _ (hperm.trans (filterMap_liveKey_perm _ _ _))).trans
      (filterMap_liveKey_perm _ _ _).symm
  . intro d hd
    rcases hmem d hd with rfl | hd
    . exact hplain
    . exact h.plain d hd
  . intro d hd
    rcases hmem d hd with rfl | hd
    . exact hretry
    . intro hlive hdup
      obtain ⟨guid, hguid, hkey⟩ := h.retry d hd hlive hdup
      exact ⟨guid, hguids hguid, hkey⟩
  . intro d hd
    rcases hmem d hd with rfl | hd
    . exact hsound
    . exact h.sound d hd

theorem mem_calls (hc : s.calls[i]? = some c) : c ∈ s.calls := List.mem_of_getElem? hc

theorem Inv.mem_ids (h : Inv s) (hc : c ∈ s.calls) (hlive : c.live) : ignoreCase c.key ∈ s.ids := by
  rw [h.keys.mem_iff, List.mem_filterMap]
  exact ⟨c, hc, by simp [ReserveCall.liveKey, hlive]⟩

theorem Inv.exists_live (h : Inv s) {key : Bytes} (hkey : key ∈ s.ids)
    : ∃ c ∈ s.calls, c.live ∧ ignoreCase c.key = key := by
  rw [h.keys.mem_iff, List.mem_filterMap] at hkey
  obtain ⟨c, hc, hlive⟩ := hkey
  unfold ReserveCall.liveKey at hlive
  split at hlive
  next hl =>
    cases hlive
    exact ⟨c, hc, hl, rfl⟩
  next => cases hlive

theorem Inv.lt_maximum (h : Inv s) (hc : c ∈ s.calls) (hholds : c.holdsSlot)
    : s.slots.currentCount < s.slots.maximum := by
  have hpos : 0 < s.calls.countP ReserveCall.holdsSlot := List.countP_pos_iff.mpr ⟨c, hc, hholds⟩
  have hslots := h.slots
  omega

end Calls

section Steps

variable {s s' : SessionRegistry} {i : Nat} {c : ReserveCall}

theorem inv_create (maximum : Nat) : Inv (SessionRegistry.create maximum) := by
  constructor
  all_goals simp [SessionRegistry.create]

theorem inv_reserve (h : Inv s) (sid : SessionId) (allowDuplicate : Bool)
    : Inv { s with calls := s.calls ++ [{ sid, allowDuplicate }] } := by
  have hmem : ∀ c ∈ s.calls ++ [({ sid, allowDuplicate } : ReserveCall)],
      c.pc = .entered ∨ c ∈ s.calls := by
    intro c hc
    rcases List.mem_append.mp hc with hc | hc
    . exact .inr hc
    . rw [List.mem_singleton.mp hc]
      exact .inl rfl
  constructor
  . have hslots := h.slots
    simp only [List.countP_append, List.countP_singleton]
    exact hslots
  . rw [List.filterMap_append]
    simpa [ReserveCall.liveKey, ReserveCall.live, ReservePc.live] using h.keys
  . exact h.nodup
  . intro c hc
    rcases hmem c hc with hpc | hc
    . simp [ReserveCall.live, ReservePc.live, hpc]
    . exact h.plain c hc
  . intro c hc
    rcases hmem c hc with hpc | hc
    . simp [ReserveCall.live, ReservePc.live, hpc]
    . exact h.retry c hc
  . intro c hc
    rcases hmem c hc with hpc | hc
    . simp [hpc]
    . exact h.sound c hc

theorem Inv.changeSlots (h : Inv s) (hc : s.calls[i]? = some c) (slots : SemaphoreSlim) (pc : ReservePc)
    (hmax : slots.maximum = s.slots.maximum)
    (hslots : slots.currentCount + slotsOf pc = s.slots.currentCount + slotsOf c.pc)
    (hlive : pc.live = c.pc.live) (hsound : pc ≠ .kept ∧ pc ≠ .faulted)
    : Inv { s.setCall i { c with pc } with slots } := by
  have hmem := mem_calls hc
  apply h.change hc { c with pc } rfl hmax hslots
  . intro rest hperm
    unfold ReserveCall.liveKey ReserveCall.live at hperm ⊢
    rw [hlive]
    exact hperm
  . exact h.nodup
  . exact List.Subset.refl _
  . intro hl
    exact h.plain c hmem (hlive.symm.trans hl)
  . intro hl
    exact h.retry c hmem (hlive.symm.trans hl)
  . exact hsound

theorem inv_wait (h : Inv s) (hc : s.calls[i]? = some c) (hpc : c.pc = .entered)
    : Inv (s.stepWait i c) := by
  unfold SessionRegistry.stepWait SemaphoreSlim.wait
  split
  next slots hwait =>
    split at hwait
    next => cases hwait
    next hne =>
      cases hwait
      apply h.changeSlots hc
      . rfl
      . rw [hpc]
        show s.slots.currentCount - 1 + 1 = s.slots.currentCount + 0
        omega
      . rw [hpc]
        rfl
      . simp
  next =>
    apply h.changeSlots hc s.slots .limited rfl
    . rw [hpc]
      rfl
    . rw [hpc]
      rfl
    . simp

theorem inv_release (h : Inv s) (hc : s.calls[i]? = some c) {pc : ReservePc}
    (hbefore : c.pc.inProgress) (hafter : pc.holdsSlot = false) (hsound : pc ≠ .kept ∧ pc ≠ .faulted)
    : Inv (s.stepRelease i c pc) := by
  have hlive : c.pc.live = false := by
    cases hpc : c.pc
    all_goals simp_all [ReservePc.live, ReservePc.inProgress]
  have hholds : c.pc.holdsSlot = true := by simp [ReservePc.holdsSlot, hbefore]
  have hlt := h.lt_maximum (mem_calls hc) hholds
  unfold SessionRegistry.stepRelease SemaphoreSlim.release
  rw [if_neg (by omega)]
  apply h.changeSlots hc
  . rfl
  . simp [slotsOf, hholds, hafter]
  . rw [ReservePc.holdsSlot, Bool.or_eq_false_iff] at hafter
    rw [hlive, hafter.1]
  . exact hsound

theorem inv_dispose (h : Inv s) (hc : s.calls[i]? = some c) (hpc : c.pc = .reserved)
    : Inv (s.setCall i { c with pc := .disposing }) := by
  apply h.changeSlots hc s.slots .disposing rfl
  . rw [hpc]
    rfl
  . rw [hpc]
    rfl
  . simp

theorem inv_tryAdd (h : Inv s) (hc : s.calls[i]? = some c) (hpc : c.pc = .holding) (guid : Bytes)
    : Inv (s.stepTryAdd i guid c) := by
  have hguids : s.guids ⊆ if c.allowDuplicate then ignoreCase guid :: s.guids else s.guids := by
    split
    . exact List.subset_cons_self _ _
    . exact List.Subset.refl _
  unfold SessionRegistry.stepTryAdd
  dsimp only
  split
  next =>
    apply h.change hc { c with pc := .refused }
    . rfl
    . rfl
    . rw [hpc]
      rfl
    . intro rest hperm
      show s.ids.Perm _
      simpa [ReserveCall.liveKey, ReserveCall.live, ReservePc.live, hpc] using hperm
    . exact h.nodup
    . exact hguids
    . intro hlive
      cases hlive
    . intro hlive
      cases hlive
    . simp
  next hnew =>
    apply h.change hc { c with key := c.keyFor guid, pc := .reserved }
    . rfl
    . rfl
    . rw [hpc]
      rfl
    . intro rest hperm
      have hperm' : s.ids.Perm rest := by
        simpa [ReserveCall.liveKey, ReserveCall.live, ReservePc.live, hpc] using hperm
      exact hperm'.cons _
    . exact List.nodup_cons.mpr ⟨hnew, h.nodup⟩
    . exact hguids
    . intro _ hdup
      simp [ReserveCall.keyFor, show c.allowDuplicate = false from hdup]
    . intro _ hdup
      have hdup' : c.allowDuplicate = true := hdup
      refine ⟨guid, ?_, ?_⟩
      . simp [hdup']
      . simp [ReserveCall.keyFor, hdup']
    . simp

theorem inv_tryRemove (h : Inv s) (hc : s.calls[i]? = some c) (hpc : c.pc = .disposing)
    : Inv (s.stepTryRemove i c) := by
  have hlive : c.live = true := by
    unfold ReserveCall.live
    rw [hpc]
    rfl
  unfold SessionRegistry.stepTryRemove
  rw [if_pos (h.mem_ids (mem_calls hc) hlive)]
  apply h.change hc { c with pc := .removed }
  . rfl
  . rfl
  . rw [hpc]
    rfl
  . intro rest hperm
    have herase := hperm.erase (ignoreCase c.key)
    rw [ReserveCall.liveKey, if_pos hlive, Option.toList_some, List.singleton_append,
      List.erase_cons_head] at herase
    exact herase
  . exact h.nodup.erase _
  . exact List.Subset.refl _
  . intro hl
    cases hl
  . intro hl
    cases hl
  . simp

theorem inv_step (s : SessionRegistry) (e : ReserveEvent) (s' : SessionRegistry) (h : Inv s)
    (hstep : SessionRegistry.step s e = some s') : Inv s' := by
  cases e with
  | reserve sid allowDuplicate =>
    cases hstep
    exact inv_reserve h sid allowDuplicate
  | wait i =>
    obtain ⟨c, hat, rfl⟩ := Option.map_eq_some_iff.mp hstep
    obtain ⟨hc, hpc⟩ := getElem?_of_callAt hat
    exact inv_wait h hc hpc
  | tryAdd i guid =>
    simp only [SessionRegistry.step] at hstep
    split at hstep
    next => cases hstep
    next c hat =>
      obtain ⟨hc, hpc⟩ := getElem?_of_callAt hat
      split at hstep
      next => cases hstep
      next =>
        cases hstep
        exact inv_tryAdd h hc hpc guid
  | dispose i =>
    simp only [SessionRegistry.step] at hstep
    split at hstep
    next => cases hstep
    next c hc =>
      split at hstep
      next hpc =>
        cases hstep
        exact inv_dispose h hc hpc
      next =>
        split at hstep
        next =>
          cases hstep
          exact h
        next => cases hstep
  | tryRemove i =>
    obtain ⟨c, hat, rfl⟩ := Option.map_eq_some_iff.mp hstep
    obtain ⟨hc, hpc⟩ := getElem?_of_callAt hat
    exact inv_tryRemove h hc hpc
  | release i =>
    simp only [SessionRegistry.step] at hstep
    split at hstep
    next => cases hstep
    next c hc =>
      split at hstep
      next hpc =>
        cases hstep
        exact inv_release h hc (by rw [hpc]; rfl) rfl (by simp)
      next =>
        split at hstep
        next hpc =>
          cases hstep
          exact inv_release h hc (by rw [hpc]; rfl) rfl (by simp)
        next => cases hstep

end Steps

section Moves

variable {s s' : SessionRegistry} {i j : Nat} {c c' : ReserveCall} {e : ReserveEvent}

inductive Moves : ReserveEvent → Nat → ReservePc → ReservePc → Prop where
  | acquire (i : Nat) : Moves (.wait i) i .entered .holding
  | limit (i : Nat) : Moves (.wait i) i .entered .limited
  | insert (i : Nat) (guid : Bytes) : Moves (.tryAdd i guid) i .holding .reserved
  | refuse (i : Nat) (guid : Bytes) : Moves (.tryAdd i guid) i .holding .refused
  | dispose (i : Nat) : Moves (.dispose i) i .reserved .disposing
  | remove (i : Nat) : Moves (.tryRemove i) i .disposing .removed
  | giveBack (i : Nat) : Moves (.release i) i .removed .released
  | compensate (i : Nat) : Moves (.release i) i .refused .duplicate

theorem stepRelease_eq (h : Inv s) (hc : s.calls[i]? = some c) (hholds : c.pc.inProgress)
    (pc : ReservePc) : (s.stepRelease i c pc).calls = s.calls.set i { c with pc } := by
  have hlt := h.lt_maximum (mem_calls hc) (by simp [ReserveCall.holdsSlot, ReservePc.holdsSlot, hholds])
  unfold SessionRegistry.stepRelease SemaphoreSlim.release
  rw [if_neg (by omega)]
  rfl

theorem step_moves (h : Inv s) (hstep : SessionRegistry.step s e = some s')
    : (∃ sid allowDuplicate, e = .reserve sid allowDuplicate
          ∧ s'.calls = s.calls ++ [({ sid, allowDuplicate } : ReserveCall)])
        ∨ (∃ i, e = .dispose i ∧ s' = s)
        ∨ ∃ i c c', s.calls[i]? = some c ∧ s'.calls = s.calls.set i c' ∧ Moves e i c.pc c'.pc := by
  cases e with
  | reserve sid allowDuplicate =>
    cases hstep
    exact .inl ⟨sid, allowDuplicate, rfl, rfl⟩
  | wait i =>
    obtain ⟨c, hat, rfl⟩ := Option.map_eq_some_iff.mp hstep
    obtain ⟨hc, hpc⟩ := getElem?_of_callAt hat
    refine .inr (.inr ⟨i, c, ?_⟩)
    rw [hpc]
    unfold SessionRegistry.stepWait
    split
    . exact ⟨_, hc, rfl, .acquire i⟩
    . exact ⟨_, hc, rfl, .limit i⟩
  | tryAdd i guid =>
    simp only [SessionRegistry.step] at hstep
    split at hstep
    next => cases hstep
    next c hat =>
      obtain ⟨hc, hpc⟩ := getElem?_of_callAt hat
      refine .inr (.inr ⟨i, c, ?_⟩)
      rw [hpc]
      split at hstep
      next => cases hstep
      next =>
        cases hstep
        unfold SessionRegistry.stepTryAdd
        dsimp only
        split
        . exact ⟨_, hc, rfl, .refuse i guid⟩
        . exact ⟨_, hc, rfl, .insert i guid⟩
  | dispose i =>
    simp only [SessionRegistry.step] at hstep
    split at hstep
    next => cases hstep
    next c hc =>
      split at hstep
      next hpc =>
        cases hstep
        refine .inr (.inr ⟨i, c, _, hc, rfl, ?_⟩)
        rw [hpc]
        exact .dispose i
      next =>
        split at hstep
        next =>
          cases hstep
          exact .inr (.inl ⟨i, rfl, rfl⟩)
        next => cases hstep
  | tryRemove i =>
    obtain ⟨c, hat, rfl⟩ := Option.map_eq_some_iff.mp hstep
    obtain ⟨hc, hpc⟩ := getElem?_of_callAt hat
    have hlive : c.live = true := by
      unfold ReserveCall.live
      rw [hpc]
      rfl
    refine .inr (.inr ⟨i, c, { c with pc := .removed }, hc, ?_, ?_⟩)
    . unfold SessionRegistry.stepTryRemove
      rw [if_pos (h.mem_ids (mem_calls hc) hlive)]
      rfl
    . rw [hpc]
      exact .remove i
  | release i =>
    simp only [SessionRegistry.step] at hstep
    split at hstep
    next => cases hstep
    next c hc =>
      refine .inr (.inr ⟨i, c, ?_⟩)
      split at hstep
      next hpc =>
        cases hstep
        refine ⟨_, hc, stepRelease_eq h hc (by rw [hpc]; rfl) _, ?_⟩
        rw [hpc]
        exact .compensate i
      next =>
        split at hstep
        next hpc =>
          cases hstep
          refine ⟨_, hc, stepRelease_eq h hc (by rw [hpc]; rfl) _, ?_⟩
          rw [hpc]
          exact .giveBack i
        next => cases hstep

def pcAt (s : SessionRegistry) (i : Nat) : Option ReservePc := s.calls[i]?.map ReserveCall.pc

theorem pcAt_eq_some {pc : ReservePc} : pcAt s i = some pc ↔ ∃ c, s.calls[i]? = some c ∧ c.pc = pc := by
  unfold pcAt
  rw [Option.map_eq_some_iff]

theorem Moves.ne_release {pc pc' : ReservePc} (h : Moves e j pc pc') (hne : j ≠ i) : e ≠ .release i := by
  cases h
  all_goals
    intro heq
    cases heq
  . exact hne rfl
  . exact hne rfl

theorem pcAt_of_set (c' : ReserveCall) (hc : s.calls[i]? = some c) (hcalls : s'.calls = s.calls.set i c')
    : pcAt s' i = some c'.pc := by
  obtain ⟨hlt, -⟩ := List.getElem?_eq_some_iff.mp hc
  exact pcAt_eq_some.mpr ⟨c', by rw [hcalls, List.getElem?_set_self hlt], rfl⟩

/--
A step moves one call at most, or adds one.
-/
theorem pcAt_step (h : Inv s) (hstep : SessionRegistry.step s e = some s') (i : Nat)
    : (pcAt s' i = pcAt s i ∧ e ≠ .release i)
        ∨ (pcAt s i = none ∧ pcAt s' i = some .entered ∧ e ≠ .release i)
        ∨ ∃ pc pc', pcAt s i = some pc ∧ pcAt s' i = some pc' ∧ Moves e i pc pc' := by
  rcases step_moves h hstep with ⟨sid, dup, rfl, hcalls⟩ | ⟨j, rfl, rfl⟩ | ⟨j, c, c', hc, hcalls, hmoves⟩
  . unfold pcAt
    rw [hcalls]
    rcases lt_trichotomy i s.calls.length with hlt | rfl | hgt
    . rw [List.getElem?_append_left hlt]
      exact .inl ⟨rfl, by simp⟩
    . exact .inr (.inl (by simp))
    . have hlen : (s.calls ++ [({ sid, allowDuplicate := dup } : ReserveCall)]).length ≤ i := by
        rw [List.length_append, List.length_singleton]
        omega
      rw [List.getElem?_eq_none hlen, List.getElem?_eq_none (by omega)]
      exact .inl ⟨rfl, by simp⟩
  . exact .inl ⟨rfl, by simp⟩
  . by_cases hij : j = i
    . subst hij
      exact .inr (.inr ⟨c.pc, c'.pc, pcAt_eq_some.mpr ⟨c, hc, rfl⟩, pcAt_of_set c' hc hcalls, hmoves⟩)
    . unfold pcAt
      rw [hcalls, List.getElem?_set_ne hij]
      exact .inl ⟨rfl, hmoves.ne_release hij⟩

def backs (s : SessionRegistry) (i : Nat) : Nat :=
  if (pcAt s i).any ReservePc.gaveBack then 1 else 0

theorem backs_step (h : Inv s) (hstep : SessionRegistry.step s e = some s') (i : Nat)
    : backs s' i = backs s i + if e = .release i then 1 else 0 := by
  unfold backs
  rcases pcAt_step h hstep i with ⟨hpc, hne⟩ | ⟨hpc, hpc', hne⟩ | ⟨pc, pc', hpc, hpc', hmoves⟩
  . rw [hpc, if_neg hne]
    rfl
  . rw [hpc, hpc', if_neg hne]
    rfl
  . rw [hpc, hpc']
    cases hmoves
    all_goals simp [ReservePc.gaveBack]

theorem backs_run (h : Inv s) {es : List ReserveEvent}
    (hrun : Machine.run SessionRegistry.step s es = some s') (i : Nat)
    : backs s' i = backs s i + es.count (.release i) := by
  induction es generalizing s with
  | nil =>
    cases hrun
    simp
  | cons e es ih =>
    obtain ⟨t, hstep, hrest⟩ := Machine.run_cons_eq_some.mp hrun
    rw [ih (inv_step s e t h hstep) hrest, backs_step h hstep i, List.count_cons]
    simp only [beq_iff_eq]
    omega

end Moves

section Answers

variable {s s' : SessionRegistry} {i : Nat} {maximum : Nat} {es : List ReserveEvent}

theorem inv_of_run (hrun : Machine.run SessionRegistry.step (.create maximum) es = some s) : Inv s :=
  Machine.run_invariant inv_step (inv_create maximum) hrun

theorem wait_maximum {slots slots' : SemaphoreSlim} (h : slots.wait = some slots')
    : slots'.maximum = slots.maximum := by
  unfold SemaphoreSlim.wait at h
  split at h
  next => cases h
  next =>
    cases h
    rfl

theorem release_maximum {slots slots' : SemaphoreSlim} (h : slots.release = some slots')
    : slots'.maximum = slots.maximum := by
  unfold SemaphoreSlim.release at h
  split at h
  next => cases h
  next =>
    cases h
    rfl

theorem stepRelease_maximum (s : SessionRegistry) (i : Nat) (c : ReserveCall) (pc : ReservePc)
    : (s.stepRelease i c pc).slots.maximum = s.slots.maximum := by
  unfold SessionRegistry.stepRelease
  split
  next hrelease => exact release_maximum hrelease
  next => rfl

theorem maximum_step (s : SessionRegistry) (e : ReserveEvent) (s' : SessionRegistry)
    (h : s.slots.maximum = maximum) (hstep : SessionRegistry.step s e = some s')
    : s'.slots.maximum = maximum := by
  rw [← h]
  cases e with
  | reserve sid allowDuplicate =>
    cases hstep
    rfl
  | wait i =>
    obtain ⟨c, -, rfl⟩ := Option.map_eq_some_iff.mp hstep
    unfold SessionRegistry.stepWait
    split
    next hwait => exact wait_maximum hwait
    next => rfl
  | tryAdd i guid =>
    simp only [SessionRegistry.step] at hstep
    split at hstep
    next => cases hstep
    next =>
      split at hstep
      next => cases hstep
      next =>
        cases hstep
        unfold SessionRegistry.stepTryAdd
        dsimp only
        split
        . rfl
        . rfl
  | dispose i =>
    simp only [SessionRegistry.step] at hstep
    split at hstep
    next => cases hstep
    next =>
      split at hstep
      next =>
        cases hstep
        rfl
      next =>
        split at hstep
        next =>
          cases hstep
          rfl
        next => cases hstep
  | tryRemove i =>
    obtain ⟨c, -, rfl⟩ := Option.map_eq_some_iff.mp hstep
    unfold SessionRegistry.stepTryRemove
    split
    . rfl
    . rfl
  | release i =>
    simp only [SessionRegistry.step] at hstep
    split at hstep
    next => cases hstep
    next =>
      split at hstep
      next =>
        cases hstep
        apply stepRelease_maximum
      next =>
        split at hstep
        next =>
          cases hstep
          apply stepRelease_maximum
        next => cases hstep

theorem countP_holdsSlot (calls : List ReserveCall)
    : calls.countP ReserveCall.holdsSlot
        =
      calls.countP ReserveCall.live + calls.countP ReserveCall.inProgress := by
  induction calls with
  | nil => rfl
  | cons c calls ih =>
    rw [List.countP_cons, List.countP_cons, List.countP_cons, ih]
    unfold ReserveCall.holdsSlot ReserveCall.live ReserveCall.inProgress
    cases c.pc
    all_goals simp [ReservePc.holdsSlot, ReservePc.live, ReservePc.inProgress]
    all_goals omega

structure During (maximum : Nat) (es : List ReserveEvent) (i : Nat) (v : SessionRegistry) : Prop where
  moment : ∃ before, before <+: es ∧ Machine.run SessionRegistry.step (.create maximum) before = some v
  within : pcAt v i = some .entered ∨ pcAt v i = some .holding

theorem limit_of_step (h : Inv s) (hstep : SessionRegistry.step s (.wait i) = some s')
    (hpc : pcAt s' i = some .limited) : s.calls.countP ReserveCall.holdsSlot = s.slots.maximum := by
  obtain ⟨c, hat, rfl⟩ := Option.map_eq_some_iff.mp hstep
  obtain ⟨hc, -⟩ := getElem?_of_callAt hat
  have hslots := h.slots
  unfold SessionRegistry.stepWait SemaphoreSlim.wait at hpc
  split at hpc
  next =>
    rw [pcAt_of_set { c with pc := .holding } hc rfl] at hpc
    cases hpc
  next hwait =>
    split at hwait
    next hzero => omega
    next => cases hwait

def SidLive (s : SessionRegistry) (i : Nat) : Prop :=
  ∃ (c : ReserveCall) (j : Nat) (d : ReserveCall),
    s.calls[i]? = some c
      ∧ s.calls[j]? = some d
      ∧ d.live
      ∧ ignoreCase d.sid.chars = ignoreCase c.sid.chars

theorem duplicate_of_step (h : Inv s) {guid : Bytes}
    (hstep : SessionRegistry.step s (.tryAdd i guid) = some s') (hpc : pcAt s' i = some .refused)
    : SidLive s i := by
  simp only [SessionRegistry.step] at hstep
  split at hstep
  next => cases hstep
  next c hat =>
    obtain ⟨hc, -⟩ := getElem?_of_callAt hat
    split at hstep
    next => cases hstep
    next hfresh =>
      cases hstep
      unfold SessionRegistry.stepTryAdd at hpc
      dsimp only at hpc
      split at hpc
      next hmem =>
        obtain ⟨d, hd, hlive, hkey⟩ := h.exists_live hmem
        obtain ⟨j, hj⟩ := List.getElem?_of_mem hd
        refine ⟨c, j, d, hc, hj, hlive, ?_⟩
        unfold ReserveCall.keyFor at hkey
        cases hdup : c.allowDuplicate with
        | true =>
          rw [hdup, if_pos rfl] at hkey
          cases hdup' : d.allowDuplicate with
          | true =>
            obtain ⟨guid', hguid', hd'⟩ := h.retry d hd hlive hdup'
            rw [hd'] at hkey
            rw [ignoreCase_retry_inj hkey] at hguid'
            simp [hdup, hguid'] at hfresh
          | false =>
            rw [h.plain d hd hlive hdup'] at hkey
            exact absurd hkey.symm (ignoreCase_retry_ne _ _ _)
        | false =>
          rw [hdup, if_neg (by simp)] at hkey
          cases hdup' : d.allowDuplicate with
          | true =>
            obtain ⟨guid', -, hd'⟩ := h.retry d hd hlive hdup'
            rw [hd'] at hkey
            exact absurd hkey (ignoreCase_retry_ne _ _ _)
          | false =>
            rw [h.plain d hd hlive hdup'] at hkey
            exact hkey
      next =>
        rw [pcAt_of_set { c with key := c.keyFor guid, pc := .reserved } hc rfl] at hpc
        cases hpc

theorem During.of_run {before after : List ReserveEvent}
    (hrun : Machine.run SessionRegistry.step (.create maximum) before = some s)
    (hpc : pcAt s i = some .entered ∨ pcAt s i = some .holding) : During maximum (before ++ after) i s :=
  ⟨⟨before, List.prefix_append _ _, hrun⟩, hpc⟩

theorem limited_of_run (hrun : Machine.run SessionRegistry.step (.create maximum) es = some s)
    (hpc : pcAt s i = some .limited)
    : ∃ v, During maximum es i v
        ∧ v.calls.countP ReserveCall.live + v.calls.countP ReserveCall.inProgress = maximum := by
  obtain ⟨before, e, after, t, t', rfl, hbefore, hstep, ht, ht'⟩ :=
    Machine.exists_step_of_run (Q := fun t => pcAt t i = some .limited) hrun
      (by simp [pcAt, SessionRegistry.create]) hpc
  have hinv := inv_of_run hbefore
  have hmax := Machine.run_invariant (I := fun t => t.slots.maximum = maximum) maximum_step rfl hbefore
  rcases pcAt_step hinv hstep i with ⟨hsame, -⟩ | ⟨-, hentered, -⟩ | ⟨pc, pc', hpc, hpc', hmoves⟩
  . rw [hsame] at ht'
    exact absurd ht' ht
  . rw [hentered] at ht'
    cases ht'
  . rw [hpc'] at ht'
    cases ht'
    cases hmoves
    refine ⟨t, .of_run hbefore (.inl hpc), ?_⟩
    rw [← countP_holdsSlot, limit_of_step hinv hstep hpc', hmax]

theorem duplicate_of_run (hrun : Machine.run SessionRegistry.step (.create maximum) es = some s)
    (hpc : pcAt s i = some .refused ∨ pcAt s i = some .duplicate)
    : ∃ v, During maximum es i v ∧ SidLive v i := by
  obtain ⟨before, e, after, t, t', rfl, hbefore, hstep, ht, ht'⟩ :=
    Machine.exists_step_of_run (Q := fun t => pcAt t i = some .refused ∨ pcAt t i = some .duplicate) hrun
      (by simp [pcAt, SessionRegistry.create]) hpc
  have hinv := inv_of_run hbefore
  rcases pcAt_step hinv hstep i with ⟨hsame, -⟩ | ⟨-, hentered, -⟩ | ⟨pc, pc', hpc, hpc', hmoves⟩
  . rw [hsame] at ht'
    exact absurd ht' ht
  . rw [hentered] at ht'
    simp at ht'
  . rw [hpc'] at ht'
    rw [hpc] at ht
    cases hmoves with
    | refuse i guid => exact ⟨t, .of_run hbefore (.inr hpc), duplicate_of_step hinv hstep hpc'⟩
    | compensate => exact absurd (.inl rfl) ht
    | _ => simp at ht'

/--
The registry over any run: the slots that calls hold and those that are free are all of them, each
call gives its slot back once at most, a `Dispose` never misses its key and `Release` never overflows.
A call is answered SESSION_LIMIT only if at some moment of it live reservations and calls in
progress held all slots, and DUPLICATE_SID only if at some moment of it the sid was live.
-/
theorem admission (hrun : Machine.run SessionRegistry.step (.create maximum) es = some s)
    : s.slots.currentCount ≤ maximum
        ∧ (∀ i, pcAt s i ≠ some .kept ∧ pcAt s i ≠ some .faulted)
        ∧ (∀ i, es.count (.release i) = if (pcAt s i).any ReservePc.gaveBack then 1 else 0)
        ∧ (∀ i, pcAt s i = some .limited → ∃ v, During maximum es i v
            ∧ v.calls.countP ReserveCall.live + v.calls.countP ReserveCall.inProgress = maximum)
        ∧ (∀ i, pcAt s i = some .refused ∨ pcAt s i = some .duplicate →
            ∃ v, During maximum es i v ∧ SidLive v i) := by
  have hinv := inv_of_run hrun
  have hmax := Machine.run_invariant (I := fun t => t.slots.maximum = maximum) maximum_step rfl hrun
  refine ⟨?_, ?_, ?_, fun i => limited_of_run hrun, fun i => duplicate_of_run hrun⟩
  . have hslots := hinv.slots
    omega
  . intro i
    constructor
    . intro hpc
      obtain ⟨c, hc, hkept⟩ := pcAt_eq_some.mp hpc
      exact (hinv.sound c (mem_calls hc)).1 hkept
    . intro hpc
      obtain ⟨c, hc, hfaulted⟩ := pcAt_eq_some.mp hpc
      exact (hinv.sound c (mem_calls hc)).2 hfaulted
  . intro i
    have hbacks := backs_run (inv_create maximum) hrun i
    have hzero : backs (.create maximum) i = 0 := rfl
    rw [hzero, Nat.zero_add] at hbacks
    exact hbacks.symm

def crowdedRun : List ReserveEvent :=
  let live : SessionId := ⟨Bytes.lit "live-001", List.all_eq_true.mp (by decide)⟩
  let upper : SessionId := ⟨Bytes.lit "LIVE-001", List.all_eq_true.mp (by decide)⟩
  let other : SessionId := ⟨Bytes.lit "live-002", List.all_eq_true.mp (by decide)⟩
  [.reserve live false, .wait 0, .tryAdd 0 [], .reserve upper false, .wait 1, .reserve other false,
    .wait 2, .tryAdd 1 [], .release 1]

/--
The third client is refused although no more than one reservation is ever live.
-/
theorem session_limit_below_maximum
    : ∃ s, Machine.run SessionRegistry.step (.create 2) crowdedRun = some s
        ∧ pcAt s 2 = some .limited
        ∧ ∀ v, During 2 crowdedRun 2 v → v.calls.countP ReserveCall.live < 2 := by
  refine ⟨_, rfl, rfl, ?_⟩
  rintro v ⟨⟨before, hprefix, hbefore⟩, -⟩
  rw [← List.mem_inits] at hprefix
  have hall : ∀ before ∈ crowdedRun.inits,
      (Machine.run SessionRegistry.step (.create 2) before).all
        fun v => v.calls.countP ReserveCall.live < 2 := by decide
  simpa [hbefore] using hall before hprefix

/--
One client plays and a second one with its sid is refused.
-/
theorem admission_crowdedRun
    : ∃ s, Machine.run SessionRegistry.step (.create 2) crowdedRun = some s
        ∧ crowdedRun.count (.release 1) = 1
        ∧ ∃ v, During 2 crowdedRun 1 v ∧ SidLive v 1 := by
  obtain ⟨s, hrun, hpc⟩ : ∃ s, Machine.run SessionRegistry.step (.create 2) crowdedRun = some s
      ∧ pcAt s 1 = some .duplicate := ⟨_, rfl, rfl⟩
  have h := admission hrun
  refine ⟨s, hrun, ?_, h.2.2.2.2 1 (.inr hpc)⟩
  rw [h.2.2.1 1, hpc]
  rfl

end Answers

end Sessions
end HikBridge
