import Mathlib.Data.List.Forall2
import HikBridge.SessionRegistry.Calls

/-!
This module contains the invariant of the runs of a `SessionRegistry`. It ties the generation of the
registry to the number of cleans, the registered states to the leases that are alive and the flag of
a state to the cleans that ran since it registered.
-/

namespace HikBridge
namespace SessionRegistry

theorem token_eq_append (epoch : Bytes) (sequence : UInt64)
    : token epoch sequence = epoch ++ 45 :: Bytes.ofNat sequence.toNat := by
  have hhyphen : Bytes.lit "-" = [45] := by decide
  simp [token, hhyphen]

theorem token_ne_nil (epoch : Bytes) (sequence : UInt64) : token epoch sequence ≠ [] := by
  simp [token_eq_append]

/--
The encoding of epoch and sequence number is injective, whatever the epoch contains.
-/
theorem token_injective {epoch epoch' : Bytes} {sequence sequence' : UInt64}
    (h : token epoch sequence = token epoch' sequence')
    : epoch = epoch' ∧ sequence = sequence' := by
  rw [token_eq_append, token_eq_append] at h
  obtain ⟨hepoch, hnumber⟩ := Numeral.eq_of_append_cons_eq (Bytes.hyphen_not_mem_ofNat _)
    (Bytes.hyphen_not_mem_ofNat _) h
  refine ⟨hepoch, ?_⟩
  rw [← UInt64.toNat_inj]
  exact Bytes.ofNat_injective hnumber

theorem create_generation (max : Int32) (now : Int)
    : (create max now).generation = token (Bytes.ofInt now) 0 := by
  have hzero : Bytes.lit "-0" = Bytes.lit "-" ++ Bytes.ofNat (0 : UInt64).toNat := by decide
  simp [create, token, hzero]

end SessionRegistry

namespace Admission

structure Paired (epoch : Bytes) (cleans : Nat) (lease : Lease) (state : State) : Prop where
  id_eq : state.id = lease.id
  born_le : lease.born ≤ cleans
  generation_eq : state.generation = SessionRegistry.token epoch (UInt64.ofNat lease.born)
  cancelled_iff : state.cancelled = true ↔ lease.born < cleans

structure Inv (max : Int32) (epoch : Bytes) (w : Admission) : Prop where
  max_eq : w.registry.max = max
  epoch_eq : w.registry.epoch = epoch
  sequence_eq : w.registry.sequence = UInt64.ofNat w.cleans
  generation_eq : w.registry.generation = SessionRegistry.token epoch (UInt64.ofNat w.cleans)
  cleaned_iff : w.registry.cleaned = true ↔ 0 < w.cleans
  paired : List.Forall₂ (Paired epoch w.cleans) w.leases w.registry.states
  nodup : (w.leases.map Lease.id).Nodup
  lease_lt : ∀ lease ∈ w.leases, lease.id < w.fresh
  length_le : w.registry.states.length ≤ w.registry.maxSize
  affected_nodup : w.affected.flatten.Nodup
  affected_lt : ∀ id ∈ w.affected.flatten, id < w.fresh
  affected_iff : ∀ lease ∈ w.leases, lease.id ∈ w.affected.flatten ↔ lease.born < w.cleans

variable {max : Int32} {epoch : Bytes} {w w' : Admission}

theorem inv_create (max : Int32) (now : Int) : Inv max (Bytes.ofInt now) (create max now) where
  max_eq := rfl
  epoch_eq := rfl
  sequence_eq := rfl
  generation_eq := SessionRegistry.create_generation max now
  cleaned_iff := by simp [create, SessionRegistry.create, cleans]
  paired := .nil
  nodup := .nil
  lease_lt := by simp [create]
  length_le := by simp [create, SessionRegistry.create]
  affected_nodup := .nil
  affected_lt := by simp [create]
  affected_iff := by simp [create]

theorem Inv.ids_eq (h : Inv max epoch w)
    : w.registry.states.map State.id = w.leases.map Lease.id := by
  have hpaired := h.paired
  generalize w.registry.states = states at hpaired
  generalize w.leases = leases at hpaired
  induction hpaired with
  | nil => rfl
  | cons hp _ ih => rw [List.map_cons, List.map_cons, hp.id_eq, ih]

theorem Inv.register (h : Inv max epoch w) (sid : Bytes) (fd : Int)
    (hroom : w.registry.states.length < w.registry.maxSize)
    : Inv max epoch { w with
        registry := { w.registry with
          states := w.registry.states ++ [w.registry.newState w.fresh sid fd] }
        leases := w.leases ++ [⟨w.fresh, w.cleans⟩]
        fresh := w.fresh + 1 } where
  max_eq := h.max_eq
  epoch_eq := h.epoch_eq
  sequence_eq := h.sequence_eq
  generation_eq := h.generation_eq
  cleaned_iff := h.cleaned_iff
  paired := by
    apply List.rel_append h.paired
    refine .cons ⟨rfl, Nat.le_refl _, h.generation_eq, ?_⟩ .nil
    simp [SessionRegistry.newState, cleans]
  nodup := by
    rw [List.map_append, List.nodup_append]
    refine ⟨h.nodup, by simp, ?_⟩
    intro id hid id' hid'
    obtain ⟨lease, hlease, rfl⟩ := List.mem_map.mp hid
    have hlt := h.lease_lt lease hlease
    simp only [List.map_cons, List.map_nil, List.mem_singleton] at hid'
    omega
  lease_lt := by
    intro lease hlease
    rcases List.mem_append.mp hlease with hlease | hlease
    . exact Nat.lt_succ_of_lt (h.lease_lt lease hlease)
    . rw [List.mem_singleton.mp hlease]
      exact Nat.lt_succ_self _
  length_le := by
    simp only [List.length_append, List.length_singleton]
    exact hroom
  affected_nodup := h.affected_nodup
  affected_lt := fun id hid => Nat.lt_succ_of_lt (h.affected_lt id hid)
  affected_iff := by
    intro lease hlease
    rcases List.mem_append.mp hlease with hlease | hlease
    . exact h.affected_iff lease hlease
    . rw [List.mem_singleton.mp hlease]
      have hnew : w.fresh ∉ w.affected.flatten := by
        intro hmem
        exact Nat.lt_irrefl _ (h.affected_lt _ hmem)
      simp [hnew, cleans]

theorem Inv.mem_affected (h : Inv max epoch w) {id : Nat}
    (hid : id ∈ w.registry.clean.2.map State.id)
    : ∃ lease ∈ w.leases, lease.id = id ∧ lease.born = w.cleans := by
  rw [SessionRegistry.clean_affected] at hid
  obtain ⟨state, hstate, rfl⟩ := List.mem_map.mp hid
  obtain ⟨hmem, hcancelled⟩ := List.mem_filter.mp hstate
  obtain ⟨i, hi, rfl⟩ := List.getElem_of_mem hmem
  have hi' : i < w.leases.length := by
    rw [h.paired.length_eq]
    exact hi
  have hp : Paired epoch w.cleans w.leases[i] w.registry.states[i] := h.paired.get hi' hi
  refine ⟨w.leases[i], List.getElem_mem hi', hp.id_eq.symm, ?_⟩
  have hborn : ¬ w.leases[i].born < w.cleans := by
    rw [← hp.cancelled_iff]
    simpa using hcancelled
  have hle := hp.born_le
  omega

theorem Inv.clean (h : Inv max epoch w)
    : Inv max epoch { w with
        registry := w.registry.clean.1
        affected := w.affected ++ [w.registry.clean.2.map State.id] } where
  max_eq := h.max_eq
  epoch_eq := h.epoch_eq
  sequence_eq := by
    simp [cleans, h.sequence_eq]
  generation_eq := by
    simp [cleans, h.sequence_eq, h.epoch_eq]
  cleaned_iff := by simp [cleans]
  paired := by
    rw [SessionRegistry.clean_states]
    rw [List.forall₂_map_right_iff]
    apply h.paired.imp
    intro lease state hp
    refine ⟨hp.id_eq, ?_, hp.generation_eq, ?_⟩
    . exact Nat.le_trans hp.born_le (by simp [cleans])
    . have hle := hp.born_le
      simp [cleans] at hle ⊢
      omega
  nodup := h.nodup
  lease_lt := h.lease_lt
  length_le := by
    simpa [SessionRegistry.maxSize] using h.length_le
  affected_nodup := by
    have hnodup : (w.registry.clean.2.map State.id).Nodup := by
      rw [SessionRegistry.clean_affected]
      apply List.Nodup.sublist (List.Sublist.map _ List.filter_sublist)
      rw [h.ids_eq]
      exact h.nodup
    rw [List.flatten_append, List.flatten_singleton, List.nodup_append]
    refine ⟨h.affected_nodup, hnodup, ?_⟩
    rintro id hold id' hnew rfl
    obtain ⟨lease, hlease, rfl, hborn⟩ := h.mem_affected hnew
    have := (h.affected_iff lease hlease).mp hold
    omega
  affected_lt := by
    intro id hid
    rw [List.flatten_append, List.flatten_singleton, List.mem_append] at hid
    rcases hid with hid | hid
    . exact h.affected_lt id hid
    . obtain ⟨lease, hlease, rfl, -⟩ := h.mem_affected hid
      exact h.lease_lt lease hlease
  affected_iff := by
    intro lease hlease
    obtain ⟨i, hi, rfl⟩ := List.getElem_of_mem hlease
    have hi' : i < w.registry.states.length := by
      rw [← h.paired.length_eq]
      exact hi
    have hp : Paired epoch w.cleans w.leases[i] w.registry.states[i] := h.paired.get hi hi'
    have hle := hp.born_le
    have hlt : w.leases[i].born < w.cleans + 1 := by omega
    simp only [cleans, List.length_append, List.length_singleton, List.flatten_append,
      List.flatten_singleton, List.mem_append]
    refine ⟨fun _ => hlt, fun _ => ?_⟩
    by_cases hborn : w.leases[i].born < w.cleans
    . left
      exact (h.affected_iff _ hlease).mpr hborn
    . right
      have hcancelled : w.registry.states[i].cancelled = false := by
        rw [← Bool.not_eq_true, hp.cancelled_iff]
        exact hborn
      rw [SessionRegistry.clean_affected]
      apply List.mem_map.mpr
      refine ⟨w.registry.states[i], List.mem_filter.mpr ⟨List.getElem_mem hi', ?_⟩, hp.id_eq⟩
      simp [hcancelled]

theorem Inv.release (h : Inv max epoch w) (id : Nat)
    : Inv max epoch { w with
        registry := w.registry.release id
        leases := w.leases.filter fun lease => lease.id != id } where
  max_eq := h.max_eq
  epoch_eq := h.epoch_eq
  sequence_eq := h.sequence_eq
  generation_eq := h.generation_eq
  cleaned_iff := h.cleaned_iff
  paired := by
    apply List.rel_filter _ h.paired
    intro lease state hp
    simp [hp.id_eq]
  nodup := List.Nodup.sublist (List.Sublist.map _ List.filter_sublist) h.nodup
  lease_lt := fun lease hlease => h.lease_lt lease (List.mem_of_mem_filter hlease)
  length_le := Nat.le_trans (List.length_filter_le _ _) h.length_le
  affected_nodup := h.affected_nodup
  affected_lt := h.affected_lt
  affected_iff := fun lease hlease => h.affected_iff lease (List.mem_of_mem_filter hlease)

theorem inv_step (w : Admission) (call : RegistryCall) (w' : Admission) (hinv : Inv max epoch w)
    (h : step w call = some w') : Inv max epoch w' := by
  rcases step_cases h with ⟨rfl, -⟩ | ⟨sid, fd, _, _, -, hroom, rfl⟩ | ⟨-, rfl⟩ | ⟨id, -, rfl⟩
  . exact { hinv with
      lease_lt := fun lease hlease => Nat.lt_succ_of_lt (hinv.lease_lt lease hlease)
      affected_lt := fun id hid => Nat.lt_succ_of_lt (hinv.affected_lt id hid) }
  . exact hinv.register sid fd hroom
  . exact hinv.clean
  . exact hinv.release id

theorem inv_run {calls : List RegistryCall} (hinv : Inv max epoch w)
    (h : Machine.run step w calls = some w') : Inv max epoch w' :=
  Machine.run_invariant inv_step hinv h

theorem inv_of_run {now : Int} {calls : List RegistryCall}
    (h : Machine.run step (create max now) calls = some w) : Inv max (Bytes.ofInt now) w :=
  inv_run (inv_create max now) h

theorem cleans_step {call : RegistryCall} (h : step w call = some w')
    : w'.cleans = w.cleans + [call].count .clean := by
  rcases step_cases h with ⟨rfl, hne⟩ | ⟨_, _, _, _, rfl, -, rfl⟩ | ⟨rfl, rfl⟩ | ⟨_, rfl, rfl⟩
  . simp [cleans, hne]
  . simp [cleans]
  . simp [cleans]
  . simp [cleans]

theorem cleans_run {calls : List RegistryCall} (h : Machine.run step w calls = some w')
    : w'.cleans = w.cleans + calls.count .clean := by
  induction calls generalizing w with
  | nil =>
    cases h
    simp
  | cons call calls ih =>
    obtain ⟨w₁, hstep, hrun⟩ := Machine.run_cons_eq_some.mp h
    rw [ih hrun, cleans_step hstep]
    simp only [List.count_cons, List.count_nil]
    omega

end Admission
end HikBridge
