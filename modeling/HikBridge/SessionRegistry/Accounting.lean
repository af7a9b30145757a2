import Mathlib.Data.List.Nodup
import HikBridge.SessionRegistry.Generation

/-!
This module contains the accounting of a `SessionRegistry`: who occupies a slot, which sessions are
being cleaned and how often a clean counts a session.
-/

namespace HikBridge
namespace Admission

variable {max : Int32} {epoch : Bytes} {now : Int} {calls : List RegistryCall} {w v : Admission}

theorem Inv.length_le_max (h : Inv max epoch w) (hmax : 0 ≤ max.toInt)
    : (w.leases.length : Int) ≤ max.toInt := by
  have hle := h.length_le
  rw [← h.paired.length_eq] at hle
  have hsize := w.registry.maxSize_of_nonneg (by rw [h.max_eq]; exact hmax)
  rw [h.max_eq] at hsize
  omega

theorem Inv.size_eq (h : Inv max epoch w) (hmax : 0 ≤ max.toInt)
    : w.registry.size = w.leases.length := by
  have hle := h.length_le_max hmax
  have hlt : max.toInt < 2 ^ 31 := max.toInt_lt
  unfold SessionRegistry.size
  rw [← h.paired.length_eq]
  apply Int.bmod_eq_of_le
  all_goals omega

theorem Inv.counts_eq (h : Inv max epoch w) (hmax : 0 ≤ max.toInt)
    : w.registry.counts = ⟨w.leases.length, max.toInt, max.toInt - w.leases.length⟩ := by
  unfold SessionRegistry.counts
  rw [h.size_eq hmax, h.max_eq]

theorem Inv.born_le (h : Inv max epoch w) {lease : Lease} (hlease : lease ∈ w.leases)
    : lease.born ≤ w.cleans := by
  obtain ⟨i, hi, rfl⟩ := List.getElem_of_mem hlease
  exact (h.paired.get hi (h.paired.length_eq ▸ hi)).born_le

theorem Inv.paired_of_mem (h : Inv max epoch w) {lease : Lease} {state : State}
    (hlease : lease ∈ w.leases) (hstate : state ∈ w.registry.states) (hid : state.id = lease.id)
    : Paired epoch w.cleans lease state := by
  obtain ⟨i, hi, rfl⟩ := List.getElem_of_mem hlease
  obtain ⟨j, hj, rfl⟩ := List.getElem_of_mem hstate
  have hj' : j < w.leases.length := by
    rw [h.paired.length_eq]
    exact hj
  have hp : Paired epoch w.cleans w.leases[j] w.registry.states[j] := h.paired.get hj' hj
  have hij : j = i := by
    have hinj := (List.nodup_iff_injective_get.mp h.nodup)
    have hget : (w.leases.map Lease.id).get ⟨j, by simpa using hj'⟩
        = (w.leases.map Lease.id).get ⟨i, by simpa using hi⟩ := by
      simp only [List.get_eq_getElem, List.getElem_map]
      rw [← hid, hp.id_eq]
    exact congrArg Fin.val (hinj hget)
  subst hij
  exact hp

theorem Inv.cancelled_iff_generation_ne (h : Inv max epoch w) {lease : Lease} {state : State}
    (hlease : lease ∈ w.leases) (hstate : state ∈ w.registry.states) (hid : state.id = lease.id)
    (hseq : w.cleans < lease.born + 2 ^ 64)
    : state.cancelled = true ↔ state.generation ≠ w.registry.generation := by
  have hp := h.paired_of_mem hlease hstate hid
  rw [hp.cancelled_iff, hp.generation_eq, h.generation_eq]
  constructor
  . intro hlt heq
    have hnat := congrArg UInt64.toNat (SessionRegistry.token_injective heq).2
    simp only [UInt64.toNat_ofNat'] at hnat
    omega
  . intro hne
    have hle := hp.born_le
    by_contra hlt
    apply hne
    rw [show lease.born = w.cleans by omega]

theorem Inv.cleaning_eq (h : Inv max epoch w)
    : w.registry.cleaning = w.leases.countP fun lease => decide (lease.born < w.cleans) := by
  unfold SessionRegistry.cleaning
  have hpaired := h.paired
  generalize w.registry.states = states at hpaired
  generalize w.leases = leases at hpaired
  induction hpaired with
  | nil => rfl
  | cons hp _ ih =>
    rw [List.countP_cons, List.countP_cons, ih]
    simp [hp.cancelled_iff]

-- Ids are never reused, so what is alive after the run was there before it or registered in it.
theorem mem_leases_run {calls : List RegistryCall} (h : Machine.run step v calls = some w)
    : v.cleans ≤ w.cleans ∧ ∀ lease ∈ w.leases, lease ∈ v.leases ∨ v.cleans ≤ lease.born := by
  apply Machine.run_relates (R := fun v w => v.cleans ≤ w.cleans
    ∧ ∀ lease ∈ w.leases, lease ∈ v.leases ∨ v.cleans ≤ lease.born) _ _ _ h
  . intro s
    exact ⟨Nat.le_refl _, fun lease hlease => .inl hlease⟩
  . rintro s t u ⟨hst, hs⟩ ⟨htu, ht⟩
    refine ⟨Nat.le_trans hst htu, ?_⟩
    intro lease hlease
    rcases ht lease hlease with hmem | hborn
    . exact hs lease hmem
    . right
      exact Nat.le_trans hst hborn
  . intro s call s' hstep
    rcases step_cases hstep with ⟨rfl, -⟩ | ⟨_, _, _, _, -, -, rfl⟩ | ⟨-, rfl⟩ | ⟨id, -, rfl⟩
    . exact ⟨Nat.le_refl _, fun lease hlease => .inl hlease⟩
    . refine ⟨Nat.le_refl _, ?_⟩
      intro lease hlease
      rcases List.mem_append.mp hlease with hlease | hlease
      . exact .inl hlease
      . right
        rw [List.mem_singleton.mp hlease]
    . exact ⟨by simp [cleans], fun lease hlease => .inl hlease⟩
    . exact ⟨Nat.le_refl _, fun lease hlease => .inl (List.mem_of_mem_filter hlease)⟩

theorem cleaning_eq_of_clean {before after : List RegistryCall}
    (hv : Machine.run step (create max now) before = some v)
    (hw : Machine.run step (create max now) (before ++ .clean :: after) = some w)
    (hafter : .clean ∉ after)
    : w.registry.cleaning = (v.leases.filter fun lease => decide (lease ∈ w.leases)).length := by
  have hinv := inv_of_run hw
  have hinvv := inv_of_run hv
  obtain ⟨v', hv', hrest⟩ := Machine.run_append_eq_some.mp hw
  rw [hv] at hv'
  cases hv'
  obtain ⟨u, hu, hrest⟩ := Machine.run_cons_eq_some.mp hrest
  have huleases : u.leases = v.leases := by
    simp only [step] at hu
    cases hu
    rfl
  have hucleans : u.cleans = v.cleans + 1 := by
    simpa using cleans_step hu
  have hwcleans : w.cleans = v.cleans + 1 := by
    rw [cleans_run hrest, hucleans, List.count_eq_zero.mpr hafter]
  rw [hinv.cleaning_eq, List.countP_eq_length_filter]
  apply List.Perm.length_eq
  apply (List.perm_ext_iff_of_nodup (List.Nodup.filter _ (List.Nodup.of_map _ hinv.nodup))
    (List.Nodup.filter _ (List.Nodup.of_map _ hinvv.nodup))).mpr
  intro lease
  simp only [List.mem_filter, decide_eq_true_eq]
  constructor
  . rintro ⟨hmem, hborn⟩
    rcases (mem_leases_run hrest).2 lease hmem with hold | hnew
    . exact ⟨huleases ▸ hold, hmem⟩
    . omega
  . rintro ⟨hold, hmem⟩
    have hle := hinvv.born_le hold
    exact ⟨hmem, by omega⟩

/--
The accounting of slots, of cancelled sessions and of the results of `clean`.
-/
theorem accounting (hmax : 1 ≤ max.toInt) (hw : Machine.run step (create max now) calls = some w)
    : (w.registry.states.map State.id = w.leases.map Lease.id
        ∧ (w.leases.map Lease.id).Nodup
        ∧ (w.leases.length : Int) ≤ max.toInt
        ∧ w.registry.counts = ⟨w.leases.length, max.toInt, max.toInt - w.leases.length⟩
        ∧ 0 ≤ w.registry.counts.available)
      ∧ (∀ lease ∈ w.leases, ∀ state ∈ w.registry.states, state.id = lease.id
        → w.cleans < lease.born + 2 ^ 64
        → (state.cancelled = true ↔ state.generation ≠ w.registry.generation))
      ∧ (.clean ∉ calls → w.registry.cleaning = 0)
      ∧ (∀ before after v, calls = before ++ .clean :: after → .clean ∉ after
        → Machine.run step (create max now) before = some v
        → w.registry.cleaning = (v.leases.filter fun lease => decide (lease ∈ w.leases)).length
          ∧ (w.registry.cleaning = 0 ↔ ∀ lease ∈ v.leases, lease ∉ w.leases))
      ∧ w.affected.flatten.Nodup := by
  have hinv := inv_of_run hw
  have hnonneg : 0 ≤ max.toInt := by omega
  refine ⟨⟨hinv.ids_eq, hinv.nodup, hinv.length_le_max hnonneg, hinv.counts_eq hnonneg, ?_⟩,
    ?_, ?_, ?_, hinv.affected_nodup⟩
  . have hle := hinv.length_le_max hnonneg
    rw [hinv.counts_eq hnonneg]
    dsimp
    omega
  . intro lease hlease state hstate hid hseq
    exact hinv.cancelled_iff_generation_ne hlease hstate hid hseq
  . intro hnone
    have hzero : w.cleans = 0 := by
      rw [cleans_run hw, List.count_eq_zero.mpr hnone]
      rfl
    simp [hinv.cleaning_eq, hzero]
  . rintro before after v rfl hafter hv
    have heq := cleaning_eq_of_clean hv hw hafter
    refine ⟨heq, ?_⟩
    rw [heq]
    simp [List.filter_eq_nil_iff]

theorem accounting_after_clean
    : ∃ w, Machine.run step (create 2 1700000000)
        [.reserve (Bytes.lit "a") 5 [] false, .clean,
          .reserve (Bytes.lit "b") 6 (Bytes.lit "1700000000-1") false, .release 0] = some w
        ∧ w.registry.counts = ⟨1, 2, 1⟩ ∧ w.registry.cleaning = 0 := by
  refine ⟨_, rfl, ?_⟩
  have hmain := @accounting 2 1700000000
    [.reserve (Bytes.lit "a") 5 [] false, .clean,
      .reserve (Bytes.lit "b") 6 (Bytes.lit "1700000000-1") false, .release 0] _ (by decide) rfl
  refine ⟨hmain.1.2.2.2.1, ?_⟩
  have hcleaning := hmain.2.2.2.1 [.reserve (Bytes.lit "a") 5 [] false]
    [.reserve (Bytes.lit "b") 6 (Bytes.lit "1700000000-1") false, .release 0] _ rfl (by decide) rfl
  rw [hcleaning.2]
  decide

theorem run_replicate_clean (w : Admission) (n : Nat)
    : ∃ w', Machine.run step w (List.replicate n .clean) = some w' ∧ w'.leases = w.leases := by
  induction n generalizing w with
  | zero => exact ⟨w, rfl, rfl⟩
  | succ n ih =>
    obtain ⟨w', hrun, hleases⟩ := ih
      { w with
        registry := w.registry.clean.1
        affected := w.affected ++ [w.registry.clean.2.map State.id] }
    exact ⟨w', hrun, hleases⟩

/--
After `2 ^ 64` cleans `sequence_` has wrapped around: the session is cancelled, although the current
generation is the one that it registered under.
-/
theorem cancelled_iff_generation_ne_false
    : ¬ ∀ (max : Int32) (now : Int) (calls : List RegistryCall) (w : Admission), 1 ≤ max.toInt
      → Machine.run step (create max now) calls = some w
      → ∀ state ∈ w.registry.states,
        (state.cancelled = true ↔ state.generation ≠ w.registry.generation) := by
  intro hclaim
  obtain ⟨v, hv, hleasesv⟩ : ∃ v, Machine.run step (create 16 0)
      [.reserve (Bytes.lit "a") 5 [] false] = some v ∧ v.leases = [⟨0, 0⟩] := ⟨_, rfl, rfl⟩
  obtain ⟨w, hw, hleases⟩ := run_replicate_clean v (2 ^ 64)
  have hrun := Machine.run_append_eq_some.mpr ⟨v, hv, hw⟩
  have hinv := inv_of_run hrun
  have hcleans : w.cleans = 2 ^ 64 := by
    rw [cleans_run hrun, List.count_append, List.count_replicate_self]
    rfl
  have hlen : 0 < w.registry.states.length := by
    rw [← hinv.paired.length_eq, hleases, hleasesv]
    decide
  have hmem := List.getElem_mem hlen
  have hid : w.registry.states[0].id = 0 := by
    have hids := hinv.ids_eq
    rw [hleases, hleasesv] at hids
    have := congrArg (fun ids => ids[0]?) hids
    simpa [List.getElem?_eq_getElem hlen] using this
  have hlease : (⟨0, 0⟩ : Lease) ∈ w.leases := by
    rw [hleases, hleasesv]
    simp
  have hp := hinv.paired_of_mem hlease hmem hid
  have hcancelled := hp.cancelled_iff.mpr (by rw [hcleans]; decide)
  apply (hclaim 16 0 _ w (by decide) hrun _ hmem).mp hcancelled
  rw [hp.generation_eq, hinv.generation_eq, hcleans]
  rfl

end Admission
end HikBridge
