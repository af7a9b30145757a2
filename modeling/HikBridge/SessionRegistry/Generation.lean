import HikBridge.SessionRegistry.Invariant

/-!
This module shows that a clean locks out every client that got its token before it: the tokens of a
registry never repeat, and only the current one is admitted.
-/

namespace HikBridge
namespace SessionRegistry

variable (r : SessionRegistry)

theorem stale_of_ne {token : Bytes} (hnil : token ≠ []) (hne : token ≠ r.generation)
    : r.stale token = true := by
  simp [stale, hnil, hne]

theorem stale_nil : r.stale [] = r.cleaned := by
  simp [stale]

theorem stale_generation (h : r.generation ≠ []) : r.stale r.generation = false := by
  simp [stale, h]

theorem reserve_ne_lease_of_stale {token : Bytes} (h : r.stale token = true) (id : Nat)
    (sid : Bytes) (fd : Int) (fault : Option ReserveFault) (lease : Nat)
    : (r.reserve id sid fd token fault).1 ≠ .ok (some lease) := by
  simp [reserve, h]

theorem maxSize_of_nonneg (h : 0 ≤ r.max.toInt) : (r.maxSize : Int) = r.max.toInt := by
  have hlt : r.max.toInt < 2 ^ 31 := r.max.toInt_lt
  unfold maxSize
  omega

end SessionRegistry

namespace Admission

variable {max : Int32} {now : Int} {calls : List RegistryCall} {w v : Admission}

theorem generation_of_run (h : Machine.run step (create max now) calls = some w)
    : w.registry.generation
        =
      SessionRegistry.token (Bytes.ofInt now) (UInt64.ofNat (calls.count .clean)) := by
  rw [(inv_of_run h).generation_eq, cleans_run h]
  simp [create, cleans]

theorem ofNat_ne_ofNat {m n : Nat} (hlt : m < n) (hn : n < 2 ^ 64)
    : UInt64.ofNat m ≠ UInt64.ofNat n := by
  intro h
  have hnat := congrArg UInt64.toNat h
  simp only [UInt64.toNat_ofNat'] at hnat
  omega

theorem generation_ne_of_clean {before after : List RegistryCall}
    (hv : Machine.run step (create max now) before = some v)
    (hw : Machine.run step (create max now) (before ++ after) = some w)
    (hclean : .clean ∈ after) (hseq : (before ++ after).count .clean < 2 ^ 64)
    : v.registry.generation ≠ w.registry.generation := by
  rw [generation_of_run hv, generation_of_run hw]
  intro h
  have hpos : 0 < after.count .clean := List.count_pos_iff.mpr hclean
  have hlt : before.count .clean < (before ++ after).count .clean := by
    rw [List.count_append]
    omega
  exact ofNat_ne_ofNat hlt hseq (SessionRegistry.token_injective h).2

/--
The tokens that cannot have been issued by a clean after `calls`: none at all, a token that was
current at some point of `calls` and a token of a registry with another epoch.
-/
def StaleToken (max : Int32) (now : Int) (calls : List RegistryCall) (token : Bytes) : Prop :=
  token = []
    ∨ (∃ earlier v, earlier <+: calls ∧ Machine.run step (create max now) earlier = some v
        ∧ token = v.registry.generation)
    ∨ (∃ max' now' calls' v, Bytes.ofInt now' ≠ Bytes.ofInt now
        ∧ Machine.run step (create max' now') calls' = some v ∧ token = v.registry.generation)

theorem stale_after_clean {before after : List RegistryCall} {token : Bytes}
    (hw : Machine.run step (create max now) (before ++ .clean :: after) = some w)
    (hseq : (before ++ .clean :: after).count .clean < 2 ^ 64)
    (htoken : StaleToken max now before token) : w.registry.stale token = true := by
  have hinv := inv_of_run hw
  rcases htoken with rfl | ⟨earlier, v, ⟨rest, rfl⟩, hv, rfl⟩ | ⟨_, now', _, v, hepoch, hv, rfl⟩
  . rw [SessionRegistry.stale_nil, hinv.cleaned_iff, cleans_run hw]
    simp
  . apply SessionRegistry.stale_of_ne
    . rw [generation_of_run hv]
      apply SessionRegistry.token_ne_nil
    . rw [List.append_assoc] at hw hseq
      exact generation_ne_of_clean hv hw (by simp) hseq
  . apply SessionRegistry.stale_of_ne
    . rw [generation_of_run hv]
      apply SessionRegistry.token_ne_nil
    . rw [generation_of_run hv, hinv.generation_eq]
      intro h
      exact hepoch (SessionRegistry.token_injective h).1

theorem reserve_isLease_iff (hmax : 0 ≤ max.toInt)
    (hw : Machine.run step (create max now) calls = some w) (id : Nat) (sid : Bytes) (fd : Int)
    (token : Bytes)
    : (∃ lease, (w.registry.reserve id sid fd token).1 = .ok (some lease))
        ↔
      w.registry.stale token = false ∧ (w.leases.length : Int) < max.toInt := by
  have hinv := inv_of_run hw
  rw [SessionRegistry.reserve_isLease_iff, ← hinv.paired.length_eq]
  have hsize := w.registry.maxSize_of_nonneg (by rw [hinv.max_eq]; exact hmax)
  rw [hinv.max_eq] at hsize
  constructor
  all_goals
    rintro ⟨hstale, hlt⟩
    refine ⟨hstale, ?_⟩
    omega

/--
Stale clients never get back in: the generations are pairwise distinct, after a clean no token from
before it and no foreign token is ever admitted again, the current token is admitted while a slot is
free, and a client without a token exactly until the first clean.
-/
theorem stale_clients_stay_out (hmax : 0 ≤ max.toInt)
    (hw : Machine.run step (create max now) calls = some w) (hseq : calls.count .clean < 2 ^ 64)
    : (∀ before after v, calls = before ++ after
        → Machine.run step (create max now) before = some v → .clean ∈ after
        → v.registry.generation ≠ w.registry.generation)
      ∧ (∀ before after token, calls = before ++ .clean :: after → StaleToken max now before token
        → ∀ id sid fd fault lease,
          (w.registry.reserve id sid fd token fault).1 ≠ .ok (some lease))
      ∧ (∀ id sid fd,
        (∃ lease, (w.registry.reserve id sid fd w.registry.generation).1 = .ok (some lease))
          ↔ (w.leases.length : Int) < max.toInt)
      ∧ (∀ id sid fd, (∃ lease, (w.registry.reserve id sid fd []).1 = .ok (some lease))
          ↔ .clean ∉ calls ∧ (w.leases.length : Int) < max.toInt) := by
  have hinv := inv_of_run hw
  refine ⟨?_, ?_, ?_, ?_⟩
  . rintro before after v rfl hv hclean
    exact generation_ne_of_clean hv hw hclean hseq
  . rintro before after token rfl htoken id sid fd fault lease
    apply SessionRegistry.reserve_ne_lease_of_stale
    exact stale_after_clean hw hseq htoken
  . intro id sid fd
    rw [reserve_isLease_iff hmax hw]
    have hnil : w.registry.generation ≠ [] := by
      rw [hinv.generation_eq]
      apply SessionRegistry.token_ne_nil
    simp [SessionRegistry.stale_generation _ hnil]
  . intro id sid fd
    rw [reserve_isLease_iff hmax hw, SessionRegistry.stale_nil, ← Bool.not_eq_true,
      hinv.cleaned_iff, cleans_run hw]
    simp [create, cleans]

/--
A client that was admitted, missed two cleans and comes back with its old token.
-/
theorem stale_clients_stay_out_after_two_cleans
    : ∃ w, Machine.run step (create 16 1700000000)
        [.reserve (Bytes.lit "live-001") 7 (Bytes.lit "1700000000-0") false, .clean, .clean]
          = some w
        ∧ ∀ lease, (w.registry.reserve 1 (Bytes.lit "live-001") 7 (Bytes.lit "1700000000-0")).1
          ≠ .ok (some lease) := by
  refine ⟨_, rfl, ?_⟩
  have hmain := (@stale_clients_stay_out 16 1700000000
    [.reserve (Bytes.lit "live-001") 7 (Bytes.lit "1700000000-0") false, .clean, .clean] _
    (by decide) rfl (by decide)).2.1
  apply hmain [.reserve (Bytes.lit "live-001") 7 (Bytes.lit "1700000000-0") false] [.clean] _ rfl
  right
  left
  exact ⟨[], create 16 1700000000, by simp, rfl, by decide⟩

end Admission
end HikBridge
