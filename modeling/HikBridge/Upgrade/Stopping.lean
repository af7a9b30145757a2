import HikBridge.Upgrade.Layout

/-!
This module contains which services of the bridge can be registered while the tool works, and what it has
reached when it has stopped or removed one.
-/

namespace HikBridge.Upgrade

variable {α : Type} {J L : Machine → Prop} {R : Registry → Prop} {m : Machine} {name : String}
  {σ : Place → Option Tree} {φ ω : Files} {ρ : Registry} {s : Snapshot}

def BridgeName (name : String) : Prop := name = nativeName ∨ name = managedName

theorem nativeName_ne_managedName : nativeName ≠ managedName := by decide

-- No other service of the bridge is registered.
def Lone (old : String) (ρ : Registry) : Prop := ∀ name, BridgeName name → name ≠ old → ρ name = none

-- The service, if it is registered, has stopped.
def Rests (name : String) (ρ : Registry) : Prop := ∀ service, ρ name = some service → service.state = .Stopped

-- What the installation script finds or leaves behind, where it was meant to replace this service.
structure Scripted (old : String) (ρ : Registry) : Prop where
  lone : old = nativeName → ρ managedName = none
  rests : old = managedName → Rests managedName ρ

theorem downward_lone (old : String) : Downward (Lone old) := by
  intro ρ name after hafter h other hother hne
  by_cases hname : other = name
  . have hnone := h other hother hne
    rw [hname] at hnone ⊢
    rw [hnone] at hafter
    rw [Registry.set_self]
    cases after with
    | none => rfl
    | some service => exact hafter.elim
  . rw [Registry.set_of_ne ρ _ hname]
    exact h other hother hne

theorem downward_rests (old : String) : Downward (Rests old) := by
  intro ρ name after hafter h service hservice
  by_cases hname : old = name
  . rw [hname, Registry.set_self] at hservice
    rw [hname] at h
    rw [hservice] at hafter
    cases hbefore : ρ name with
    | none =>
      rw [hbefore] at hafter
      exact hafter.elim
    | some before =>
      rw [hbefore] at hafter
      exact hafter.2.2 (h before hbefore)
  . rw [Registry.set_of_ne ρ _ hname] at hservice
    exact h service hservice

theorem downward_none (name : String) : Downward fun ρ => ρ name = none := by
  intro ρ other after hafter h
  by_cases hname : name = other
  . rw [← hname] at hafter ⊢
    rw [h] at hafter
    rw [Registry.set_self]
    cases after with
    | none => rfl
    | some service => exact hafter.elim
  . rw [Registry.set_of_ne ρ _ hname]
    exact h

theorem downward_and {R' : Registry → Prop} (h : Downward R) (h' : Downward R')
    : Downward fun ρ => R ρ ∧ R' ρ :=
  fun ρ name after hafter hR => ⟨h ρ name after hafter hR.1, h' ρ name after hafter hR.2⟩

theorem downward_scripted (old : String) : Downward (Scripted old) := by
  intro ρ name after hafter h
  constructor
  . intro hold
    exact downward_none managedName ρ name after hafter (h.lone hold)
  . intro hold
    exact downward_rests managedName ρ name after hafter (h.rests hold)

-- Only the service that is being upgraded is registered, and it has stopped.
def Resting (old : String) (ρ : Registry) : Prop := Lone old ρ ∧ Rests old ρ

theorem downward_resting (old : String) : Downward (Resting old) :=
  downward_and (downward_lone old) (downward_rests old)

theorem Resting.runs {old : String} (h : Resting old m.services) (hname : BridgeName name) (package : Package)
    : m.runs name package = false := by
  unfold Machine.runs
  cases hservice : m.services name with
  | none => rfl
  | some service =>
    by_cases hold : name = old
    . rw [hold] at hservice
      simp [h.2 service hservice]
    . rw [h.1 name hname hold] at hservice
      cases hservice

theorem Resting.quiet {old : String} (h : Resting old m.services) (package : Package)
    : m.active package = false := by
  simp [Machine.active, h.runs (.inl rfl) package, h.runs (.inr rfl) package]

-- An assertion about the registrations alone.
theorem robust_registry (hR : Downward R) : Robust fun m => R m.services where
  advance m r h := by
    rw [Machine.services_advance]
    exact h
  calm m name after hafter h := hR _ name after hafter h

theorem Keeps.returns {m : Run α} (h : Program.Keeps J m) : Returns J m fun _ => J :=
  Program.Triple.conseq h (fun _ => id) (fun _ _ => id) (fun _ _ _ => trivial) fun _ _ => trivial

section Services

theorem returns_found {P : Machine → Prop}
    : Returns P (serviceAt name) fun found m => m.services name = found := by
  apply returns_bind (R := fun now m => m = now)
  . exact Program.triple_inspect fun _ _ => rfl
  . intro now
    apply returns_pure
    intro m hm
    rw [hm]

theorem returns_status_state
    : Returns (fun _ => True) (status name)
        fun state m => ∀ service, m.services name = some service → service.state = state := by
  apply returns_bind returns_trivial
  intro r
  apply returns_bind returns_trivial
  intro _
  apply returns_bind returns_found
  intro found
  cases found with
  | none =>
    apply returns_pure
    intro m hfound service hservice
    rw [hfound] at hservice
    cases hservice
  | some service =>
    apply returns_pure
    intro m hfound service' hservice
    rw [hfound] at hservice
    rw [Option.some.inj hservice]

theorem returns_waitStopped
    : Returns (fun _ => True) (waitStopped name) fun _ m => Rests name m.services := by
  apply returns_iterate (I := fun _ _ => True)
  intro _
  apply returns_bind returns_status_state
  intro state
  apply returns_ite
  . intro hstate
    apply returns_pure
    intro m h
    rw [hstate] at h
    exact h
  . intro _
    apply returns_bind returns_trivial
    intro clock
    apply returns_ite
    . intro _
      apply returns_fail
    . intro _
      exact returns_pure fun _ _ => trivial

theorem returns_stop : Returns (fun _ => True) (stop name) fun _ m => Rests name m.services := by
  apply returns_bind returns_trivial
  intro opened
  apply returns_bind returns_found
  intro found
  apply returns_ite
  . intro _
    apply returns_fail
  . intro _
    apply returns_ite
    . intro hnone
      apply returns_pure
      intro m hfound service hservice
      rw [hfound] at hservice
      rw [hservice] at hnone
      cases hnone
    . intro _
      apply returns_bind returns_trivial
      intro state
      apply returns_bind returns_trivial
      intro process
      apply returns_bind returns_trivial
      intro _
      apply returns_bind returns_waitStopped
      intro _
      apply returns_ite
      . intro _
        exact returns_pure fun _ h => h
      . intro _
        apply returns_bind (Keeps.returns (keeps_require (robust_registry (downward_rests name)).advance))
        intro _
        exact returns_pure fun _ h => h

theorem returns_waitGone : Returns (fun _ => True) (waitGone name) fun _ m => m.services name = none := by
  apply returns_iterate (I := fun _ _ => True)
  intro _
  apply returns_bind (R := fun gone m => gone = true → m.services name = none)
  . apply returns_bind returns_trivial
    intro r
    apply returns_bind returns_trivial
    intro _
    apply returns_bind returns_found
    intro found
    apply returns_pure
    intro m hfound hgone
    rw [hfound]
    simp only [Bool.and_eq_true, Option.isNone_iff_eq_none] at hgone
    exact hgone.1
  . intro gone
    apply returns_ite
    . intro hgone
      apply returns_pure
      intro m h
      exact h hgone
    . intro _
      apply returns_bind returns_trivial
      intro clock
      apply returns_ite
      . intro _
        apply returns_fail
      . intro _
        exact returns_pure fun _ _ => trivial

theorem returns_remove : Returns (fun _ => True) (remove name) fun _ m => m.services name = none := by
  apply returns_bind returns_trivial
  intro _
  apply returns_bind returns_trivial
  intro found
  apply returns_bind returns_trivial
  intro _
  exact returns_waitGone

theorem triple_keeps {J : Machine → Prop} {m : Run α} {Q : α → Machine → Prop} (hJ : Program.Keeps J m)
    (hQ : Returns (fun _ => True) m Q)
    : Program.Triple J m (fun a m => J m ∧ Q a m) (fun _ => J) J := by
  apply (Program.Triple.and hJ hQ).conseq
  . exact fun _ h => ⟨h, trivial⟩
  . exact fun _ _ h => h
  . exact fun _ _ h => h.1
  . exact fun _ h => h.1

end Services

end HikBridge.Upgrade
