import HikBridge.HcSession.Basic

/-!
This module is about the race for the end reason of a session. Any number of callbacks and one
monitor write it, each after a check that is not atomic with the write. The first reason is final in
every run in which these check-then-write sections do not overlap.
-/

namespace HikBridge

/--
What the race is about, for a type `ρ` of reasons: `refused` holds the callbacks that will report an
overflow, with whether the queue was open when it refused them, and `completing` the reason that the
monitor will write.
-/
structure EndRace (ρ : Type) where
  reason : ρ
  closed : Bool
  refused : Nat → Option Bool
  completing : Option ρ

namespace EndRace

inductive Act (ρ : Type) where
  | refuse (callback : Nat)
  | overflow (callback : Nat)
  | pass (reason : ρ)
  | complete
  | close

variable {ρ : Type} {isActive : ρ → Bool} {overflow : ρ}
  {s s' : EndRace ρ} {act : Act ρ}

variable (isActive) (overflow) in
def step (s : EndRace ρ) (act : Act ρ) : Option (EndRace ρ) :=
  match act with
  | .refuse callback =>
    some { s with refused := Function.update s.refused callback (some !s.closed) }
  | .overflow callback =>
    match s.refused callback with
    | some _ =>
      some { s with reason := overflow, refused := Function.update s.refused callback none }
    | none => none
  | .pass reason =>
    if isActive s.reason then some { s with completing := some reason } else none
  | .complete =>
    match s.completing with
    | some reason => some { s with reason, completing := none }
    | none => none
  | .close => some { s with closed := true }

variable (isActive) (overflow) in
/--
A callback is refused only while the queue is open, nothing but an overflow was reported and the
monitor does not report anything, and the monitor finds the session active only while no callback
that was refused has yet to report it.
-/
def Orderly (s : EndRace ρ) (act : Act ρ) : Prop :=
  match act with
  | .refuse _ => s.closed = false ∧ (isActive s.reason ∨ s.reason = overflow) ∧ s.completing = none
  | .pass _ => ∀ callback, s.refused callback = none
  | _ => True

variable (isActive) (overflow) in
structure Inv (s : EndRace ρ) : Prop where
  wasOpen : ∀ callback wasOpen, s.refused callback = some wasOpen → wasOpen = true
  alone : ∀ callback wasOpen, s.refused callback = some wasOpen
    → s.completing = none ∧ (isActive s.reason ∨ s.reason = overflow)
  active : ∀ reason, s.completing = some reason → isActive s.reason

theorem Inv.refused_eq_none (h : Inv isActive overflow s) {reason : ρ}
    (hcompleting : s.completing = some reason) (callback : Nat) : s.refused callback = none := by
  cases hrefused : s.refused callback with
  | none => rfl
  | some wasOpen =>
    have hnone := (h.alone callback wasOpen hrefused).1
    rw [hcompleting] at hnone
    contradiction

theorem inv_step (h : Inv isActive overflow s) (horderly : Orderly isActive overflow s act)
    (hstep : step isActive overflow s act = some s') : Inv isActive overflow s' := by
  cases act with
  | refuse callback =>
    cases hstep
    obtain ⟨hopen, hreason, hnone⟩ := horderly
    constructor
    . intro c wasOpen hc
      by_cases hcallback : c = callback
      . subst hcallback
        simpa [hopen] using hc.symm
      . simp only [Function.update_of_ne hcallback] at hc
        exact h.wasOpen c wasOpen hc
    . intro _ _ _
      exact ⟨hnone, hreason⟩
    . intro reason hcompleting
      rw [hnone] at hcompleting
      contradiction
  | overflow callback =>
    simp only [step] at hstep
    split at hstep
    . next wasOpen hrefused =>
      cases hstep
      have hnone := (h.alone callback wasOpen hrefused).1
      constructor
      . intro c _ hc
        by_cases hcallback : c = callback
        . subst hcallback
          simp at hc
        . simp only [Function.update_of_ne hcallback] at hc
          exact h.wasOpen c _ hc
      . intro _ _ _
        exact ⟨hnone, .inr rfl⟩
      . intro reason hcompleting
        rw [hnone] at hcompleting
        contradiction
    . contradiction
  | pass reason =>
    simp only [step] at hstep
    split at hstep
    . next hactive =>
      cases hstep
      constructor
      . intro c wasOpen hc
        exact h.wasOpen c wasOpen hc
      . intro c wasOpen hc
        rw [horderly c] at hc
        contradiction
      . intro _ _
        exact hactive
    . contradiction
  | complete =>
    simp only [step] at hstep
    split at hstep
    . next reason hcompleting =>
      cases hstep
      constructor
      . intro c wasOpen hc
        exact h.wasOpen c wasOpen hc
      . intro c wasOpen hc
        rw [h.refused_eq_none hcompleting c] at hc
        contradiction
      . intro _ hnone
        contradiction
    . contradiction
  | close =>
    cases hstep
    exact ⟨h.wasOpen, h.alone, h.active⟩

theorem reason_step (h : Inv isActive overflow s) (hstep : step isActive overflow s act = some s')
    (hended : ¬ isActive s.reason) : s'.reason = s.reason := by
  cases act with
  | refuse callback =>
    cases hstep
    rfl
  | overflow callback =>
    simp only [step] at hstep
    split at hstep
    . next wasOpen hrefused =>
      cases hstep
      rcases (h.alone callback wasOpen hrefused).2 with hactive | hoverflow
      . exact absurd hactive hended
      . exact hoverflow.symm
    . contradiction
  | pass reason =>
    simp only [step] at hstep
    split at hstep
    . cases hstep
      rfl
    . contradiction
  | complete =>
    simp only [step] at hstep
    split at hstep
    . next reason hcompleting => exact absurd (h.active reason hcompleting) hended
    . contradiction
  | close =>
    cases hstep
    rfl

variable (isActive) (overflow) in
-- A step of a system is an act in the race, or leaves the race as it is.
def Matches (s s' : EndRace ρ) (act : Option (Act ρ)) : Prop :=
  match act with
  | none => s' = s
  | some act => step isActive overflow s act = some s'

section System

variable {σ ε : Type} {next : σ → ε → Option σ} {race : σ → EndRace ρ}
  {act : σ → ε → Option (Act ρ)} {w : σ} {events : List ε}

variable (isActive) (overflow) (race) (act) in
def OrderlyStep (w : σ) (event : ε) : Prop :=
  ∀ a, act w event = some a → Orderly isActive overflow (race w) a

variable (isActive) (next) (race) (act) in
-- The step does not replace an end reason and reports no overflow of a queue that was closed.
def FinalStep (w : σ) (event : ε) : Prop :=
  (∀ w', next w event = some w' → isActive (race w).reason = false
      → (race w').reason = (race w).reason)
    ∧ ∀ callback wasOpen, act w event = some (.overflow callback)
      → (race w).refused callback = some wasOpen → wasOpen = true

theorem meets_finalStep
    (hmatch : ∀ w event w', next w event = some w'
      → Matches isActive overflow (race w) (race w') (act w event))
    (hinv : Inv isActive overflow (race w))
    (horderly : Machine.Meets next (OrderlyStep isActive overflow race act) w events)
    : Machine.Meets next (FinalStep isActive next race act) w events := by
  apply Machine.meets_of_invariant (I := fun w => Inv isActive overflow (race w)) _ _ hinv horderly
  . intro w event w' hinv horderly hstep
    have hm := hmatch w event w' hstep
    cases hact : act w event with
    | none =>
      rw [hact] at hm
      rw [show race w' = race w from hm]
      exact hinv
    | some a =>
      rw [hact] at hm
      exact inv_step hinv (horderly a hact) hm
  . intro w event hinv horderly
    constructor
    . intro w' hstep hended
      have hm := hmatch w event w' hstep
      cases hact : act w event with
      | none =>
        rw [hact] at hm
        exact congrArg EndRace.reason hm
      | some a =>
        rw [hact] at hm
        apply reason_step hinv hm
        simpa using hended
    . intro callback wasOpen _ hrefused
      exact hinv.wasOpen callback wasOpen hrefused

end System

end EndRace
end HikBridge
