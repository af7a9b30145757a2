import Mathlib.Data.List.Basic

/-!
Runs of a machine given by a partial step function: `step s e = none` says that the event `e` is
not enabled in `s`. All the nondeterminism of a system is in its events, so a run is a list of them.
-/

namespace Machine

variable {σ τ ε δ : Type*}

/--
Run the events in order, `none` as soon as one of them is not enabled.
-/
def run (step : σ → ε → Option σ) : σ → List ε → Option σ
  | s, [] => some s
  | s, e :: es => (step s e).bind fun s' => run step s' es

/--
Every step that the run takes meets `P`, a condition on the state before the step.
-/
def Meets (step : σ → ε → Option σ) (P : σ → ε → Prop) : σ → List ε → Prop
  | _, [] => True
  | s, e :: es => P s e ∧ ∀ s', step s e = some s' → Meets step P s' es

variable {step : σ → ε → Option σ} {P : σ → ε → Prop}

@[simp]
theorem run_nil (s : σ) : run step s [] = some s := rfl

theorem run_cons (s : σ) (e : ε) (es : List ε)
    : run step s (e :: es) = (step s e).bind fun s' => run step s' es := rfl

theorem run_cons_eq_some {s s'' : σ} {e : ε} {es : List ε}
    : run step s (e :: es) = some s'' ↔ ∃ s', step s e = some s' ∧ run step s' es = some s'' := by
  simp [run_cons, Option.bind_eq_some_iff]

theorem run_append (s : σ) (es fs : List ε)
    : run step s (es ++ fs) = (run step s es).bind fun s' => run step s' fs := by
  induction es generalizing s with
  | nil => rfl
  | cons e es ih =>
    rw [List.cons_append, run_cons, run_cons, Option.bind_assoc]
    simp only [ih]

theorem run_append_eq_some {s s'' : σ} {es fs : List ε}
    : run step s (es ++ fs) = some s''
        ↔
      ∃ s', run step s es = some s' ∧ run step s' fs = some s'' := by
  simp [run_append, Option.bind_eq_some_iff]

theorem meets_append {s s' : σ} {es fs : List ε} (hrun : run step s es = some s')
    (h : Meets step P s (es ++ fs)) : Meets step P s es ∧ Meets step P s' fs := by
  induction es generalizing s with
  | nil =>
    cases hrun
    exact ⟨trivial, h⟩
  | cons e es ih =>
    obtain ⟨t, hstep, hrest⟩ := run_cons_eq_some.mp hrun
    obtain ⟨hes, hfs⟩ := ih hrest (h.2 t hstep)
    refine ⟨⟨h.1, ?_⟩, hfs⟩
    intro u hu
    rw [hstep] at hu
    cases hu
    exact hes

theorem Meets.mono {Q : σ → ε → Prop} (hpq : ∀ s e, P s e → Q s e) {s : σ} {es : List ε}
    (h : Meets step P s es) : Meets step Q s es := by
  induction es generalizing s with
  | nil => trivial
  | cons e es ih => exact ⟨hpq s e h.1, fun t ht => ih (h.2 t ht)⟩

theorem Meets.and {Q : σ → ε → Prop} {s : σ} {es : List ε} (hp : Meets step P s es)
    (hq : Meets step Q s es) : Meets step (fun s e => P s e ∧ Q s e) s es := by
  induction es generalizing s with
  | nil => trivial
  | cons e es ih => exact ⟨⟨hp.1, hq.1⟩, fun t ht => ih (hp.2 t ht) (hq.2 t ht)⟩

theorem meets_iff_forall {s : σ} {es : List ε}
    : Meets step P s es
        ↔
      ∀ before e after t, es = before ++ e :: after → run step s before = some t → P t e := by
  induction es generalizing s with
  | nil =>
    refine ⟨?_, fun _ => trivial⟩
    intro _ before e after t hes
    exact absurd hes.symm (by simp)
  | cons f es ih =>
    constructor
    . intro h before e after t hes hrun
      cases before with
      | nil =>
        cases hes
        cases hrun
        exact h.1
      | cons g before =>
        rw [List.cons_append, List.cons.injEq] at hes
        obtain ⟨rfl, hes⟩ := hes
        obtain ⟨u, hu, hrest⟩ := run_cons_eq_some.mp hrun
        exact ih.mp (h.2 u hu) before e after t hes hrest
    . intro h
      refine ⟨h [] f es s rfl rfl, ?_⟩
      intro u hu
      apply ih.mpr
      intro before e after t hes hrun
      exact h (f :: before) e after t (by rw [hes]; rfl) (run_cons_eq_some.mpr ⟨u, hu, hrun⟩)

theorem meets_of_forall {s : σ} {es : List ε} (h : ∀ e ∈ es, ∀ s, P s e) : Meets step P s es := by
  induction es generalizing s with
  | nil => trivial
  | cons e es ih =>
    refine ⟨h e (by simp) s, ?_⟩
    intro t _
    exact ih fun f hf => h f (by simp [hf])

instance decidableMeets [hP : ∀ s e, Decidable (P s e)]
    : (s : σ) → (es : List ε) → Decidable (Meets step P s es)
  | _, [] => .isTrue trivial
  | s, e :: es =>
    match h : step s e with
    | none => decidable_of_iff (P s e) ⟨fun hp => ⟨hp, by simp [h]⟩, And.left⟩
    | some s' =>
      have := decidableMeets s' es
      decidable_of_iff (P s e ∧ Meets step P s' es)
        ⟨fun hp => ⟨hp.1, by simpa [h] using hp.2⟩, fun hp => ⟨hp.1, hp.2 s' h⟩⟩

/--
The invariant rule: what one step preserves, a whole run preserves.
-/
theorem run_invariant {I : σ → Prop} (hstep : ∀ s e s', I s → step s e = some s' → I s')
    {s s' : σ} {es : List ε} (hs : I s) (hrun : run step s es = some s') : I s' := by
  induction es generalizing s with
  | nil =>
    cases hrun
    exact hs
  | cons e es ih =>
    obtain ⟨t, ht, hrest⟩ := run_cons_eq_some.mp hrun
    exact ih (hstep s e t hs ht) hrest

/--
The invariant rule for the runs whose steps all meet a condition.
-/
theorem run_invariant_of_meets {I : σ → Prop}
    (hstep : ∀ s e s', I s → P s e → step s e = some s' → I s')
    {s s' : σ} {es : List ε} (hs : I s) (hmeets : Meets step P s es)
    (hrun : run step s es = some s') : I s' := by
  induction es generalizing s with
  | nil =>
    cases hrun
    exact hs
  | cons e es ih =>
    obtain ⟨t, ht, hrest⟩ := run_cons_eq_some.mp hrun
    exact ih (hstep s e t hs hmeets.1 ht) (hmeets.2 t ht) hrest

theorem meets_of_invariant {I : σ → Prop} {Q : σ → ε → Prop}
    (hstep : ∀ s e s', I s → P s e → step s e = some s' → I s') (hgood : ∀ s e, I s → P s e → Q s e)
    {s : σ} {es : List ε} (hs : I s) (hmeets : Meets step P s es) : Meets step Q s es := by
  induction es generalizing s with
  | nil => trivial
  | cons e es ih =>
    refine ⟨hgood s e hs hmeets.1, ?_⟩
    intro t ht
    exact ih (hstep s e t hs hmeets.1 ht) (hmeets.2 t ht)

/--
What relates the states before and after every step relates the ends of a run.
-/
theorem run_relates {R : σ → σ → Prop} (hrefl : ∀ s, R s s)
    (htrans : ∀ s t u, R s t → R t u → R s u) (hstep : ∀ s e s', step s e = some s' → R s s')
    {s s' : σ} {es : List ε} (hrun : run step s es = some s') : R s s' := by
  induction es generalizing s with
  | nil =>
    cases hrun
    exact hrefl _
  | cons e es ih =>
    obtain ⟨t, ht, hrest⟩ := run_cons_eq_some.mp hrun
    exact htrans _ t _ (hstep _ e t ht) (ih hrest)

/--
The refinement rule for an abstract system that follows the events by a function.
-/
theorem run_refines {R : σ → τ → Prop} {f : τ → ε → τ}
    (hstep : ∀ s t e s', R s t → step s e = some s' → R s' (f t e))
    {s s' : σ} {t : τ} {es : List ε} (hs : R s t) (hrun : run step s es = some s')
    : R s' (es.foldl f t) := by
  induction es generalizing s t with
  | nil =>
    cases hrun
    exact hs
  | cons e es ih =>
    obtain ⟨u, hu, hrest⟩ := run_cons_eq_some.mp hrun
    exact ih (hstep s t e u hs hu) hrest

/--
The simulation rule: a machine whose every step is matched, from any related state, by a move of an
abstract system ends every run in a state related to one that the abstract system can move to.
-/
theorem run_simulates {R : σ → τ → Prop} {L : τ → τ → Prop} (hrefl : ∀ t, L t t)
    (htrans : ∀ t u v, L t u → L u v → L t v)
    (hstep : ∀ s t e s', R s t → step s e = some s' → ∃ t', L t t' ∧ R s' t')
    {s s' : σ} {t : τ} {es : List ε} (hs : R s t) (hrun : run step s es = some s')
    : ∃ t', L t t' ∧ R s' t' := by
  induction es generalizing s t with
  | nil =>
    cases hrun
    exact ⟨t, hrefl t, hs⟩
  | cons e es ih =>
    obtain ⟨u, hu, hrest⟩ := run_cons_eq_some.mp hrun
    obtain ⟨v, hv, huv⟩ := hstep s t e u hs hu
    obtain ⟨t', ht', hend⟩ := ih huv hrest
    exact ⟨t', htrans t v t' hv ht', hend⟩

theorem exists_step_of_run {Q : σ → Prop} {s s' : σ} {es : List ε}
    (hrun : run step s es = some s') (hs : ¬ Q s) (hs' : Q s')
    : ∃ before e after t t',
        es = before ++ e :: after
          ∧ run step s before = some t
          ∧ step t e = some t'
          ∧ ¬ Q t
          ∧ Q t' := by
  induction es generalizing s with
  | nil =>
    cases hrun
    exact absurd hs' hs
  | cons e es ih =>
    obtain ⟨t, ht, hrest⟩ := run_cons_eq_some.mp hrun
    by_cases hq : Q t
    . exact ⟨[], e, es, s, t, rfl, rfl, ht, hs, hq⟩
    . obtain ⟨before, f, after, u, u', hes, hbefore, hstep, hu, hu'⟩ := ih hrest hq
      refine ⟨e :: before, f, after, u, u', by rw [hes, List.cons_append], ?_, hstep, hu, hu'⟩
      rw [run_cons, ht]
      exact hbefore

/--
The progress rule: where every state short of the goal has an allowed step that makes a measure
smaller, the goal can be reached by allowed steps.
-/
theorem exists_run_of_progress {I G : σ → Prop} (measure : σ → Nat)
    (hprogress : ∀ s, I s → ¬ G s → ∃ e s', P s e ∧ step s e = some s' ∧ I s' ∧ measure s' < measure s)
    {s : σ} (hs : I s)
    : ∃ es s', run step s es = some s' ∧ Meets step P s es ∧ I s' ∧ G s' := by
  induction hm : measure s using Nat.strongRecOn generalizing s with
  | ind n ih =>
    by_cases hgoal : G s
    . exact ⟨[], s, rfl, trivial, hs, hgoal⟩
    . obtain ⟨e, t, hallowed, hstep, ht, hlt⟩ := hprogress s hs hgoal
      obtain ⟨es, s', hrun, hmeets, hs', hgoal'⟩ := ih (measure t) (hm ▸ hlt) ht rfl
      refine ⟨e :: es, s', run_cons_eq_some.mpr ⟨t, hstep, hrun⟩, ⟨hallowed, ?_⟩, hs', hgoal'⟩
      intro u hu
      rw [hstep] at hu
      cases hu
      exact hmeets

end Machine
