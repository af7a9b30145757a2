import Mathlib.Data.List.Basic

/-!
This module contains programs that an environment answers and may interrupt, with their triples. All
the nondeterminism of a program is in the list of answers that it consumes. Where the list ends the
run is cut, so that the cuts of a program are the points of its runs.
-/

inductive Outcome (ε α : Type) where
  | ok (value : α)
  | error (exn : ε)
  | cut
  deriving DecidableEq

/--
A program over the state `σ` that is answered with values of `τ` and throws values of `ε`. It returns
the answers that it has not consumed.
-/
def Program (σ τ ε α : Type) : Type := σ → List τ → Outcome ε α × σ × List τ

namespace Program

structure Part (σ ρ : Type) where
  get : σ → ρ
  put : ρ → σ → σ
  get_put : ∀ r s, get (put r s) = r

variable {σ ρ τ ε α β : Type}

def result (value : α) : Program σ τ ε α := fun s ts => (.ok value, s, ts)

def andThen (m : Program σ τ ε α) (f : α → Program σ τ ε β) : Program σ τ ε β := fun s ts =>
  match m s ts with
  | (.ok value, s, ts) => f value s ts
  | (.error exn, s, ts) => (.error exn, s, ts)
  | (.cut, s, ts) => (.cut, s, ts)

instance : Monad (Program σ τ ε) where
  pure := result
  bind := andThen

def raise (exn : ε) : Program σ τ ε α := fun s ts => (.error exn, s, ts)

-- The end of the whole process, as `std::terminate` brings it.
def terminate : Program σ τ ε α := fun s ts => (.cut, s, ts)

def inspect : Program σ τ ε σ := fun s ts => (.ok s, s, ts)

def update (f : σ → σ) : Program σ τ ε Unit := fun s ts => (.ok (), f s, ts)

def ask : Program σ τ ε τ := fun s ts =>
  match ts with
  | [] => (.cut, s, [])
  | t :: ts => (.ok t, s, ts)

def rescue (m : Program σ τ ε α) (handler : ε → Program σ τ ε α) : Program σ τ ε α := fun s ts =>
  match m s ts with
  | (.ok value, s, ts) => (.ok value, s, ts)
  | (.error exn, s, ts) => handler exn s ts
  | (.cut, s, ts) => (.cut, s, ts)

/--
Run `cleanup` however `m` ends, as the destructors of a scope do.
-/
def ensuring (m : Program σ τ ε α) (cleanup : Program σ τ ε Unit) : Program σ τ ε α := fun s ts =>
  match m s ts with
  | (.ok value, s, ts) => andThen cleanup (fun _ => result value) s ts
  | (.error exn, s, ts) => andThen cleanup (fun _ => raise exn) s ts
  | (.cut, s, ts) => (.cut, s, ts)

def iterateFuel (body : β → Program σ τ ε (β ⊕ α)) : Nat → β → Program σ τ ε α
  | 0, _ => terminate
  | fuel + 1, b => andThen (body b) fun
    | .inl b => iterateFuel body fuel b
    | .inr value => result value

/--
Repeat `body` until it returns on the right. A loop that asks in every round ends with the answers,
so one more round than there are answers suffices.
-/
def iterate (body : β → Program σ τ ε (β ⊕ α)) (b : β) : Program σ τ ε α := fun s ts =>
  iterateFuel body (ts.length + 1) b s ts

def zoom (p : Part σ ρ) (m : Program ρ τ ε α) : Program σ τ ε α := fun s ts =>
  match m (p.get s) ts with
  | (outcome, r, ts) => (outcome, p.put r s, ts)

def Ends (Q : α → σ → Prop) (E : ε → σ → Prop) (C : σ → Prop) (r : Outcome ε α × σ × List τ) : Prop :=
  match r with
  | (.ok value, s, _) => Q value s
  | (.error exn, s, _) => E exn s
  | (.cut, s, _) => C s

/--
From a state in which `P` holds the program returns, throws or is cut as `Q`, `E` and `C` say.
-/
def Triple (P : σ → Prop) (m : Program σ τ ε α) (Q : α → σ → Prop) (E : ε → σ → Prop)
    (C : σ → Prop) : Prop :=
  ∀ s ts, P s → Ends Q E C (m s ts)

section Rules

variable {P H : σ → Prop} {Q K : α → σ → Prop} {E D : ε → σ → Prop} {C C' : σ → Prop}
  {m : Program σ τ ε α}

theorem Ends.mono {r : Outcome ε α × σ × List τ} (h : Ends K D C' r)
    (hpost : ∀ a s, K a s → Q a s) (herror : ∀ e s, D e s → E e s) (hcut : ∀ s, C' s → C s)
    : Ends Q E C r := by
  rcases r with ⟨_ | _ | _, s, ts⟩
  . exact hpost _ _ h
  . exact herror _ _ h
  . exact hcut _ h

theorem Ends.state {I : σ → Prop} {r : Outcome ε α × σ × List τ}
    (h : Ends (fun _ => I) (fun _ => I) I r) : I r.2.1 := by
  rcases r with ⟨_ | _ | _, s, ts⟩
  . exact h
  . exact h
  . exact h

theorem Triple.conseq (h : Triple H m K D C') (hpre : ∀ s, P s → H s)
    (hpost : ∀ a s, K a s → Q a s) (herror : ∀ e s, D e s → E e s) (hcut : ∀ s, C' s → C s)
    : Triple P m Q E C := by
  intro s ts hs
  exact (h s ts (hpre s hs)).mono hpost herror hcut

theorem Triple.pre (h : Triple H m Q E C) (hpre : ∀ s, P s → H s) : Triple P m Q E C := by
  intro s ts hs
  exact h s ts (hpre s hs)

theorem Triple.and (h : Triple P m Q E C) (h' : Triple H m K D C')
    : Triple (fun s => P s ∧ H s) m (fun a s => Q a s ∧ K a s) (fun e s => E e s ∧ D e s)
        (fun s => C s ∧ C' s) := by
  intro s ts ⟨hs, hs'⟩
  have hr := h s ts hs
  have hr' := h' s ts hs'
  rcases hm : m s ts with ⟨_ | _ | _, t, us⟩
  all_goals
    rw [hm] at hr hr'
    exact ⟨hr, hr'⟩

theorem Triple.exists {ι : Type} {P : ι → σ → Prop} (h : ∀ i, Triple (P i) m Q E C)
    : Triple (fun s => ∃ i, P i s) m Q E C := by
  intro s ts ⟨i, hs⟩
  exact h i s ts hs

theorem Triple.given {φ : Prop} (h : φ → Triple P m Q E C) : Triple (fun s => φ ∧ P s) m Q E C := by
  intro s ts hs
  exact h hs.1 s ts hs.2

theorem Triple.or (h : Triple P m Q E C) (h' : Triple H m Q E C)
    : Triple (fun s => P s ∨ H s) m Q E C := by
  intro s ts hs
  cases hs with
  | inl hs => exact h s ts hs
  | inr hs => exact h' s ts hs

theorem triple_pure {value : α} (h : ∀ s, P s → Q value s)
    : Triple P (pure value : Program σ τ ε α) Q E C := by
  intro s _ hs
  exact h s hs

theorem triple_bind {R : β → σ → Prop} {m : Program σ τ ε β} {f : β → Program σ τ ε α}
    (hm : Triple P m R E C) (hf : ∀ b, Triple (R b) (f b) Q E C) : Triple P (m >>= f) Q E C := by
  intro s ts hs
  have h := hm s ts hs
  show Ends Q E C (andThen m f s ts)
  unfold andThen
  rcases hr : m s ts with ⟨b | _ | _, t, us⟩
  all_goals rw [hr] at h
  . exact hf b t us h
  . exact h
  . exact h

theorem triple_raise {exn : ε} (h : ∀ s, P s → E exn s)
    : Triple P (raise exn : Program σ τ ε α) Q E C := by
  intro s _ hs
  exact h s hs

theorem triple_terminate (h : ∀ s, P s → C s)
    : Triple P (terminate : Program σ τ ε α) Q E C := by
  intro s _ hs
  exact h s hs

theorem triple_inspect {Q : σ → σ → Prop} (h : ∀ s, P s → Q s s)
    : Triple P (inspect : Program σ τ ε σ) Q E C := by
  intro s _ hs
  exact h s hs

theorem triple_update {Q : Unit → σ → Prop} {f : σ → σ} (h : ∀ s, P s → Q () (f s))
    : Triple P (update f : Program σ τ ε Unit) Q E C := by
  intro s _ hs
  exact h s hs

theorem triple_ask {Q : τ → σ → Prop} (hcut : ∀ s, P s → C s) (h : ∀ t s, P s → Q t s)
    : Triple P (ask : Program σ τ ε τ) Q E C := by
  intro s ts hs
  cases ts with
  | nil => exact hcut s hs
  | cons t ts => exact h t s hs

theorem ends_rescue {handler : ε → Program σ τ ε α} {s : σ} {ts : List τ} (hm : Ends Q D C (m s ts))
    (hhandler : ∀ e, Triple (D e) (handler e) Q E C) : Ends Q E C (rescue m handler s ts) := by
  unfold rescue
  rcases hr : m s ts with ⟨_ | e | _, t, us⟩
  all_goals rw [hr] at hm
  . exact hm
  . exact hhandler e t us hm
  . exact hm

theorem triple_rescue {handler : ε → Program σ τ ε α} (hm : Triple P m Q D C)
    (hhandler : ∀ e, Triple (D e) (handler e) Q E C) : Triple P (rescue m handler) Q E C :=
  fun s ts hs => ends_rescue (hm s ts hs) hhandler

theorem ends_ensuring {cleanup : Program σ τ ε Unit} {s : σ} {ts : List τ} (hm : Ends K D C (m s ts))
    (hok : ∀ a, Triple (K a) cleanup (fun _ => Q a) E C)
    (herror : ∀ e, Triple (D e) cleanup (fun _ => E e) E C) : Ends Q E C (ensuring m cleanup s ts) := by
  unfold ensuring
  rcases hr : m s ts with ⟨a | e | _, t, us⟩
  all_goals rw [hr] at hm
  . exact triple_bind (hok a) (fun _ => triple_pure fun _ => id) t us hm
  . exact triple_bind (herror e) (fun _ => triple_raise fun _ => id) t us hm
  . exact hm

theorem triple_ensuring {cleanup : Program σ τ ε Unit} (hm : Triple P m K D C)
    (hok : ∀ a, Triple (K a) cleanup (fun _ => Q a) E C)
    (herror : ∀ e, Triple (D e) cleanup (fun _ => E e) E C)
    : Triple P (ensuring m cleanup) Q E C :=
  fun s ts hs => ends_ensuring (hm s ts hs) hok herror

theorem triple_ite {c : Prop} [Decidable c] {n : Program σ τ ε α}
    (hthen : c → Triple P m Q E C) (helse : ¬ c → Triple P n Q E C)
    : Triple P (if c then m else n) Q E C := by
  split
  . next h => exact hthen h
  . next h => exact helse h

/--
The loop rule: `I` holds before every round.
-/
theorem triple_iterate {I : β → σ → Prop} {body : β → Program σ τ ε (β ⊕ α)} {b : β}
    (hcut : ∀ b s, I b s → C s)
    (hbody : ∀ b, Triple (I b) (body b) (fun r s => Sum.elim (fun b => I b s) (fun a => Q a s) r) E C)
    : Triple (I b) (iterate body b) Q E C := by
  have hfuel : ∀ fuel b, Triple (I b) (iterateFuel body fuel b) Q E C := by
    intro fuel
    induction fuel with
    | zero =>
      intro b
      exact triple_terminate (hcut b)
    | succ fuel ih =>
      intro b
      apply triple_bind (hbody b)
      intro r
      cases r with
      | inl b => exact ih b
      | inr a => exact triple_pure fun _ => id
  intro s ts hs
  exact hfuel (ts.length + 1) b s ts hs

/--
The frame rule: what does not depend on the part stays true.
-/
theorem triple_zoom {p : Part σ ρ} {m : Program ρ τ ε α} {P : ρ → Prop} {Q : α → ρ → Prop}
    {E : ε → ρ → Prop} {C : ρ → Prop} {F : σ → Prop} (h : Triple P m Q E C)
    (hframe : ∀ r s, F s → F (p.put r s))
    : Triple (fun s => P (p.get s) ∧ F s) (zoom p m) (fun a s => Q a (p.get s) ∧ F s)
        (fun e s => E e (p.get s) ∧ F s) (fun s => C (p.get s) ∧ F s) := by
  intro s ts ⟨hs, hF⟩
  have hr := h (p.get s) ts hs
  unfold zoom
  rcases hm : m (p.get s) ts with ⟨_ | _ | _, r, us⟩
  all_goals
    rw [hm] at hr
    refine ⟨?_, hframe r s hF⟩
    rw [p.get_put]
    exact hr

end Rules

def NeverRaises (m : Program σ τ ε α) : Prop :=
  Triple (fun _ => True) m (fun _ _ => True) (fun _ _ => False) fun _ => True

section NeverRaises

variable {m : Program σ τ ε α}

theorem neverRaises_pure {value : α} : NeverRaises (pure value : Program σ τ ε α) :=
  triple_pure fun _ => id

theorem neverRaises_terminate : NeverRaises (terminate : Program σ τ ε α) :=
  triple_terminate fun _ => id

theorem neverRaises_inspect : NeverRaises (inspect : Program σ τ ε σ) :=
  triple_inspect fun _ => id

theorem neverRaises_update {f : σ → σ} : NeverRaises (update f : Program σ τ ε Unit) :=
  triple_update fun _ => id

theorem neverRaises_ask : NeverRaises (ask : Program σ τ ε τ) :=
  triple_ask (fun _ => id) fun _ _ => id

theorem neverRaises_bind {m : Program σ τ ε β} {f : β → Program σ τ ε α} (hm : NeverRaises m)
    (hf : ∀ b, NeverRaises (f b)) : NeverRaises (m >>= f) :=
  triple_bind hm hf

theorem neverRaises_rescue {handler : ε → Program σ τ ε α} (hhandler : ∀ e, NeverRaises (handler e))
    : NeverRaises (rescue m handler) := by
  intro s ts _
  unfold rescue
  rcases m s ts with ⟨_ | e | _, t, us⟩
  . trivial
  . exact hhandler e t us trivial
  . trivial

theorem neverRaises_zoom {p : Part σ ρ} {m : Program ρ τ ε α} (hm : NeverRaises m) : NeverRaises (zoom p m) := by
  intro s ts _
  have hends := hm (p.get s) ts trivial
  unfold zoom
  rcases hr : m (p.get s) ts with ⟨_ | e | _, t, us⟩
  . trivial
  . rw [hr] at hends
    exact hends
  . trivial

end NeverRaises

/--
The program keeps `I`, however it ends and wherever it is cut.
-/
def Keeps (I : σ → Prop) (m : Program σ τ ε α) : Prop := Triple I m (fun _ => I) (fun _ => I) I

section Keeps

variable {I : σ → Prop} {m : Program σ τ ε α}

theorem keeps_pure {value : α} : Keeps I (pure value : Program σ τ ε α) := triple_pure fun _ => id

theorem keeps_bind {m : Program σ τ ε β} {f : β → Program σ τ ε α} (hm : Keeps I m)
    (hf : ∀ b, Keeps I (f b)) : Keeps I (m >>= f) :=
  triple_bind hm hf

theorem keeps_raise {exn : ε} : Keeps I (raise exn : Program σ τ ε α) := triple_raise fun _ => id

theorem keeps_terminate : Keeps I (terminate : Program σ τ ε α) := triple_terminate fun _ => id

theorem keeps_inspect : Keeps I (inspect : Program σ τ ε σ) := triple_inspect fun _ => id

theorem keeps_update {f : σ → σ} (h : ∀ s, I s → I (f s))
    : Keeps I (update f : Program σ τ ε Unit) :=
  triple_update h

theorem keeps_ask : Keeps I (ask : Program σ τ ε τ) := triple_ask (fun _ => id) fun _ _ => id

theorem keeps_rescue {handler : ε → Program σ τ ε α} (hm : Keeps I m)
    (hhandler : ∀ e, Keeps I (handler e)) : Keeps I (rescue m handler) :=
  triple_rescue hm hhandler

theorem Keeps.or {J : σ → Prop} (hI : Keeps I m) (hJ : Keeps J m) : Keeps (fun s => I s ∨ J s) m := by
  intro s ts hs
  cases hs with
  | inl hs => exact (hI s ts hs).mono (fun _ _ => .inl) (fun _ _ => .inl) fun _ => .inl
  | inr hs => exact (hJ s ts hs).mono (fun _ _ => .inr) (fun _ _ => .inr) fun _ => .inr

theorem keeps_ite {c : Prop} [Decidable c] {n : Program σ τ ε α} (hthen : Keeps I m)
    (helse : Keeps I n) : Keeps I (if c then m else n) :=
  triple_ite (fun _ => hthen) fun _ => helse

theorem keeps_iterate {body : β → Program σ τ ε (β ⊕ α)} {b : β} (hbody : ∀ b, Keeps I (body b))
    : Keeps I (iterate body b) := by
  apply triple_iterate (I := fun _ => I) (fun _ _ => id)
  intro b
  apply (hbody b).conseq (fun _ => id) _ (fun _ _ => id) (fun _ => id)
  intro r s hs
  cases r with
  | inl b => exact hs
  | inr a => exact hs

theorem keeps_zoom {p : Part σ ρ} {m : Program ρ τ ε α} (hframe : ∀ r s, I s → I (p.put r s))
    : Keeps I (zoom p m) := by
  intro s ts hs
  unfold zoom
  rcases m (p.get s) ts with ⟨_ | _ | _, r, us⟩
  all_goals exact hframe r s hs

end Keeps

section Evaluation

theorem bind_ok {m : Program σ τ ε α} {f : α → Program σ τ ε β} {s s' : σ} {ts us : List τ} {value : α}
    (h : m s ts = (.ok value, s', us)) : (m >>= f) s ts = f value s' us := by
  show andThen m f s ts = _
  unfold andThen
  rw [h]

theorem bind_inspect {f : σ → Program σ τ ε β} (s : σ) (ts : List τ) : (inspect >>= f) s ts = f s s ts := rfl

theorem bind_update {f : σ → σ} {m : Program σ τ ε β} (s : σ) (ts : List τ)
    : (update f >>= fun _ => m) s ts = m (f s) ts := rfl

theorem zoom_ok {p : Part σ ρ} {m : Program ρ τ ε α} {s : σ} {r : ρ} {ts us : List τ} {value : α}
    (h : m (p.get s) ts = (.ok value, r, us)) : zoom p m s ts = (.ok value, p.put r s, us) := by
  unfold zoom
  rw [h]

theorem ok_of_zoom {p : Part σ ρ} {m : Program ρ τ ε α} {s s' : σ} {ts us : List τ} {value : α}
    (h : zoom p m s ts = (.ok value, s', us)) : ∃ r, m (p.get s) ts = (.ok value, r, us) ∧ s' = p.put r s := by
  unfold zoom at h
  rcases hm : m (p.get s) ts with ⟨_ | _ | _, r, vs⟩
  all_goals
    rw [hm] at h
    cases h
  exact ⟨r, rfl, rfl⟩

theorem bind_error {m : Program σ τ ε α} {f : α → Program σ τ ε β} {s s' : σ} {ts us : List τ} {exn : ε}
    (h : m s ts = (.error exn, s', us)) : (m >>= f) s ts = (.error exn, s', us) := by
  show andThen m f s ts = _
  unfold andThen
  rw [h]

theorem zoom_error {p : Part σ ρ} {m : Program ρ τ ε α} {s : σ} {r : ρ} {ts us : List τ} {exn : ε}
    (h : m (p.get s) ts = (.error exn, r, us)) : zoom p m s ts = (.error exn, p.put r s, us) := by
  unfold zoom
  rw [h]

theorem bind_cut {m : Program σ τ ε α} {f : α → Program σ τ ε β} {s s' : σ} {ts us : List τ}
    (h : m s ts = (.cut, s', us)) : (m >>= f) s ts = (.cut, s', us) := by
  show andThen m f s ts = _
  unfold andThen
  rw [h]

theorem ok_of_bind {m : Program σ τ ε α} {f : α → Program σ τ ε β} {s s' : σ} {ts us : List τ} {value : β}
    (h : (m >>= f) s ts = (.ok value, s', us))
    : ∃ a t vs, m s ts = (.ok a, t, vs) ∧ f a t vs = (.ok value, s', us) := by
  rcases hm : m s ts with ⟨a | _ | _, t, vs⟩
  . exact ⟨a, t, vs, rfl, (bind_ok hm).symm.trans h⟩
  . rw [bind_error hm] at h
    cases h
  . rw [bind_cut hm] at h
    cases h

theorem reaches_of_bind {I : σ → Prop} {m : Program σ τ ε α} {f : α → Program σ τ ε β} {s : σ} {ts : List τ}
    (hm : Keeps I m) (hs : I s) (h : ¬ I ((m >>= f) s ts).2.1)
    : ∃ a t us, m s ts = (.ok a, t, us) ∧ I t ∧ (m >>= f) s ts = f a t us := by
  have hends := hm s ts hs
  rcases hr : m s ts with ⟨a | _ | _, t, us⟩
  all_goals rw [hr] at hends
  . exact ⟨a, t, us, rfl, hends, bind_ok hr⟩
  . rw [bind_error hr] at h
    exact absurd hends h
  . rw [bind_cut hr] at h
    exact absurd hends h

theorem error_of_bind {m : Program σ τ ε α} {f : α → Program σ τ ε β} {s s' : σ} {ts us : List τ} {exn : ε}
    (h : (m >>= f) s ts = (.error exn, s', us))
    : m s ts = (.error exn, s', us) ∨ ∃ a t vs, m s ts = (.ok a, t, vs) ∧ f a t vs = (.error exn, s', us) := by
  rcases hm : m s ts with ⟨a | _ | _, t, vs⟩
  . exact .inr ⟨a, t, vs, rfl, (bind_ok hm).symm.trans h⟩
  . rw [bind_error hm] at h
    cases h
    exact .inl rfl
  . rw [bind_cut hm] at h
    cases h

theorem error_of_zoom {p : Part σ ρ} {m : Program ρ τ ε α} {s s' : σ} {ts us : List τ} {exn : ε}
    (h : zoom p m s ts = (.error exn, s', us)) : ∃ r, m (p.get s) ts = (.error exn, r, us) ∧ s' = p.put r s := by
  unfold zoom at h
  rcases hm : m (p.get s) ts with ⟨_ | _ | _, r, vs⟩
  all_goals
    rw [hm] at h
    cases h
  exact ⟨r, rfl, rfl⟩

theorem error_of_ensuring {I : σ → Prop} {m : Program σ τ ε α} {cleanup : Program σ τ ε Unit} {s s' : σ}
    {ts us : List τ} {exn : ε} (hcleanup : NeverRaises cleanup) (hkeeps : Keeps I cleanup)
    (h : ensuring m cleanup s ts = (.error exn, s', us)) (hs' : ¬ I s')
    : ∃ t vs, m s ts = (.error exn, t, vs) ∧ ¬ I t := by
  unfold ensuring at h
  rcases hm : m s ts with ⟨a | e | _, t, vs⟩
  all_goals rw [hm] at h
  . have hends := (neverRaises_bind hcleanup fun _ => (neverRaises_pure : NeverRaises (pure a : Program σ τ ε α)))
      t vs trivial
    replace h : (cleanup >>= fun _ => pure a) t vs = _ := h
    rw [h] at hends
    exact hends.elim
  . replace h : (cleanup >>= fun _ => raise e) t vs = _ := h
    rcases error_of_bind h with h | ⟨_, t', vs', hdone, h⟩
    . have hends := hcleanup t vs trivial
      rw [h] at hends
      exact hends.elim
    . cases h
      refine ⟨t, vs, rfl, fun ht => hs' ?_⟩
      have hends := hkeeps t vs ht
      rw [hdone] at hends
      exact hends
  . cases h

theorem rescue_error {m : Program σ τ ε α} {handler : ε → Program σ τ ε α} {s s' : σ} {ts us : List τ} {exn : ε}
    (h : m s ts = (.error exn, s', us)) : rescue m handler s ts = handler exn s' us := by
  unfold rescue
  rw [h]

theorem error_of_rescue {m : Program σ τ ε α} {handler : ε → Program σ τ ε α} {s s' : σ} {ts us : List τ}
    {exn : ε} (h : rescue m handler s ts = (.error exn, s', us))
    : ∃ e t vs, m s ts = (.error e, t, vs) ∧ handler e t vs = (.error exn, s', us) := by
  unfold rescue at h
  rcases hm : m s ts with ⟨_ | e | _, t, vs⟩
  all_goals rw [hm] at h
  . cases h
  . exact ⟨e, t, vs, rfl, h⟩
  . cases h

theorem of_ensuring {I : σ → Prop} {m : Program σ τ ε α} {cleanup : Program σ τ ε Unit} {s : σ} {ts : List τ}
    (hcleanup : Keeps I cleanup) (h : I (m s ts).2.1) : I (ensuring m cleanup s ts).2.1 := by
  unfold ensuring
  rcases hr : m s ts with ⟨a | e | _, t, us⟩
  all_goals rw [hr] at h
  . exact (keeps_bind hcleanup (fun _ => (keeps_pure : Keeps I (pure a : Program σ τ ε α))) t us h).state
  . exact (keeps_bind hcleanup (fun _ => (keeps_raise : Keeps I (raise e : Program σ τ ε α))) t us h).state
  . exact h

theorem of_rescue {I : σ → Prop} {m : Program σ τ ε α} {handler : ε → Program σ τ ε α} {s : σ} {ts : List τ}
    (hhandler : ∀ e, Keeps I (handler e)) (h : I (m s ts).2.1) : I (rescue m handler s ts).2.1 := by
  unfold rescue
  rcases hr : m s ts with ⟨_ | e | _, t, us⟩
  all_goals rw [hr] at h
  . exact h
  . exact (hhandler e t us h).state
  . exact h

theorem iterateFuel_again {body : β → Program σ τ ε (β ⊕ α)} {fuel : Nat} {b b' : β} {s s' : σ}
    {ts us : List τ} (h : body b s ts = (.ok (.inl b'), s', us))
    : iterateFuel body (fuel + 1) b s ts = iterateFuel body fuel b' s' us :=
  bind_ok h

theorem iterateFuel_done {body : β → Program σ τ ε (β ⊕ α)} {fuel : Nat} {b : β} {s s' : σ}
    {ts us : List τ} {value : α} (h : body b s ts = (.ok (.inr value), s', us))
    : iterateFuel body (fuel + 1) b s ts = (.ok value, s', us) :=
  bind_ok h

theorem iterateFuel_cut {body : β → Program σ τ ε (β ⊕ α)} {fuel : Nat} {b : β} {s s' : σ}
    {ts us : List τ} (h : body b s ts = (.cut, s', us))
    : iterateFuel body (fuel + 1) b s ts = (.cut, s', us) :=
  bind_cut h

theorem rescue_ignored {m : Program σ τ ε Unit} {s : σ} {ts : List τ}
    : (rescue m (fun _ => pure ()) s ts).2.1 = (m s ts).2.1 := by
  unfold rescue
  rcases m s ts with ⟨_ | _ | _, s', us⟩
  . rfl
  . rfl
  . rfl

end Evaluation

end Program
