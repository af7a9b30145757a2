import Mathlib.Algebra.BigOperators.Group.List.Basic
import Mathlib.Algebra.GroupWithZero.Nat
import HikBridge.Lib.Machine

/-!
This module contains bounded FIFO queues that many threads share: the abstract queue with its
history, the machine of producers and consumers that call an implementation one critical section at
a time, and the rule by which an implementation inherits the laws of the abstract queue.
-/

/--
A queue of items whose sizes add up to at most `limit`, with the history of what it accepted and of
what was taken from it.
-/
structure BoundedFifo {α : Type*} (size : α → Nat) (limit : Nat) where
  queued : List α
  peak : Nat
  closed : Bool
  accepted : List α
  taken : List α
  load_le_peak : (queued.map size).sum ≤ peak
  peak_le_limit : peak ≤ limit
  taken_append_queued : taken ++ queued = accepted

namespace BoundedFifo

variable {σ β α : Type*} {size : α → Nat} {limit : Nat}

def load (q : BoundedFifo size limit) : Nat := (q.queued.map size).sum

def empty : BoundedFifo size limit where
  queued := []
  peak := 0
  closed := false
  accepted := []
  taken := []
  load_le_peak := by simp
  peak_le_limit := by simp
  taken_append_queued := rfl

def accept (q : BoundedFifo size limit) (item : α) (hfit : q.load + size item ≤ limit)
    : BoundedFifo size limit where
  queued := q.queued ++ [item]
  peak := max q.peak (q.load + size item)
  closed := q.closed
  accepted := q.accepted ++ [item]
  taken := q.taken
  load_le_peak := by
    simp only [load, List.map_append, List.sum_append, List.map_cons, List.map_nil, List.sum_singleton]
    exact Nat.le_max_right _ _
  peak_le_limit := by
    have := q.peak_le_limit
    omega
  taken_append_queued := by rw [← List.append_assoc, q.taken_append_queued]

def take (q : BoundedFifo size limit) (item : α) (rest : List α) (h : q.queued = item :: rest)
    : BoundedFifo size limit where
  queued := rest
  peak := q.peak
  closed := q.closed
  accepted := q.accepted
  taken := q.taken ++ [item]
  load_le_peak := by
    have := q.load_le_peak
    simp only [h, List.map_cons, List.sum_cons] at this
    omega
  peak_le_limit := q.peak_le_limit
  taken_append_queued := by
    rw [← q.taken_append_queued, h]
    simp

def close (q : BoundedFifo size limit) : BoundedFifo size limit := { q with closed := true }

structure Later (q q' : BoundedFifo size limit) : Prop where
  peak_le : q.peak ≤ q'.peak
  accepted_prefix : q.accepted <+: q'.accepted
  taken_prefix : q.taken <+: q'.taken
  closed : q.closed = true → q'.closed = true ∧ q'.accepted = q.accepted

theorem Later.refl (q : BoundedFifo size limit) : Later q q :=
  ⟨Nat.le_refl _, List.prefix_refl _, List.prefix_refl _, fun h => ⟨h, rfl⟩⟩

theorem Later.trans {q q' q'' : BoundedFifo size limit} (h : Later q q') (h' : Later q' q'')
    : Later q q'' where
  peak_le := Nat.le_trans h.peak_le h'.peak_le
  accepted_prefix := h.accepted_prefix.trans h'.accepted_prefix
  taken_prefix := h.taken_prefix.trans h'.taken_prefix
  closed hclosed := by
    have hmid := h.closed hclosed
    have hend := h'.closed hmid.1
    exact ⟨hend.1, hend.2.trans hmid.2⟩

theorem later_accept (q : BoundedFifo size limit) {item : α} (hfit : q.load + size item ≤ limit)
    (hopen : q.closed = false) : Later q (q.accept item hfit) where
  peak_le := Nat.le_max_left _ _
  accepted_prefix := List.prefix_append _ _
  taken_prefix := List.prefix_refl _
  closed hclosed := by simp [hopen] at hclosed

theorem later_take (q : BoundedFifo size limit) {item : α} {rest : List α}
    (h : q.queued = item :: rest) : Later q (q.take item rest h) where
  peak_le := Nat.le_refl _
  accepted_prefix := List.prefix_refl _
  taken_prefix := List.prefix_append _ _
  closed hclosed := ⟨hclosed, rfl⟩

theorem later_close (q : BoundedFifo size limit) : Later q q.close :=
  ⟨Nat.le_refl _, List.prefix_refl _, List.prefix_refl _, fun _ => ⟨rfl, rfl⟩⟩

theorem queued_eq_nil_iff (q : BoundedFifo size limit) : q.queued = [] ↔ q.taken = q.accepted := by
  have h := q.taken_append_queued
  constructor
  . intro hnil
    rw [hnil, List.append_nil] at h
    exact h
  . intro htaken
    rw [htaken] at h
    simpa using h

-- What a critical section of a `push` or of a `pop` comes to.
inductive Push (α : Type*) where
  | accepted (item : α)
  | refused
  | waiting

inductive Pop (α : Type*) where
  | taken (item : α)
  | nothing
  | waiting

/--
An implementation by its critical sections: the first one of a call, with whether its deadline has
passed already, and the one after a wait, with whether the wait timed out and whether the deadline
has passed since.
-/
structure Impl (σ β α : Type*) where
  push : σ → β → Bool → Push α × σ
  pushWake : σ → β → Bool → Bool → Push α × σ
  pop : σ → Bool → Pop α × σ
  popWake : σ → Bool → Bool → Pop α × σ
  close : σ → σ

/--
A queue in use, with the calls that wait on it and the history of what the calls returned.
-/
structure Shared (σ β α : Type*) where
  queue : σ
  pushing : Nat → Option β := fun _ => none
  popping : Nat → Bool := fun _ => false
  accepted : List α := []
  taken : List α := []

inductive Call (β : Type*) where
  | push (producer : Nat) (data : β) (expired : Bool)
  | pushWake (producer : Nat) (timedOut expired : Bool)
  | pop (consumer : Nat) (expired : Bool)
  | popWake (consumer : Nat) (timedOut expired : Bool)
  | close

namespace Shared

def afterPush (w : Shared σ β α) (producer : Nat) (data : β) (result : Push α × σ) : Shared σ β α :=
  match result with
  | (.accepted item, queue) =>
    { w with
      queue
      pushing := Function.update w.pushing producer none
      accepted := w.accepted ++ [item] }
  | (.refused, queue) => { w with queue, pushing := Function.update w.pushing producer none }
  | (.waiting, queue) => { w with queue, pushing := Function.update w.pushing producer (some data) }

def afterPop (w : Shared σ β α) (consumer : Nat) (result : Pop α × σ) : Shared σ β α :=
  match result with
  | (.taken item, queue) =>
    { w with
      queue
      popping := Function.update w.popping consumer false
      taken := w.taken ++ [item] }
  | (.nothing, queue) => { w with queue, popping := Function.update w.popping consumer false }
  | (.waiting, queue) => { w with queue, popping := Function.update w.popping consumer true }

end Shared

namespace Impl

variable (m : Impl σ β α)

def step (w : Shared σ β α) (call : Call β) : Option (Shared σ β α) :=
  match call with
  | .push producer data expired =>
    match w.pushing producer with
    | none => some (w.afterPush producer data (m.push w.queue data expired))
    | some _ => none
  | .pushWake producer timedOut expired =>
    match w.pushing producer with
    | some data => some (w.afterPush producer data (m.pushWake w.queue data timedOut expired))
    | none => none
  | .pop consumer expired =>
    if w.popping consumer then none else some (w.afterPop consumer (m.pop w.queue expired))
  | .popWake consumer timedOut expired =>
    if w.popping consumer then
      some (w.afterPop consumer (m.popWake w.queue timedOut expired))
    else
      none
  | .close => some { w with queue := m.close w.queue }

variable (Represents : σ → BoundedFifo size limit → Prop)

-- What a critical section of a `push` may do to a queue that represents `q`.
def PushMeets (q : BoundedFifo size limit) (result : Push α × σ) : Prop :=
  match result with
  | (.accepted item, s) =>
    q.closed = false ∧ ∃ hfit : q.load + size item ≤ limit, Represents s (q.accept item hfit)
  | (_, s) => Represents s q

def PopMeets (q : BoundedFifo size limit) (result : Pop α × σ) : Prop :=
  match result with
  | (.taken item, s) => ∃ rest, ∃ h : q.queued = item :: rest, Represents s (q.take item rest h)
  | (_, s) => Represents s q

/--
The critical sections of `m` do to a queue that represents `q` what they may do to `q`, and a `pop`
that finds an item takes it.
-/
structure Refines : Prop where
  push : ∀ s q data expired, Represents s q → PushMeets Represents q (m.push s data expired)
  pushWake : ∀ s q data timedOut expired, Represents s q
    → PushMeets Represents q (m.pushWake s data timedOut expired)
  pop : ∀ s q expired, Represents s q → PopMeets Represents q (m.pop s expired)
  popWake : ∀ s q timedOut expired, Represents s q
    → PopMeets Represents q (m.popWake s timedOut expired)
  close : ∀ s q, Represents s q → Represents (m.close s) q.close
  pop_of_ne_nil : ∀ s q expired, Represents s q → q.queued ≠ []
    → ∃ item, (m.pop s expired).1 = .taken item

end Impl

structure Shared.Represents (R : σ → BoundedFifo size limit → Prop) (w : Shared σ β α)
    (q : BoundedFifo size limit) : Prop where
  queue : R w.queue q
  accepted_eq : w.accepted = q.accepted
  taken_eq : w.taken = q.taken

namespace Impl

variable {m : Impl σ β α} {R : σ → BoundedFifo size limit → Prop} {w w' : Shared σ β α}
  {q : BoundedFifo size limit}

theorem afterPush_represents (hw : w.Represents R q) (producer : Nat) (data : β)
    {result : Push α × σ} (hresult : PushMeets R q result)
    : ∃ q', Later q q' ∧ (w.afterPush producer data result).Represents R q' := by
  unfold PushMeets at hresult
  split at hresult
  . next item s =>
    obtain ⟨hopen, hfit, hs⟩ := hresult
    refine ⟨q.accept item hfit, q.later_accept hfit hopen, hs, ?_, hw.taken_eq⟩
    simp [Shared.afterPush, accept, hw.accepted_eq]
  . next outcome s _ =>
    refine ⟨q, Later.refl q, ?_⟩
    cases outcome with
    | accepted item => simp_all
    | refused => exact ⟨hresult, hw.accepted_eq, hw.taken_eq⟩
    | waiting => exact ⟨hresult, hw.accepted_eq, hw.taken_eq⟩

theorem afterPop_represents (hw : w.Represents R q) (consumer : Nat)
    {result : Pop α × σ} (hresult : PopMeets R q result)
    : ∃ q', Later q q' ∧ (w.afterPop consumer result).Represents R q' := by
  unfold PopMeets at hresult
  split at hresult
  . next item s =>
    obtain ⟨rest, h, hs⟩ := hresult
    refine ⟨q.take item rest h, q.later_take h, hs, hw.accepted_eq, ?_⟩
    simp [Shared.afterPop, take, hw.taken_eq]
  . next outcome s _ =>
    refine ⟨q, Later.refl q, ?_⟩
    cases outcome with
    | taken item => simp_all
    | nothing => exact ⟨hresult, hw.accepted_eq, hw.taken_eq⟩
    | waiting => exact ⟨hresult, hw.accepted_eq, hw.taken_eq⟩

theorem step_represents (hm : m.Refines R) {call : Call β} (hw : w.Represents R q)
    (hstep : m.step w call = some w') : ∃ q', Later q q' ∧ w'.Represents R q' := by
  cases call with
  | push producer data expired =>
    simp only [step] at hstep
    split at hstep
    . cases hstep
      apply afterPush_represents hw
      exact hm.push _ _ _ _ hw.queue
    . contradiction
  | pushWake producer timedOut expired =>
    simp only [step] at hstep
    split at hstep
    . cases hstep
      apply afterPush_represents hw
      exact hm.pushWake _ _ _ _ _ hw.queue
    . contradiction
  | pop consumer expired =>
    simp only [step] at hstep
    split at hstep
    . contradiction
    . cases hstep
      apply afterPop_represents hw
      exact hm.pop _ _ _ hw.queue
  | popWake consumer timedOut expired =>
    simp only [step] at hstep
    split at hstep
    . cases hstep
      apply afterPop_represents hw
      exact hm.popWake _ _ _ _ hw.queue
    . contradiction
  | close =>
    cases hstep
    exact ⟨q.close, q.later_close, hm.close _ _ hw.queue, hw.accepted_eq, hw.taken_eq⟩

theorem run_represents (hm : m.Refines R) {calls : List (Call β)} (hw : w.Represents R q)
    (hrun : Machine.run m.step w calls = some w') : ∃ q', Later q q' ∧ w'.Represents R q' := by
  apply Machine.run_simulates Later.refl (fun _ _ _ => Later.trans) _ hw hrun
  intro s q e s' hs hstep
  exact step_represents hm hs hstep

theorem run_drain (hm : m.Refines R) (hw : w.Represents R q) {consumer : Nat}
    (hidle : w.popping consumer = false) (expired : Bool)
    : ∃ w', Machine.run m.step w (List.replicate q.queued.length (.pop consumer expired)) = some w'
        ∧ w'.accepted = w.accepted ∧ w'.taken = w.accepted := by
  generalize hn : q.queued.length = n
  induction n generalizing w q with
  | zero =>
    refine ⟨w, rfl, rfl, ?_⟩
    rw [hw.taken_eq, hw.accepted_eq]
    apply q.queued_eq_nil_iff.mp
    exact List.length_eq_zero_iff.mp hn
  | succ n ih =>
    have hne : q.queued ≠ [] := by
      intro hnil
      simp [hnil] at hn
    obtain ⟨item, hitem⟩ := hm.pop_of_ne_nil _ _ expired hw.queue hne
    have hpop := hm.pop _ _ expired hw.queue
    rcases hresult : m.pop w.queue expired with ⟨outcome, s⟩
    rw [hresult] at hitem hpop
    cases hitem
    obtain ⟨rest, hqueued, hs⟩ := hpop
    have hstep : m.step w (.pop consumer expired)
        = some (w.afterPop consumer (.taken item, s)) := by
      simp [step, hidle, hresult]
    have hnext : (w.afterPop consumer (.taken item, s)).Represents R (q.take item rest hqueued) :=
      ⟨hs, hw.accepted_eq, by simp [Shared.afterPop, take, hw.taken_eq]⟩
    obtain ⟨w', hrun, haccepted, htaken⟩ := ih hnext (by simp [Shared.afterPop])
      (by simpa [take, hqueued] using hn)
    refine ⟨w', ?_, haccepted, htaken⟩
    rw [List.replicate_succ, Machine.run_cons, hstep]
    exact hrun

end Impl

structure View (σ α : Type*) where
  items : σ → List α
  bytes : σ → Int
  peak : σ → Int
  closed : σ → Bool
  drained : σ → Bool

structure View.Shows (view : View σ α) (s : σ) (q : BoundedFifo size limit) : Prop where
  items_eq : view.items s = q.queued
  bytes_eq : view.bytes s = q.load
  peak_eq : view.peak s = q.peak
  closed_eq : view.closed s = q.closed
  drained_eq : view.drained s = (q.closed && q.queued.isEmpty)

/--
The specification of a bounded queue that is shared by any number of producers and consumers: what
holds in a state that they have reached, whatever they call next.
-/
structure Spec (m : Impl σ β α) (view : View σ α) (size : α → Nat) (limit : Int)
    (w : Shared σ β α) : Prop where
  bytes_eq : view.bytes w.queue = ((view.items w.queue).map size).sum
  bytes_le_peak : view.bytes w.queue ≤ view.peak w.queue
  peak_le_limit : view.peak w.queue ≤ limit
  taken_append_items : w.taken ++ view.items w.queue = w.accepted
  drained_iff : view.drained w.queue = true
    ↔ view.closed w.queue = true ∧ w.taken = w.accepted
  peak_mono : ∀ calls w', Machine.run m.step w calls = some w'
    → view.peak w.queue ≤ view.peak w'.queue
  accepts_until_close : ∀ calls w', Machine.run m.step w calls = some w'
    → view.closed w.queue = true → view.closed w'.queue = true ∧ w'.accepted = w.accepted
  drains : ∀ consumer expired, w.popping consumer = false → ∃ w', Machine.run m.step w
      (List.replicate (view.items w.queue).length (.pop consumer expired)) = some w'
    ∧ w'.taken = w.accepted

/--
An implementation that refines the abstract queue meets the specification in every state that an
interleaving of calls reaches.
-/
theorem spec_of_run {m : Impl σ β α} {view : View σ α} {R : σ → BoundedFifo size limit → Prop}
    (hm : m.Refines R) (hview : ∀ s q, R s q → view.Shows s q) {s₀ : σ} (hs₀ : R s₀ empty)
    {calls : List (Call β)} {w : Shared σ β α}
    (hrun : Machine.run m.step { queue := s₀ } calls = some w) : Spec m view size limit w := by
  obtain ⟨q, -, hw⟩ := Impl.run_represents hm ⟨hs₀, rfl, rfl⟩ hrun
  have hshow := hview _ _ hw.queue
  constructor
  . rw [hshow.bytes_eq, hshow.items_eq]
    rfl
  . rw [hshow.bytes_eq, hshow.peak_eq]
    exact Int.ofNat_le.mpr q.load_le_peak
  . rw [hshow.peak_eq]
    exact Int.ofNat_le.mpr q.peak_le_limit
  . rw [hshow.items_eq, hw.taken_eq, hw.accepted_eq]
    exact q.taken_append_queued
  . rw [hshow.drained_eq, hshow.closed_eq, hw.taken_eq, hw.accepted_eq, ← q.queued_eq_nil_iff]
    simp
  . intro calls w' hcalls
    obtain ⟨q', hlater, hw'⟩ := Impl.run_represents hm hw hcalls
    rw [hshow.peak_eq, (hview _ _ hw'.queue).peak_eq]
    exact Int.ofNat_le.mpr hlater.peak_le
  . intro calls w' hcalls hclosed
    obtain ⟨q', hlater, hw'⟩ := Impl.run_represents hm hw hcalls
    rw [hshow.closed_eq] at hclosed
    rw [(hview _ _ hw'.queue).closed_eq, hw'.accepted_eq, hw.accepted_eq]
    exact hlater.closed hclosed
  . intro consumer expired hidle
    obtain ⟨w', hdrain, -, htaken⟩ := Impl.run_drain hm hw hidle expired
    rw [hshow.items_eq]
    exact ⟨w', hdrain, htaken⟩

end BoundedFifo
