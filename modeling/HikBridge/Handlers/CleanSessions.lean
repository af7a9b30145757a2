import HikBridge.Http.HandleConnection
import HikBridge.SessionRegistry.Generation

/-!
This module contains the `/cleanSessions` requests of a bridge. Each of them calls the registry three
times before it answers, and every other request may call it in between.
-/

namespace HikBridge
namespace SessionRegistry

/--
The loop of `clean` when the callback throws after `kept` states were cancelled.
-/
def cancelUntil : Nat → List State → List State
  | _, [] => []
  | kept, state :: rest =>
    if state.cancelled then
      state :: cancelUntil kept rest
    else
      match kept with
      | 0 => state :: rest
      | kept + 1 => { state with cancelled := true } :: cancelUntil kept rest

def cleanThrows (r : SessionRegistry) (kept : Nat) : SessionRegistry :=
  let r := r.nextGeneration
  { r with states := cancelUntil kept r.states }

theorem mem_cancelUntil {kept : Nat} {states : List State} {state : State}
    (h : state ∈ cancelUntil kept states)
    : ∃ old ∈ states, old.id = state.id ∧ old.generation = state.generation
        ∧ (old.cancelled = true → state.cancelled = true) := by
  induction states generalizing kept with
  | nil => cases h
  | cons head rest ih =>
    unfold cancelUntil at h
    split at h
    . rcases List.mem_cons.mp h with rfl | h
      . exact ⟨state, by simp, rfl, rfl, id⟩
      . obtain ⟨old, hold, hrest⟩ := ih h
        exact ⟨old, by simp [hold], hrest⟩
    . next hcancelled =>
      cases kept with
      | zero => exact ⟨state, h, rfl, rfl, id⟩
      | succ kept =>
        rcases List.mem_cons.mp h with rfl | h
        . exact ⟨head, by simp, rfl, rfl, fun _ => rfl⟩
        . obtain ⟨old, hold, hrest⟩ := ih h
          exact ⟨old, by simp [hold], hrest⟩

end SessionRegistry

structure CleanResponse where
  affectedSessions : Nat
  cleaningSessions : Nat
  generation : Bytes
  deriving DecidableEq, Repr

def CleanResponse.answer (response : CleanResponse) : Answer :=
  .json (if response.cleaningSessions = 0 then 200 else 202)
    (Bytes.lit "\x7b\"applied\":true,\"affectedSessions\":" ++ Bytes.ofInt response.affectedSessions
      ++ Bytes.lit ",\"cleaningSessions\":" ++ Bytes.ofInt response.cleaningSessions
      ++ Bytes.lit ",\"generation\":\"" ++ response.generation ++ Bytes.lit "\"\x7d")

theorem Exchange.cleanSessions_eq (c : Server) (request : HttpRequest) (response : CleanResponse)
    (haffected : c.affected = response.affectedSessions)
    (hcleaning : c.cleaning = response.cleaningSessions)
    (hgeneration : c.generation = response.generation)
    (hmethod : request.method = Bytes.lit "POST")
    (hquery : request.query (Bytes.lit "apply") = some (Bytes.lit "true"))
    (hheaders : request.headers (Bytes.lit "x-hik-cleanup") = some (Bytes.lit "true"))
    : cleanSessions c request
        =
      (do
        let _ ← onEnv external
        sendAnswer c response.answer) := by
  have hpost : Bytes.lit "POST" ≠ Bytes.lit "OPTIONS" := by decide
  unfold cleanSessions CleanResponse.answer
  simp [hmethod, hpost, hquery, hheaders, haffected, hcleaning, hgeneration]

/--
Where a `/cleanSessions` request is. `own` is the number of the clean it made, the generation of
which is the `own`-th after the first.
-/
inductive CleanPc where
  | idle
  | cleaned (affected own : Nat)
  | counted (affected remaining own : Nat)
  | answered (response : CleanResponse) (own : Nat)
  | failed
  deriving DecidableEq, Repr

def CleanPc.isPending : CleanPc → Bool
  | .cleaned _ _ | .counted _ _ _ => true
  | _ => false

/--
A registry with its cleaning requests. `cleans` counts the cleans begun so far and `born` tells, for
a session, how many had begun when it registered.
-/
structure Cleanups where
  registry : SessionRegistry
  fresh : Nat := 0
  cleans : Nat := 0
  born : Nat → Nat := fun _ => 0
  requests : Nat → CleanPc := fun _ => .idle

inductive CleanupEvent where
  | reserve (sid : Bytes) (fd : Int) (generation : Bytes) (fault : Option ReserveFault)
  | release (id : Nat)
  | clean (request : Nat)
  | cleanThrows (request kept : Nat)
  | cleaning (request : Nat)
  | generation (request : Nat)
  deriving DecidableEq, Repr

def CleanupEvent.isClean : CleanupEvent → Bool
  | .clean _ | .cleanThrows _ _ => true
  | _ => false

namespace Cleanups

def create (max : Int32) (now : Int) : Cleanups :=
  { registry := SessionRegistry.create max now }

def setRequest (w : Cleanups) (request : Nat) (pc : CleanPc) : Cleanups :=
  { w with requests := Function.update w.requests request pc }

def step (w : Cleanups) (event : CleanupEvent) : Option Cleanups :=
  match event with
  | .reserve sid fd generation fault =>
    some { w with
      registry := (w.registry.reserve w.fresh sid fd generation fault).2
      fresh := w.fresh + 1
      born := Function.update w.born w.fresh w.cleans }
  | .release id => some { w with registry := w.registry.release id }
  | .clean request =>
    match w.requests request with
    | .idle =>
      let (registry, affected) := w.registry.clean
      let cleans := w.cleans + 1
      some { w.setRequest request (.cleaned affected.length cleans) with registry, cleans }
    | _ => none
  | .cleanThrows request kept =>
    match w.requests request with
    | .idle =>
      -- The callback is only called for a state that is not cancelled yet.
      if kept < w.registry.states.countP (!·.cancelled) then
        some { w.setRequest request .failed with
          registry := w.registry.cleanThrows kept
          cleans := w.cleans + 1 }
      else
        none
    | _ => none
  | .cleaning request =>
    match w.requests request with
    | .cleaned affected own =>
      some (w.setRequest request (.counted affected w.registry.cleaning own))
    | _ => none
  | .generation request =>
    match w.requests request with
    | .counted affectedSessions cleaningSessions own =>
      let generation := w.registry.generation
      some (w.setRequest request
        (.answered { affectedSessions, cleaningSessions, generation } own))
    | _ => none

/--
Every answer so far reports the generation that its own clean created and reports that no session is
being cleaned only if every session of an earlier generation is gone.
-/
def Coherent (w : Cleanups) : Prop :=
  ∀ request response own, w.requests request = .answered response own →
    response.generation = SessionRegistry.token w.registry.epoch (UInt64.ofNat own)
      ∧ (response.cleaningSessions = 0 → ∀ state ∈ w.registry.states, own ≤ w.born state.id)

/--
A clean begins only while no request is between its own clean and its look at the generation.
-/
def CleansAlone (w : Cleanups) (event : CleanupEvent) : Prop :=
  event.isClean = true → ∀ request, (w.requests request).isPending = false

def Fits (w : Cleanups) : CleanPc → Prop
  | .idle | .failed => True
  | .cleaned _ own =>
    own ≤ w.cleans ∧ ∀ state ∈ w.registry.states, w.born state.id < own → state.cancelled = true
  | .counted _ remaining own =>
    own ≤ w.cleans ∧ (remaining = 0 → ∀ state ∈ w.registry.states, own ≤ w.born state.id)
  | .answered response own =>
    own ≤ w.cleans
      ∧ (response.cleaningSessions = 0 → ∀ state ∈ w.registry.states, own ≤ w.born state.id)

structure Inv (w : Cleanups) : Prop where
  sequence_eq : w.registry.sequence = UInt64.ofNat w.cleans
  generation_eq : w.registry.generation
    = SessionRegistry.token w.registry.epoch (UInt64.ofNat w.cleans)
  id_lt : ∀ state ∈ w.registry.states, state.id < w.fresh
  born_le : ∀ state ∈ w.registry.states, w.born state.id ≤ w.cleans
  generation_born : ∀ state ∈ w.registry.states,
    state.generation = SessionRegistry.token w.registry.epoch (UInt64.ofNat (w.born state.id))
  fits : ∀ request, w.Fits (w.requests request)

def Older (w w' : Cleanups) (state : State) : Prop :=
  ∃ old ∈ w.registry.states,
    old.id = state.id
      ∧ old.generation = state.generation
      ∧ w.born old.id = w'.born state.id
      ∧ (old.cancelled = true → state.cancelled = true)

def Newer (w w' : Cleanups) (state : State) : Prop :=
  state.id = w.fresh
    ∧ w.fresh < w'.fresh
    ∧ state.generation = w.registry.generation
    ∧ w'.born state.id = w.cleans

structure Later (w w' : Cleanups) : Prop where
  epoch_eq : w'.registry.epoch = w.registry.epoch
  cleans_le : w.cleans ≤ w'.cleans
  fresh_le : w.fresh ≤ w'.fresh
  states : ∀ state ∈ w'.registry.states, Older w w' state ∨ Newer w w' state

variable {w w' : Cleanups} {event : CleanupEvent} {max : Int32} {now : Int}
  {events : List CleanupEvent} {state : State} {pc : CleanPc}

inductive Moves (w : Cleanups) : CleanupEvent → Cleanups → Prop where
  | reserve (sid : Bytes) (fd : Int) (generation : Bytes) (fault : Option ReserveFault)
    : Moves w (.reserve sid fd generation fault) { w with
        registry := (w.registry.reserve w.fresh sid fd generation fault).2
        fresh := w.fresh + 1
        born := Function.update w.born w.fresh w.cleans }
  | release (id : Nat) : Moves w (.release id) { w with registry := w.registry.release id }
  | clean {actor : Nat} (hpc : w.requests actor = .idle)
    : Moves w (.clean actor) {
        w.setRequest actor (.cleaned w.registry.clean.2.length (w.cleans + 1)) with
        registry := w.registry.clean.1
        cleans := w.cleans + 1 }
  | cleanThrows {actor kept : Nat} (hpc : w.requests actor = .idle)
    (hkept : kept < w.registry.states.countP (!·.cancelled))
    : Moves w (.cleanThrows actor kept) { w.setRequest actor .failed with
        registry := w.registry.cleanThrows kept
        cleans := w.cleans + 1 }
  | cleaning {actor affected own : Nat} (hpc : w.requests actor = .cleaned affected own)
    : Moves w (.cleaning actor) (w.setRequest actor (.counted affected w.registry.cleaning own))
  | generation {actor affected remaining own : Nat}
    (hpc : w.requests actor = .counted affected remaining own)
    : Moves w (.generation actor)
        (w.setRequest actor (.answered ⟨affected, remaining, w.registry.generation⟩ own))

theorem moves_of_step (h : step w event = some w') : Moves w event w' := by
  cases event with
  | reserve sid fd generation fault =>
    cases h
    exact .reserve sid fd generation fault
  | release id =>
    cases h
    exact .release id
  | clean actor =>
    unfold step at h
    dsimp only at h
    split at h
    . next hpc =>
      cases h
      exact .clean hpc
    . contradiction
  | cleanThrows actor kept =>
    unfold step at h
    dsimp only at h
    split at h
    . next hpc =>
      split at h
      . next hkept =>
        cases h
        exact .cleanThrows hpc hkept
      . contradiction
    . contradiction
  | cleaning actor =>
    unfold step at h
    dsimp only at h
    split at h
    . next affected own hpc =>
      cases h
      exact .cleaning hpc
    . contradiction
  | generation actor =>
    unfold step at h
    dsimp only at h
    split at h
    . next affected remaining own hpc =>
      cases h
      exact .generation hpc
    . contradiction

-- Only the request that makes a step changes its state.
theorem requests_update {P : CleanPc → Prop} (hpc : P pc) (actor request : Nat)
    : Function.update w.requests actor pc request = w.requests request
        ∨ P (Function.update w.requests actor pc request) := by
  by_cases heq : request = actor
  . right
    rw [heq, Function.update_self]
    exact hpc
  . exact .inl (Function.update_of_ne heq _ _)

theorem older_of_mem (h : state ∈ w.registry.states) (hborn : w'.born = w.born)
    : Older w w' state :=
  ⟨state, h, rfl, rfl, by rw [hborn], id⟩

theorem later_of_states (hregistry : w'.registry = w.registry) (hcleans : w'.cleans = w.cleans)
    (hfresh : w'.fresh = w.fresh) (hborn : w'.born = w.born) : Later w w' where
  epoch_eq := by rw [hregistry]
  cleans_le := Nat.le_of_eq hcleans.symm
  fresh_le := Nat.le_of_eq hfresh.symm
  states := by
    intro state hstate
    rw [hregistry] at hstate
    exact .inl (older_of_mem hstate hborn)

theorem later_reserve (hid : ∀ state ∈ w.registry.states, state.id < w.fresh) (sid : Bytes)
    (fd : Int) (generation : Bytes) (fault : Option ReserveFault)
    (h : step w (.reserve sid fd generation fault) = some w') : Later w w' := by
  have hborn : ∀ state ∈ w.registry.states,
      Function.update w.born w.fresh w.cleans state.id = w.born state.id := by
    intro state hstate
    exact Function.update_of_ne (Nat.ne_of_lt (hid state hstate)) _ _
  cases h
  rcases w.registry.reserve_cases w.fresh sid fd generation fault with ⟨hkeep, -⟩ | ⟨-, -, hreg, -⟩
  . refine ⟨by rw [hkeep], Nat.le_refl _, Nat.le_succ _, ?_⟩
    intro state hstate
    dsimp only at hstate
    rw [hkeep] at hstate
    exact .inl ⟨state, hstate, rfl, rfl, (hborn state hstate).symm, id⟩
  . refine ⟨by rw [hreg], Nat.le_refl _, Nat.le_succ _, ?_⟩
    intro state hstate
    dsimp only at hstate
    rw [hreg] at hstate
    rcases List.mem_append.mp hstate with hstate | hstate
    . exact .inl ⟨state, hstate, rfl, rfl, (hborn state hstate).symm, id⟩
    . rw [List.mem_singleton.mp hstate]
      exact .inr ⟨rfl, Nat.lt_succ_self _, rfl, Function.update_self _ _ _⟩

theorem later_step (hid : ∀ state ∈ w.registry.states, state.id < w.fresh)
    (h : step w event = some w') : Later w w' := by
  cases moves_of_step h with
  | reserve sid fd generation fault => exact later_reserve hid sid fd generation fault h
  | release id =>
    refine ⟨rfl, Nat.le_refl _, Nat.le_refl _, ?_⟩
    intro state hstate
    exact .inl (older_of_mem (List.mem_of_mem_filter hstate) rfl)
  | clean hpc =>
    refine ⟨rfl, Nat.le_succ _, Nat.le_refl _, ?_⟩
    intro state hstate
    dsimp only at hstate
    rw [SessionRegistry.clean_states] at hstate
    obtain ⟨old, hold, rfl⟩ := List.mem_map.mp hstate
    exact .inl ⟨old, hold, rfl, rfl, rfl, fun _ => rfl⟩
  | cleanThrows hpc hkept =>
    refine ⟨rfl, Nat.le_succ _, Nat.le_refl _, ?_⟩
    intro state hstate
    obtain ⟨old, hold, hid, hgeneration, hcancelled⟩ := SessionRegistry.mem_cancelUntil hstate
    exact .inl ⟨old, hold, hid, hgeneration, congrArg w.born hid, hcancelled⟩
  | cleaning hpc => exact later_of_states rfl rfl rfl rfl
  | generation hpc => exact later_of_states rfl rfl rfl rfl

/--
The count of a request only gets better: who registers later registers under its generation or a
later one.
-/
theorem Later.born_le (h : Later w w') {own : Nat} (hown : own ≤ w.cleans)
    (hborn : ∀ state ∈ w.registry.states, own ≤ w.born state.id)
    : ∀ state ∈ w'.registry.states, own ≤ w'.born state.id := by
  intro state hstate
  rcases h.states state hstate with ⟨old, hold, -, -, heq, -⟩ | ⟨-, -, -, heq⟩
  . rw [← heq]
    exact hborn old hold
  . rw [heq]
    exact hown

theorem Later.fits (h : Later w w') (hfits : w.Fits pc) : w'.Fits pc := by
  cases pc with
  | idle => trivial
  | failed => trivial
  | cleaned affected own =>
    refine ⟨Nat.le_trans hfits.1 h.cleans_le, ?_⟩
    intro state hstate hlt
    rcases h.states state hstate with ⟨old, hold, -, -, heq, hcancelled⟩ | ⟨-, -, -, heq⟩
    . apply hcancelled
      apply hfits.2 old hold
      rw [heq]
      exact hlt
    . have hown := hfits.1
      omega
  | counted affected remaining own =>
    exact ⟨Nat.le_trans hfits.1 h.cleans_le, fun hzero => h.born_le hfits.1 (hfits.2 hzero)⟩
  | answered response own =>
    exact ⟨Nat.le_trans hfits.1 h.cleans_le, fun hzero => h.born_le hfits.1 (hfits.2 hzero)⟩

theorem requests_step (hinv : w.Inv) (h : step w event = some w') (request : Nat)
    : w'.requests request = w.requests request ∨ w'.Fits (w'.requests request) := by
  cases moves_of_step h with
  | reserve sid fd generation fault => exact .inl rfl
  | release id => exact .inl rfl
  | clean hpc =>
    apply requests_update
    refine ⟨Nat.le_refl _, ?_⟩
    intro state hstate _
    dsimp only at hstate
    rw [SessionRegistry.clean_states] at hstate
    obtain ⟨old, -, rfl⟩ := List.mem_map.mp hstate
    rfl
  | cleanThrows hpc hkept =>
    apply requests_update
    trivial
  | @cleaning actor affected own hpc =>
    have hfits := hinv.fits actor
    rw [hpc] at hfits
    apply requests_update
    refine ⟨hfits.1, ?_⟩
    intro hzero state hstate
    have hnone : state.cancelled ≠ true := List.countP_eq_zero.mp hzero state hstate
    rw [← Nat.not_lt]
    exact fun hlt => hnone (hfits.2 state hstate hlt)
  | @generation actor affected remaining own hpc =>
    have hfits := hinv.fits actor
    rw [hpc] at hfits
    apply requests_update
    exact hfits

theorem generation_step (hinv : w.Inv) (h : step w event = some w')
    : w'.registry.sequence = UInt64.ofNat w'.cleans
      ∧ w'.registry.generation
        = SessionRegistry.token w'.registry.epoch (UInt64.ofNat w'.cleans) := by
  have hnext : w.registry.sequence + 1 = UInt64.ofNat (w.cleans + 1) := by
    rw [hinv.sequence_eq]
    simp
  cases moves_of_step h with
  | reserve sid fd generation fault =>
    dsimp only
    rcases w.registry.reserve_cases w.fresh sid fd generation fault
      with ⟨hkeep, -⟩ | ⟨-, -, hreg, -⟩
    . rw [hkeep]
      exact ⟨hinv.sequence_eq, hinv.generation_eq⟩
    . rw [hreg]
      exact ⟨hinv.sequence_eq, hinv.generation_eq⟩
  | release id => exact ⟨hinv.sequence_eq, hinv.generation_eq⟩
  | clean hpc => exact ⟨hnext, by rw [← hnext]; rfl⟩
  | cleanThrows hpc hkept => exact ⟨hnext, by rw [← hnext]; rfl⟩
  | cleaning hpc => exact ⟨hinv.sequence_eq, hinv.generation_eq⟩
  | generation hpc => exact ⟨hinv.sequence_eq, hinv.generation_eq⟩

theorem inv_create : (create max now).Inv where
  sequence_eq := rfl
  generation_eq := SessionRegistry.create_generation max now
  id_lt := by simp [create, SessionRegistry.create]
  born_le := by simp [create, SessionRegistry.create]
  generation_born := by simp [create, SessionRegistry.create]
  fits := fun _ => trivial

theorem inv_step (w : Cleanups) (event : CleanupEvent) (w' : Cleanups) (hinv : w.Inv)
    (h : step w event = some w') : w'.Inv := by
  have hlater := later_step hinv.id_lt h
  obtain ⟨hsequence, hgeneration⟩ := generation_step hinv h
  refine ⟨hsequence, hgeneration, ?_, ?_, ?_, ?_⟩
  . intro state hstate
    rcases hlater.states state hstate with ⟨old, hold, heq, -⟩ | ⟨heq, hlt, -⟩
    . rw [← heq]
      exact Nat.lt_of_lt_of_le (hinv.id_lt old hold) hlater.fresh_le
    . rw [heq]
      exact hlt
  . intro state hstate
    rcases hlater.states state hstate with ⟨old, hold, -, -, heq, -⟩ | ⟨-, -, -, heq⟩
    . rw [← heq]
      exact Nat.le_trans (hinv.born_le old hold) hlater.cleans_le
    . rw [heq]
      exact hlater.cleans_le
  . intro state hstate
    rw [hlater.epoch_eq]
    rcases hlater.states state hstate with ⟨old, hold, -, heq, hborn, -⟩ | ⟨-, -, heq, hborn⟩
    . rw [← heq, ← hborn]
      exact hinv.generation_born old hold
    . rw [heq, hborn]
      exact hinv.generation_eq
  . intro request
    rcases requests_step hinv h request with heq | hfits
    . rw [heq]
      exact hlater.fits (hinv.fits request)
    . exact hfits

def Own (w : Cleanups) : CleanPc → Prop
  | .idle | .failed => True
  | .cleaned _ own | .counted _ _ own => own = w.cleans
  | .answered response own =>
    response.generation = SessionRegistry.token w.registry.epoch (UInt64.ofNat own)

theorem Own.keep (h : w.Own pc) (hepoch : w'.registry.epoch = w.registry.epoch)
    (hcleans : pc.isPending = true → w'.cleans = w.cleans) : w'.Own pc := by
  cases pc with
  | idle => trivial
  | failed => trivial
  | cleaned affected own =>
    show own = w'.cleans
    rw [hcleans rfl]
    exact h
  | counted affected remaining own =>
    show own = w'.cleans
    rw [hcleans rfl]
    exact h
  | answered response own =>
    show _ = SessionRegistry.token w'.registry.epoch _
    rw [hepoch]
    exact h

theorem cleans_step_eq (hclean : event.isClean = false) (h : step w event = some w')
    : w'.cleans = w.cleans := by
  cases moves_of_step h with
  | reserve sid fd generation fault => rfl
  | release id => rfl
  | clean hpc => contradiction
  | cleanThrows hpc hkept => contradiction
  | cleaning hpc => rfl
  | generation hpc => rfl

theorem own_request_step (hinv : w.Inv) (hown : ∀ request, w.Own (w.requests request))
    (h : step w event = some w') (request : Nat)
    : w'.requests request = w.requests request ∨ w'.Own (w'.requests request) := by
  cases moves_of_step h with
  | reserve sid fd generation fault => exact .inl rfl
  | release id => exact .inl rfl
  | clean hpc =>
    apply requests_update
    rfl
  | cleanThrows hpc hkept =>
    apply requests_update
    trivial
  | @cleaning actor affected own hpc =>
    have hactor := hown actor
    rw [hpc] at hactor
    apply requests_update
    exact hactor
  | @generation actor affected remaining own hpc =>
    have hactor := hown actor
    rw [hpc] at hactor
    apply requests_update
    show w.registry.generation = SessionRegistry.token w.registry.epoch (UInt64.ofNat own)
    rw [hactor]
    exact hinv.generation_eq

theorem own_step (hinv : w.Inv) (hown : ∀ request, w.Own (w.requests request))
    (halone : w.CleansAlone event) (h : step w event = some w') (request : Nat)
    : w'.Own (w'.requests request) := by
  rcases own_request_step hinv hown h request with heq | hnew
  . rw [heq]
    apply (hown request).keep (later_step hinv.id_lt h).epoch_eq
    intro hpending
    apply cleans_step_eq _ h
    cases hclean : event.isClean with
    | true =>
      have hidle := halone hclean request
      rw [hpending] at hidle
      contradiction
    | false => rfl
  . exact hnew

/--
The answers of a run whose cleans all begin alone are snapshots: each of them reports the generation
that its own clean created, and none reports that nothing is being cleaned while a session of an
earlier generation is registered.
-/
theorem coherent_of_cleansAlone (hrun : Machine.run step (create max now) events = some w)
    (halone : Machine.Meets step CleansAlone (create max now) events) : w.Coherent := by
  have hinv : w.Inv ∧ ∀ request, w.Own (w.requests request) := by
    apply Machine.run_invariant_of_meets (I := fun w => w.Inv ∧ ∀ request, w.Own (w.requests request))
      _ _ halone hrun
    . intro s e s' hs hP hstep
      exact ⟨inv_step s e s' hs.1 hstep, own_step hs.1 hs.2 hP hstep⟩
    . exact ⟨inv_create, fun _ => trivial⟩
  intro request response own hpc
  have hfits := hinv.1.fits request
  have hown := hinv.2 request
  rw [hpc] at hfits hown
  exact ⟨hown, hfits.2⟩

def orderlyEvents : List CleanupEvent :=
  [.reserve (Bytes.lit "live-001") 7 [] none, .clean 0, .release 0, .cleaning 0, .generation 0,
    .reserve (Bytes.lit "live-002") 8 (Bytes.lit "1700000000-1") none, .clean 1, .cleaning 1,
    .generation 1]

theorem coherent_of_cleansAlone_orderlyEvents
    : ∃ w, Machine.run step (create 16 1700000000) orderlyEvents = some w
        ∧ w.requests 0 = .answered ⟨1, 0, Bytes.lit "1700000000-1"⟩ 1
        ∧ w.requests 1 = .answered ⟨1, 1, Bytes.lit "1700000000-2"⟩ 2
        ∧ w.Coherent := by
  refine ⟨_, rfl, by decide +kernel, by decide +kernel, ?_⟩
  refine @coherent_of_cleansAlone _ 16 1700000000 orderlyEvents rfl ?_
  refine ⟨nofun, fun s₁ h₁ => ⟨?_, fun s₂ h₂ => ⟨nofun, fun s₃ h₃ => ⟨nofun, fun s₄ h₄ =>
    ⟨nofun, fun s₅ h₅ => ⟨nofun, fun s₆ h₆ => ⟨?_, fun s₇ h₇ => ⟨nofun, fun s₈ h₈ =>
    ⟨nofun, fun _ _ => trivial⟩⟩⟩⟩⟩⟩⟩⟩⟩
  . cases h₁
    exact fun _ _ => rfl
  . cases h₁
    cases h₂
    cases h₃
    cases h₄
    cases h₅
    cases h₆
    intro _ request
    by_cases heq : request = 0
    . subst heq
      decide
    . simp [setRequest, Function.update, heq, create, CleanPc.isPending]

def tornEvents : List CleanupEvent :=
  [.clean 0, .cleaning 0, .reserve (Bytes.lit "live-001") 7 (Bytes.lit "1700000000-1") none,
    .clean 1, .generation 0]

/--
The first request answers that no session is being cleaned and that the generation is the one of the
second clean, which still waits for a session of the generation before it.
-/
theorem answer_torn_by_second_clean
    : ∃ w, Machine.run step (create 16 1700000000) tornEvents = some w
        ∧ w.requests 0 = .answered ⟨0, 0, Bytes.lit "1700000000-2"⟩ 1
        ∧ (w.registry.states.map fun state => (state.generation, state.cancelled))
          = [(Bytes.lit "1700000000-1", true)]
        ∧ ¬ w.Coherent := by
  refine ⟨_, rfl, by decide +kernel, by decide +kernel, ?_⟩
  intro h
  have hgeneration := (h 0 ⟨0, 0, Bytes.lit "1700000000-2"⟩ 1 (by decide +kernel)).1
  exact absurd hgeneration (by decide +kernel)

end Cleanups
end HikBridge
