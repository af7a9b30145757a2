import HikBridge.Http.ConnectionWorkers

/-!
This module contains the lifetime of the accepted sockets: who closes a socket, and why `shutdown` never
reaches one that is closed.
-/

namespace HikBridge

-- The thread of `run_server` has the socket in its hands, and no thread of its own does yet.
def MainPc.inHand (main : MainPc) (client : Nat) : Bool :=
  match main with
  | .configuring c | .enlisting c | .creating c => c == client
  | .reaping c _ => c == some client
  | _ => false

/--
A socket is open while the thread of `run_server` has it in its hands and until its own thread closes it.
-/
def Connection.Sound (inHand : Bool) (k : Connection) : Prop :=
  k.fd ≠ invalidSocket ∧
    match k.thread with
    | .notStarted => k.closes = (if inHand then 0 else 1) ∧ k.done = false
    | .request _ | .returned => k.closes = 0 ∧ k.socket = k.fd ∧ k.done = false
    | .closed => k.closes = 1 ∧ k.socket = invalidSocket ∧ k.done = false
    | .finished => k.closes = 1 ∧ k.socket = invalidSocket ∧ k.done = true

theorem Connection.Sound.rethread {k : Connection} {inHand : Bool} (h : k.Sound inHand)
    {pc : RequestPc} (hk : k.thread = .request pc) {thread : ThreadPc}
    (hthread : (∃ pc, thread = .request pc) ∨ thread = .returned)
    : Connection.Sound false { k with thread } := by
  unfold Connection.Sound at h ⊢
  rw [hk] at h
  rcases hthread with ⟨pc, rfl⟩ | rfl
  . exact h
  . exact h

namespace ConnectionWorkers

def Active (w : ConnectionWorkers) (client : Nat) : Prop :=
  (w.connections client).thread ≠ .notStarted ∧ (w.connections client).thread ≠ .finished

-- A socket that has no thread yet.
def Waiting (w : ConnectionWorkers) (client : Nat) : Prop :=
  client < w.accepted ∧ (w.connections client).thread = .notStarted

-- What the position of the thread of `run_server` says.
def MainSound (w : ConnectionWorkers) : MainPc → Prop
  | .configuring client | .reaping (some client) _ | .enlisting client => w.Waiting client
  | .creating client =>
    w.Waiting client ∧ (w.connections client).socket = (w.connections client).fd ∧
      ∃ workers, w.workers = workers ++ [client] ∧ client ∉ workers
  | .shuttingDown rest => ∀ c ∈ rest, (w.connections c).thread ≠ .notStarted
  | .joining rest => ∀ c ∈ w.workers, c ∈ rest ∨ (w.connections c).thread = .finished
  | .destroyed => ∀ c ∈ w.workers, (w.connections c).thread = .finished
  | _ => True

-- A registered session belongs to the thread that holds its lease.
def Leased (w : ConnectionWorkers) (state : State) : Prop :=
  (w.connections state.id).thread = .request .leased ∧ state.fd = (w.connections state.id).fd

structure Sound (w : ConnectionWorkers) : Prop where
  known : ∀ c < w.accepted, (w.connections c).Sound (w.main.inHand c)
  unknown : ∀ c, w.accepted ≤ c → (w.connections c).thread = .notStarted
  leased : ∀ state ∈ w.registry.states, w.Leased state
  cleaning : ∀ c rest, (w.connections c).thread = .request (.cleaning rest) →
    w.mutex = some c ∧ ∀ state ∈ rest, w.Leased state
  working : ∀ c, w.Active c → c ∈ w.workers
  enlisted : ∀ c ∈ w.workers, (w.connections c).thread ≠ .notStarted ∨ w.main = .creating c
  bounded : w.workers.length ≤ w.maximum
  main : w.MainSound w.main
  shutdowns : ∀ x ∈ w.shutdowns, x.1 = x.2.fd ∧ x.2.closes = 0

section

variable {w w' : ConnectionWorkers} {client : Nat}

@[simp]
theorem put_connections (c : Nat) (k : Connection)
    : (w.put client k).connections c = if c = client then k else w.connections c := by
  simp [put, Function.update_apply]

theorem sound_create (maximum : Nat) (maxSessions : Int32) (now : Int)
    : Sound (create maximum maxSessions now) := by
  constructor
  . intro c hc
    contradiction
  . exact fun _ _ => rfl
  . intro state hstate
    contradiction
  . intro c rest h
    contradiction
  . intro c h
    exact absurd rfl h.1
  . intro c hc
    contradiction
  . exact Nat.zero_le _
  . trivial
  . intro x hx
    contradiction

theorem Sound.started_lt (h : Sound w) (hstarted : (w.connections client).thread ≠ .notStarted)
    : client < w.accepted := by
  by_contra hlt
  exact hstarted (h.unknown client (by omega))

theorem MainSound.waiting {main : MainPc} (h : w.MainSound main) (hhand : main.inHand client = true)
    : w.Waiting client := by
  cases main with
  | configuring c =>
    cases beq_iff_eq.mp hhand
    exact h
  | reaping c rest =>
    cases beq_iff_eq.mp hhand
    exact h
  | enlisting c =>
    cases beq_iff_eq.mp hhand
    exact h
  | creating c =>
    cases beq_iff_eq.mp hhand
    exact h.1
  | looping => contradiction
  | shuttingDown rest => contradiction
  | joining rest => contradiction
  | destroyed => contradiction

theorem Sound.not_inHand (h : Sound w) (hstarted : (w.connections client).thread ≠ .notStarted)
    : w.main.inHand client = false := by
  by_contra hhand
  exact hstarted (h.main.waiting (by simpa using hhand)).2

theorem MainSound.put {main : MainPc} (h : w.MainSound main) (hactive : w.Active client) {k : Connection}
    (hstarted : k.thread ≠ .notStarted) {registry : SessionRegistry} {mutex : Option Nat}
    : MainSound { w.put client k with registry, mutex } main := by
  have hothers : ∀ c, (w.connections c).thread = .notStarted → c ≠ client := by
    intro c hc heq
    exact hactive.1 (heq ▸ hc)
  have hwaiting : ∀ c, w.Waiting c → Waiting { w.put client k with registry, mutex } c := by
    intro c hc
    refine ⟨hc.1, ?_⟩
    simp only [put_connections, if_neg (hothers c hc.2)]
    exact hc.2
  cases main with
  | configuring c => exact hwaiting c h
  | reaping c rest =>
    cases c with
    | none => trivial
    | some c => exact hwaiting c h
  | enlisting c => exact hwaiting c h
  | creating c =>
    refine ⟨hwaiting c h.1, ?_, h.2.2⟩
    simp only [put_connections, if_neg (hothers c h.1.2)]
    exact h.2.1
  | joining rest =>
    intro c hc
    simp only [put_connections]
    split
    . next heq =>
      rw [← heq] at hactive
      exact .inl ((h c hc).resolve_right hactive.2)
    . exact h c hc
  | destroyed =>
    intro c hc
    simp only [put_connections]
    split
    . next heq =>
      rw [← heq] at hactive
      exact absurd (h c hc) hactive.2
    . exact h c hc
  | shuttingDown rest =>
    intro c hc
    simp only [put_connections]
    split
    . exact hstarted
    . exact h c hc
  | looping => trivial

theorem Sound.moves (h : Sound w) {k : Connection} {registry : SessionRegistry} {mutex : Option Nat}
    (hactive : w.Active client) (hk : k.Sound false) (hstarted : k.thread ≠ .notStarted)
    (hleased : ∀ state ∈ registry.states, (w.put client k).Leased state)
    (hcleaning : ∀ c rest, ((w.put client k).connections c).thread = .request (.cleaning rest) →
      mutex = some c ∧ ∀ state ∈ rest, (w.put client k).Leased state)
    : Sound { w.put client k with registry, mutex } := by
  constructor
  . intro c hc
    simp only [put_connections]
    split
    . next heq =>
      show k.Sound (w.main.inHand c)
      rw [heq, h.not_inHand hactive.1]
      exact hk
    . exact h.known c hc
  . intro c hc
    simp only [put_connections]
    split
    . next heq =>
      have := h.started_lt hactive.1
      have hc : w.accepted ≤ c := hc
      omega
    . exact h.unknown c hc
  . exact hleased
  . exact hcleaning
  . intro c hc
    by_cases heq : c = client
    . rw [heq]
      exact h.working client hactive
    . have : w.Active c := by
        simpa [Active, heq] using hc
      exact h.working c this
  . intro c hc
    simp only [put_connections]
    split
    . exact .inl hstarted
    . exact h.enlisted c hc
  . exact h.bounded
  . exact h.main.put hactive hstarted
  . exact h.shutdowns

theorem Leased.put {state : State} (h : w.Leased state) {k : Connection}
    (hclient : (w.connections client).thread ≠ .request .leased) : (w.put client k).Leased state := by
  have hne : state.id ≠ client := by
    intro heq
    exact hclient (heq ▸ h.1)
  unfold Leased
  rw [put_connections, if_neg hne]
  exact h

theorem Sound.goto (h : Sound w) {main : MainPc} {workers : List Nat}
    (hhand : ∀ c, main.inHand c = w.main.inHand c) (hworking : ∀ c, w.Active c → c ∈ workers)
    (henlisted : ∀ c ∈ workers, (w.connections c).thread ≠ .notStarted ∨ main = .creating c)
    (hbounded : workers.length ≤ w.maximum) (hmain : MainSound { w with main, workers } main)
    : Sound { w with main, workers } := by
  constructor
  . intro c hc
    show (w.connections c).Sound (main.inHand c)
    rw [hhand c]
    exact h.known c hc
  . exact h.unknown
  . exact h.leased
  . exact h.cleaning
  . exact hworking
  . exact henlisted
  . exact hbounded
  . exact hmain
  . exact h.shutdowns

theorem Sound.hands (h : Sound w) {k : Connection} {main : MainPc} {workers : List Nat} (accepted : Nat)
    (hclient : (w.connections client).thread = .notStarted) (hk : k.Sound (main.inHand client))
    (hthread : k.thread = .notStarted ∨ k.thread = .request .running)
    (hhand : ∀ c, c ≠ client → main.inHand c = w.main.inHand c)
    (haccepted : ∀ c, c < accepted ↔ c < w.accepted ∨ c = client)
    (hworking : ∀ c, (w.put client k).Active c → c ∈ workers)
    (henlisted : ∀ c ∈ workers, ((w.put client k).connections c).thread ≠ .notStarted ∨ main = .creating c)
    (hbounded : workers.length ≤ w.maximum)
    (hmain : MainSound { w.put client k with main, workers, accepted } main)
    : Sound { w.put client k with main, workers, accepted } := by
  have hnotLeased : (w.connections client).thread ≠ .request .leased := by simp [hclient]
  constructor
  . intro c hc
    simp only [put_connections]
    split
    . next heq =>
      rw [heq]
      exact hk
    . next hne =>
      show (w.connections c).Sound (main.inHand c)
      rw [hhand c hne]
      exact h.known c (((haccepted c).mp hc).resolve_right hne)
  . intro c hc
    have hle : accepted ≤ c := hc
    have hlt := haccepted c
    simp only [put_connections]
    rw [if_neg (by omega)]
    exact h.unknown c (by omega)
  . exact fun state hstate => (h.leased state hstate).put hnotLeased
  . intro c rest hc
    simp only [put_connections] at hc
    split at hc
    . rw [hc] at hthread
      simp at hthread
    . have ⟨hmutex, hrest⟩ := h.cleaning c rest hc
      exact ⟨hmutex, fun state hstate => (hrest state hstate).put hnotLeased⟩
  . exact hworking
  . exact henlisted
  . exact hbounded
  . exact hmain
  . exact h.shutdowns

theorem Sound.shutdown (h : Sound w) {fd : Int}
    (hfd : fd = (w.connections client).fd ∧ (w.connections client).closes = 0)
    : Sound (w.shutdown client fd) := by
  constructor
  . exact h.known
  . exact h.unknown
  . exact h.leased
  . exact h.cleaning
  . exact h.working
  . exact h.enlisted
  . exact h.bounded
  . exact h.main
  . intro x hx
    rcases List.mem_append.mp hx with hx | hx
    . exact h.shutdowns x hx
    . cases List.mem_singleton.mp hx
      exact hfd

section Thread

def LeaseKept (w : ConnectionWorkers) (event : ServerEvent) : Prop :=
  ∀ client sid generation, event = .thread client (.reserve sid generation (some .leaseAlloc)) →
    w.registry.stale generation = true ∨ w.registry.maxSize ≤ w.registry.states.length

theorem Sound.known_of_started (h : Sound w) (hstarted : (w.connections client).thread ≠ .notStarted)
    : (w.connections client).Sound false := by
  have := h.known client (h.started_lt hstarted)
  rw [h.not_inHand hstarted] at this
  exact this

theorem Sound.setThread (h : Sound w) {thread : ThreadPc} (hactive : w.Active client)
    (hnotLeased : (w.connections client).thread ≠ .request .leased)
    (hk : Connection.Sound false { w.connections client with thread }) (hstarted : thread ≠ .notStarted)
    (hcleaning : ∀ rest, thread ≠ .request (.cleaning rest)) : Sound (w.setThread client thread) := by
  apply h.moves hactive hk hstarted
  . exact fun state hstate => (h.leased state hstate).put hnotLeased
  . intro c rest hc
    simp only [put_connections] at hc
    split at hc
    . exact absurd hc (hcleaning rest)
    . have ⟨hmutex, hrest⟩ := h.cleaning c rest hc
      exact ⟨hmutex, fun state hstate => (hrest state hstate).put hnotLeased⟩

-- While `mutex_` is free no thread is in the loop of `clean`.
theorem Sound.not_cleaning (h : Sound w) (hmutex : w.mutex = none) {k : Connection}
    (hk : ∀ rest, k.thread ≠ .request (.cleaning rest)) (c : Nat) (rest : List State)
    : ((w.put client k).connections c).thread ≠ .request (.cleaning rest) := by
  rw [put_connections]
  split
  . exact hk rest
  . intro hc
    have := (h.cleaning c rest hc).1
    rw [hmutex] at this
    contradiction

theorem Sound.reserve (h : Sound w) {sid generation : Bytes} {fault : Option ReserveFault}
    (hkept : fault = some .leaseAlloc →
      w.registry.stale generation = true ∨ w.registry.maxSize ≤ w.registry.states.length)
    (hstep : w.reserve client sid generation fault = some w') : Sound w' := by
  unfold ConnectionWorkers.reserve at hstep
  dsimp only at hstep
  split at hstep
  . next hguard =>
    obtain ⟨hthread, hmutex⟩ := hguard
    have hactive : w.Active client := by simp [Active, hthread]
    have hnotLeased : (w.connections client).thread ≠ .request .leased := by simp [hthread]
    have hk := h.known_of_started hactive.1
    rcases w.registry.reserve_cases client sid (w.connections client).fd generation fault with
      ⟨hregistry, hrefused⟩ | ⟨hstale, hroom, hregistry, hresult⟩
    . -- the registry is as it was
      have hover : w' = w.setThread client (.request .over) := by
        split at hstep
        . next heq => exact absurd (congrArg Prod.fst heq) (hrefused _)
        . next heq =>
          rw [heq] at hregistry
          dsimp only at hregistry
          cases hstep
          rw [hregistry]
          rfl
      rw [hover]
      apply h.setThread hactive hnotLeased (hk.rethread hthread (.inl ⟨_, rfl⟩))
      . simp
      . simp
    . have hfault : fault = none ∧
          (w.registry.reserve client sid (w.connections client).fd generation fault).1
            = .ok (some client) := by
        rcases hresult with hresult | ⟨hfault, _⟩
        . exact hresult
        . rcases hkept hfault with hkept | hkept
          . rw [hstale] at hkept
            contradiction
          . omega
      split at hstep
      . next heq =>
        rw [heq] at hregistry
        dsimp only at hregistry
        cases hstep
        apply h.moves hactive (hk.rethread hthread (.inl ⟨_, rfl⟩)) (by simp)
        . intro state hstate
          rw [hregistry] at hstate
          rcases List.mem_append.mp hstate with hstate | hstate
          . exact (h.leased state hstate).put hnotLeased
          . cases List.mem_singleton.mp hstate
            unfold Leased SessionRegistry.newState
            simp
        . exact fun c rest hc => (h.not_cleaning hmutex (by simp) c rest hc).elim
      . next hne heq =>
        rw [heq] at hfault
        exact absurd hfault.2 (hne client)
  . contradiction

theorem Sound.clean (h : Sound w) (hstep : w.clean client = some w') : Sound w' := by
  unfold ConnectionWorkers.clean at hstep
  dsimp only at hstep
  split at hstep
  . next hguard =>
    obtain ⟨hthread, hmutex⟩ := hguard
    have hactive : w.Active client := by simp [Active, hthread]
    have hnotLeased : (w.connections client).thread ≠ .request .leased := by simp [hthread]
    cases hstep
    apply h.moves hactive ((h.known_of_started hactive.1).rethread hthread (.inl ⟨_, rfl⟩)) (by simp)
    . exact fun state hstate => (h.leased state hstate).put hnotLeased
    . intro c rest hc
      simp only [put_connections] at hc
      split at hc
      . next heq =>
        cases hc
        exact ⟨congrArg some heq.symm, fun state hstate => (h.leased state hstate).put hnotLeased⟩
      . have := (h.cleaning c rest hc).1
        rw [hmutex] at this
        contradiction
  . contradiction

theorem Sound.release (h : Sound w) (hstep : w.release client = some w') : Sound w' := by
  unfold ConnectionWorkers.release at hstep
  dsimp only at hstep
  split at hstep
  . next hguard =>
    obtain ⟨hthread, hmutex⟩ := hguard
    have hactive : w.Active client := by simp [Active, hthread]
    cases hstep
    apply h.moves hactive ((h.known_of_started hactive.1).rethread hthread (.inl ⟨_, rfl⟩)) (by simp)
    . intro state hstate
      have ⟨hmem, hne⟩ := List.mem_filter.mp hstate
      have hleased := h.leased state hmem
      unfold Leased
      rw [put_connections, if_neg (by simpa using hne)]
      exact hleased
    . exact fun c rest hc => (h.not_cleaning hmutex (by simp) c rest hc).elim
  . contradiction

theorem Sound.leave (h : Sound w) (hstep : w.leave client = some w') : Sound w' := by
  unfold ConnectionWorkers.leave at hstep
  dsimp only at hstep
  split at hstep
  . next hguard =>
    have hpc : ∃ pc, (w.connections client).thread = .request pc ∧ pc ≠ .leased := by
      rcases hguard with hguard | hguard
      . exact ⟨_, hguard, by simp⟩
      . exact ⟨_, hguard, by simp⟩
    obtain ⟨pc, hthread, hpc⟩ := hpc
    have hactive : w.Active client := by simp [Active, hthread]
    cases hstep
    apply h.setThread hactive (by simp [hthread, hpc])
      ((h.known_of_started hactive.1).rethread hthread (.inr rfl))
    . simp
    . simp
  . contradiction

theorem Sound.putThread (h : Sound w) {k : Connection} (hactive : w.Active client)
    (hnotLeased : (w.connections client).thread ≠ .request .leased) (hk : k.Sound false)
    (hthread : k.thread = .closed ∨ k.thread = .finished) : Sound (w.put client k) := by
  apply h.moves hactive hk
  . rcases hthread with hthread | hthread
    . simp [hthread]
    . simp [hthread]
  . exact fun state hstate => (h.leased state hstate).put hnotLeased
  . intro c rest hc
    simp only [put_connections] at hc
    split at hc
    . simp [hc] at hthread
    . have ⟨hmutex, hrest⟩ := h.cleaning c rest hc
      exact ⟨hmutex, fun state hstate => (hrest state hstate).put hnotLeased⟩

theorem Sound.closeSocket (h : Sound w) (hstep : w.closeSocket client = some w') : Sound w' := by
  unfold ConnectionWorkers.closeSocket at hstep
  dsimp only at hstep
  split at hstep
  . next hguard =>
    have hthread := hguard.1
    have hactive : w.Active client := by simp [Active, hthread]
    have hopen := h.known_of_started hactive.1
    unfold Connection.Sound at hopen
    rw [hthread] at hopen
    obtain ⟨hfd, hcloses, hsocket, hdone⟩ := hopen
    cases hstep
    apply h.putThread hactive (by simp [hthread]) _ (.inl rfl)
    refine ⟨hfd, ?_, rfl, hdone⟩
    dsimp only
    rw [if_neg (hsocket ▸ hfd), hcloses]
  . contradiction

theorem Sound.finish (h : Sound w) (hstep : w.finish client = some w') : Sound w' := by
  unfold ConnectionWorkers.finish at hstep
  dsimp only at hstep
  split at hstep
  . next hthread =>
    have hactive : w.Active client := by simp [Active, hthread]
    have hclosed := h.known_of_started hactive.1
    unfold Connection.Sound at hclosed
    rw [hthread] at hclosed
    cases hstep
    apply h.putThread hactive (by simp [hthread]) _ (.inr rfl)
    exact ⟨hclosed.1, hclosed.2.1, hclosed.2.2.1, rfl⟩
  . contradiction

theorem Sound.cleans (h : Sound w) (registry : SessionRegistry) {rest rest' : List State}
    (hthread : (w.connections client).thread = .request (.cleaning rest)) (hrest : ∀ s ∈ rest', s ∈ rest)
    (hregistry : ∀ state ∈ registry.states, ∃ s ∈ w.registry.states, s.id = state.id ∧ s.fd = state.fd)
    : Sound { w.setThread client (.request (.cleaning rest')) with registry } := by
  have hactive : w.Active client := by simp [Active, hthread]
  have hnotLeased : (w.connections client).thread ≠ .request .leased := by simp [hthread]
  have ⟨hmutex, hleased⟩ := h.cleaning client rest hthread
  apply h.moves hactive ((h.known_of_started hactive.1).rethread hthread (.inl ⟨_, rfl⟩)) (by simp)
  . intro state hstate
    obtain ⟨s, hs, hid, hfd⟩ := hregistry state hstate
    have := (h.leased s hs).put hnotLeased (k := { w.connections client with thread := .request (.cleaning rest') })
    unfold Leased at this ⊢
    rw [← hid, ← hfd]
    exact this
  . intro c other hc
    simp only [put_connections] at hc
    split at hc
    . next heq =>
      cases hc
      rw [heq]
      exact ⟨hmutex, fun state hstate => (hleased state (hrest state hstate)).put hnotLeased⟩
    . next hne =>
      have := (h.cleaning c other hc).1
      rw [hmutex] at this
      exact absurd (Option.some.inj this).symm hne

-- The loop of `clean` is left.
theorem Sound.unlocks (h : Sound w) {rest : List State}
    (hthread : (w.connections client).thread = .request (.cleaning rest))
    : Sound { w.setThread client (.request .over) with mutex := none } := by
  have hactive : w.Active client := by simp [Active, hthread]
  have hnotLeased : (w.connections client).thread ≠ .request .leased := by simp [hthread]
  apply h.moves hactive ((h.known_of_started hactive.1).rethread hthread (.inl ⟨_, rfl⟩)) (by simp)
  . exact fun state hstate => (h.leased state hstate).put hnotLeased
  . intro c other hc
    simp only [put_connections] at hc
    split at hc
    . simp at hc
    . next hne =>
      have := (h.cleaning c other hc).1
      rw [(h.cleaning client rest hthread).1] at this
      exact absurd (Option.some.inj this).symm hne

theorem Sound.cleanNext (h : Sound w) {markThrows : Bool}
    (hstep : w.cleanNext client markThrows = some w') : Sound w' := by
  unfold ConnectionWorkers.cleanNext at hstep
  split at hstep
  . next hthread =>
    cases hstep
    exact h.unlocks hthread
  . next state rest hthread =>
    have hleft : ∀ s ∈ rest, s ∈ state :: rest := fun s hs => List.mem_cons_of_mem _ hs
    split at hstep
    . cases hstep
      exact h.cleans w.registry hthread hleft fun state hstate => ⟨state, hstate, rfl, rfl⟩
    . split at hstep
      . cases hstep
        exact h.unlocks hthread
      . have hcancel := h.cleans (w.registry.cancel state.id) hthread hleft (by
          intro other hother
          obtain ⟨s, hs, hmap⟩ := List.mem_map.mp hother
          refine ⟨s, hs, ?_⟩
          rw [← hmap]
          split
          . exact ⟨rfl, rfl⟩
          . exact ⟨rfl, rfl⟩)
        cases hstep
        dsimp only
        split
        . exact hcancel
        . apply hcancel.shutdown
          have hleased := (h.cleaning client _ hthread).2 state (by simp)
          have hne : state.id ≠ client := by
            intro heq
            have := hleased.1
            rw [heq, hthread] at this
            simp at this
          have hopen := h.known_of_started (show (w.connections state.id).thread ≠ .notStarted by simp [hleased.1])
          unfold Connection.Sound at hopen
          rw [hleased.1] at hopen
          unfold ConnectionWorkers.setThread
          simp only [put_connections]
          rw [if_neg hne]
          exact ⟨hleased.2, hopen.2.1⟩
  . contradiction

end Thread

section Main

theorem Sound.isActive_put {k : Connection} (hk : k.thread = .notStarted) {c : Nat}
    (hc : (w.put client k).Active c) : w.Active c := by
  unfold Active at hc
  rw [put_connections] at hc
  split at hc
  . exact absurd hk hc.1
  . exact hc

-- The loop finds every worker with a thread.
theorem Sound.not_waiting (h : Sound w) (hclient : w.Waiting client)
    (hmain : ∀ c, w.main ≠ .creating c) : client ∉ w.workers := by
  intro hmem
  rcases h.enlisted client hmem with hstarted | hcreating
  . exact hstarted hclient.2
  . exact hmain client hcreating

theorem Sound.refuse (h : Sound w) (hclient : w.Waiting client) (hhand : w.main.inHand client = true)
    (hothers : ∀ c, c ≠ client → w.main.inHand c = false) {workers : List Nat}
    (hworking : ∀ c ∈ w.workers, c ≠ client → c ∈ workers)
    (henlisted : ∀ c ∈ workers, (w.connections c).thread ≠ .notStarted)
    (hbounded : workers.length ≤ w.maximum)
    : Sound { w.closeClient client with workers, main := .looping } := by
  have hopen := h.known client hclient.1
  unfold Connection.Sound at hopen
  rw [hclient.2, hhand] at hopen
  obtain ⟨hfd, hcloses, hdone⟩ := hopen
  apply h.hands w.accepted hclient.2
  . refine ⟨hfd, ?_⟩
    dsimp only
    rw [hclient.2]
    exact ⟨by simp [hcloses, MainPc.inHand], hdone⟩
  . exact .inl hclient.2
  . exact fun c hc => (hothers c hc).symm
  . intro c
    have := hclient.1
    omega
  . intro c hc
    have hactive := Sound.isActive_put (by exact hclient.2) hc
    apply hworking c (h.working c hactive)
    intro heq
    exact hactive.1 (heq ▸ hclient.2)
  . intro c hc
    have hstarted := henlisted c hc
    rw [put_connections]
    split
    . next heq => exact absurd hclient.2 (heq ▸ hstarted)
    . exact .inl hstarted
  . exact hbounded
  . trivial

theorem Sound.accept (h : Sound w) {fd : Int} (hstep : w.accept fd = some w') : Sound w' := by
  unfold ConnectionWorkers.accept at hstep
  split at hstep
  . next hguard =>
    obtain ⟨hmain, hfd, _⟩ := hguard
    have hthread := h.unknown w.accepted (Nat.le_refl _)
    cases hstep
    apply h.hands (w.accepted + 1) hthread
    . refine ⟨hfd, ?_⟩
      simp [MainPc.inHand]
    . exact .inl rfl
    . intro c hc
      rw [hmain]
      simpa [MainPc.inHand] using hc.symm
    . intro c
      omega
    . exact fun c hc => h.working c (Sound.isActive_put rfl hc)
    . intro c hc
      have hstarted := (h.enlisted c hc).resolve_right (by simp [hmain])
      rw [put_connections]
      split
      . next heq => exact absurd hthread (heq ▸ hstarted)
      . exact .inl hstarted
    . exact h.bounded
    . refine ⟨?_, ?_⟩
      . exact Nat.lt_succ_self _
      . simp
  . contradiction

theorem Sound.started (h : Sound w) (hmain : ∀ c, w.main ≠ .creating c) {c : Nat} (hc : c ∈ w.workers)
    : (w.connections c).thread ≠ .notStarted :=
  (h.enlisted c hc).resolve_right (hmain c)

theorem Sound.advance (h : Sound w) {main : MainPc} (hcreating : ∀ c, w.main ≠ .creating c)
    (hhand : ∀ c, main.inHand c = w.main.inHand c) (hmain : MainSound { w with main } main)
    : Sound { w with main } := by
  apply h.goto hhand h.working
  . exact fun d hd => .inl (h.started hcreating hd)
  . exact h.bounded
  . exact hmain

theorem Sound.configure (h : Sound w) {configured : Bool} (hstep : w.configure configured = some w')
    : Sound w' := by
  unfold ConnectionWorkers.configure at hstep
  split at hstep
  . next c hmain =>
    have hwaiting : w.Waiting c := by
      have := h.main
      rw [hmain] at this
      exact this
    have hcreating : ∀ d, w.main ≠ .creating d := by simp [hmain]
    split at hstep
    . cases hstep
      apply h.advance (by simp [hmain])
      . intro d
        rw [hmain]
        simp [MainPc.inHand]
      . exact hwaiting
    . cases hstep
      apply h.refuse hwaiting
      . simp [hmain, MainPc.inHand]
      . intro d hd
        simpa [hmain, MainPc.inHand] using hd.symm
      . exact fun d hd _ => hd
      . exact fun d hd => h.started hcreating hd
      . exact h.bounded
  . contradiction

theorem Sound.not_done (h : Sound w) (hactive : w.Active client) : (w.connections client).done = false := by
  have hk := h.known_of_started hactive.1
  unfold Connection.Sound at hk
  cases hthread : (w.connections client).thread with
  | notStarted => exact absurd hthread hactive.1
  | finished => exact absurd hthread hactive.2
  | request pc =>
    rw [hthread] at hk
    exact hk.2.2.2
  | returned =>
    rw [hthread] at hk
    exact hk.2.2.2
  | closed =>
    rw [hthread] at hk
    exact hk.2.2.2

theorem Sound.reap (h : Sound w) (hstep : w.reap = some w') : Sound w' := by
  unfold ConnectionWorkers.reap at hstep
  split at hstep
  . next hmain =>
    cases hstep
    apply h.advance (by simp [hmain])
    . intro d
      rw [hmain]
      rfl
    . trivial
  . contradiction

theorem Sound.reapNext (h : Sound w) (hstep : w.reapNext = some w') : Sound w' := by
  unfold ConnectionWorkers.reapNext at hstep
  have hmainSound := h.main
  split at hstep
  . next client worker rest hmain =>
    rw [hmain] at hmainSound
    have hcreating : ∀ d, w.main ≠ .creating d := by simp [hmain]
    split at hstep
    . next hdone =>
      cases hstep
      apply h.goto
      . intro d
        rw [hmain]
        rfl
      . intro d hd
        apply (List.mem_erase_of_ne _).mpr (h.working d hd)
        intro heq
        have := h.not_done hd
        rw [heq, hdone] at this
        contradiction
      . exact fun d hd => .inl (h.started hcreating (List.mem_of_mem_erase hd))
      . exact Nat.le_trans List.length_erase_le h.bounded
      . cases client with
        | none => trivial
        | some client => exact hmainSound
    . cases hstep
      apply h.advance (by simp [hmain])
      . intro d
        rw [hmain]
        rfl
      . cases client with
        | none => trivial
        | some client => exact hmainSound
  . next client hmain =>
    rw [hmain] at hmainSound
    cases hstep
    apply h.advance (by simp [hmain])
    . intro d
      rw [hmain]
      simp [MainPc.inHand]
    . exact hmainSound
  . next hmain =>
    cases hstep
    apply h.advance (by simp [hmain])
    . intro d
      rw [hmain]
      rfl
    . trivial
  . contradiction

theorem Sound.enlist (h : Sound w) {allocated : Bool} (hstep : w.enlist allocated = some w')
    : Sound w' := by
  unfold ConnectionWorkers.enlist at hstep
  split at hstep
  . next c hmain =>
    have hwaiting : w.Waiting c := by
      have := h.main
      rw [hmain] at this
      exact this
    have hcreating : ∀ d, w.main ≠ .creating d := by simp [hmain]
    have hhand : w.main.inHand c = true := by simp [hmain, MainPc.inHand]
    have hothers : ∀ d, d ≠ c → w.main.inHand d = false := by
      intro d hd
      simpa [hmain, MainPc.inHand] using hd.symm
    have hrefused : Sound { w.closeClient c with main := .looping } :=
      h.refuse hwaiting hhand hothers (fun d hd _ => hd) (fun d hd => h.started hcreating hd) h.bounded
    split at hstep
    . cases hstep
      exact hrefused
    . next hroom =>
      split at hstep
      . cases hstep
        exact hrefused
      . have hnew := h.not_waiting hwaiting hcreating
        cases hstep
        apply h.hands w.accepted hwaiting.2
        . have hopen := h.known c hwaiting.1
          rw [hhand] at hopen
          unfold Connection.Sound at hopen ⊢
          rw [hwaiting.2] at hopen
          simpa [hwaiting.2, MainPc.inHand] using hopen
        . exact .inl hwaiting.2
        . intro d hd
          rw [hothers d hd]
          simpa [MainPc.inHand] using hd.symm
        . intro d
          have := hwaiting.1
          omega
        . intro d hd
          exact List.mem_append_left _ (h.working d (Sound.isActive_put (by exact hwaiting.2) hd))
        . intro d hd
          rcases List.mem_append.mp hd with hd | hd
          . have hstarted := h.started hcreating hd
            rw [put_connections]
            split
            . next heq => exact absurd hwaiting.2 (heq ▸ hstarted)
            . exact .inl hstarted
          . exact .inr (by rw [List.mem_singleton.mp hd])
        . simp
          omega
        . refine ⟨⟨hwaiting.1, ?_⟩, ?_, w.workers, rfl, hnew⟩
          . simpa using hwaiting.2
          . simp
  . contradiction

theorem Sound.createThread (h : Sound w) {started : Bool} (hstep : w.createThread started = some w')
    : Sound w' := by
  unfold ConnectionWorkers.createThread at hstep
  split at hstep
  . next c hmain =>
    have hmainSound := h.main
    rw [hmain] at hmainSound
    obtain ⟨hwaiting, hsocket, workers, hworkers, hnew⟩ := hmainSound
    have hhand : w.main.inHand c = true := by simp [hmain, MainPc.inHand]
    have hothers : ∀ d, d ≠ c → w.main.inHand d = false := by
      intro d hd
      simpa [hmain, MainPc.inHand] using hd.symm
    have hstarted : ∀ d ∈ w.workers, d ≠ c → (w.connections d).thread ≠ .notStarted := by
      intro d hd hne
      apply (h.enlisted d hd).resolve_right
      rw [hmain]
      intro heq
      cases heq
      exact hne rfl
    split at hstep
    . cases hstep
      apply h.hands w.accepted hwaiting.2
      . have hopen := h.known c hwaiting.1
        rw [hhand] at hopen
        unfold Connection.Sound at hopen ⊢
        rw [hwaiting.2] at hopen
        exact ⟨hopen.1, hopen.2.1, hsocket, hopen.2.2⟩
      . exact .inr rfl
      . exact fun d hd => (hothers d hd).symm
      . intro d
        have := hwaiting.1
        omega
      . intro d hd
        by_cases heq : d = c
        . rw [heq]
          show c ∈ w.workers
          simp [hworkers]
        . apply h.working
          simpa [Active, heq] using hd
      . intro d hd
        rw [put_connections]
        split
        . exact .inl (by simp)
        . next hne => exact .inl (hstarted d hd hne)
      . exact h.bounded
      . trivial
    . cases hstep
      have hdropLast : w.workers.dropLast = workers := by simp [hworkers]
      rw [hdropLast]
      apply h.refuse hwaiting hhand hothers
      . intro d hd hne
        rw [hworkers] at hd
        simpa [hne] using hd
      . intro d hd
        apply hstarted d (by simp [hworkers, hd])
        intro heq
        exact hnew (heq ▸ hd)
      . have := h.bounded
        rw [hworkers] at this
        simp at this
        omega
  . contradiction

theorem Sound.destroy (h : Sound w) (hstep : w.destroy = some w') : Sound w' := by
  unfold ConnectionWorkers.destroy at hstep
  split at hstep
  . next hmain =>
    have hcreating : ∀ d, w.main ≠ .creating d := by simp [hmain]
    cases hstep
    apply h.advance (by simp [hmain])
    . intro d
      rw [hmain]
      rfl
    . exact fun d hd => h.started hcreating hd
  . contradiction

/--
A worker whose `socket` is still set has not closed it.
-/
theorem Sound.socket_open (h : Sound w) (hstarted : (w.connections client).thread ≠ .notStarted)
    (hsocket : (w.connections client).socket ≠ invalidSocket)
    : (w.connections client).socket = (w.connections client).fd ∧ (w.connections client).closes = 0 := by
  have hk := h.known_of_started hstarted
  unfold Connection.Sound at hk
  cases hthread : (w.connections client).thread with
  | notStarted => exact absurd hthread hstarted
  | request pc =>
    rw [hthread] at hk
    exact ⟨hk.2.2.1, hk.2.1⟩
  | returned =>
    rw [hthread] at hk
    exact ⟨hk.2.2.1, hk.2.1⟩
  | closed =>
    rw [hthread] at hk
    exact absurd hk.2.2.1 hsocket
  | finished =>
    rw [hthread] at hk
    exact absurd hk.2.2.1 hsocket

theorem Sound.shutdownNext (h : Sound w) (hstep : w.shutdownNext = some w') : Sound w' := by
  unfold ConnectionWorkers.shutdownNext at hstep
  split at hstep
  . next worker rest hmain =>
    have hcreating : ∀ d, w.main ≠ .creating d := by simp [hmain]
    have hrest : ∀ d ∈ worker :: rest, (w.connections d).thread ≠ .notStarted := by
      have := h.main
      rw [hmain] at this
      exact this
    have hgoto : Sound { w with main := .shuttingDown rest } := by
      apply h.advance (by simp [hmain])
      . intro d
        rw [hmain]
        rfl
      . exact fun d hd => hrest d (by simp [hd])
    dsimp only at hstep
    split at hstep
    . cases hstep
      exact hgoto
    . next hsocket =>
      cases hstep
      exact hgoto.shutdown (h.socket_open (hrest worker (by simp)) hsocket)
  . next hmain =>
    cases hstep
    apply h.advance (by simp [hmain])
    . intro d
      rw [hmain]
      rfl
    . exact fun d hd => .inl hd
  . contradiction

theorem Sound.joinNext (h : Sound w) (hstep : w.joinNext = some w') : Sound w' := by
  unfold ConnectionWorkers.joinNext at hstep
  have hmainSound := h.main
  split at hstep
  . next worker rest hmain =>
    rw [hmain] at hmainSound
    have hcreating : ∀ d, w.main ≠ .creating d := by simp [hmain]
    dsimp only at hstep
    split at hstep
    . next hjoined =>
      cases hstep
      apply h.advance (by simp [hmain])
      . intro d
        rw [hmain]
        rfl
      . intro d hd
        rcases hmainSound d hd with hmem | hfinished
        . rcases List.mem_cons.mp hmem with heq | hmem
          . rw [← heq] at hjoined
            exact .inr (hjoined.resolve_right (h.started hcreating hd))
          . exact .inl hmem
        . exact .inr hfinished
    . contradiction
  . next hmain =>
    rw [hmain] at hmainSound
    cases hstep
    apply h.advance (by simp [hmain])
    . intro d
      rw [hmain]
      rfl
    . exact fun d hd => (hmainSound d hd).resolve_left (by simp)
  . contradiction

end Main

theorem sound_step {event : ServerEvent} (h : Sound w) (hkept : w.LeaseKept event)
    (hstep : w.step event = some w') : Sound w' := by
  cases event with
  | accept fd => exact h.accept hstep
  | configure configured => exact h.configure hstep
  | reap => exact h.reap hstep
  | reapNext => exact h.reapNext hstep
  | enlist allocated => exact h.enlist hstep
  | createThread started => exact h.createThread hstep
  | destroy => exact h.destroy hstep
  | shutdownNext => exact h.shutdownNext hstep
  | joinNext => exact h.joinNext hstep
  | thread client event =>
    cases event with
    | reserve sid generation fault =>
      apply h.reserve _ hstep
      intro hfault
      exact hkept client sid generation (by rw [hfault])
    | clean => exact h.clean hstep
    | cleanNext markThrows => exact h.cleanNext hstep
    | release => exact h.release hstep
    | leave => exact h.leave hstep
    | closeSocket => exact h.closeSocket hstep
    | finish => exact h.finish hstep

def IsOpen (w : ConnectionWorkers) (client : Nat) : Prop :=
  w.main.inHand client = true ∨
    (∃ pc, (w.connections client).thread = .request pc) ∨ (w.connections client).thread = .returned

theorem Sound.closes_eq (h : Sound w) (hclient : client < w.accepted)
    : (w.IsOpen client → (w.connections client).closes = 0) ∧
        (¬ w.IsOpen client → (w.connections client).closes = 1) := by
  have hk := h.known client hclient
  unfold Connection.Sound at hk
  unfold IsOpen
  cases hthread : (w.connections client).thread with
  | notStarted =>
    rw [hthread] at hk
    rw [hk.2.1]
    simp
  | request pc =>
    rw [hthread] at hk
    simp [hk.2.1]
  | returned =>
    rw [hthread] at hk
    simp [hk.2.1]
  | closed =>
    rw [hthread] at hk
    simp [hk.2.1, h.not_inHand (show (w.connections client).thread ≠ .notStarted by simp [hthread])]
  | finished =>
    rw [hthread] at hk
    simp [hk.2.1, h.not_inHand (show (w.connections client).thread ≠ .notStarted by simp [hthread])]

theorem maximum_threadStep {event : ThreadEvent} (hstep : w.threadStep client event = some w')
    : w'.maximum = w.maximum := by
  cases event with
  | reserve sid generation fault =>
    unfold threadStep ConnectionWorkers.reserve at hstep
    grind [setThread, put]
  | clean =>
    unfold threadStep ConnectionWorkers.clean at hstep
    grind [setThread, put]
  | cleanNext markThrows =>
    unfold threadStep ConnectionWorkers.cleanNext at hstep
    grind [setThread, put, ConnectionWorkers.shutdown]
  | release =>
    unfold threadStep ConnectionWorkers.release at hstep
    grind [setThread, put]
  | leave =>
    unfold threadStep ConnectionWorkers.leave at hstep
    grind [setThread, put]
  | closeSocket =>
    unfold threadStep ConnectionWorkers.closeSocket at hstep
    grind [put]
  | finish =>
    unfold threadStep ConnectionWorkers.finish at hstep
    grind [put]

theorem maximum_step {event : ServerEvent} (hstep : w.step event = some w')
    : w'.maximum = w.maximum := by
  cases event with
  | accept fd =>
    unfold step ConnectionWorkers.accept at hstep
    grind [put]
  | configure configured =>
    unfold step ConnectionWorkers.configure at hstep
    grind [closeClient, put]
  | reap =>
    unfold step ConnectionWorkers.reap at hstep
    grind
  | reapNext =>
    unfold step ConnectionWorkers.reapNext at hstep
    grind
  | enlist allocated =>
    unfold step ConnectionWorkers.enlist at hstep
    grind [closeClient, put]
  | createThread started =>
    unfold step ConnectionWorkers.createThread at hstep
    grind [closeClient, setThread, put]
  | destroy =>
    unfold step ConnectionWorkers.destroy at hstep
    grind
  | shutdownNext =>
    unfold step ConnectionWorkers.shutdownNext at hstep
    grind [ConnectionWorkers.shutdown]
  | joinNext =>
    unfold step ConnectionWorkers.joinNext at hstep
    grind
  | thread client event => exact maximum_threadStep hstep

/--
In every run in which no lease is lost, every socket that `start` was given is open until `start` refuses
it or its thread is through with it, and is then closed once. No `shutdown` of `clean` or of the
destructor is meant for a connection whose descriptor is closed. There are at most `maximum_` workers, and
when the destructor has returned every thread has finished and every socket is closed.
-/
theorem socket_lifetime (maximum : Nat) (maxSessions : Int32) (now : Int) (events : List ServerEvent)
    (hkept : Machine.Meets step LeaseKept (create maximum maxSessions now) events)
    (hrun : Machine.run step (create maximum maxSessions now) events = some w)
    : (∀ client < w.accepted,
          (w.IsOpen client → (w.connections client).closes = 0) ∧
            (¬ w.IsOpen client → (w.connections client).closes = 1)) ∧
        (∀ x ∈ w.shutdowns, x.1 = x.2.fd ∧ x.2.closes = 0) ∧
        w.workers.length ≤ maximum ∧
        (w.main = .destroyed → ∀ client < w.accepted, (w.connections client).closes = 1 ∧
          ((w.connections client).thread = .notStarted ∨ (w.connections client).thread = .finished)) := by
  have hsound : Sound w := by
    apply Machine.run_invariant_of_meets (I := Sound) _ (sound_create maximum maxSessions now) hkept hrun
    exact fun _ _ _ h hkept hstep => sound_step h hkept hstep
  have hmaximum : w.maximum = maximum := by
    apply Machine.run_relates (R := fun w w' => w'.maximum = w.maximum) _ _ _ hrun
    . exact fun _ => rfl
    . exact fun _ _ _ h h' => h'.trans h
    . exact fun _ _ _ hstep => maximum_step hstep
  refine ⟨fun client hclient => hsound.closes_eq hclient, hsound.shutdowns, ?_, ?_⟩
  . rw [← hmaximum]
    exact hsound.bounded
  . intro hdestroyed client hclient
    have hjoined := hsound.main
    rw [hdestroyed] at hjoined
    have hthread : (w.connections client).thread = .notStarted ∨
        (w.connections client).thread = .finished := by
      by_contra hactive
      rw [not_or] at hactive
      exact hactive.2 (hjoined client (hsound.working client hactive))
    refine ⟨?_, hthread⟩
    apply (hsound.closes_eq hclient).2
    unfold IsOpen
    rw [hdestroyed]
    rcases hthread with hthread | hthread
    . simp [hthread, MainPc.inHand]
    . simp [hthread, MainPc.inHand]

-- One connection plays while another cleans, and then the server stops.
def cleanedRun : List ServerEvent :=
  [.accept 5, .configure true, .reapNext, .enlist true, .createThread true,
    .accept 6, .configure true, .reapNext, .reapNext, .enlist true, .createThread true,
    .thread 0 (.reserve [65] [] none), .thread 1 .clean, .thread 1 (.cleanNext false),
    .thread 1 (.cleanNext false), .thread 0 .release, .thread 0 .leave, .thread 1 .leave,
    .thread 0 .closeSocket, .destroy, .thread 0 .finish, .shutdownNext, .shutdownNext, .shutdownNext,
    .thread 1 .closeSocket, .thread 1 .finish, .joinNext, .joinNext, .joinNext]

theorem socket_lifetime_cleanedRun
    : ∃ w, Machine.run step (create 2 4 0) cleanedRun = some w ∧
        (∀ client < w.accepted,
          (w.IsOpen client → (w.connections client).closes = 0) ∧
            (¬ w.IsOpen client → (w.connections client).closes = 1)) ∧
        (∀ x ∈ w.shutdowns, x.1 = x.2.fd ∧ x.2.closes = 0) ∧
        w.workers.length ≤ 2 ∧
        (w.main = .destroyed → ∀ client < w.accepted, (w.connections client).closes = 1 ∧
          ((w.connections client).thread = .notStarted ∨ (w.connections client).thread = .finished)) := by
  have hsome : (Machine.run step (create 2 4 0) cleanedRun).isSome = true := by decide +kernel
  obtain ⟨w, hrun⟩ := Option.isSome_iff_exists.mp hsome
  have hkept : Machine.Meets step LeaseKept (create 2 4 0) cleanedRun := by
    apply Machine.meets_of_forall
    intro event hevent w client sid generation heq
    rw [heq] at hevent
    simp [cleanedRun] at hevent
  exact ⟨w, hrun, socket_lifetime 2 4 0 cleanedRun hkept hrun⟩

def lostLease : List ServerEvent :=
  [.accept 5, .configure true, .reapNext, .enlist true, .createThread true,
    .accept 6, .configure true, .reapNext, .reapNext, .enlist true, .createThread true,
    .thread 0 (.reserve [65] [] (some .leaseAlloc)), .thread 0 .leave, .thread 0 .closeSocket,
    .thread 1 .clean, .thread 1 (.cleanNext false)]

theorem socket_lifetime_lostLease
    : (Machine.run step (create 2 4 0) lostLease).map
          (fun w => w.shutdowns.map fun x => (x.1, x.2.fd, x.2.closes))
        = some [(5, 5, 1)] := by
  decide +kernel

end
end ConnectionWorkers
end HikBridge
