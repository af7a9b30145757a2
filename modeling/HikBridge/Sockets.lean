import HikBridge.Video.Pipeline

/-!
This module contains the two functions that try the addresses of a name with sockets of their own:
`probe_nvr_endpoint` and `create_listener`, and the proof that neither leaves a socket behind whichever
calls fail.
-/

namespace HikBridge

open Program

inductive SocketCall where
  | setNonblocking (fd : Nat)
  | connect (fd : Nat) (address : Bytes)
  | setReuse (fd : Nat)
  | bind (fd : Nat) (address : Bytes)
  | listen (fd : Nat)
  deriving DecidableEq, Repr

/--
`live` are the open sockets, `lists` counts the address lists that are not freed and `calls` keeps the
calls that succeeded.
-/
structure Sockets where
  next : Nat := 0
  live : List Nat := []
  lists : Nat := 0
  calls : List SocketCall := []
  deriving DecidableEq, Repr

structure SocketAnswer where
  ok : Bool := true
  addresses : List Bytes := []
  elapsed : Int := 0
  wouldBlock : Bool := false
  ready : Int := 1
  deriving DecidableEq, Repr

abbrev Networking (α : Type) : Type := Program Sockets SocketAnswer BridgeError α

namespace Sockets

def getaddrinfo : Networking (Option (List Bytes)) := do
  let answer ← ask
  if answer.ok then do
    update fun s => { s with lists := s.lists + 1 }
    pure (some answer.addresses)
  else
    pure none

def freeaddrinfo : Networking Unit := update fun s => { s with lists := s.lists - 1 }

def createSocket : Networking (Option Nat) := do
  let answer ← ask
  if answer.ok then do
    let s ← inspect
    update fun s => { s with next := s.next + 1, live := s.live ++ [s.next] }
    pure (some s.next)
  else
    pure none

def closeSocket (fd : Nat) : Networking Unit := update fun s => { s with live := s.live.erase fd }

def perform (call : SocketCall) : Networking SocketAnswer := do
  let answer ← ask
  if answer.ok then do
    update fun s => { s with calls := s.calls ++ [call] }
    pure answer
  else
    pure answer

def connectSocket (fd : Nat) (address : Bytes) : Networking Bool := do
  let connected ← perform (.connect fd address)
  if connected.ok then
    pure true
  else if connected.wouldBlock then do
    let polled ← ask
    if 0 < polled.ready then do
      -- `SO_ERROR`
      let error ← perform (.connect fd address)
      pure error.ok
    else
      pure false
  else
    pure false

def probeAddresses (timeoutMs : Int) : List Bytes → Networking Bool
  | [] => pure false
  | address :: rest => do
    let clock ← ask
    if timeoutMs - clock.elapsed ≤ 0 then
      pure false
    else do
      let created ← createSocket
      match created with
      | none => probeAddresses timeoutMs rest
      | some fd => do
        let nonblocking ← perform (.setNonblocking fd)
        if !nonblocking.ok then do
          closeSocket fd
          probeAddresses timeoutMs rest
        else do
          let connected ← connectSocket fd address
          closeSocket fd
          if connected then pure true else probeAddresses timeoutMs rest

def probeNvrEndpoint (v : Setting) (timeoutMs : Int) : Networking Unit := do
  let resolved ← getaddrinfo
  match resolved with
  | none => raise (Pipeline.unreachableNvr v)
  | some addresses => do
    let connected ← probeAddresses timeoutMs addresses
    freeaddrinfo
    if connected then pure () else raise (Pipeline.unreachableNvr v)

def bindSocket (fd : Nat) (address : Bytes) : Networking Bool := do
  let bound ← perform (.bind fd address)
  if bound.ok then do
    let listening ← perform (.listen fd)
    pure listening.ok
  else
    pure false

def bindAddresses : List Bytes → Networking (Option Nat)
  | [] => pure none
  | address :: rest => do
    let created ← createSocket
    match created with
    | none => bindAddresses rest
    | some fd => do
      let reuse ← perform (.setReuse fd)
      if !reuse.ok then do
        closeSocket fd
        bindAddresses rest
      else do
        let bound ← bindSocket fd address
        if bound then pure (some fd) else do
          closeSocket fd
          bindAddresses rest

def invalidBind : BridgeError := ⟨500, "BIND_FAILED", "监听地址无效"⟩

def bindFailed : BridgeError := ⟨500, "BIND_FAILED", "无法绑定 HTTP 监听端口"⟩

def createListener : Networking Nat := do
  let resolved ← getaddrinfo
  match resolved with
  | none => raise invalidBind
  | some addresses => do
    let listener ← bindAddresses addresses
    freeaddrinfo
    match listener with
    | none => raise bindFailed
    | some listener => pure listener

structure Since (base : Sockets) (mine : List Nat) (lists : Nat) (Done : List SocketCall → Prop)
    (s : Sockets) : Prop where
  live : s.live = base.live ++ mine
  fresh : ∀ fd ∈ s.live, fd < s.next
  new : ∀ fd ∈ mine, fd ∉ base.live
  lists : s.lists = base.lists + lists
  calls : ∃ done, s.calls = base.calls ++ done ∧ Done done

def OneMore (base s : Sockets) : Prop := s.live.length ≤ base.live.length + 1

section Calls

variable {base : Sockets} {mine : List Nat} {lists fd : Nat} {Done Done' : List SocketCall → Prop}
  {E : BridgeError → Sockets → Prop}

theorem Since.mono {s : Sockets} (h : Since base mine lists Done s) (hdone : ∀ done, Done done → Done' done)
    : Since base mine lists Done' s :=
  ⟨h.live, h.fresh, h.new, h.lists, h.calls.imp fun done hd => ⟨hd.1, hdone done hd.2⟩⟩

theorem Since.oneMore {s : Sockets} (h : Since base mine lists Done s) (hmine : mine.length ≤ 1)
    : OneMore base s := by
  rw [OneMore, h.live, List.length_append]
  omega

theorem triple_answer (hmine : mine.length ≤ 1)
    : Triple (Since base mine lists Done) (ask : Networking SocketAnswer)
        (fun _ => Since base mine lists Done) E (OneMore base) :=
  triple_ask (fun _ h => h.oneMore hmine) fun _ _ => id

theorem triple_getaddrinfo
    : Triple (Since base [] lists Done) getaddrinfo
        (fun resolved => Since base [] (lists + resolved.toList.length) Done) E (OneMore base) := by
  apply triple_bind (triple_answer (by simp))
  intro answer
  apply triple_ite
  . intro _
    apply triple_bind (R := fun _ => Since base [] (lists + 1) Done)
    . apply triple_update
      intro s h
      exact ⟨h.live, h.fresh, h.new, by simp only [h.lists, Nat.add_assoc], h.calls⟩
    intro _
    exact triple_pure fun _ => id
  . intro _
    exact triple_pure fun _ => id

theorem triple_freeaddrinfo
    : Triple (Since base mine (lists + 1) Done) freeaddrinfo (fun _ => Since base mine lists Done) E
        (OneMore base) := by
  apply triple_update
  intro s h
  exact ⟨h.live, h.fresh, h.new, by simp [h.lists, ← Nat.add_assoc], h.calls⟩

theorem triple_createSocket
    : Triple (Since base [] lists Done) createSocket
        (fun created => Since base created.toList lists Done) E (OneMore base) := by
  apply triple_bind (triple_answer (by simp))
  intro answer
  apply triple_ite
  . intro _
    apply triple_bind (R := fun s t => t = s ∧ Since base [] lists Done s)
    . exact triple_inspect fun s h => ⟨rfl, h⟩
    intro s
    apply triple_bind (R := fun _ => Since base [s.next] lists Done)
    . apply triple_update
      rintro t ⟨rfl, h⟩
      have hlive := h.live
      rw [List.append_nil] at hlive
      refine ⟨by rw [hlive], ?_, ?_, h.lists, h.calls⟩
      . intro fd hfd
        rw [List.mem_append, List.mem_singleton] at hfd
        rcases hfd with hfd | rfl
        . exact (h.fresh fd hfd).trans (Nat.lt_succ_self _)
        . exact Nat.lt_succ_self _
      . intro fd hfd hmem
        rw [List.mem_singleton] at hfd
        rw [hfd, ← hlive] at hmem
        exact lt_irrefl _ (h.fresh _ hmem)
    intro _
    exact triple_pure fun _ => id
  . intro _
    exact triple_pure fun _ => id

theorem triple_closeSocket
    : Triple (Since base [fd] lists Done) (closeSocket fd) (fun _ => Since base [] lists Done) E
        (OneMore base) := by
  apply triple_update
  intro s h
  have hlive : s.live.erase fd = base.live := by
    rw [h.live, List.erase_append_right _ (h.new fd (by simp)), List.erase_cons_head, List.append_nil]
  refine ⟨by rw [hlive, List.append_nil], ?_, by simp, h.lists, h.calls⟩
  intro other hother
  exact h.fresh other (List.mem_of_mem_erase hother)

theorem triple_perform {call : SocketCall} (hmine : mine.length ≤ 1)
    : Triple (Since base mine lists Done) (perform call)
        (fun answer =>
          Since base mine lists fun done =>
            if answer.ok then ∃ before, Done before ∧ done = before ++ [call] else Done done) E
        (OneMore base) := by
  apply triple_bind (triple_answer hmine)
  intro answer
  apply triple_ite
  . intro hok
    apply triple_bind (R := fun _ =>
      Since base mine lists fun done => ∃ before, Done before ∧ done = before ++ [call])
    . apply triple_update
      intro s h
      obtain ⟨done, hcalls, hdone⟩ := h.calls
      exact ⟨h.live, h.fresh, h.new, h.lists, done ++ [call], by simp [hcalls], done, hdone, rfl⟩
    intro _
    exact triple_pure fun _ h => h.mono fun _ hdone => by rwa [if_pos hok]
  . intro hok
    exact triple_pure fun _ h => h.mono fun _ hdone => by rwa [if_neg hok]

def Connects (connected : Bool) (done : List SocketCall) : Prop :=
  connected = true ↔ ∃ fd address, .connect fd address ∈ done

theorem Connects.connect {address : Bytes} (done : List SocketCall)
    : Connects true (done ++ [.connect fd address]) :=
  ⟨fun _ => ⟨fd, address, by simp⟩, fun _ => rfl⟩

theorem Connects.setNonblocking {connected : Bool} {done : List SocketCall} (h : Connects connected done)
    : Connects connected (done ++ [.setNonblocking fd]) := by
  unfold Connects at h ⊢
  simpa using h

theorem triple_connectSocket {address : Bytes}
    : Triple (Since base [fd] lists (Connects false)) (connectSocket fd address)
        (fun connected => Since base [fd] lists (Connects connected)) E (OneMore base) := by
  apply triple_bind (triple_perform (by simp))
  intro connected
  apply triple_ite
  . intro hok
    apply triple_pure
    intro s h
    apply h.mono
    intro done hdone
    rw [if_pos hok] at hdone
    obtain ⟨before, -, rfl⟩ := hdone
    exact .connect before
  intro hok
  simp only [if_neg hok]
  apply triple_ite
  . intro _
    apply triple_bind (triple_answer (by simp))
    intro polled
    apply triple_ite
    . intro _
      apply triple_bind (triple_perform (by simp))
      intro error
      apply triple_pure
      intro s h
      apply h.mono
      intro done hdone
      split at hdone
      . next hok =>
        rw [hok]
        obtain ⟨before, -, rfl⟩ := hdone
        exact .connect before
      . next hok =>
        rw [Bool.eq_false_of_not_eq_true hok]
        exact hdone
    . intro _
      exact triple_pure fun _ => id
  . intro _
    exact triple_pure fun _ => id

theorem triple_probeAddresses {timeoutMs : Int} {addresses : List Bytes}
    : Triple (Since base [] lists (Connects false)) (probeAddresses timeoutMs addresses)
        (fun connected => Since base [] lists (Connects connected)) E (OneMore base) := by
  induction addresses with
  | nil => exact triple_pure fun _ => id
  | cons address rest ih =>
    apply triple_bind (triple_answer (by simp))
    intro clock
    apply triple_ite
    . intro _
      exact triple_pure fun _ => id
    intro _
    apply triple_bind triple_createSocket
    intro created
    cases created with
    | none => exact ih
    | some fd =>
      apply triple_bind (triple_perform (by simp))
      intro nonblocking
      apply triple_ite
      . intro hfailed
        rw [Bool.not_eq_true'] at hfailed
        rw [hfailed]
        exact triple_bind triple_closeSocket fun _ => ih
      intro hok
      rw [Bool.not_eq_true, Bool.not_eq_false'] at hok
      apply triple_bind (R := fun connected => Since base [fd] lists (Connects connected))
      . apply triple_connectSocket.pre
        intro s h
        apply h.mono
        intro done hdone
        rw [if_pos hok] at hdone
        obtain ⟨before, hbefore, rfl⟩ := hdone
        exact hbefore.setNonblocking
      intro connected
      apply triple_bind triple_closeSocket
      intro _
      cases connected with
      | true => exact triple_pure fun _ => id
      | false => exact ih

def Listens (listener : Nat) (done : List SocketCall) : Prop :=
  .setReuse listener ∈ done ∧ (∃ address, .bind listener address ∈ done) ∧ .listen listener ∈ done

theorem triple_bindSocket {address : Bytes}
    : Triple (Since base [fd] lists fun done => .setReuse fd ∈ done ∧ ∀ fd, .listen fd ∉ done)
        (bindSocket fd address)
        (fun bound => Since base [fd] lists fun done =>
          if bound then Listens fd done else ∀ fd, .listen fd ∉ done) E (OneMore base) := by
  apply triple_bind (triple_perform (by simp))
  intro bound
  apply triple_ite
  . intro hok
    apply triple_bind (triple_perform (by simp))
    intro listening
    apply triple_pure
    intro s h
    apply h.mono
    intro done hdone
    rw [hok] at hdone
    split at hdone
    . next hlistening =>
      obtain ⟨_, ⟨before, ⟨hreuse, -⟩, rfl⟩, rfl⟩ := hdone
      rw [if_pos hlistening]
      exact ⟨by simp [hreuse], ⟨address, by simp⟩, by simp⟩
    . next hlistening =>
      obtain ⟨before, ⟨-, hnone⟩, rfl⟩ := hdone
      rw [if_neg hlistening]
      simpa using hnone
  . intro hfailed
    apply triple_pure
    intro s h
    apply h.mono
    intro done hdone
    rw [if_neg hfailed] at hdone
    exact hdone.2

theorem triple_bindAddresses {addresses : List Bytes}
    : Triple (Since base [] lists fun done => ∀ fd, .listen fd ∉ done) (bindAddresses addresses)
        (fun listener => Since base listener.toList lists fun done =>
          match listener with
          | none => ∀ fd, .listen fd ∉ done
          | some listener => Listens listener done) E (OneMore base) := by
  induction addresses with
  | nil => exact triple_pure fun _ => id
  | cons address rest ih =>
    apply triple_bind triple_createSocket
    intro created
    cases created with
    | none => exact ih
    | some fd =>
      apply triple_bind (triple_perform (by simp))
      intro reuse
      apply triple_ite
      . intro hfailed
        rw [Bool.not_eq_true'] at hfailed
        rw [hfailed]
        exact triple_bind triple_closeSocket fun _ => ih
      intro hok
      rw [Bool.not_eq_true, Bool.not_eq_false'] at hok
      apply triple_bind
      . apply triple_bindSocket.pre
        intro s h
        apply h.mono
        intro done hdone
        rw [if_pos hok] at hdone
        obtain ⟨before, hbefore, rfl⟩ := hdone
        exact ⟨by simp, by simpa using hbefore⟩
      intro bound
      apply triple_ite
      . intro hbound
        apply triple_pure
        intro s h
        apply h.mono
        intro done hdone
        rwa [if_pos hbound] at hdone
      . intro hbound
        simp only [if_neg hbound]
        exact triple_bind triple_closeSocket fun _ => ih

end Calls

section Ends

variable {s : Sockets} (answers : List SocketAnswer)

theorem since_refl {Done : List SocketCall → Prop} (hfresh : ∀ fd ∈ s.live, fd < s.next) (hdone : Done [])
    : Since s [] 0 Done s :=
  ⟨by simp, hfresh, by simp, rfl, [], by simp, hdone⟩

theorem connects_nil : Connects false [] := by simp [Connects]

/--
`probe_nvr_endpoint` closes what it opens and frees what it resolves, and returns exactly when one of its
sockets was connected.
-/
theorem no_socket_left_of_probe (v : Setting) (timeoutMs : Int) (hfresh : ∀ fd ∈ s.live, fd < s.next)
    : Ends (fun _ => Since s [] 0 (Connects true))
        (fun e s' => e = Pipeline.unreachableNvr v ∧ Since s [] 0 (Connects false) s') (OneMore s)
        (probeNvrEndpoint v timeoutMs s answers) := by
  apply (?_ : Triple (Since s [] 0 (Connects false)) _ _ _ _) s answers (since_refl hfresh connects_nil)
  apply triple_bind triple_getaddrinfo
  intro resolved
  cases resolved with
  | none => exact triple_raise fun _ h => ⟨rfl, h⟩
  | some addresses =>
    apply triple_bind triple_probeAddresses
    intro connected
    apply triple_bind triple_freeaddrinfo
    intro _
    cases connected with
    | true => exact triple_pure fun _ => id
    | false => exact triple_raise fun _ h => ⟨rfl, h⟩

-- The first address cannot be connected to, the second one only after a wait.
def secondAddress : List SocketAnswer :=
  [{ addresses := [[1], [2]] }, { elapsed := 0 }, {}, {}, { ok := false }, { elapsed := 3 }, {}, {},
    { ok := false, wouldBlock := true }, { ready := 1 }, {}]

def sampleSockets : Sockets := { next := 5, live := [3, 4] }

def sampleTarget : Setting where
  request := {
    option := .RealPlay, ip := "192.168.1.64", port := 8000, speedIsOne := true, startTime := 0,
    endTime := 0, sid := [] }
  windows := false
  hardwareBackend := false
  enableAudio := false
  readVideoCodecFromDevice := false
  realplayKeyframeIntervalFrames := 0
  loggingThrows := false
  setEndedThrows := false

theorem no_socket_left_of_probe_sample
    : ∃ s', probeNvrEndpoint sampleTarget 1500 sampleSockets secondAddress = (.ok (), s', [])
        ∧ Since sampleSockets [] 0 (Connects true) s' :=
  ⟨_, rfl, no_socket_left_of_probe secondAddress sampleTarget 1500 (s := sampleSockets) (by decide)⟩

/--
The listener of `create_listener` is the one socket that it leaves open, bound and listening with the
option that is set before; if it throws it leaves none and none has listened.
-/
theorem one_socket_left_of_listener (hfresh : ∀ fd ∈ s.live, fd < s.next)
    : Ends (fun listener => Since s [listener] 0 (Listens listener))
        (fun e s' =>
          (e = invalidBind ∨ e = bindFailed) ∧ Since s [] 0 (fun done => ∀ fd, .listen fd ∉ done) s')
        (OneMore s) (createListener s answers) := by
  apply (?_ : Triple (Since s [] 0 fun done => ∀ fd, .listen fd ∉ done) _ _ _ _) s answers
    (since_refl hfresh (by simp))
  apply triple_bind triple_getaddrinfo
  intro resolved
  cases resolved with
  | none => exact triple_raise fun _ h => ⟨.inl rfl, h⟩
  | some addresses =>
    apply triple_bind triple_bindAddresses
    intro listener
    apply triple_bind triple_freeaddrinfo
    intro _
    cases listener with
    | none => exact triple_raise fun _ h => ⟨.inr rfl, h⟩
    | some listener => exact triple_pure fun _ => id

-- The port of the first address is taken.
def takenPort : List SocketAnswer :=
  [{ addresses := [[1], [2]] }, {}, {}, { ok := false }, {}, {}, {}, {}]

theorem one_socket_left_of_listener_sample
    : ∃ s', createListener sampleSockets takenPort = (.ok 6, s', [])
        ∧ Since sampleSockets [6] 0 (Listens 6) s' :=
  ⟨_, rfl, one_socket_left_of_listener takenPort (s := sampleSockets) (by decide)⟩

end Ends
end Sockets
end HikBridge
