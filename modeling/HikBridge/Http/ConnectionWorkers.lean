import HikBridge.Lib.Machine
import HikBridge.SessionRegistry.Basic
import Mathlib.Logic.Function.Basic

/-!
This module contains the accept loop of `run_server` with `ConnectionWorkers` and the threads of the
connections. The threads share the sockets with `SessionRegistry::clean`, which holds `mutex_`, and with
the destructor, which holds `sockets_mutex_`.
-/

namespace HikBridge

-- Where the handler of a request stands. `clean` has copied the states that it has not reached.
inductive RequestPc where
  | running
  | cleaning (rest : List State)
  | leased
  | over
  deriving DecidableEq

inductive ThreadPc where
  | notStarted
  | request (pc : RequestPc)
  | returned
  | closed
  | finished
  deriving DecidableEq

/--
An accepted socket that was handed to `start`, with its `Worker`: `socket` and `done` are the fields of
that object. `closes` counts how often the descriptor was closed.
-/
structure Connection where
  fd : Int
  closes : Nat := 0
  socket : Int := invalidSocket
  done : Bool := false
  thread : ThreadPc := .notStarted
  deriving DecidableEq

-- Where the thread of `run_server` stands: in its loop, in `start`, in `reap` or in the destructor.
inductive MainPc where
  | looping
  | configuring (client : Nat)
  | reaping (client : Option Nat) (rest : List Nat)
  | enlisting (client : Nat)
  | creating (client : Nat)
  | shuttingDown (rest : List Nat)
  | joining (rest : List Nat)
  | destroyed
  deriving DecidableEq

/--
`shutdowns` holds, for every `shutdown` so far, its descriptor and the connection that it is meant for.
-/
structure ConnectionWorkers where
  maximum : Nat
  registry : SessionRegistry
  workers : List Nat := []
  connections : Nat → Connection := fun _ => { fd := invalidSocket }
  accepted : Nat := 0
  mutex : Option Nat := none
  main : MainPc := .looping
  shutdowns : List (Int × Connection) := []

inductive ThreadEvent where
  | reserve (sid generation : Bytes) (fault : Option ReserveFault)
  | clean
  | cleanNext (markThrows : Bool)
  | release
  | leave
  | closeSocket
  | finish

inductive ServerEvent where
  | accept (fd : Int)
  | configure (configured : Bool)
  | reap
  | reapNext
  | enlist (allocated : Bool)
  | createThread (started : Bool)
  | destroy
  | shutdownNext
  | joinNext
  | thread (client : Nat) (event : ThreadEvent)

-- The body of the loop of `clean` for a state that is not cancelled.
def SessionRegistry.cancel (r : SessionRegistry) (id : Nat) : SessionRegistry :=
  { r with states := r.states.map fun state =>
      if state.id = id then { state with cancelled := true } else state }

namespace ConnectionWorkers

def create (maximum : Nat) (maxSessions : Int32) (now : Int) : ConnectionWorkers :=
  { maximum, registry := SessionRegistry.create maxSessions now }

variable (w : ConnectionWorkers)

def put (client : Nat) (connection : Connection) : ConnectionWorkers :=
  { w with connections := Function.update w.connections client connection }

def setThread (client : Nat) (thread : ThreadPc) : ConnectionWorkers :=
  w.put client { w.connections client with thread }

-- `close_socket(client)`
def closeClient (client : Nat) : ConnectionWorkers :=
  w.put client { w.connections client with closes := (w.connections client).closes + 1 }

def shutdown (client : Nat) (fd : Int) : ConnectionWorkers :=
  { w with shutdowns := w.shutdowns ++ [(fd, w.connections client)] }

-- The system hands out a descriptor that is not open.
def isFree (fd : Int) : Bool :=
  (List.range w.accepted).all fun client =>
    (w.connections client).closes != 0 || (w.connections client).fd != fd

def holdsSocketsMutex : Bool :=
  match w.main with
  | .shuttingDown _ => true
  | _ => false

section Main

def accept (fd : Int) : Option ConnectionWorkers :=
  if w.main = .looping ∧ fd ≠ invalidSocket ∧ w.isFree fd then
    some { w.put w.accepted { fd } with
      accepted := w.accepted + 1
      main := .configuring w.accepted }
  else
    none

def configure (configured : Bool) : Option ConnectionWorkers :=
  match w.main with
  | .configuring client =>
    if configured then
      some { w with main := .reaping (some client) w.workers }
    else
      some { w.closeClient client with main := .looping }
  | _ => none

def reap : Option ConnectionWorkers :=
  if w.main = .looping then some { w with main := .reaping none w.workers } else none

def reapNext : Option ConnectionWorkers :=
  match w.main with
  | .reaping client (worker :: rest) =>
    if (w.connections worker).done then
      some { w with workers := w.workers.erase worker, main := .reaping client rest }
    else
      some { w with main := .reaping client rest }
  | .reaping (some client) [] => some { w with main := .enlisting client }
  | .reaping none [] => some { w with main := .looping }
  | _ => none

def enlist (allocated : Bool) : Option ConnectionWorkers :=
  match w.main with
  | .enlisting client =>
    if w.workers.length ≥ w.maximum then
      -- after the busy response
      some { w.closeClient client with main := .looping }
    else if !allocated then
      some { w.closeClient client with main := .looping }
    else
      let connection := w.connections client
      some { w.put client { connection with socket := connection.fd } with
        workers := w.workers ++ [client]
        main := .creating client }
  | _ => none

def createThread (started : Bool) : Option ConnectionWorkers :=
  match w.main with
  | .creating client =>
    if started then
      some { w.setThread client (.request .running) with main := .looping }
    else
      some { w.closeClient client with workers := w.workers.dropLast, main := .looping }
  | _ => none

def destroy : Option ConnectionWorkers :=
  if w.main = .looping then some { w with main := .shuttingDown w.workers } else none

def shutdownNext : Option ConnectionWorkers :=
  match w.main with
  | .shuttingDown (worker :: rest) =>
    let w' := { w with main := .shuttingDown rest }
    let socket := (w.connections worker).socket
    some (if socket = invalidSocket then w' else w'.shutdown worker socket)
  | .shuttingDown [] => some { w with main := .joining w.workers }
  | _ => none

def joinNext : Option ConnectionWorkers :=
  match w.main with
  | .joining (worker :: rest) =>
    let thread := (w.connections worker).thread
    if thread = .finished ∨ thread = .notStarted then some { w with main := .joining rest } else none
  | .joining [] => some { w with main := .destroyed }
  | _ => none

end Main

section Thread

variable (client : Nat)

def reserve (sid generation : Bytes) (fault : Option ReserveFault) : Option ConnectionWorkers :=
  let connection := w.connections client
  if connection.thread = .request .running ∧ w.mutex = none then
    match w.registry.reserve client sid connection.fd generation fault with
    | (.ok (some _), registry) => some { w.setThread client (.request .leased) with registry }
    | (_, registry) => some { w.setThread client (.request .over) with registry }
  else
    none

def clean : Option ConnectionWorkers :=
  if (w.connections client).thread = .request .running ∧ w.mutex = none then
    let registry := w.registry.nextGeneration
    some { w.setThread client (.request (.cleaning registry.states)) with
      registry, mutex := some client }
  else
    none

def cleanNext (markThrows : Bool) : Option ConnectionWorkers :=
  match (w.connections client).thread with
  | .request (.cleaning []) => some { w.setThread client (.request .over) with mutex := none }
  | .request (.cleaning (state :: rest)) =>
    if state.cancelled then
      some (w.setThread client (.request (.cleaning rest)))
    else if markThrows then
      some { w.setThread client (.request .over) with mutex := none }
    else
      let w' := { w.setThread client (.request (.cleaning rest)) with
        registry := w.registry.cancel state.id }
      some (if state.fd = invalidSocket then w' else w'.shutdown state.id state.fd)
  | _ => none

-- The destructor of the lease.
def release : Option ConnectionWorkers :=
  if (w.connections client).thread = .request .leased ∧ w.mutex = none then
    some { w.setThread client (.request .over) with registry := w.registry.release client }
  else
    none

-- The handler returns or throws.
def leave : Option ConnectionWorkers :=
  let thread := (w.connections client).thread
  if thread = .request .running ∨ thread = .request .over then
    some (w.setThread client .returned)
  else
    none

def closeSocket : Option ConnectionWorkers :=
  let connection := w.connections client
  if connection.thread = .returned ∧ !w.holdsSocketsMutex then
    some (w.put client { connection with
      closes := if connection.socket = invalidSocket then connection.closes else connection.closes + 1
      socket := invalidSocket
      thread := .closed })
  else
    none

def finish : Option ConnectionWorkers :=
  let connection := w.connections client
  if connection.thread = .closed then
    some (w.put client { connection with done := true, thread := .finished })
  else
    none

def threadStep (event : ThreadEvent) : Option ConnectionWorkers :=
  match event with
  | .reserve sid generation fault => w.reserve client sid generation fault
  | .clean => w.clean client
  | .cleanNext markThrows => w.cleanNext client markThrows
  | .release => w.release client
  | .leave => w.leave client
  | .closeSocket => w.closeSocket client
  | .finish => w.finish client

end Thread

def step (event : ServerEvent) : Option ConnectionWorkers :=
  match event with
  | .accept fd => w.accept fd
  | .configure configured => w.configure configured
  | .reap => w.reap
  | .reapNext => w.reapNext
  | .enlist allocated => w.enlist allocated
  | .createThread started => w.createThread started
  | .destroy => w.destroy
  | .shutdownNext => w.shutdownNext
  | .joinNext => w.joinNext
  | .thread client event => w.threadStep client event

end ConnectionWorkers

theorem SessionRegistry.foldl_cancel (states : List State) (r : SessionRegistry)
    : (states.foldl (fun r state => if state.cancelled then r else r.cancel state.id) r).states
        = r.states.map fun state =>
            { state with cancelled := state.cancelled
                || (states.any fun other => !other.cancelled && other.id == state.id) } := by
  induction states generalizing r with
  | nil => simp
  | cons state states ih =>
    rw [List.foldl_cons, ih]
    split
    . next h => simp [h]
    . next h =>
      unfold cancel
      rw [List.map_map]
      apply List.map_congr_left
      intro other _
      by_cases hid : other.id = state.id
      . simp [hid, h]
      . have hne : (state.id == other.id) = false := by simp [Ne.symm hid]
        simp [hid, h, hne]

/--
The loop of `clean`, state by state, does what the whole critical section does.
-/
theorem SessionRegistry.clean_states_eq (r : SessionRegistry)
    : (r.nextGeneration.states.foldl
        (fun r state => if state.cancelled then r else r.cancel state.id) r.nextGeneration).states
      = r.clean.1.states := by
  rw [foldl_cancel, clean_states, nextGeneration_states]
  apply List.map_congr_left
  intro state hmem
  cases hcancelled : state.cancelled with
  | true => simp
  | false =>
    have : (r.states.any fun other => !other.cancelled && other.id == state.id) = true :=
      List.any_eq_true.mpr ⟨state, hmem, by simp [hcancelled]⟩
    simp [this]

end HikBridge
