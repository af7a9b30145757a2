import HikBridge.Http.Interruption
import HikBridge.Http.SocketLifetime
import HikBridge.Video.SdkBalance

/-!
This module contains `run_server` with the SDK: the scope in which the threads of the connections run
their handlers, and that it is left, with `NET_DVR_Cleanup`, after all of them.
-/

namespace HikBridge

namespace ConnectionWorkers

variable {w w' : ConnectionWorkers} {client : Nat}

-- The connections whose threads the destructor has still to wait for.
def pending (w : ConnectionWorkers) : List Nat :=
  match w.main with
  | .creating _ => w.workers.dropLast
  | .joining rest => rest
  | .destroyed => []
  | _ => w.workers

structure Joinable (w : ConnectionWorkers) : Prop where
  unknown : ∀ c, w.accepted ≤ c → (w.connections c).thread = .notStarted
  waiting : ∀ c, w.main.inHand c = true → w.Waiting c
  pending : ∀ c, w.Active c → c ∈ w.pending
  creating : ∀ c, w.main = .creating c → c ∈ w.workers
  done : ∀ c, (w.connections c).done = true → (w.connections c).thread = .finished

theorem joinable_create (maximum : Nat) (maxSessions : Int32) (now : Int)
    : Joinable (create maximum maxSessions now) := by
  constructor
  . exact fun _ _ => rfl
  . intro c hc
    contradiction
  . intro c hc
    exact absurd rfl hc.1
  . intro c hc
    contradiction
  . intro c hc
    contradiction

-- The handler has returned or thrown.
def ThreadPc.isOver (thread : ThreadPc) : Bool :=
  match thread with
  | .returned | .closed | .finished => true
  | _ => false

structure ThreadMoves (w : ConnectionWorkers) (client : Nat) (event : ThreadEvent)
    (w' : ConnectionWorkers) : Prop where
  active : w.Active client
  others : ∀ c, c ≠ client → w'.connections c = w.connections c
  started : (w'.connections client).thread ≠ .notStarted
  left : ThreadPc.isOver (w'.connections client).thread = true →
    event = .leave ∨ ThreadPc.isOver (w.connections client).thread = true
  done : (w'.connections client).done = true →
    (w'.connections client).thread = .finished ∨ (w.connections client).done = true
  workers : w'.workers = w.workers
  main : w'.main = w.main
  accepted : w'.accepted = w.accepted

theorem threadMoves_put {event : ThreadEvent} {k : Connection} {registry : SessionRegistry}
    {mutex : Option Nat} {shutdowns : List (Int × Connection)} (hactive : w.Active client)
    (hstarted : k.thread ≠ .notStarted)
    (hover : ThreadPc.isOver k.thread = true →
      event = .leave ∨ ThreadPc.isOver (w.connections client).thread = true)
    (hdone : k.done = true → k.thread = .finished ∨ (w.connections client).done = true)
    : w.ThreadMoves client event { w.put client k with registry, mutex, shutdowns } := by
  have hself : (w.put client k).connections client = k := by simp
  constructor
  . exact hactive
  . intro c hc
    show (w.put client k).connections c = _
    simp [hc]
  . show ((w.put client k).connections client).thread ≠ _
    rw [hself]
    exact hstarted
  . show ThreadPc.isOver ((w.put client k).connections client).thread = true → _
    rw [hself]
    exact hover
  . show ((w.put client k).connections client).done = true →
      ((w.put client k).connections client).thread = _ ∨ _
    rw [hself]
    exact hdone
  . rfl
  . rfl
  . rfl

theorem threadMoves_setThread {event : ThreadEvent} {thread : ThreadPc} {registry : SessionRegistry}
    {mutex : Option Nat} {shutdowns : List (Int × Connection)} {pc : RequestPc}
    (hpc : (w.connections client).thread = .request pc)
    (hthread : (∃ pc, thread = .request pc) ∨ (event = .leave ∧ thread = .returned))
    : w.ThreadMoves client event { w.setThread client thread with registry, mutex, shutdowns } := by
  have hactive : w.Active client := by simp [Active, hpc]
  apply threadMoves_put (k := { w.connections client with thread }) hactive
  . rcases hthread with ⟨_, rfl⟩ | ⟨_, rfl⟩ <;> simp
  . rcases hthread with ⟨_, rfl⟩ | ⟨hleave, _⟩
    . simp [ThreadPc.isOver]
    . exact fun _ => .inl hleave
  . exact .inr

theorem threadMoves {event : ThreadEvent} (hstep : w.threadStep client event = some w')
    : w.ThreadMoves client event w' := by
  cases event with
  | reserve sid generation fault =>
    unfold threadStep ConnectionWorkers.reserve at hstep
    dsimp only at hstep
    split at hstep
    . next hthread =>
      split at hstep
      . cases hstep
        exact threadMoves_setThread hthread.1 (.inl ⟨_, rfl⟩)
      . cases hstep
        exact threadMoves_setThread hthread.1 (.inl ⟨_, rfl⟩)
    . contradiction
  | clean =>
    unfold threadStep ConnectionWorkers.clean at hstep
    dsimp only at hstep
    split at hstep
    . next hthread =>
      cases hstep
      exact threadMoves_setThread hthread.1 (.inl ⟨_, rfl⟩)
    . contradiction
  | cleanNext markThrows =>
    unfold threadStep ConnectionWorkers.cleanNext at hstep
    dsimp only at hstep
    split at hstep
    . next hthread =>
      cases hstep
      exact threadMoves_setThread hthread (.inl ⟨_, rfl⟩)
    . next state rest hthread =>
      split at hstep
      . cases hstep
        exact threadMoves_setThread hthread (.inl ⟨_, rfl⟩)
      . split at hstep
        . cases hstep
          exact threadMoves_setThread hthread (.inl ⟨_, rfl⟩)
        . cases hstep
          split
          . exact threadMoves_setThread hthread (.inl ⟨_, rfl⟩)
          . exact threadMoves_setThread hthread (.inl ⟨_, rfl⟩)
    . contradiction
  | release =>
    unfold threadStep ConnectionWorkers.release at hstep
    dsimp only at hstep
    split at hstep
    . next hthread =>
      cases hstep
      exact threadMoves_setThread hthread.1 (.inl ⟨_, rfl⟩)
    . contradiction
  | leave =>
    unfold threadStep ConnectionWorkers.leave at hstep
    dsimp only at hstep
    split at hstep
    . next hthread =>
      cases hstep
      rcases hthread with hthread | hthread
      . exact threadMoves_setThread hthread (.inr ⟨rfl, rfl⟩)
      . exact threadMoves_setThread hthread (.inr ⟨rfl, rfl⟩)
    . contradiction
  | closeSocket =>
    unfold threadStep ConnectionWorkers.closeSocket at hstep
    dsimp only at hstep
    split at hstep
    . next hthread =>
      cases hstep
      apply threadMoves_put
      . simp [Active, hthread.1]
      . simp
      . simp [hthread.1, ThreadPc.isOver]
      . exact .inr
    . contradiction
  | finish =>
    unfold threadStep ConnectionWorkers.finish at hstep
    dsimp only at hstep
    split at hstep
    . next hthread =>
      cases hstep
      apply threadMoves_put
      . simp [Active, hthread]
      . simp
      . simp [hthread, ThreadPc.isOver]
      . exact fun _ => .inl rfl
    . contradiction

theorem ThreadMoves.active_of {event : ThreadEvent} (h : w.ThreadMoves client event w') {c : Nat}
    (hc : w'.Active c) : w.Active c := by
  by_cases heq : c = client
  . exact heq ▸ h.active
  . unfold Active at hc ⊢
    rw [← h.others c heq]
    exact hc

theorem ThreadMoves.notStarted {event : ThreadEvent} (h : w.ThreadMoves client event w') {c : Nat}
    (hc : (w.connections c).thread = .notStarted) : (w'.connections c).thread = .notStarted := by
  have hne : c ≠ client := by
    intro heq
    exact h.active.1 (heq ▸ hc)
  rw [h.others c hne]
  exact hc

theorem Joinable.thread {event : ThreadEvent} (hw : Joinable w) (h : w.ThreadMoves client event w')
    : Joinable w' := by
  have hpending : w'.pending = w.pending := by
    unfold ConnectionWorkers.pending
    rw [h.main, h.workers]
  constructor
  . intro c hc
    rw [h.accepted] at hc
    exact h.notStarted (hw.unknown c hc)
  . intro c hc
    rw [h.main] at hc
    obtain ⟨hknown, hthread⟩ := hw.waiting c hc
    exact ⟨by rw [h.accepted]; exact hknown, h.notStarted hthread⟩
  . intro c hc
    rw [hpending]
    exact hw.pending c (h.active_of hc)
  . intro c hc
    rw [h.main] at hc
    rw [h.workers]
    exact hw.creating c hc
  . intro c hc
    by_cases heq : c = client
    . rw [heq] at hc ⊢
      rcases h.done hc with hfinished | hdone
      . exact hfinished
      . exact absurd (hw.done client hdone) h.active.2
    . rw [h.others c heq] at hc ⊢
      exact hw.done c hc

structure MainMoves (w w' : ConnectionWorkers) : Prop where
  started : ∀ c, (w'.connections c).thread = .notStarted → (w.connections c).thread = .notStarted
  left : ∀ c, ThreadPc.isOver (w'.connections c).thread = true →
    ThreadPc.isOver (w.connections c).thread = true

-- The step looks at no thread.
structure Apart (w w' : ConnectionWorkers) : Prop where
  thread : ∀ c, (w'.connections c).thread = (w.connections c).thread
  done : ∀ c, (w'.connections c).done = (w.connections c).done
  accepted : w'.accepted = w.accepted

theorem Apart.moves (h : w.Apart w') : w.MainMoves w' := by
  constructor
  . intro c hc
    rw [← h.thread c]
    exact hc
  . intro c hc
    rw [← h.thread c]
    exact hc

theorem apart_of_eq (hconnections : w'.connections = w.connections) (haccepted : w'.accepted = w.accepted)
    : w.Apart w' :=
  ⟨fun _ => by rw [hconnections], fun _ => by rw [hconnections], haccepted⟩

theorem apart_put {k : Connection} (hconnections : w'.connections = Function.update w.connections client k)
    (hthread : k.thread = (w.connections client).thread) (hdone : k.done = (w.connections client).done)
    (haccepted : w'.accepted = w.accepted) : w.Apart w' := by
  refine ⟨?_, ?_, haccepted⟩
  . intro c
    rw [hconnections, Function.update_apply]
    split
    . next hc => rw [hthread, hc]
    . rfl
  . intro c
    rw [hconnections, Function.update_apply]
    split
    . next hc => rw [hdone, hc]
    . rfl

theorem Joinable.advance (hw : Joinable w) (h : w.Apart w')
    (hhand : ∀ c, w'.main.inHand c = true → w.main.inHand c = true)
    (hpending : ∀ c, w.Active c → c ∈ w.pending → c ∈ w'.pending)
    (hcreating : ∀ c, w'.main = .creating c → c ∈ w'.workers) : Joinable w' ∧ w.MainMoves w' := by
  refine ⟨?_, h.moves⟩
  constructor
  . intro c hc
    rw [h.accepted] at hc
    rw [h.thread]
    exact hw.unknown c hc
  . intro c hc
    obtain ⟨hknown, hthread⟩ := hw.waiting c (hhand c hc)
    exact ⟨by rw [h.accepted]; exact hknown, by rw [h.thread]; exact hthread⟩
  . intro c hc
    have hactive : w.Active c := by
      unfold Active at hc ⊢
      rw [← h.thread c]
      exact hc
    exact hpending c hactive (hw.pending c hactive)
  . exact hcreating
  . intro c hc
    rw [h.thread]
    rw [h.done] at hc
    exact hw.done c hc

theorem Joinable.accept (hw : Joinable w) {fd : Int} (hstep : w.accept fd = some w')
    : Joinable w' ∧ w.MainMoves w' := by
  unfold ConnectionWorkers.accept at hstep
  split at hstep
  . next hlooping =>
    cases hstep
    have hnew : ∀ c, (if c = w.accepted then ({ fd } : Connection) else w.connections c).thread
        = (w.connections c).thread := by
      intro c
      split
      . next hc => rw [hc, hw.unknown w.accepted (Nat.le_refl _)]
      . rfl
    have hthread : ∀ c, ((w.put w.accepted { fd }).connections c).thread = (w.connections c).thread := by
      intro c
      rw [put_connections]
      exact hnew c
    refine ⟨?_, ?_, ?_⟩
    . constructor
      . intro c hc
        have hlt : w.accepted + 1 ≤ c := hc
        exact (hthread c).trans (hw.unknown c (by omega))
      . intro c hc
        have heq : w.accepted = c := by simpa [MainPc.inHand] using hc
        rw [← heq]
        exact ⟨Nat.lt_succ_self _, (hthread _).trans (hw.unknown _ (Nat.le_refl _))⟩
      . intro c hc
        have hactive : w.Active c := by
          unfold Active at hc ⊢
          rw [← hthread c]
          exact hc
        have hmem := hw.pending c hactive
        unfold ConnectionWorkers.pending at hmem
        rw [hlooping.1] at hmem
        exact hmem
      . intro c hc
        contradiction
      . intro c hc
        have hdone : ((w.put w.accepted { fd }).connections c).done = true := hc
        rw [put_connections] at hdone
        split at hdone
        . contradiction
        . exact (hthread c).trans (hw.done c hdone)
    . exact fun c hc => (hthread c).symm.trans hc
    . intro c hc
      rw [← hthread c]
      exact hc
  . contradiction

theorem Joinable.configure (hw : Joinable w) {configured : Bool}
    (hstep : w.configure configured = some w') : Joinable w' ∧ w.MainMoves w' := by
  unfold ConnectionWorkers.configure at hstep
  split at hstep
  . next client hmain =>
    split at hstep
    . cases hstep
      apply hw.advance
      . exact apart_of_eq rfl rfl
      . simp [hmain, MainPc.inHand]
      . simp [ConnectionWorkers.pending, hmain]
      . simp
    . cases hstep
      apply hw.advance
      . exact apart_put rfl rfl rfl rfl
      . simp [MainPc.inHand]
      . simp [ConnectionWorkers.pending, hmain, closeClient, put]
      . simp
  . contradiction

theorem Joinable.reap (hw : Joinable w) (hstep : w.reap = some w') : Joinable w' ∧ w.MainMoves w' := by
  unfold ConnectionWorkers.reap at hstep
  split at hstep
  . next hmain =>
    cases hstep
    apply hw.advance
    . exact apart_of_eq rfl rfl
    . simp [MainPc.inHand]
    . simp [ConnectionWorkers.pending, hmain]
    . simp
  . contradiction

theorem Joinable.reapNext (hw : Joinable w) (hstep : w.reapNext = some w')
    : Joinable w' ∧ w.MainMoves w' := by
  unfold ConnectionWorkers.reapNext at hstep
  split at hstep
  . next client worker rest hmain =>
    split at hstep
    . next hdone =>
      cases hstep
      apply hw.advance
      . exact apart_of_eq rfl rfl
      . simp [hmain, MainPc.inHand]
      . intro c hactive hc
        have hne : c ≠ worker := by
          intro heq
          exact hactive.2 (hw.done c (heq ▸ hdone))
        simp only [ConnectionWorkers.pending, hmain] at hc
        exact (List.mem_erase_of_ne hne).mpr hc
      . simp
    . cases hstep
      apply hw.advance
      . exact apart_of_eq rfl rfl
      . simp [hmain, MainPc.inHand]
      . simp [ConnectionWorkers.pending, hmain]
      . simp
  . next client hmain =>
    cases hstep
    apply hw.advance
    . exact apart_of_eq rfl rfl
    . simp [hmain, MainPc.inHand]
    . simp [ConnectionWorkers.pending, hmain]
    . simp
  . next hmain =>
    cases hstep
    apply hw.advance
    . exact apart_of_eq rfl rfl
    . simp [MainPc.inHand]
    . simp [ConnectionWorkers.pending, hmain]
    . simp
  . contradiction

theorem Joinable.enlist (hw : Joinable w) {allocated : Bool} (hstep : w.enlist allocated = some w')
    : Joinable w' ∧ w.MainMoves w' := by
  unfold ConnectionWorkers.enlist at hstep
  split at hstep
  . next client hmain =>
    have hrefused : Joinable { w.closeClient client with main := .looping }
        ∧ w.MainMoves { w.closeClient client with main := .looping } := by
      apply hw.advance
      . exact apart_put rfl rfl rfl rfl
      . simp [MainPc.inHand]
      . simp [ConnectionWorkers.pending, hmain, closeClient, put]
      . simp
    dsimp only at hstep
    split at hstep
    . cases hstep
      exact hrefused
    split at hstep
    . cases hstep
      exact hrefused
    . cases hstep
      apply hw.advance
      . exact apart_put rfl rfl rfl rfl
      . simp [hmain, MainPc.inHand]
      . simp [ConnectionWorkers.pending, hmain]
      . intro c hc
        cases hc
        simp
  . contradiction

theorem Joinable.createThread (hw : Joinable w) {started : Bool}
    (hstep : w.createThread started = some w') : Joinable w' ∧ w.MainMoves w' := by
  unfold ConnectionWorkers.createThread at hstep
  split at hstep
  . next client hmain =>
    split at hstep
    . cases hstep
      have hwaiting : w.Waiting client := by
        apply hw.waiting
        simp [hmain, MainPc.inHand]
      have hconnection : ∀ c, (w.setThread client (.request .running)).connections c
          = if c = client then { w.connections client with thread := .request .running }
            else w.connections c := by
        intro c
        unfold setThread
        rw [put_connections]
      refine ⟨?_, ?_, ?_⟩
      . constructor
        . intro c hc
          have hlt : w.accepted ≤ c := hc
          have hne : c ≠ client := by
            have := hwaiting.1
            omega
          show ((w.setThread client _).connections c).thread = _
          rw [hconnection, if_neg hne]
          exact hw.unknown c hlt
        . intro c hc
          contradiction
        . intro c hc
          show c ∈ w.workers
          by_cases heq : c = client
          . rw [heq]
            exact hw.creating client hmain
          . have hactive : w.Active c := by
              unfold Active at hc ⊢
              have hsame : (w.setThread client (.request .running)).connections c = w.connections c := by
                rw [hconnection, if_neg heq]
              rw [← hsame]
              exact hc
            have hmem := hw.pending c hactive
            unfold ConnectionWorkers.pending at hmem
            rw [hmain] at hmem
            exact List.dropLast_subset _ hmem
        . intro c hc
          contradiction
        . intro c hc
          have hdone : ((w.setThread client (.request .running)).connections c).done = true := hc
          show ((w.setThread client _).connections c).thread = _
          rw [hconnection] at hdone ⊢
          split at hdone
          . next heq =>
            have hfinished := hw.done client hdone
            rw [hwaiting.2] at hfinished
            contradiction
          . next heq =>
            rw [if_neg heq]
            exact hw.done c hdone
      . intro c hc
        have hthread : ((w.setThread client (.request .running)).connections c).thread = .notStarted := hc
        rw [hconnection] at hthread
        split at hthread
        . contradiction
        . exact hthread
      . intro c hc
        have hover : ThreadPc.isOver
            ((w.setThread client (.request .running)).connections c).thread = true := hc
        rw [hconnection] at hover
        split at hover
        . contradiction
        . exact hover
    . cases hstep
      apply hw.advance
      . exact apart_put rfl rfl rfl rfl
      . simp [MainPc.inHand]
      . simp [ConnectionWorkers.pending, hmain]
      . simp
  . contradiction

theorem Joinable.destroy (hw : Joinable w) (hstep : w.destroy = some w')
    : Joinable w' ∧ w.MainMoves w' := by
  unfold ConnectionWorkers.destroy at hstep
  split at hstep
  . next hmain =>
    cases hstep
    apply hw.advance
    . exact apart_of_eq rfl rfl
    . simp [MainPc.inHand]
    . simp [ConnectionWorkers.pending, hmain]
    . simp
  . contradiction

theorem Joinable.shutdownNext (hw : Joinable w) (hstep : w.shutdownNext = some w')
    : Joinable w' ∧ w.MainMoves w' := by
  unfold ConnectionWorkers.shutdownNext at hstep
  split at hstep
  . next worker rest hmain =>
    dsimp only at hstep
    split at hstep
    . cases hstep
      apply hw.advance
      . exact apart_of_eq rfl rfl
      . simp [MainPc.inHand]
      . simp [ConnectionWorkers.pending, hmain]
      . simp
    . cases hstep
      apply hw.advance
      . exact apart_of_eq rfl rfl
      . simp [MainPc.inHand, ConnectionWorkers.shutdown]
      . simp [ConnectionWorkers.pending, hmain, ConnectionWorkers.shutdown]
      . simp [ConnectionWorkers.shutdown]
  . next hmain =>
    cases hstep
    apply hw.advance
    . exact apart_of_eq rfl rfl
    . simp [MainPc.inHand]
    . simp [ConnectionWorkers.pending, hmain]
    . simp
  . contradiction

theorem Joinable.joinNext (hw : Joinable w) (hstep : w.joinNext = some w')
    : Joinable w' ∧ w.MainMoves w' := by
  unfold ConnectionWorkers.joinNext at hstep
  split at hstep
  . next worker rest hmain =>
    dsimp only at hstep
    split at hstep
    . next hthread =>
      cases hstep
      apply hw.advance
      . exact apart_of_eq rfl rfl
      . simp [MainPc.inHand]
      . intro c hactive hc
        simp only [ConnectionWorkers.pending, hmain, List.mem_cons] at hc
        rcases hc with heq | hc
        . rw [heq] at hactive
          rcases hthread with hthread | hthread
          . exact absurd hthread hactive.2
          . exact absurd hthread hactive.1
        . exact hc
      . simp
    . contradiction
  . next hmain =>
    cases hstep
    apply hw.advance
    . exact apart_of_eq rfl rfl
    . simp [MainPc.inHand]
    . simp [ConnectionWorkers.pending, hmain]
    . simp
  . contradiction

-- Steps of the thread of `run_server`, as opposed to those of the threads of the connections.
theorem Joinable.main {event : ServerEvent} (hw : Joinable w)
    (hevent : ∀ client event', event ≠ .thread client event') (hstep : w.step event = some w')
    : Joinable w' ∧ w.MainMoves w' := by
  cases event with
  | accept fd => exact hw.accept hstep
  | configure configured => exact hw.configure hstep
  | reap => exact hw.reap hstep
  | reapNext => exact hw.reapNext hstep
  | enlist allocated => exact hw.enlist hstep
  | createThread started => exact hw.createThread hstep
  | destroy => exact hw.destroy hstep
  | shutdownNext => exact hw.shutdownNext hstep
  | joinNext => exact hw.joinNext hstep
  | thread client event => exact absurd rfl (hevent client event)

theorem Joinable.not_active (hw : Joinable w) (hmain : w.main = .destroyed) : ¬ w.Active client := by
  intro hactive
  have hmem := hw.pending client hactive
  unfold ConnectionWorkers.pending at hmem
  rw [hmain] at hmem
  contradiction

end ConnectionWorkers

namespace Exchange

open SdkCall (Balanced Releasable)

variable {c : Server} {request : HttpRequest} {n : Nat} {α : Type}

-- No `/video` request was handled yet.
def BeforeVideo (e : Exchange) : Prop := World.Fresh e.world ∧ e.world.heap = {}

def SdkBalanced (n : Nat) (e : Exchange) : Prop := Balanced (e.world.heap.sdkOf n)

theorem BeforeVideo.balanced {e : Exchange} (h : BeforeVideo e) : SdkBalanced n e := by
  unfold SdkBalanced
  rw [h.2]
  exact .inl (.inl rfl)

def Balances (n : Nat) (P : Exchange → Prop) (m : Program Exchange Tick Exn α) : Prop :=
  Program.Triple P m (fun _ => SdkBalanced n) (fun _ => SdkBalanced n)
    fun e => Releasable (e.world.heap.sdkOf n)

theorem balances_of_keeps {P : Exchange → Prop} {m : Program Exchange Tick Exn α}
    (hP : ∀ e, P e → SdkBalanced n e) (hm : Program.Keeps P m) : Balances n P m := by
  apply hm.conseq
  . exact fun _ he => he
  . exact fun _ => hP
  . exact fun _ => hP
  . exact fun e he => SdkCall.Balanced.releasable (hP e he)

theorem balances_bind {β : Type} {P : Exchange → Prop} {m : Program Exchange Tick Exn β}
    {f : β → Program Exchange Tick Exn α} (hP : ∀ e, P e → SdkBalanced n e) (hm : Program.Keeps P m)
    (hf : ∀ b, Balances n P (f b)) : Balances n P (m >>= f) := by
  apply Program.triple_bind (R := fun _ => P) _ hf
  apply hm.conseq
  . exact fun _ he => he
  . exact fun _ _ he => he
  . exact fun _ => hP
  . exact fun e he => SdkCall.Balanced.releasable (hP e he)

theorem keeps_sendAnswer {P : Exchange → Prop} {answer : Answer}
    (hP : ∀ (e : Exchange) answers env wire,
      P e → P { e with answers, world := { e.world with env, wire } })
    : Program.Keeps P (sendAnswer c answer) := by
  apply Program.keeps_bind
  . apply Program.keeps_update
    intro e he
    exact hP e _ e.world.env e.world.wire he
  . intro _ e ts he
    show Program.Ends _ _ _ (Program.zoom worldPart (Program.zoom World.clientPart
      (Client.sendText c.setting answer.text)) e ts)
    unfold Program.zoom
    rcases Client.sendText c.setting answer.text (World.clientPart.get (worldPart.get e)) ts
      with ⟨_ | _ | _, client, us⟩
    all_goals exact hP e e.answers client.env client.wire he

theorem beforeVideo_env {e : Exchange} (env : Env) (he : BeforeVideo e)
    : BeforeVideo { e with world := { e.world with env } } :=
  ⟨⟨he.1.1, he.1.2, he.1.3, he.1.4, he.1.5⟩, he.2⟩

theorem keeps_external : Program.Keeps BeforeVideo (onEnv external) :=
  keeps_onEnv fun env _ he => beforeVideo_env env he

theorem keeps_beforeVideo_sendAnswer {answer : Answer}
    : Program.Keeps BeforeVideo (sendAnswer c answer) := by
  apply keeps_sendAnswer
  intro e answers env wire he
  exact ⟨⟨he.1.1, he.1.2, he.1.3, he.1.4, he.1.5⟩, he.2⟩

theorem keeps_requiredSid : Program.Keeps BeforeVideo (requiredSid request) := by
  unfold requiredSid
  split
  . exact Program.keeps_raise
  . exact Program.keeps_raise
  . exact Program.keeps_pure

theorem keeps_elapsedMs : Program.Keeps BeforeVideo (elapsedMs request) := by
  unfold elapsedMs
  split
  . exact Program.keeps_pure
  . split
    . exact Program.keeps_raise
    . exact Program.keeps_ite Program.keeps_raise Program.keeps_pure

theorem keeps_cleanSessions : Program.Keeps BeforeVideo (cleanSessions c request) := by
  apply Program.keeps_ite keeps_beforeVideo_sendAnswer
  iterate 3 apply Program.keeps_ite Program.keeps_raise
  apply Program.keeps_bind keeps_external
  intro _
  exact keeps_beforeVideo_sendAnswer

theorem keeps_sessionStatus : Program.Keeps BeforeVideo (sessionStatus c request) := by
  apply Program.keeps_bind keeps_requiredSid
  intro sid
  apply Program.keeps_bind keeps_external
  intro _
  split
  . exact keeps_beforeVideo_sendAnswer
  . exact keeps_beforeVideo_sendAnswer

theorem keeps_sessionRendered : Program.Keeps BeforeVideo (sessionRendered c request) := by
  apply Program.keeps_bind keeps_requiredSid
  intro sid
  apply Program.keeps_bind keeps_elapsedMs
  intro elapsed
  apply Program.keeps_bind keeps_external
  intro _
  split
  . exact keeps_beforeVideo_sendAnswer
  . apply Program.keeps_bind (keeps_onEnv fun env _ he => beforeVideo_env env he)
    intro _
    exact keeps_beforeVideo_sendAnswer

theorem balances_video : Balances n BeforeVideo (video c request) := by
  have hbefore : ∀ e, BeforeVideo e → SdkBalanced n e := fun _ he => he.balanced
  unfold video
  split
  . exact balances_of_keeps hbefore Program.keeps_raise
  . next stream _ =>
    apply balances_bind hbefore
    . apply Program.keeps_update
      exact fun _ he => he
    intro _
    apply balances_bind hbefore (keeps_onEnv fun env _ he => beforeVideo_env env he)
    intro _
    apply (Program.triple_zoom (p := worldPart) (F := fun _ => True)
      (World.triple_handleVideo_sdk (v := { c.setting with request := stream }) n) fun _ _ he => he).conseq
    . exact fun _ he => ⟨he, trivial⟩
    . exact fun _ _ he => he.1
    . exact fun _ _ he => he.1
    . exact fun _ he => he.1

theorem balances_ite {φ : Prop} [Decidable φ] {P : Exchange → Prop} {m k : Program Exchange Tick Exn α}
    (hP : ∀ e, P e → SdkBalanced n e) (hm : Program.Keeps P m) (hk : Balances n P k)
    : Balances n P (if φ then m else k) :=
  Program.triple_ite (fun _ => balances_of_keeps hP hm) fun _ => hk

theorem balances_respond : Balances n BeforeVideo (respond c request) := by
  have hbefore : ∀ e, BeforeVideo e → SdkBalanced n e := fun _ he => he.balanced
  apply balances_bind hbefore keeps_external
  intro _
  apply balances_ite hbefore keeps_cleanSessions
  apply balances_ite hbefore keeps_beforeVideo_sendAnswer
  apply balances_ite hbefore Program.keeps_raise
  apply balances_ite hbefore
  . apply Program.keeps_bind keeps_external
    intro _
    exact keeps_beforeVideo_sendAnswer
  apply balances_ite hbefore keeps_beforeVideo_sendAnswer
  apply balances_ite hbefore keeps_sessionStatus
  apply balances_ite hbefore keeps_sessionRendered
  apply balances_ite hbefore Program.keeps_raise
  exact balances_video

theorem keeps_answerException {exn : Exn} : Program.Keeps (SdkBalanced n) (answerException c exn) := by
  have honce : ∀ answer, Program.Keeps (SdkBalanced n) (answerOnce c answer) := by
    intro answer
    apply Program.keeps_bind Program.keeps_inspect
    intro e
    apply Program.keeps_ite Program.keeps_pure
    apply Program.keeps_rescue _ fun _ => Program.keeps_pure
    exact keeps_sendAnswer fun _ _ _ _ he => he
  apply Program.keeps_bind (keeps_onEnv fun _ _ he => he)
  intro _
  cases exn with
  | clientDisconnected => exact Program.keeps_pure
  | bridge error => exact honce _
  | other => exact honce _

theorem balances_handleConnection : Balances n BeforeVideo (handleConnection c request) := by
  apply Program.triple_rescue balances_respond
  intro exn
  exact balances_of_keeps (fun _ he => he) keeps_answerException

theorem beforeVideo_empty : BeforeVideo {} := ⟨World.fresh_empty, rfl⟩

end Exchange

-- `run_server` before `workers` is constructed, with it, and behind the destructor of `sdk`.
inductive ServerScope where
  | starting
  | serving
  | cleanedUp
  deriving DecidableEq

inductive RunServerEvent where
  | construct
  | fail
  | server (event : ServerEvent)
  | answer (client : Nat) (tick : Tick)
  | cleanup

/--
`run_server` after `NET_DVR_Init`, with what the handler of every connection was answered so far.
-/
structure RunServer where
  workers : ConnectionWorkers
  scope : ServerScope := .starting
  answers : Nat → List Tick := fun _ => []

namespace RunServer

def create (maximum : Nat) (maxSessions : Int32) (now : Int) : RunServer :=
  { workers := ConnectionWorkers.create maximum maxSessions now }

section

variable (c : Nat → Server) (request : Nat → HttpRequest) (r : RunServer)

-- The handler of a connection, as far as it was answered.
def handler (client : Nat) : Outcome Exn Unit × Exchange :=
  let (outcome, e, _) := Exchange.handleConnection (c client) (request client) {} (r.answers client)
  (outcome, e)

def isHandling (client : Nat) : Bool :=
  match (r.handler c request client).1 with
  | .cut => true
  | _ => false

def serverStep (event : ServerEvent) : Option RunServer := do
  let workers ← r.workers.step event
  pure { r with workers }

def answer (client : Nat) (tick : Tick) : Option RunServer :=
  match (r.workers.connections client).thread with
  | .request _ =>
    if r.isHandling c request client then
      some { r with answers := Function.update r.answers client (r.answers client ++ [tick]) }
    else
      none
  | _ => none

/--
The threads of the connections run wherever `run_server` stands. It is left by an exception before
`workers` exists, or when the destructor of `workers` has returned.
-/
def step (event : RunServerEvent) : Option RunServer :=
  match event with
  | .construct => if r.scope = .starting then some { r with scope := .serving } else none
  | .fail => if r.scope = .starting then some { r with scope := .cleanedUp } else none
  | .server (.thread client .leave) =>
    if r.isHandling c request client then none else r.serverStep (.thread client .leave)
  | .server (.thread client event) => r.serverStep (.thread client event)
  | .server event => if r.scope = .serving then r.serverStep event else none
  | .answer client tick => r.answer c request client tick
  | .cleanup =>
    if r.scope = .serving ∧ r.workers.main = .destroyed then
      some { r with scope := .cleanedUp }
    else
      none

end

open ConnectionWorkers (Joinable ThreadMoves MainMoves)

variable {c : Nat → Server} {request : Nat → HttpRequest} {r r' : RunServer}

structure Orderly (c : Nat → Server) (request : Nat → HttpRequest) (r : RunServer) : Prop where
  joinable : r.workers.Joinable
  outside : r.scope ≠ .serving → ∀ client, ¬ r.workers.Active client
  idle : ∀ client, (r.workers.connections client).thread = .notStarted → r.answers client = []
  ended : ∀ client, ConnectionWorkers.ThreadPc.isOver (r.workers.connections client).thread = true →
    r.isHandling c request client = false

theorem orderly_create (maximum : Nat) (maxSessions : Int32) (now : Int)
    : Orderly c request (create maximum maxSessions now) where
  joinable := ConnectionWorkers.joinable_create maximum maxSessions now
  outside _ _ h := h.1 rfl
  idle _ _ := rfl
  ended _ h := by cases h

theorem Orderly.thread (h : Orderly c request r) {client : Nat} {event : ThreadEvent}
    {workers : ConnectionWorkers} (hmoves : r.workers.ThreadMoves client event workers)
    (hleave : event = .leave → r.isHandling c request client = false)
    : Orderly c request { r with workers } := by
  constructor
  . exact h.joinable.thread hmoves
  . exact fun hscope other hactive => h.outside hscope other (hmoves.active_of hactive)
  . intro other hthread
    by_cases heq : other = client
    . exact absurd (heq ▸ hthread) hmoves.started
    . rw [hmoves.others other heq] at hthread
      exact h.idle other hthread
  . intro other hover
    by_cases heq : other = client
    . rw [heq] at hover ⊢
      rcases hmoves.left hover with hevent | hbefore
      . exact hleave hevent
      . exact h.ended client hbefore
    . rw [hmoves.others other heq] at hover
      exact h.ended other hover

theorem Orderly.main (h : Orderly c request r) {workers : ConnectionWorkers}
    (hscope : r.scope = .serving) (hjoinable : workers.Joinable) (hmoves : r.workers.MainMoves workers)
    : Orderly c request { r with workers } := by
  constructor
  . exact hjoinable
  . exact fun hother => absurd hscope hother
  . exact fun client hthread => h.idle client (hmoves.started client hthread)
  . exact fun client hover => h.ended client (hmoves.left client hover)

theorem Orderly.answer (h : Orderly c request r) {client : Nat} {tick : Tick}
    (hstep : r.answer c request client tick = some r') : Orderly c request r' := by
  unfold RunServer.answer at hstep
  split at hstep
  . next pc hthread =>
    split at hstep
    . cases hstep
      constructor
      . exact h.joinable
      . exact h.outside
      . intro other hother
        have hne : other ≠ client := by
          intro heq
          have hboth : (r.workers.connections client).thread = .notStarted := heq ▸ hother
          rw [hthread] at hboth
          contradiction
        show Function.update r.answers client _ other = []
        rw [Function.update_of_ne hne]
        exact h.idle other hother
      . intro other hover
        have hne : other ≠ client := by
          intro heq
          have hboth : ConnectionWorkers.ThreadPc.isOver (r.workers.connections client).thread = true :=
            heq ▸ hover
          rw [hthread] at hboth
          contradiction
        have hsame : Function.update r.answers client (r.answers client ++ [tick]) other
            = r.answers other := Function.update_of_ne hne _ _
        have hended := h.ended other hover
        unfold isHandling handler at hended ⊢
        dsimp only
        rw [hsame]
        exact hended
    . contradiction
  . contradiction

theorem serverStep_eq_some {event : ServerEvent} (hstep : r.serverStep event = some r')
    : ∃ workers, r.workers.step event = some workers ∧ r' = { r with workers } := by
  unfold serverStep at hstep
  cases hworkers : r.workers.step event with
  | none =>
    rw [hworkers] at hstep
    contradiction
  | some workers =>
    rw [hworkers] at hstep
    cases hstep
    exact ⟨workers, rfl, rfl⟩

theorem Orderly.serverThread (h : Orderly c request r) {client : Nat} {event : ThreadEvent}
    (hleave : event = .leave → r.isHandling c request client = false)
    (hstep : r.serverStep (.thread client event) = some r') : Orderly c request r' := by
  obtain ⟨workers, hworkers, rfl⟩ := serverStep_eq_some hstep
  exact h.thread (ConnectionWorkers.threadMoves hworkers) hleave

theorem Orderly.serverMain (h : Orderly c request r) {event : ServerEvent}
    (hevent : ∀ client event', event ≠ .thread client event')
    (hstep : (if r.scope = .serving then r.serverStep event else none) = some r')
    : Orderly c request r' := by
  split at hstep
  . next hscope =>
    obtain ⟨workers, hworkers, rfl⟩ := serverStep_eq_some hstep
    obtain ⟨hjoinable, hmoves⟩ := h.joinable.main hevent hworkers
    exact h.main hscope hjoinable hmoves
  . contradiction

theorem Orderly.cleanup (h : Orderly c request r) (hmain : r.workers.main = .destroyed)
    : Orderly c request { r with scope := .cleanedUp } :=
  ⟨h.joinable, fun _ _ => h.joinable.not_active hmain, h.idle, h.ended⟩

theorem Orderly.step (h : Orderly c request r) {event : RunServerEvent}
    (hstep : r.step c request event = some r') : Orderly c request r' := by
  cases event with
  | construct =>
    simp only [RunServer.step] at hstep
    split at hstep
    . next hscope =>
      cases hstep
      exact ⟨h.joinable, fun hother => absurd rfl hother, h.idle, h.ended⟩
    . contradiction
  | fail =>
    simp only [RunServer.step] at hstep
    split at hstep
    . next hscope =>
      cases hstep
      exact ⟨h.joinable, fun _ => h.outside (by simp [hscope]), h.idle, h.ended⟩
    . contradiction
  | server event =>
    cases event with
    | thread client event =>
      cases event with
      | leave =>
        simp only [RunServer.step] at hstep
        split at hstep
        . contradiction
        . next hended => exact h.serverThread (fun _ => by simpa using hended) hstep
      | reserve sid generation fault => exact h.serverThread (by simp) hstep
      | clean => exact h.serverThread (by simp) hstep
      | cleanNext markThrows => exact h.serverThread (by simp) hstep
      | release => exact h.serverThread (by simp) hstep
      | closeSocket => exact h.serverThread (by simp) hstep
      | finish => exact h.serverThread (by simp) hstep
    | accept fd => exact h.serverMain (by simp) hstep
    | configure configured => exact h.serverMain (by simp) hstep
    | reap => exact h.serverMain (by simp) hstep
    | reapNext => exact h.serverMain (by simp) hstep
    | enlist allocated => exact h.serverMain (by simp) hstep
    | createThread started => exact h.serverMain (by simp) hstep
    | destroy => exact h.serverMain (by simp) hstep
    | shutdownNext => exact h.serverMain (by simp) hstep
    | joinNext => exact h.serverMain (by simp) hstep
  | answer client tick => exact h.answer hstep
  | cleanup =>
    simp only [RunServer.step] at hstep
    split at hstep
    . next hscope =>
      cases hstep
      exact h.cleanup hscope.2
    . contradiction

-- The calls of the session `n` that the handler of a connection has made.
def sdkCalls (c : Nat → Server) (request : Nat → HttpRequest) (r : RunServer) (client n : Nat)
    : List SdkCall :=
  (r.handler c request client).2.world.heap.sdkOf n

open SdkCall (Balanced Releasable)

theorem ends_handler (c : Nat → Server) (request : Nat → HttpRequest) (r : RunServer) (client n : Nat)
    : Program.Ends (fun _ => Exchange.SdkBalanced n) (fun _ => Exchange.SdkBalanced n)
        (fun e => Releasable (e.world.heap.sdkOf n))
        (Exchange.handleConnection (c client) (request client) {} (r.answers client)) :=
  Exchange.balances_handleConnection {} (r.answers client) Exchange.beforeVideo_empty

theorem releasable_sdkCalls (client n : Nat) : Releasable (r.sdkCalls c request client n) := by
  have hends := ends_handler c request r client n
  unfold sdkCalls handler
  rcases hrun : Exchange.handleConnection (c client) (request client) {} (r.answers client)
    with ⟨_ | _ | _, e, rest⟩
  all_goals rw [hrun] at hends
  . exact SdkCall.Balanced.releasable hends
  . exact SdkCall.Balanced.releasable hends
  . exact hends

theorem balanced_sdkCalls {client : Nat} (hended : r.isHandling c request client = false) (n : Nat)
    : Balanced (r.sdkCalls c request client n) := by
  have hends := ends_handler c request r client n
  unfold isHandling handler at hended
  unfold sdkCalls handler
  rcases hrun : Exchange.handleConnection (c client) (request client) {} (r.answers client)
    with ⟨_ | _ | _, e, rest⟩
  all_goals rw [hrun] at hends hended
  . exact hends
  . exact hends
  . contradiction

theorem sdkCalls_idle {client : Nat} (hidle : r.answers client = []) (n : Nat)
    : r.sdkCalls c request client n = [] := by
  unfold sdkCalls handler
  rw [hidle]
  rfl

theorem Orderly.cleanedUp (h : Orderly c request r) (hscope : r.scope = .cleanedUp) (client : Nat)
    : (∀ n, Balanced (r.sdkCalls c request client n)) ∧
        ∀ tick, r.step c request (.answer client tick) = none := by
  have hinactive := h.outside (by simp [hscope]) client
  unfold ConnectionWorkers.Active at hinactive
  by_cases hstarted : (r.workers.connections client).thread = .notStarted
  . constructor
    . intro n
      rw [sdkCalls_idle (h.idle client hstarted) n]
      exact .inl (.inl rfl)
    . intro tick
      show r.answer c request client tick = none
      unfold RunServer.answer
      rw [hstarted]
  . have hfinished : (r.workers.connections client).thread = .finished := by
      by_contra hother
      exact hinactive ⟨hstarted, hother⟩
    constructor
    . apply balanced_sdkCalls
      apply h.ended client
      rw [hfinished]
      rfl
    . intro tick
      show r.answer c request client tick = none
      unfold RunServer.answer
      rw [hfinished]

/--
The balance of the SDK. At every point of every run of `handle_video` each session has called the SDK so
that all that it has acquired can still be released, and has released it when the run has ended. In
`run_server` `NET_DVR_Cleanup` finds every session of every connection released, and no handler runs on.
-/
theorem sdk_balance (v : Setting) (ticks : List Tick) (c : Nat → Server) (request : Nat → HttpRequest)
    (maximum : Nat) (maxSessions : Int32) (now : Int) (events : List RunServerEvent)
    (hrun : Machine.run (step c request) (create maximum maxSessions now) events = some r)
    : (∀ n, Releasable ((World.run v ticks).2.heap.sdkOf n) ∧
          ((World.run v ticks).1 ≠ .cut → Balanced ((World.run v ticks).2.heap.sdkOf n))) ∧
        ∀ client, (∀ n, Releasable (r.sdkCalls c request client n)) ∧
          (r.scope = .cleanedUp → (∀ n, Balanced (r.sdkCalls c request client n)) ∧
            ∀ tick, r.step c request (.answer client tick) = none) := by
  have horderly : Orderly c request r := by
    apply Machine.run_invariant (I := Orderly c request) _ (orderly_create maximum maxSessions now) hrun
    exact fun _ _ _ h hstep => h.step hstep
  constructor
  . intro n
    have hends := World.triple_handleVideo_sdk (v := v) n {} ticks ⟨World.fresh_empty, rfl⟩
    unfold World.run
    rcases hrun : World.handleVideo v {} ticks with ⟨_ | _ | _, w, rest⟩
    all_goals rw [hrun] at hends
    . exact ⟨SdkCall.Balanced.releasable hends, fun _ => hends⟩
    . exact ⟨SdkCall.Balanced.releasable hends, fun _ => hends⟩
    . exact ⟨hends, fun hcut => absurd rfl hcut⟩
  . intro client
    refine ⟨fun n => releasable_sdkCalls client n, ?_⟩
    exact fun hscope => horderly.cleanedUp hscope client

def playbackServer : Server :=
  { Exchange.versionServer with
    setting := { World.liveView with speedSteps := 2 }
    parseStreamRequest := fun _ => .ok { World.liveView.request with option := .Playback } }

def videoRequest : HttpRequest := { Exchange.versionRequest with path := Bytes.lit "/video" }

-- One client plays until the server stops, while the monitor of its session calls the SDK.
def playbackRun : List RunServerEvent :=
  let quiet : Tick := { number := 3 }
  let ticks := List.replicate 64 quiet
    ++ { quiet with shutdown := true, monitorCalls := 2 }
      :: List.replicate 16 { quiet with monitorCalls := 2 }
  [.construct, .server (.accept 5), .server (.configure true), .server .reapNext,
    .server (.enlist true), .server (.createThread true)] ++ ticks.map (.answer 0) ++
  [.server .destroy, .server (.thread 0 .leave), .server .shutdownNext, .server .shutdownNext,
    .server (.thread 0 .closeSocket), .server (.thread 0 .finish), .server .joinNext,
    .server .joinNext, .cleanup]

theorem sdk_balance_playbackRun
    : ∃ r, Machine.run (step (fun _ => playbackServer) fun _ => videoRequest) (create 2 4 0) playbackRun
          = some r ∧ r.scope = .cleanedUp ∧
        Balanced (r.sdkCalls (fun _ => playbackServer) (fun _ => videoRequest) 0 0) := by
  have hrun : (Machine.run (step (fun _ => playbackServer) fun _ => videoRequest) (create 2 4 0)
      playbackRun).map (·.scope) = some .cleanedUp := by decide +kernel
  obtain ⟨r, hrun, hscope⟩ := Option.map_eq_some_iff.mp hrun
  have hbalance := (sdk_balance World.liveView [] (fun _ => playbackServer) (fun _ => videoRequest) 2 4 0
    playbackRun hrun).2 0
  exact ⟨r, hrun, hscope, (hbalance.2 hscope).1 0⟩

end RunServer
end HikBridge
