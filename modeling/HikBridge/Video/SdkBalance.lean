import HikBridge.Video.SdkBooks
import HikBridge.Video.Runs

/-!
This module contains the balance of the SDK over the runs of `handle_video`: every session has released
what it acquired when the handler is left, and can still do so at every point before.
-/

namespace HikBridge

namespace Pipeline

open Heap (Books Gone)
open VideoSession (Accounted Usable)

variable {v : Setting} {n id : Nat} {α β : Type} {A : VideoSession → List SdkCall → Prop}
  {P : Heap → Prop} {s : Slot}

def Framed (P : Heap → Prop) : Prop :=
  ∀ h h' : Heap, h'.sessions = h.sessions → h'.sdk = h.sdk → h.fresh ≤ h'.fresh → P h → P h'

theorem framed_books : Framed (Books A n) :=
  fun _ _ hsessions hsdk hfresh hh => hh.frame hsessions hsdk hfresh

section Ffmpeg

variable (hP : Framed P)

include hP

theorem Framed.updateHeap {f : Heap → Heap} (hsessions : ∀ h, (f h).sessions = h.sessions)
    (hsdk : ∀ h, (f h).sdk = h.sdk) (hfresh : ∀ h, h.fresh ≤ (f h).fresh) : Stays P (updateHeap f) :=
  stays_updateHeap fun h hh => hP h (f h) (hsessions h) (hsdk h) (hfresh h) hh

theorem Framed.mapProcess {f : FfmpegProcess → FfmpegProcess}
    : Stays P (Pipeline.updateHeap fun h => h.mapProcess id f) :=
  hP.updateHeap (fun _ => rfl) (fun _ => rfl) fun _ => Nat.le_refl _

theorem Framed.freeProcess : Stays P (Pipeline.updateHeap fun h => h.freeProcess id) :=
  hP.updateHeap (fun _ => rfl) (fun _ => rfl) fun _ => Nat.le_refl _

theorem Framed.setSlot {value : Option Nat} : Stays P (Pipeline.updateHeap fun h => h.setSlot s value) := by
  apply hP.updateHeap
  . intro h
    cases s <;> rfl
  . intro h
    cases s <;> rfl
  . intro h
    cases s <;> exact Nat.le_refl _

theorem Framed.undefinedBehavior : Stays P (undefinedBehavior : Program Pipeline Tick Exn α) := by
  apply stays_bind
  . exact hP.updateHeap (fun _ => rfl) (fun _ => rfl) fun _ => Nat.le_refl _
  . intro _
    exact Program.keeps_terminate

theorem Framed.sessionAt : Stays P (sessionAt id) := by
  apply does_peek
  intro h _
  cases h.sessions.find? fun session => session.id = id with
  | some session => exact stays_pure
  | none => exact hP.undefinedBehavior

theorem Framed.processAt : Stays P (processAt id) := by
  apply does_peek
  intro h _
  cases h.processes.find? fun process => process.id = id with
  | some process => exact stays_pure
  | none => exact hP.undefinedBehavior

theorem Framed.derefSession : Stays P derefSession := by
  apply does_peek
  intro h _
  cases h.session with
  | some id => exact hP.sessionAt
  | none => exact hP.undefinedBehavior

theorem Framed.deref : Stays P (deref s) := by
  apply does_peek
  intro h _
  cases h.slot s with
  | some id => exact hP.processAt
  | none => exact hP.undefinedBehavior

theorem Framed.stopProcess : Stays P (stopProcess id) := by
  apply stays_env
  intro _
  apply stays_bind hP.processAt
  intro process
  apply stays_ite stays_pure
  iterate 3
    apply stays_bind hP.mapProcess
    intro _
    apply stays_env
    intro _
  exact stays_pure

theorem Framed.destroyProcess : Stays P (destroyProcess id) := by
  apply stays_bind hP.stopProcess
  intro _
  apply stays_env
  intro _
  exact hP.freeProcess

theorem Framed.startChild : Stays P (startChild v id) := by
  apply stays_env
  intro _
  apply stays_bind hP.mapProcess
  intro _
  apply stays_env
  intro _
  exact stays_onEnv

theorem Framed.constructProcess {mode : VideoOutputMode} {forceSoftware : Bool}
    : Stays P (constructProcess v mode forceSoftware) := by
  apply stays_env
  intro _
  apply does_peek
  intro h _
  apply stays_bind
  . exact hP.updateHeap (fun _ => rfl) (fun _ => rfl) fun h => Nat.le_succ h.fresh
  intro _
  apply stays_bind
  . apply stays_rescue
    . apply stays_env
      intro _
      apply stays_rescue hP.startChild
      intro _
      apply stays_bind hP.stopProcess
      intro _
      exact stays_raise
    . intro _
      apply stays_bind hP.freeProcess
      intro _
      exact stays_raise
  intro _
  exact stays_pure

theorem Framed.resetProcess : Stays P (resetProcess s) := by
  apply does_peek
  intro h _
  cases h.slot s with
  | none => exact stays_pure
  | some id =>
    apply stays_bind hP.setSlot
    intro _
    exact hP.destroyProcess

theorem Framed.assignProcess {value : Option Nat} : Stays P (assignProcess s value) := by
  apply does_peek
  intro h _
  apply stays_bind hP.setSlot
  intro _
  cases h.slot s with
  | none => exact stays_pure
  | some id => exact hP.destroyProcess

theorem Framed.makeProcess {mode : VideoOutputMode} {forceSoftware : Bool}
    : Stays P (makeProcess v s mode forceSoftware) := by
  apply stays_bind hP.constructProcess
  intro _
  exact hP.assignProcess

theorem Framed.moveProbe : Stays P moveProbe := by
  apply does_peek
  intro h _
  apply stays_bind hP.setSlot
  intro _
  exact hP.assignProcess

theorem Framed.startPump : Stays P (startPump s) := by
  apply stays_bind hP.derefSession
  intro session
  apply stays_bind hP.deref
  intro process
  apply stays_env
  intro _
  cases process.pump with
  | some _ => exact Program.keeps_terminate
  | none => exact hP.mapProcess

theorem Framed.stopAndReset : Stays P (stopAndReset s) := by
  apply stays_bind
  . apply stays_bind hP.deref
    intro process
    exact hP.stopProcess
  intro _
  exact hP.resetProcess

theorem Framed.inputEndReason : Stays P inputEndReason := by
  apply stays_env
  intro answer
  apply stays_bind hP.deref
  intro process
  apply stays_bind hP.mapProcess
  intro _
  exact stays_pure

theorem Framed.received {data : Bytes} : Stays P (received id data) := by
  apply stays_bind hP.mapProcess
  intro _
  exact stays_pure

theorem Framed.readOutputTimeout {size : Nat} : Stays P (readOutputTimeout v id size) := by
  apply stays_ite
  . apply stays_iterate
    intro _
    apply stays_env
    intro clock
    apply stays_ite stays_pure
    iterate 2
      apply stays_env
      intro _
    apply stays_env
    intro answer
    apply stays_ite
    . apply stays_bind hP.received
      intro _
      exact stays_pure
    . apply stays_env
      intro exited
      apply stays_ite _ stays_pure
      apply stays_bind hP.received
      intro _
      exact stays_pure
  . apply stays_env
    intro ready
    apply stays_ite stays_pure
    apply stays_env
    intro answer
    exact stays_ite stays_pure hP.received

theorem Framed.read : Stays P (read v) := by
  apply stays_bind hP.deref
  intro process
  apply stays_iterate
  intro _
  apply stays_env
  intro running
  apply stays_ite stays_pure
  apply stays_env
  intro _
  apply stays_env
  intro clock
  apply stays_ite stays_raise
  apply stays_bind hP.readOutputTimeout
  intro count
  cases count with
  | some data => exact stays_pure
  | none => exact stays_pure

theorem Framed.readUntilReady {result : Bytes} {requireMediaFragment : Bool}
    : Stays P (readUntilReady v s result requireMediaFragment) := by
  apply stays_bind hP.deref
  intro process
  apply stays_bind
  . apply stays_iterate
    intro result
    apply stays_env
    intro clock
    apply stays_ite stays_pure
    iterate 2
      apply stays_env
      intro _
    apply stays_bind hP.readOutputTimeout
    intro readSize
    split
    . exact stays_pure
    . exact stays_pure
    . exact stays_ite stays_pure stays_pure
  intro ⟨ready, result⟩
  apply stays_ite stays_pure
  exact stays_ite stays_raise stays_raise

theorem Framed.startPipeline {codec : DetectedVideoCodec} {mode : VideoOutputMode}
    {forceSoftware : Bool} : Stays P (startPipeline v codec mode forceSoftware) := by
  apply stays_bind hP.makeProcess
  intro _
  apply stays_bind hP.startPump
  intro _
  exact hP.readUntilReady

theorem Framed.softwareFallback {codec : DetectedVideoCodec} {mode : VideoOutputMode}
    {error : BridgeError} : Stays P (softwareFallback v codec mode error) := by
  apply does_peek
  intro h _
  apply stays_ite stays_raise
  apply stays_bind hP.deref
  intro process
  apply stays_ite stays_raise
  apply stays_env
  intro _
  apply stays_bind hP.stopAndReset
  intro _
  exact hP.startPipeline

theorem Framed.openOutput {codec : DetectedVideoCodec} {mode : VideoOutputMode} {initialMp4 : Bytes}
    : Stays P (openOutput v codec mode initialMp4) := by
  apply does_peek
  intro h _
  apply stays_ite
  . apply stays_rescue
    . apply stays_bind hP.readUntilReady
      intro _
      exact stays_pure
    . intro exn
      cases exn with
      | bridge error =>
        apply stays_ite stays_raise
        apply stays_env
        intro _
        exact stays_pure
      | clientDisconnected => exact stays_raise
      | other => exact stays_raise
  . apply stays_rescue
    . apply stays_bind hP.startPipeline
      intro _
      exact stays_pure
    . intro exn
      cases exn with
      | bridge error =>
        apply stays_ite
        . apply stays_env
          intro _
          exact stays_pure
        . apply stays_bind hP.softwareFallback
          intro _
          exact stays_pure
      | clientDisconnected => exact stays_raise
      | other => exact stays_raise

theorem Framed.codecMismatch : Stays P (codecMismatch v) := by
  iterate 2
    apply stays_env
    intro _
  apply stays_bind hP.stopAndReset
  intro _
  apply stays_rescue hP.startPipeline
  intro exn
  cases exn with
  | bridge error => exact hP.softwareFallback
  | clientDisconnected => exact stays_raise
  | other => exact stays_raise

end Ffmpeg

section Sessions

theorem accounts_prepare_any
    : Accounts v n (Usable v.request.option) (prepare v id) (fun _ => Usable v.request.option) := by
  by_cases hn : n = id
  . rw [← hn]
    exact accounts_prepare.conseq (fun _ _ h => h) fun _ _ _ h => h.2
  . exact (stays_prepare (steady_books VideoSession.monitored_usable hn)).accounts bookable_usable

theorem accounts_start
    : Accounts v n (Usable v.request.option) (start v) (fun _ => Usable v.request.option) := by
  apply accounts_bind (framed_books.derefSession.accounts bookable_usable)
  intro session
  apply accounts_bind accounts_prepare_any
  intro _
  by_cases hn : n = session.id
  . rw [← hn]
    exact accounts_startStreamAndWaitForData
  . exact (stays_startStreamAndWaitForData (steady_books VideoSession.monitored_usable hn)).accounts
      bookable_usable

theorem accounts_destroySession (hA : Bookable v A)
    : Accounts v n A (destroySession v id) (fun _ => A) := by
  by_cases hn : n = id
  . rw [← hn]
    apply Does.conseq does_destroySession_books
    . exact fun _ hh => hh.mono hA.accounted
    . exact fun _ _ hh => .inl hh
    . exact fun _ _ hh => hh
    . exact fun _ hh => hh
  . apply Stays.accounts hA
    exact stays_destroySession (steady_books hA.monitored hn) fun _ hh => hh.freeSession_ne hn

theorem accounts_resetSession (hA : Bookable v A)
    : Accounts v n A (resetSession v) (fun _ => A) := by
  apply does_peek
  intro h _
  cases h.session with
  | none => exact stays_pure.accounts hA
  | some id =>
    apply accounts_bind (Stays.accounts hA _)
    . intro _
      exact accounts_destroySession hA
    . exact framed_books.updateHeap (fun _ => rfl) (fun _ => rfl) fun _ => Nat.le_refl _

theorem accounts_openSession
    : Accounts v n (Usable v.request.option) (openSession v) (fun _ => Usable v.request.option) := by
  have hmake : Accounts v n (Usable v.request.option) (makeSession v)
      (fun _ => Usable v.request.option) := by
    apply accounts_bind
    . apply Stays.accounts bookable_usable
      apply stays_env
      intro _
      apply does_peek
      intro h _
      apply stays_bind
      . apply stays_updateHeap
        intro h hh
        apply hh.newSession
        intro id
        have hnone : (-1 : Int) < 0 := by decide
        exact .new hnone ⟨hnone, rfl⟩ rfl rfl rfl
      intro _
      apply stays_env
      intro _
      exact stays_pure
    intro id
    apply does_peek
    intro h _
    apply accounts_bind (Stays.accounts bookable_usable _)
    . intro _
      cases h.session with
      | none => exact stays_pure.accounts bookable_usable
      | some old => exact accounts_destroySession bookable_usable
    . exact framed_books.updateHeap (fun _ => rfl) (fun _ => rfl) fun _ => Nat.le_refl _
  apply accounts_bind hmake
  intro _
  apply accounts_bind (framed_books.derefSession.accounts bookable_usable)
  intro session
  exact accounts_prepare_any

theorem accounts_restartSession
    : Accounts v n (Usable v.request.option) (restartSession v) (fun _ => Usable v.request.option) := by
  apply accounts_bind (accounts_resetSession bookable_usable)
  intro _
  exact accounts_openSession

theorem accounts_probeCodec
    : Accounts v n (Usable v.request.option) (probeCodec v) (fun _ => Usable v.request.option) := by
  apply accounts_env bookable_usable
  intro _
  apply accounts_bind accounts_start
  intro _
  apply Stays.accounts bookable_usable
  apply stays_bind framed_books.makeProcess
  intro _
  apply stays_bind framed_books.startPump
  intro _
  apply stays_bind framed_books.readUntilReady
  intro probePrefix
  iterate 2
    apply stays_env
    intro _
  apply stays_ite _ stays_pure
  apply stays_ite _ stays_pure
  apply stays_bind framed_books.moveProbe
  intro _
  apply stays_env
  intro _
  exact stays_pure

theorem accounts_detectCodec
    : Accounts v n (Usable v.request.option) (detectCodec v) (fun _ => Usable v.request.option) := by
  apply accounts_bind accounts_openSession
  intro _
  apply accounts_env bookable_usable
  intro cached
  apply accounts_ite
  . intro _
    apply accounts_env bookable_usable
    intro _
    exact stays_pure.accounts bookable_usable
  intro _
  apply accounts_bind (framed_books.derefSession.accounts bookable_usable)
  intro session
  apply accounts_ite
  . intro _
    iterate 2
      apply accounts_env bookable_usable
      intro _
    exact stays_pure.accounts bookable_usable
  . intro _
    exact accounts_probeCodec

theorem accounts_ensureSession
    : Accounts v n (Usable v.request.option) (ensureSession v) (fun _ => Usable v.request.option) := by
  apply does_peek
  intro h _
  apply accounts_bind (K := fun _ => Usable v.request.option)
  . apply accounts_ite
    . intro _
      exact accounts_openSession
    . intro _
      exact stays_pure.accounts bookable_usable
  intro _
  apply accounts_bind (framed_books.derefSession.accounts bookable_usable)
  intro session
  apply accounts_ite
  . intro _
    exact stays_pure.accounts bookable_usable
  . intro _
    exact accounts_start

theorem accounts_copyFallback {codec : DetectedVideoCodec}
    : Accounts v n (Usable v.request.option) (copyFallback v codec)
        (fun _ => Usable v.request.option) := by
  apply does_peek
  intro h _
  apply accounts_bind (K := fun _ => Usable v.request.option)
  . apply Stays.accounts bookable_usable
    apply stays_ite _ stays_pure
    apply stays_bind framed_books.deref
    intro _
    apply stays_env
    intro _
    exact framed_books.stopAndReset
  intro _
  apply accounts_bind accounts_restartSession
  intro _
  apply accounts_bind accounts_start
  intro _
  apply Stays.accounts bookable_usable
  apply stays_bind framed_books.startPipeline
  intro _
  apply stays_env
  intro _
  exact stays_pure

theorem accounts_setup
    : Accounts v n (Usable v.request.option) (setup v) (fun _ => Usable v.request.option) := by
  apply accounts_bind accounts_detectCodec
  intro detection
  apply accounts_env bookable_usable
  intro _
  apply accounts_bind (K := fun _ => Usable v.request.option)
  . apply Stays.accounts bookable_usable
    exact stays_ite stays_onEnv stays_pure
  intro _
  apply accounts_bind (K := fun _ => Usable v.request.option)
  . apply Stays.accounts bookable_usable
    apply does_peek
    intro h _
    apply stays_ite _ stays_pure
    apply stays_bind framed_books.stopAndReset
    intro _
    exact stays_onEnv
  intro _
  apply accounts_bind (K := fun _ => Usable v.request.option)
  . apply accounts_ite
    . intro _
      apply accounts_bind accounts_restartSession
      intro _
      exact stays_onEnv.accounts bookable_usable
    . intro _
      exact stays_pure.accounts bookable_usable
  intro _
  apply accounts_bind accounts_ensureSession
  intro _
  apply accounts_bind (framed_books.openOutput.accounts bookable_usable)
  intro opened
  cases opened with
  | none =>
    apply accounts_bind accounts_copyFallback
    intro _
    exact stays_pure.accounts bookable_usable
  | some initialMp4 =>
    apply Stays.accounts bookable_usable
    apply stays_ite _ stays_pure
    apply stays_bind framed_books.codecMismatch
    intro _
    exact stays_pure

end Sessions

theorem stays_endReason : Stays (Books (Accounted v.request.option) n) endReason := by
  apply stays_env
  intro answer
  apply stays_bind framed_books.derefSession
  intro session
  apply stays_bind
  . apply stays_updateHeap
    intro h hh
    by_cases hn : n = session.id
    . rw [← hn]
      apply hh.mapSession (by intros; rfl)
      intro now calls haccounted
      cases haccounted with
      | released huser hunopened hcalls => exact .released huser hunopened hcalls
      | loggedIn huser hunopened hcalls => exact .loggedIn huser hunopened hcalls
      | streaming hcalls => exact .streaming hcalls
    . exact hh.mapSession_ne hn (by intros; rfl)
  intro _
  split
  . exact stays_pure
  . exact stays_pure

end Pipeline

namespace World

open Heap (Books Gone)
open Pipeline (Stays Framed framed_books bookable_accounted)
open SdkCall (Balanced Releasable)
open VideoSession (Accounted Usable)

variable {v : Setting} {n : Nat} {α : Type}

def BooksUsable (v : Setting) (n : Nat) (w : World) : Prop :=
  w.heap.Books (Usable v.request.option) n

def BooksAccounted (v : Setting) (n : Nat) (w : World) : Prop :=
  w.heap.Books (Accounted v.request.option) n

def Accounting (v : Setting) (n : Nat) (m : Program World Tick Exn α) : Prop :=
  Program.Keeps (BooksAccounted v n) m

theorem BooksUsable.accounted {w : World} (hw : BooksUsable v n w) : BooksAccounted v n w :=
  Books.mono hw fun _ _ h => h.accounted

theorem accounting_onEnv {m : Program Env Tick Exn α} : Accounting v n (onEnv m) :=
  keeps_onEnv fun _ _ hw => hw

theorem accounting_onClient {m : Program Client Tick Exn α} : Accounting v n (onClient m) :=
  Program.keeps_zoom fun _ _ hw => hw

theorem accounting_onPipeline {m : Program Pipeline Tick Exn α}
    (hm : Stays (Books (Accounted v.request.option) n) m) : Accounting v n (onPipeline m) := by
  apply (triple_onPipeline (F := fun _ => True) hm fun _ _ hw => hw).conseq
  . exact fun _ hw => ⟨hw, trivial⟩
  . exact fun _ _ hw => hw.1
  . exact fun _ _ hw => hw.1
  . exact fun _ hw => hw.1

theorem accounting_update {f : World → World} (hf : ∀ w, (f w).heap = w.heap)
    : Accounting v n (Program.update f) := by
  apply Program.keeps_update
  intro w hw
  unfold BooksAccounted
  rw [hf]
  exact hw

theorem accounting_publishStatus {reason : StreamEndReason}
    : Accounting v n (publishStatus v reason) := by
  have hnumber : Accounting v n (onPipeline queueNumber) := by
    apply accounting_onPipeline
    apply Pipeline.does_peek
    intro h _
    apply Pipeline.stays_ite _ Pipeline.stays_pure
    apply Pipeline.stays_bind framed_books.derefSession
    intro _
    apply Pipeline.stays_env
    intro _
    exact Pipeline.stays_pure
  apply Program.keeps_bind Program.keeps_inspect
  intro started
  apply Program.keeps_ite Program.keeps_pure
  apply Program.keeps_bind accounting_onEnv
  intro cancelled
  iterate 3
    apply Program.keeps_bind hnumber
    intro _
  apply Program.keeps_bind accounting_onEnv
  intro call
  apply Program.keeps_ite Program.keeps_raise
  apply Program.keeps_bind (accounting_update (by intros; rfl))
  intro _
  exact accounting_update (by intros; rfl)

theorem accounting_endOfOutput : Accounting v n endOfOutput := by
  apply Program.keeps_bind accounting_onEnv
  intro running
  apply Program.keeps_ite _ Program.keeps_pure
  apply accounting_onPipeline
  apply Pipeline.does_peek
  intro h _
  apply Pipeline.stays_bind (Pipeline.stays_ite Pipeline.stays_endReason Pipeline.stays_pure)
  intro sdk
  apply Pipeline.stays_ite Pipeline.stays_endReason
  apply Pipeline.stays_ite _ Pipeline.stays_pure
  apply Pipeline.stays_bind framed_books.inputEndReason
  intro _
  exact Pipeline.stays_pure

theorem accounting_deliver {output : Pipeline.Output} : Accounting v n (deliver v output) := by
  iterate 2
    apply Program.keeps_bind accounting_onEnv
    intro _
  apply Program.keeps_bind (accounting_update (by intros; rfl))
  intro _
  apply Program.keeps_bind accounting_onClient
  intro _
  apply Program.keeps_bind (accounting_update (by intros; rfl))
  intro _
  apply Program.keeps_bind accounting_onClient
  intro _
  apply Program.keeps_bind
  . apply Program.keeps_iterate
    intro _
    apply Program.keeps_bind accounting_onEnv
    intro running
    apply Program.keeps_ite Program.keeps_pure
    apply Program.keeps_bind (accounting_onPipeline framed_books.read)
    intro data
    apply Program.keeps_ite
    . apply Program.keeps_bind accounting_endOfOutput
      intro _
      exact Program.keeps_pure
    . apply Program.keeps_bind accounting_onClient
      intro _
      exact Program.keeps_pure
  intro reason
  apply Program.keeps_bind (Program.keeps_ite accounting_endOfOutput Program.keeps_pure)
  intro reason
  apply Program.keeps_bind
  . apply Program.keeps_bind accounting_publishStatus
    intro _
    apply Program.keeps_bind (accounting_onPipeline framed_books.derefSession)
    intro _
    exact accounting_onEnv
  intro _
  exact accounting_onClient

theorem accounting_handleException {exn : Exn} : Accounting v n (handleException v exn) := by
  apply Program.keeps_bind (accounting_update (by intros; rfl))
  intro _
  apply Program.keeps_bind _ fun _ => Program.keeps_raise
  cases exn with
  | clientDisconnected =>
    apply Program.keeps_bind accounting_onEnv
    intro _
    exact accounting_publishStatus
  | bridge error => exact accounting_publishStatus
  | other =>
    apply Program.keeps_bind accounting_onEnv
    intro _
    exact accounting_publishStatus

theorem accounting_cleanup : Accounting v n (cleanup v) := by
  iterate 2
    apply Program.keeps_bind (accounting_onPipeline framed_books.resetProcess)
    intro _
  apply Program.keeps_bind
  . apply accounting_onPipeline
    exact Pipeline.accounts_resetSession bookable_accounted
  intro _
  exact Program.keeps_rescue accounting_onEnv fun _ => Program.keeps_pure

theorem triple_handleVideo_books
    : Program.Triple (BooksUsable v n) (handleVideo v) (fun _ => BooksAccounted v n)
        (fun _ => BooksAccounted v n) (BooksAccounted v n) := by
  have henv : ∀ {β : Type} {m : Program Env Tick Exn β},
      Program.Triple (BooksUsable v n) (onEnv m) (fun _ => BooksUsable v n)
        (fun _ => BooksAccounted v n) (BooksAccounted v n) := by
    intro β m
    apply (keeps_onEnv (P := BooksUsable v n) fun _ _ hw => hw).conseq
    . exact fun _ hw => hw
    . exact fun _ _ hw => hw
    . exact fun _ _ hw => hw.accounted
    . exact fun _ hw => hw.accounted
  have hserve : Program.Triple (BooksUsable v n) (serve v) (fun _ => BooksAccounted v n)
      (fun _ => BooksAccounted v n) (BooksAccounted v n) := by
    apply Program.triple_bind (R := fun _ => BooksAccounted v n)
    . apply (triple_onPipeline (F := fun _ => True) Pipeline.accounts_setup fun _ _ hw => hw).conseq
      . exact fun _ hw => ⟨hw, trivial⟩
      . exact fun _ w hw => BooksUsable.accounted hw.1
      . exact fun _ _ hw => hw.1
      . exact fun _ hw => hw.1
    . intro output
      exact accounting_deliver
  apply Program.triple_bind henv
  intro _
  apply Program.triple_bind (R := fun _ => BooksUsable v n)
  . apply Program.triple_bind henv
    intro answer
    apply Program.triple_ite
    . intro _
      exact Program.triple_pure fun _ hw => hw
    . intro _
      apply Program.triple_bind (R := fun _ => BooksUsable v n)
      . exact Program.triple_update fun _ hw => hw
      . intro _
        exact Program.triple_pure fun _ hw => hw
  intro reserved
  apply Program.triple_ite
  . intro _
    exact Program.triple_raise fun _ hw => hw.accounted
  intro _
  have hrelease : Accounting v n (release v) := by
    apply Program.keeps_bind accounting_onEnv
    intro _
    apply Program.keeps_bind (accounting_update (by intros; rfl))
    intro _
    exact Program.keeps_rescue accounting_onEnv fun _ => Program.keeps_pure
  apply Program.triple_ensuring _ (fun _ => hrelease) fun _ => hrelease
  apply Program.triple_bind henv
  intro _
  apply Program.triple_ensuring _ (fun _ => accounting_cleanup) fun _ => accounting_cleanup
  exact Program.triple_rescue hserve fun _ => accounting_handleException

theorem BooksAccounted.releasable {w : World} (hw : BooksAccounted v n w)
    : Releasable (w.heap.sdkOf n) := by
  rcases hw with hw | ⟨_, session, _, hcalls⟩
  . exact hw.balanced.releasable
  cases hcalls with
  | released _ _ hcalls => exact hcalls.releasable
  | loggedIn _ _ hcalls => exact ⟨_, hcalls⟩
  | streaming hcalls => exact ⟨_, hcalls.balanced⟩

theorem BooksAccounted.balanced {w : World} (hw : BooksAccounted v n w) (hidle : w.heap.Idle)
    : Balanced (w.heap.sdkOf n) := by
  rcases hw with hw | ⟨_, session, hsession, _⟩
  . exact hw.balanced
  . have hnone : w.heap.sessionsOf n = [] := by
      simp [Heap.sessionsOf, Idle.sessions hidle]
    rw [hnone] at hsession
    contradiction

theorem triple_handleVideo_sdk (n : Nat)
    : Program.Triple (fun w => Fresh w ∧ w.heap = {}) (handleVideo v)
        (fun _ w => Balanced (w.heap.sdkOf n)) (fun _ w => Balanced (w.heap.sdkOf n))
        fun w => Releasable (w.heap.sdkOf n) := by
  apply (triple_handleVideo.and (triple_handleVideo_books (v := v) (n := n))).conseq
  . intro w ⟨hfresh, hheap⟩
    refine ⟨hfresh, .inl ?_⟩
    rw [hheap]
    exact ⟨rfl, .inl (.inl rfl), fun _ => rfl⟩
  . exact fun _ _ hw => hw.2.balanced hw.1.1.idle
  . intro _ _ ⟨hw, hbooks⟩
    rcases hw with hw | hw
    . exact hbooks.balanced hw.idle
    . exact hbooks.balanced hw.idle
  . exact fun _ hw => hw.2.releasable

end World
end HikBridge
