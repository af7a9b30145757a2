import HikBridge.Video.Body
import HikBridge.Video.Lasting

/-!
This module contains the end of `handle_video`: the `catch` clauses, the destructors of the scope and
what a finished run leaves behind.
-/

namespace HikBridge

namespace Heap

-- The process that is alive, or the one that was destroyed last.
def Latest (p : FfmpegProcess) (h : Heap) : Prop :=
  h.processes = [p] ∨ (h.processes = [] ∧ h.destroyed.getLast? = some p)

-- `output` was read from this process.
def Emitted (output : Bytes) (eof : Bool) (h : Heap) : Prop :=
  ∃ p, h.Latest p ∧ p.output = output ∧ p.eof = eof

variable {h : Heap} {output : Bytes} {eof : Bool}

theorem Emits.emitted (hh : h.Emits output eof) : h.Emitted output eof := by
  obtain ⟨id, p, ⟨_, _, hp⟩, hh⟩ := hh
  exact ⟨p, .inl hh.processes, hp⟩

theorem Emits.resting (hh : h.Emits output eof) : h.Resting := Transcoding.resting hh

theorem Emitted.mapProcess (hh : h.Emitted output eof) (id : Nat) {f : FfmpegProcess → FfmpegProcess}
    (hf : ∀ p, (f p).output = p.output ∧ (f p).eof = p.eof) : (h.mapProcess id f).Emitted output eof := by
  obtain ⟨p, hlatest, houtput, heof⟩ := hh
  rcases hlatest with halive | ⟨hnone, hlast⟩
  . refine ⟨if p.id = id then f p else p, .inl (by simp [Heap.mapProcess, halive]), ?_⟩
    split
    . exact ⟨by rw [(hf p).1, houtput], by rw [(hf p).2, heof]⟩
    . exact ⟨houtput, heof⟩
  . exact ⟨p, .inr ⟨by simp [Heap.mapProcess, hnone], hlast⟩, houtput, heof⟩

theorem Emitted.freeProcess (hh : h.Emitted output eof) (id : Nat)
    : (h.freeProcess id).Emitted output eof := by
  obtain ⟨p, hlatest, hp⟩ := hh
  refine ⟨p, ?_, hp⟩
  rcases hlatest with halive | ⟨hnone, hlast⟩
  . by_cases hid : p.id = id
    . right
      simp [Heap.freeProcess, halive, hid]
    . left
      simp [Heap.freeProcess, halive, hid]
  . right
    simp [Heap.freeProcess, hnone, hlast]

theorem Resting.hasSession (hh : h.Resting)
    : h.session = none ∨
        ∃ id process owners, owners.session = some id ∧ h.Holds (some id) process owners := by
  rcases hh with hh | ⟨id, hh⟩ | ⟨s, id, p, _, hh⟩
  . exact .inl hh.session_eq
  . exact .inr ⟨id, none, _, rfl, hh⟩
  . exact .inr ⟨id, some p, _, by simp [Owners.fetching], hh⟩

end Heap

namespace Pipeline

open Heap (Idle Fetching Transcoding Resting Safe Emitted)

variable {v : Setting} {output : Bytes} {eof : Bool} {P : Heap → Prop}
  {E : Exn → Heap → Prop}

theorem lasting_emitted : Lasting (Emitted output eof) where
  undefined _ hh := hh
  setSlot s _ _ hh := by
    cases s with
    | ffmpeg => exact hh
    | probe => exact hh
  setSession _ _ hh := hh
  sessions _ _ _ _ hh := hh
  mapProcess id _ hf _ hh := hh.mapProcess id fun p => ⟨(hf p).1, (hf p).2.1⟩
  freeProcess id _ hh := hh.freeProcess id

theorem does_resetProbe
    : Does Resting (resetProcess .probe)
        (fun _ h => h.Idle ∨ h.Fetching ∨ h.Transcoding .ffmpeg fun _ => True) E Safe := by
  apply Does.or
  . apply Does.conseq (does_resetProcess_none (o := .null) (s := .probe) (E := E) (C := Safe) rfl)
    . exact fun _ hh => hh
    . exact fun _ _ hh => .inl hh
    . exact fun _ _ hh => hh
    . exact fun _ hh => hh
  apply Does.or
  . apply Does.exists
    intro id
    apply (does_resetProcess_none rfl).post
    exact fun _ _ hh => .inr (.inl ⟨id, hh⟩)
  . apply Does.exists
    intro s
    apply Does.transcoding
    intro id p hfed hsettled _
    cases s with
    | ffmpeg =>
      apply (does_resetProcess_none rfl).post
      exact fun _ _ hh => .inr (.inr ⟨id, p, ⟨hfed, hsettled, trivial⟩, hh⟩)
    | probe =>
      apply (does_resetProcess (s := .probe) rfl hfed hsettled).post
      exact fun _ _ hh => .inr (.inl ⟨id, hh⟩)

theorem does_resetOutput
    : Does (fun h => h.Idle ∨ h.Fetching ∨ h.Transcoding .ffmpeg fun _ => True) (resetProcess .ffmpeg)
        (fun _ h => h.Idle ∨ h.Fetching) E Safe := by
  apply Does.or
  . apply Does.conseq (does_resetProcess_none (o := .null) (s := .ffmpeg) (E := E) (C := Safe) rfl)
    . exact fun _ hh => hh
    . exact fun _ _ hh => .inl hh
    . exact fun _ _ hh => hh
    . exact fun _ hh => hh
  apply Does.or
  . apply Does.exists
    intro id
    apply (does_resetProcess_none rfl).post
    exact fun _ _ hh => .inr ⟨id, hh⟩
  . apply Does.transcoding
    intro id p hfed hsettled _
    apply (does_resetProcess (s := .ffmpeg) rfl hfed hsettled).post
    exact fun _ _ hh => .inr ⟨id, hh⟩

theorem does_resetLast
    : Does (fun h => h.Idle ∨ h.Fetching) (resetSession v) (fun _ => Idle) E Safe := by
  apply Does.or
  . apply does_peek
    intro h hh
    rw [hh.session_eq]
    exact does_pure fun _ hh => hh
  . apply Does.exists
    intro id
    exact does_resetSession rfl

end Pipeline

namespace World

open Heap (Idle Resting Safe Emitted)

variable {v : Setting} {α : Type} {sid : Bytes}

def BodyExact (w : World) : Prop :=
  w.headers = none ∨ ∃ output eof, w.heap.Emitted output eof ∧
    ∀ n, w.headers = some n → Encodes output eof (w.wire.drop n)

-- The whole encoding is on the wire, and what it carries is all that the process has emitted.
def BodyComplete (w : World) : Prop :=
  ∃ output eof, w.heap.Emitted output eof ∧ eof = true ∧ ∃ n chunks, w.headers = some n ∧
    (∀ chunk ∈ chunks, chunk ≠ []) ∧ chunks.flatten = output ∧ w.wire.drop n = Chunked.encode chunks

theorem Delivering.bodyExact {w : World} (h : Delivering sid w) : BodyExact w := by
  obtain ⟨⟨output, eof, hemits, hbody⟩, _⟩ := h
  exact .inr ⟨output, eof, hemits.emitted, hbody⟩

theorem Delivered.bodyComplete {w : World} (h : Delivered sid w) : BodyComplete w := by
  obtain ⟨head, chunks, hchunks, hemits, hwire⟩ := h.complete
  exact ⟨_, _, hemits.emitted, rfl, head.length, chunks, hwire.headers, hchunks, rfl,
    hwire.drop hwire.headers⟩

theorem keeps_onPipeline_emitted {m : Program Pipeline Tick Exn α}
    {R : Bytes → Bool → Option Nat → Bytes → Prop}
    (hm : ∀ output eof, Pipeline.Stays (Emitted output eof) m)
    : Program.Keeps (fun w => ∃ output eof, w.heap.Emitted output eof ∧ R output eof w.headers w.wire)
        (onPipeline m) := by
  apply Program.Triple.exists
  intro output
  apply Program.Triple.exists
  intro eof
  apply (triple_onPipeline (F := fun w => R output eof w.headers w.wire) (hm output eof)
    fun _ _ hw => hw).conseq
  . exact fun _ hw => hw
  . exact fun _ _ hw => ⟨output, eof, hw⟩
  . exact fun _ _ hw => ⟨output, eof, hw⟩
  . exact fun _ hw => ⟨output, eof, hw⟩

theorem keeps_bodyExact {m : Program Pipeline Tick Exn α}
    (hm : ∀ output eof, Pipeline.Stays (Emitted output eof) m)
    : Program.Keeps BodyExact (onPipeline m) := by
  apply Program.Triple.or
  . apply (Program.keeps_zoom (I := fun w : World => w.headers = none) fun _ _ hw => hw).conseq
    . exact fun _ hw => hw
    . exact fun _ _ hw => .inl hw
    . exact fun _ _ hw => .inl hw
    . exact fun _ hw => .inl hw
  . apply (keeps_onPipeline_emitted (R := fun output eof headers wire =>
      ∀ n, headers = some n → Encodes output eof (wire.drop n)) hm).conseq
    . exact fun _ hw => hw
    . exact fun _ _ hw => .inr hw
    . exact fun _ _ hw => .inr hw
    . exact fun _ hw => .inr hw

-- The record of a finished session against the exception that was handled.
structure Truthful (sid : Bytes) (handled : Option Handled) (r : EndRecord) : Prop where
  sid : r.sid = sid
  message : r.message = endReasonMessage r.reason
  lease : r.lease = .held
  active : r.reason ≠ .Active
  cleanup : r.cancelledAtStart = true → r.reason = .ManualCleanup
  cancelled : r.reason = .ManualCleanup → r.cancelledAtCall = true
  stopped : ∀ h, handled = some h → (∀ error, h.exn ≠ .bridge error) → h.stopped = true →
    h.published = false → r.reason = .ManualCleanup ∨ r.reason = .ServerStopped
  ofStream : ∀ h, handled = some h → h.published = true →
    r.reason = .ManualCleanup ∨ r.reason.OfStream

def Recorded (sid : Bytes) (w : World) : Prop := ∃ r, w.ends = [r] ∧ Truthful sid w.handled r

theorem OfStream.ne {reason : StreamEndReason} (h : reason.OfStream)
    : reason ≠ .Active ∧ reason ≠ .ManualCleanup := by
  rcases h with ⟨sdkEnd, rfl⟩ | rfl | rfl | rfl | rfl
  . cases sdkEnd <;> decide
  all_goals decide

theorem Published.recorded_ofStream {reason : StreamEndReason} {w : World}
    (hreason : reason.OfStream) (h : Published sid reason w)
    (hhandled : ∀ handled, w.handled = some handled → handled.published = true)
    : Recorded sid w := by
  obtain ⟨_, r, hends, hr⟩ := h
  have hne := OfStream.ne hreason
  refine ⟨r, hends, hr.sid, hr.message, hr.lease, hr.reason_ne hne.1, hr.cleanup,
    hr.cancelled_of_manual hne.2, ?_, ?_⟩
  . intro handled hsome _ _ hpublished
    rw [hhandled handled hsome] at hpublished
    contradiction
  . intro _ _ _
    rcases hr.reason with hcleanup | heq
    . exact .inl hcleanup.1
    . rw [heq]
      exact .inr hreason

theorem Published.recorded_exception {reason : StreamEndReason} {w : World} {handled : Handled}
    (h : Published sid reason w) (hne : reason ≠ .Active ∧ reason ≠ .ManualCleanup)
    (hhandled : w.handled = some handled) (hunpublished : handled.published = false)
    (hstopped : (∀ error, handled.exn ≠ .bridge error) → handled.stopped = true →
      reason = .ServerStopped)
    : Recorded sid w := by
  obtain ⟨_, r, hends, hr⟩ := h
  refine ⟨r, hends, hr.sid, hr.message, hr.lease, hr.reason_ne hne.1, hr.cleanup,
    hr.cancelled_of_manual hne.2, ?_, ?_⟩
  . intro handled' hsome hexn hstop _
    rw [hhandled] at hsome
    injection hsome with hsome
    subst hsome
    rcases hr.reason with hcleanup | heq
    . exact .inl hcleanup.1
    . exact .inr (heq.trans (hstopped hexn hstop))
  . intro handled' hsome hpublished
    rw [hhandled] at hsome
    injection hsome with hsome
    subst hsome
    rw [hunpublished] at hpublished
    contradiction

-- Only the environment and the publication have changed.
structure Same (w w' : World) : Prop where
  heap : w'.heap = w.heap
  wire : w'.wire = w.wire
  headers : w'.headers = w.headers
  lease : w'.lease = w.lease
  handled : w'.handled = w.handled

-- Only the environment has changed.
structure Frozen (w w' : World) : Prop where
  same : Same w w'
  statusPublished : w'.statusPublished = w.statusPublished
  ends : w'.ends = w.ends

theorem Same.bodyExact {w w' : World} (h : Same w w') (hw : BodyExact w) : BodyExact w' := by
  unfold BodyExact
  rw [h.heap, h.headers, h.wire]
  exact hw

theorem Frozen.refl (w : World) : Frozen w w := ⟨⟨rfl, rfl, rfl, rfl, rfl⟩, rfl, rfl⟩

theorem Frozen.env {w w' : World} (h : Frozen w w') (env : Env) : Frozen w { w' with env } :=
  ⟨⟨h.same.heap, h.same.wire, h.same.headers, h.same.lease, h.same.handled⟩, h.statusPublished,
    h.ends⟩

section Handler

variable {w : World} {exn : Exn} {reason : StreamEndReason}

theorem triple_publish (hunpublished : Unpublished w) (hlease : w.lease = .held)
    (hresting : w.heap.Resting)
    : Program.Triple (Frozen w) (publishStatus v reason)
        (fun _ w' => Same w w' ∧ Published v.request.sid reason w')
        (fun _ w' => v.setEndedThrows = true ∧ Frozen w w') (Frozen w) := by
  let Rest (w' : World) : Prop :=
    w'.wire = w.wire ∧ w'.headers = w.headers ∧ w'.lease = w.lease ∧ w'.handled = w.handled
  have hsession : HasSession (fun h => h = w.heap) := by
    intro h heq
    rw [heq]
    exact hresting.hasSession
  have happart : Apart Rest := by
    intro u u' hwire hheaders hlease hhandled hu
    exact ⟨by rw [hwire, hu.1], by rw [hheaders, hu.2.1], by rw [hlease, hu.2.2.1],
      by rw [hhandled, hu.2.2.2]⟩
  have hfrozen : ∀ w', Collecting (fun h => h = w.heap) Rest w' → Frozen w w' := by
    intro w' ⟨hheap, hunpub, _, hwire, hheaders, hlease', hhandled⟩
    exact ⟨⟨hheap, hwire, hheaders, hlease', hhandled⟩, by rw [hunpub.1, hunpublished.1],
      by rw [hunpub.2, hunpublished.2]⟩
  apply (triple_publishStatus hsession happart).conseq
  . intro w' hw'
    refine ⟨hw'.same.heap, ⟨?_, ?_⟩, ?_, hw'.same.wire, hw'.same.headers, hw'.same.lease,
      hw'.same.handled⟩
    . rw [hw'.statusPublished, hunpublished.1]
    . rw [hw'.ends, hunpublished.2]
    . rw [hw'.same.lease, hlease]
  . intro _ w' ⟨hheap, hpublished, _, hwire, hheaders, hlease', hhandled⟩
    exact ⟨⟨hheap, hwire, hheaders, hlease', hhandled⟩, hpublished⟩
  . exact fun _ w' hw' => ⟨hw'.1, hfrozen w' hw'.2⟩
  . exact hfrozen

theorem triple_publish_again (hpublished : w.statusPublished = true) {E : Exn → World → Prop}
    : Program.Triple (Frozen w) (publishStatus v reason) (fun _ => Frozen w) E (Frozen w) := by
  apply triple_publishStatus_published.pre
  exact fun w' hw' => ⟨by rw [hw'.statusPublished, hpublished], hw'⟩

theorem triple_isRunning_frozen {E : Exn → World → Prop}
    : Program.Triple (fun w' => w' = w) (onEnv isRunning)
        (fun running w' => (w.env.running = false → running = false) ∧ Frozen w w') E (Frozen w) := by
  have hframe : Program.Triple (Frozen w) (onEnv isRunning) (fun _ => Frozen w) E (Frozen w) :=
    triple_onEnv_noexcept neverRaises_isRunning fun env _ hw' => hw'.env env
  have hstart : ∀ w', w' = w → Frozen w w' := by
    intro w' heq
    rw [heq]
    exact Frozen.refl w
  cases hrunning : w.env.running with
  | true =>
    apply hframe.conseq hstart
    . exact fun _ _ hw' => ⟨by simp, hw'⟩
    . exact fun _ _ hw' => hw'
    . exact fun _ hw' => hw'
  | false =>
    have hstopped := Program.triple_zoom (p := envPart) (F := fun _ : World => True)
      triple_isRunning_stopped fun _ _ hw' => hw'
    apply (hstopped.and hframe).conseq
    . intro w' heq
      refine ⟨⟨?_, trivial⟩, hstart w' heq⟩
      rw [heq]
      exact hrunning
    . exact fun _ _ hw' => ⟨fun _ => hw'.1.1.1, hw'.2⟩
    . exact fun _ _ hw' => hw'.2
    . exact fun _ hw' => hw'.2

theorem triple_publishException (hunpublished : Unpublished w) (hlease : w.lease = .held)
    (hresting : w.heap.Resting)
    : Program.Triple (fun w' => w' = w) (publishException v exn)
        (fun _ w' => ∃ reason, (reason ≠ .Active ∧ reason ≠ .ManualCleanup) ∧
          ((∀ error, exn ≠ .bridge error) → w.env.running = false → reason = .ServerStopped) ∧
          Same w w' ∧ Published v.request.sid reason w')
        (fun _ w' => v.setEndedThrows = true ∧ Frozen w w') (Frozen w) := by
  have hpublish : ∀ reason : StreamEndReason, reason ≠ .Active ∧ reason ≠ .ManualCleanup →
      ((∀ error, exn ≠ .bridge error) → w.env.running = false → reason = .ServerStopped) →
      Program.Triple (Frozen w) (publishStatus v reason)
        (fun _ w' => ∃ reason, (reason ≠ .Active ∧ reason ≠ .ManualCleanup) ∧
          ((∀ error, exn ≠ .bridge error) → w.env.running = false → reason = .ServerStopped) ∧
          Same w w' ∧ Published v.request.sid reason w')
        (fun _ w' => v.setEndedThrows = true ∧ Frozen w w') (Frozen w) := by
    intro reason hne hstopped
    apply (triple_publish hunpublished hlease hresting).conseq
    . exact fun _ hw' => hw'
    . exact fun _ _ hw' => ⟨reason, hne, hstopped, hw'⟩
    . exact fun _ _ hw' => hw'
    . exact fun _ hw' => hw'
  cases exn with
  | clientDisconnected | other =>
    apply Program.triple_bind triple_isRunning_frozen
    intro running
    apply Program.Triple.given
    intro hrunning
    apply hpublish
    . cases running <;> decide
    . intro _ hstop
      rw [hrunning hstop]
      rfl
  | bridge error =>
    apply (hpublish _ _ _).pre
    . intro w' heq
      rw [heq]
      exact Frozen.refl w
    . split
      . decide
      . split
        . decide
        . decide
    . exact fun hexn => absurd rfl (hexn error)

theorem triple_publishException_again (hpublished : w.statusPublished = true) {E : Exn → World → Prop}
    : Program.Triple (fun w' => w' = w) (publishException v exn) (fun _ => Frozen w) E (Frozen w) := by
  cases exn with
  | clientDisconnected =>
    apply Program.triple_bind triple_isRunning_frozen
    intro running
    apply (triple_publish_again hpublished).pre
    exact fun _ hw' => hw'.2
  | bridge error =>
    apply (triple_publish_again hpublished).pre
    intro w' heq
    rw [heq]
    exact Frozen.refl w
  | other =>
    apply Program.triple_bind triple_isRunning_frozen
    intro running
    apply (triple_publish_again hpublished).pre
    exact fun _ hw' => hw'.2

end Handler

-- What reaches a `catch` clause.
structure Interrupted (sid : Bytes) (w : World) : Prop where
  resting : w.heap.Resting
  body : BodyExact w
  held : Held w
  publication : Unpublished w ∨ ∃ reason, reason.OfStream ∧ Published sid reason w

-- What leaves the `try` statement by an exception.
structure Left (v : Setting) (w : World) : Prop where
  resting : w.heap.Resting
  body : BodyExact w
  lease : w.lease = .held
  publication : (v.setEndedThrows = true ∧ w.ends = []) ∨ Recorded v.request.sid w

-- What holds wherever the handler is cut while it has a lease.
structure Midway (w : World) : Prop where
  safe : w.heap.Safe
  body : BodyExact w
  lease : w.lease = .held
  ends : w.ends.length ≤ 1

theorem Published.length_ends {reason : StreamEndReason} {w : World} (h : Published sid reason w)
    : w.ends.length ≤ 1 := by
  obtain ⟨_, r, hends, _⟩ := h
  simp [hends]

theorem Unpublished.length_ends {w : World} (h : Unpublished w) : w.ends.length ≤ 1 := by
  simp [h.2]

theorem Recorded.length_ends {w : World} (h : Recorded sid w) : w.ends.length ≤ 1 := by
  obtain ⟨r, hends, _⟩ := h
  simp [hends]

theorem Interrupted.length_ends {w : World} (h : Interrupted sid w) : w.ends.length ≤ 1 := by
  rcases h.publication with hw | ⟨_, _, hw⟩
  . exact hw.length_ends
  . exact hw.length_ends

theorem Interrupted.of_serve {w : World} (h : Preparing Resting w ∨ Delivering sid w)
    : Interrupted sid w := by
  rcases h with hw | hw
  . exact ⟨hw.heap, .inl hw.headers, hw.lease, .inl hw.unpublished⟩
  . have hbody := hw.bodyExact
    obtain ⟨⟨_, _, hemits, _⟩, hheld, hpublication⟩ := hw
    exact ⟨hemits.resting, hbody, hheld, hpublication⟩

theorem triple_handleException {exn : Exn}
    : Program.Triple (Interrupted v.request.sid) (handleException v exn) (fun _ _ => False)
        (fun _ => Left v) Midway := by
  intro before ts hbefore
  let caught : World := { before with
    handled := some { exn, stopped := !before.env.running, published := before.statusPublished } }
  have hbody : BodyExact caught := hbefore.body
  have hmidway : ∀ w, Frozen caught w → Midway w := by
    intro w hw
    refine ⟨?_, hw.same.bodyExact hbody, ?_, ?_⟩
    . rw [hw.same.heap]
      exact hbefore.resting.safe
    . rw [hw.same.lease]
      exact hbefore.held.1
    . rw [hw.ends]
      exact hbefore.length_ends
  have hleft : ∀ w, Same caught w →
      ((v.setEndedThrows = true ∧ w.ends = []) ∨ Recorded v.request.sid w) → Left v w := by
    intro w hw hpublication
    refine ⟨?_, hw.bodyExact hbody, ?_, hpublication⟩
    . rw [hw.heap]
      exact hbefore.resting
    . rw [hw.lease]
      exact hbefore.held.1
  have hpublish : Program.Triple (fun w => w = caught) (publishException v exn) (fun _ => Left v)
      (fun _ => Left v) Midway := by
    rcases hbefore.publication with hunpublished | ⟨reason, hreason, hpublished⟩
    . apply (triple_publishException (w := caught) hunpublished hbefore.held.1
        hbefore.resting).conseq
      . exact fun _ hw => hw
      . intro _ w ⟨reason, hne, hstopped, hsame, hpublished⟩
        apply hleft w hsame
        right
        apply hpublished.recorded_exception hne hsame.handled
        . exact hunpublished.1
        . intro hexn hstop
          exact hstopped hexn (by simpa using hstop)
      . intro _ w ⟨hthrows, hw⟩
        apply hleft w hw.same
        exact .inl ⟨hthrows, by rw [hw.ends]; exact hunpublished.2⟩
      . exact hmidway
    . apply (triple_publishException_again (w := caught) hpublished.1
        (E := fun _ _ => False)).conseq
      . exact fun _ hw => hw
      . intro _ w hw
        apply hleft w hw.same
        right
        have hnow : Published v.request.sid reason w := by
          obtain ⟨hstatus, r, hends, hr⟩ := hpublished
          exact ⟨by rw [hw.statusPublished]; exact hstatus, r, by rw [hw.ends]; exact hends, hr⟩
        apply hnow.recorded_ofStream hreason
        intro handled hsome
        rw [hw.same.handled] at hsome
        injection hsome with hsome
        rw [← hsome]
        exact hpublished.1
      . exact fun _ _ hw => hw.elim
      . exact hmidway
  have hhandle : Program.Triple (fun w => w = before) (handleException v exn) (fun _ _ => False)
      (fun _ => Left v) Midway := by
    apply Program.triple_bind (R := fun _ w => w = caught)
    . apply Program.triple_update
      intro w heq
      rw [heq]
    . intro _
      apply Program.triple_bind hpublish
      intro _
      exact Program.triple_raise fun _ hw => hw
  exact hhandle before ts rfl

theorem Left.of_delivered {w : World} (h : Delivered v.request.sid w) : Left v w := by
  have hbody := h.delivering.bodyExact
  obtain ⟨⟨_, _, hemits, _⟩, hheld, _⟩ := h.delivering
  obtain ⟨reason, hreason, hpublished⟩ := h.published
  refine ⟨hemits.resting, hbody, hheld.1, .inr (hpublished.recorded_ofStream hreason ?_)⟩
  intro handled hsome
  rw [hheld.2] at hsome
  cases hsome

section Cleanup

variable {B : World → Prop}

-- What the destructors keep, whatever they release.
structure Kept (v : Setting) (B : World → Prop) (w : World) : Prop where
  body : BodyExact w
  more : B w
  lease : w.lease = .held
  publication : (v.setEndedThrows = true ∧ w.ends = []) ∨ Recorded v.request.sid w

theorem Kept.length_ends {w : World} (h : Kept v B w) : w.ends.length ≤ 1 := by
  rcases h.publication with ⟨_, hends⟩ | hrecorded
  . simp [hends]
  . exact hrecorded.length_ends

theorem triple_reset {P P' : Heap → Prop} {m : Program Pipeline Tick Exn Unit}
    {E : Exn → World → Prop}
    (hB : ∀ {m : Program Pipeline Tick Exn Unit},
      (∀ output eof, Pipeline.Stays (Emitted output eof) m) → Program.Keeps B (onPipeline m))
    (hm : Pipeline.Does P m (fun _ => P') (fun _ _ => False) Safe)
    (hemitted : ∀ output eof, Pipeline.Stays (Emitted output eof) m)
    : Program.Triple (fun w => P w.heap ∧ Kept v B w) (onPipeline m)
        (fun _ w => P' w.heap ∧ Kept v B w) E Midway := by
  have hheap := triple_onPipeline (F := fun w => w.lease = .held ∧
    ((v.setEndedThrows = true ∧ w.ends = []) ∨ Recorded v.request.sid w)) hm fun _ _ hw => hw
  apply ((hheap.and (keeps_bodyExact hemitted)).and (hB hemitted)).conseq
  . exact fun _ hw => ⟨⟨⟨hw.1, hw.2.lease, hw.2.publication⟩, hw.2.body⟩, hw.2.more⟩
  . exact fun _ _ hw => ⟨hw.1.1.1, hw.1.2, hw.2, hw.1.1.2.1, hw.1.1.2.2⟩
  . exact fun _ _ hw => hw.1.1.1.elim
  . intro w hw
    have hkept : Kept v B w := ⟨hw.1.2, hw.2, hw.1.1.2.1, hw.1.1.2.2⟩
    exact ⟨hw.1.1.1, hkept.body, hkept.lease, hkept.length_ends⟩

theorem keeps_log {P C : World → Prop} {E : Exn → World → Prop}
    (hP : ∀ env w, P w → P { w with env }) (hC : ∀ w, P w → C w)
    : Program.Triple P (Program.rescue (onEnv (logLine v)) fun _ => pure ()) (fun _ => P) E C := by
  apply Program.triple_rescue (D := fun _ => P)
  . exact (keeps_onEnv hP).conseq (fun _ hw => hw) (fun _ _ hw => hw) (fun _ _ hw => hw) hC
  . intro _
    exact Program.triple_pure fun _ hw => hw

theorem triple_cleanup {E : Exn → World → Prop}
    (hB : ∀ {m : Program Pipeline Tick Exn Unit},
      (∀ output eof, Pipeline.Stays (Emitted output eof) m) → Program.Keeps B (onPipeline m))
    (hBenv : ∀ env w, B w → B { w with env })
    : Program.Triple (fun w => w.heap.Resting ∧ Kept v B w) (cleanup v)
        (fun _ w => w.heap.Idle ∧ Kept v B w) E Midway := by
  apply Program.triple_bind
    (triple_reset hB Pipeline.does_resetProbe fun _ _ => Pipeline.lasting_emitted.resetProcess)
  intro _
  apply Program.triple_bind
    (triple_reset hB Pipeline.does_resetOutput fun _ _ => Pipeline.lasting_emitted.resetProcess)
  intro _
  apply Program.triple_bind
    (triple_reset hB Pipeline.does_resetLast fun _ _ => Pipeline.lasting_emitted.resetSession)
  intro _
  apply keeps_log
  . exact fun env w hw => ⟨hw.1, hw.2.body, hBenv env w hw.2.more, hw.2.lease, hw.2.publication⟩
  . exact fun _ hw => ⟨hw.1.safe, hw.2.body, hw.2.lease, hw.2.length_ends⟩

end Cleanup

end World
end HikBridge
