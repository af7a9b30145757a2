import HikBridge.Video.Ending

/-!
This module contains what holds of every run of `handle_video`: who owns the pipeline, what the
browser receives and how the end of the session is published.
-/

namespace HikBridge.World

open Heap (Idle Resting Safe)

variable {v : Setting} {B : World → Prop} {E : Exn → World → Prop}

-- The handler has no lease and nothing to release.
structure Fresh (w : World) : Prop where
  idle : w.heap.Idle
  unpublished : Unpublished w
  lease : w.lease = .none
  headers : w.headers = none
  handled : w.handled = none

-- Without a record either the first log line or `set_ended` has thrown.
def Publication (v : Setting) (w : World) : Prop :=
  ((v.setEndedThrows = true ∨ v.loggingThrows = true) ∧ w.ends = []) ∨ Recorded v.request.sid w

theorem Publication.length_ends {w : World} (h : Publication v w) : w.ends.length ≤ 1 := by
  rcases h with ⟨_, hends⟩ | hrecorded
  . simp [hends]
  . exact hrecorded.length_ends

-- The pipeline is gone, and only the lease or not even that is left.
structure Finished (v : Setting) (lease : LeaseState) (w : World) : Prop where
  idle : w.heap.Idle
  body : BodyExact w
  lease : w.lease = lease
  publication : Publication v w

-- What holds at every point of a run.
def Anywhere (v : Setting) (w : World) : Prop := Fresh w ∨ Midway w ∨ Finished v .released w

theorem Finished.midway {w : World} (h : Finished v .held w) : Midway w :=
  ⟨h.idle.safe, h.body, h.lease, h.publication.length_ends⟩

theorem Preparing.midway {H : Heap → Prop} {w : World} (h : Preparing H w)
    (hsafe : H w.heap → w.heap.Safe) : Midway w :=
  ⟨hsafe h.heap, .inl h.headers, h.lease.1, h.unpublished.length_ends⟩

theorem triple_release (hBenv : ∀ env w, B w → B { w with env })
    (hBlease : ∀ w, B w → B { w with lease := .released })
    : Program.Triple (fun w => Finished v .held w ∧ B w) (release v)
        (fun _ w => Finished v .released w ∧ B w) E (Anywhere v) := by
  apply Program.triple_bind (R := fun _ w => Finished v .held w ∧ B w)
  . apply (triple_onEnv_noexcept (E := E) (P := fun w => Finished v .held w ∧ B w)
      neverRaises_observe fun env w hw => ⟨⟨hw.1.1, hw.1.2, hw.1.3, hw.1.4⟩, hBenv env w hw.2⟩).conseq
    . exact fun _ hw => hw
    . exact fun _ _ hw => hw
    . exact fun _ _ hw => hw
    . exact fun _ hw => .inr (.inl hw.1.midway)
  . intro _
    apply Program.triple_bind (R := fun _ w => Finished v .released w ∧ B w)
    . apply Program.triple_update
      exact fun w hw => ⟨⟨hw.1.1, hw.1.2, rfl, hw.1.4⟩, hBlease w hw.2⟩
    . intro _
      apply keeps_log
      . exact fun env w hw => ⟨⟨hw.1.1, hw.1.2, hw.1.3, hw.1.4⟩, hBenv env w hw.2⟩
      . exact fun _ hw => .inr (.inr hw.1)

theorem Kept.finished {w : World} (h : w.heap.Idle ∧ Kept v B w) : Finished v .held w := by
  refine ⟨h.1, h.2.body, h.2.lease, ?_⟩
  rcases h.2.publication with ⟨hthrows, hends⟩ | hrecorded
  . exact .inl ⟨.inl hthrows, hends⟩
  . exact .inr hrecorded

theorem triple_scope
    : Program.Triple (Preparing Idle)
        (Program.ensuring (Program.rescue (serve v) (handleException v)) (cleanup v))
        (fun _ w => Finished v .held w ∧ BodyComplete w) (fun _ => Finished v .held)
        (Anywhere v) := by
  have hcomplete : ∀ {m : Program Pipeline Tick Exn Unit},
      (∀ output eof, Pipeline.Stays (Heap.Emitted output eof) m) →
      Program.Keeps BodyComplete (onPipeline m) :=
    fun hm => keeps_onPipeline_emitted (R := fun output eof headers wire => eof = true ∧
      ∃ n, ∃ chunks : List Bytes, headers = some n ∧ (∀ chunk ∈ chunks, chunk ≠ []) ∧
        chunks.flatten = output ∧ wire.drop n = Chunked.encode chunks) hm
  have hany : ∀ {m : Program Pipeline Tick Exn Unit},
      (∀ output eof, Pipeline.Stays (Heap.Emitted output eof) m) →
      Program.Keeps (fun _ : World => True) (onPipeline m) :=
    fun _ => Program.keeps_zoom fun _ _ hw => hw
  apply Program.triple_ensuring (K := fun _ w => Left v w ∧ BodyComplete w) (D := fun _ => Left v)
  . apply Program.triple_rescue
    . apply triple_serve.conseq
      . exact fun _ hw => hw
      . exact fun _ _ hw => ⟨Left.of_delivered hw, hw.bodyComplete⟩
      . exact fun _ _ hw => Interrupted.of_serve hw
      . intro w hw
        rcases hw with hw | hw
        . exact .inr (.inl (hw.midway fun hh => hh))
        . have hinterrupted : Interrupted v.request.sid w := Interrupted.of_serve (.inr hw)
          exact .inr (.inl ⟨hinterrupted.resting.safe, hinterrupted.body, hinterrupted.held.1,
            hinterrupted.length_ends⟩)
    . intro exn
      apply triple_handleException.conseq
      . exact fun _ hw => hw
      . exact fun _ _ hw => hw.elim
      . exact fun _ _ hw => hw
      . exact fun _ hw => .inr (.inl hw)
  . intro _
    apply (triple_cleanup (v := v) (B := BodyComplete) (E := fun _ => Finished v .held) hcomplete
      fun _ _ hw => hw).conseq
    . exact fun _ hw => ⟨hw.1.resting, hw.1.body, hw.2, hw.1.lease, hw.1.publication⟩
    . exact fun _ _ hw => ⟨Kept.finished hw, hw.2.more⟩
    . exact fun _ _ hw => hw
    . exact fun _ hw => .inr (.inl hw)
  . intro _
    apply (triple_cleanup (v := v) (B := fun _ => True) (E := fun _ => Finished v .held) hany
      fun _ _ hw => hw).conseq
    . exact fun _ hw => ⟨hw.resting, hw.body, trivial, hw.lease, hw.publication⟩
    . exact fun _ _ hw => Kept.finished hw
    . exact fun _ _ hw => hw
    . exact fun _ hw => .inr (.inl hw)

theorem triple_logLine {P : World → Prop} (hP : ∀ env w, P w → P { w with env })
    : Program.Triple P (onEnv (logLine v)) (fun _ => P) (fun _ w => v.loggingThrows = true ∧ P w)
        P := by
  cases hthrows : v.loggingThrows with
  | true =>
    apply (keeps_onEnv hP).conseq
    . exact fun _ hw => hw
    . exact fun _ _ hw => hw
    . exact fun _ _ hw => ⟨rfl, hw⟩
    . exact fun _ hw => hw
  | false =>
    have hnever : Program.NeverRaises (logLine v) := by
      apply Program.neverRaises_bind neverRaises_observe
      intro tick
      cases tick.fails with
      | none => exact Program.neverRaises_pure
      | some exn =>
        simp only [hthrows]
        exact Program.neverRaises_pure
    exact triple_onEnv_noexcept hnever hP

theorem triple_handleVideo
    : Program.Triple Fresh (handleVideo v)
        (fun _ w => Finished v .released w ∧ BodyComplete w)
        (fun _ w => Fresh w ∨ Finished v .released w) (Anywhere v) := by
  have hfresh : ∀ env w, Fresh w → Fresh { w with env } :=
    fun _ _ hw => ⟨hw.1, hw.2, hw.3, hw.4, hw.5⟩
  have hkeeps : ∀ {α : Type} {m : Program Env Tick Exn α},
      Program.Triple Fresh (onEnv m) (fun _ => Fresh) (fun _ w => Fresh w ∨ Finished v .released w)
        (Anywhere v) := by
    intro α m
    apply (keeps_onEnv hfresh).conseq
    . exact fun _ hw => hw
    . exact fun _ _ hw => hw
    . exact fun _ _ hw => .inl hw
    . exact fun _ hw => .inl hw
  apply Program.triple_bind hkeeps
  intro _
  apply Program.triple_bind
    (R := fun reserved w => (reserved = true ∧ Preparing Idle w) ∨ (reserved = false ∧ Fresh w))
  . apply Program.triple_bind hkeeps
    intro answer
    apply Program.triple_ite
    . intro _
      exact Program.triple_pure fun _ hw => .inr ⟨rfl, hw⟩
    . intro _
      apply Program.triple_bind (R := fun _ => Preparing Idle)
      . apply Program.triple_update
        exact fun _ hw => ⟨hw.idle, hw.unpublished, ⟨rfl, hw.handled⟩, hw.headers⟩
      . intro _
        exact Program.triple_pure fun _ hw => .inl ⟨rfl, hw⟩
  . intro reserved
    apply Program.Triple.or
    . apply Program.Triple.given
      intro hreserved
      rw [hreserved]
      apply Program.triple_ensuring (K := fun _ w => Finished v .held w ∧ BodyComplete w)
        (D := fun _ => Finished v .held)
      . apply Program.triple_bind
        . apply (triple_logLine (P := Preparing Idle) fun _ _ hw => ⟨hw.1, hw.2, hw.3, hw.4⟩).conseq
          . exact fun _ hw => hw
          . exact fun _ _ hw => hw
          . exact fun _ _ hw => ⟨hw.2.heap, .inl hw.2.headers, hw.2.lease.1,
              .inl ⟨.inr hw.1, hw.2.unpublished.2⟩⟩
          . exact fun _ hw => .inr (.inl (hw.midway Idle.safe))
        . intro _
          exact triple_scope
      . intro _
        exact triple_release (fun _ _ hw => hw) fun _ hw => hw
      . intro _
        apply (triple_release (v := v) (B := fun _ => True)
          (E := fun _ w => Fresh w ∨ Finished v .released w) (fun _ _ hw => hw) fun _ hw => hw).conseq
        . exact fun _ hw => ⟨hw, trivial⟩
        . exact fun _ _ hw => .inr hw.1
        . exact fun _ _ hw => hw
        . exact fun _ hw => hw
    . apply Program.Triple.given
      intro hreserved
      rw [hreserved]
      exact Program.triple_raise fun _ hw => .inl hw

/--
Who is alive and who owns the capacity slot: one session, one process, the session while there is a
process, and the lease while there is a session.
-/
structure PipelineOwned (w : World) : Prop where
  sessions : w.heap.sessions.length ≤ 1
  processes : w.heap.processes.length ≤ 1
  pump : ∀ p ∈ w.heap.processes, ∀ id, p.pump = some id → ∃ s ∈ w.heap.sessions, s.id = id
  process : w.heap.processes ≠ [] → w.heap.sessions ≠ []
  lease : w.heap.sessions ≠ [] → w.lease = .held
  destroyed : ∀ p ∈ w.heap.destroyed, p.Stopped
  defined : w.heap.undefined = false

theorem PipelineOwned.of_safe {w : World} (hsafe : w.heap.Safe)
    (hlease : w.heap.sessions ≠ [] → w.lease = .held) : PipelineOwned w := by
  obtain ⟨session, process, owners, hh, hfed⟩ := hsafe
  have hsessions : w.heap.sessions.length = session.toList.length := by
    rw [← hh.sessions, List.length_map]
  refine ⟨?_, ?_, ?_, ?_, hlease, hh.destroyed, hh.defined⟩
  . rw [hsessions]
    cases session <;> simp
  . rw [hh.processes]
    cases process <;> simp
  . intro p hp id hpump
    rw [hh.processes] at hp
    obtain ⟨id', hsession, hpid⟩ := hfed p (by simpa using hp)
    have hid : id ∈ w.heap.sessions.map (·.id) := by
      rw [hh.sessions, hsession, hpid id hpump]
      simp
    simpa using hid
  . intro hprocess hnone
    rw [hh.processes] at hprocess
    obtain ⟨p, hp⟩ := Option.ne_none_iff_exists'.mp (by simpa using hprocess)
    obtain ⟨id, hsession, _⟩ := hfed p hp
    rw [hnone, hsession] at hsessions
    simp at hsessions

theorem Idle.sessions {h : Heap} (hh : h.Idle) : h.sessions = [] := by
  simpa using hh.sessions

theorem PipelineOwned.of_idle {w : World} (hidle : w.heap.Idle) : PipelineOwned w :=
  of_safe hidle.safe fun hsessions => absurd (Idle.sessions hidle) hsessions

theorem Anywhere.pipelineOwned {w : World} (h : Anywhere v w) : PipelineOwned w := by
  rcases h with hw | hw | hw
  . exact .of_idle hw.idle
  . exact .of_safe hw.safe fun _ => hw.lease
  . exact .of_idle hw.idle

theorem fresh_empty : Fresh {} where
  idle := ⟨rfl, rfl, rfl, rfl, rfl, by simp, rfl⟩
  unpublished := ⟨rfl, rfl⟩
  lease := rfl
  headers := rfl
  handled := rfl

theorem ends_run (v : Setting) (ticks : List Tick)
    : Program.Ends (fun _ w => Finished v .released w ∧ BodyComplete w)
        (fun _ w => Fresh w ∨ Finished v .released w) (Anywhere v) (handleVideo v {} ticks) :=
  triple_handleVideo {} ticks fresh_empty

theorem anywhere_run (v : Setting) (ticks : List Tick) : Anywhere v (run v ticks).2 := by
  have hends := ends_run v ticks
  unfold run
  rcases hrun : handleVideo v {} ticks with ⟨_ | exn | _, w, rest⟩
  all_goals rw [hrun] at hends
  . exact .inr (.inr hends.1)
  . rcases hends with hw | hw
    . exact .inl hw
    . exact .inr (.inr hw)
  . exact hends

theorem left_run {ticks : List Tick} (hcut : (run v ticks).1 ≠ .cut)
    : (run v ticks).2.heap.sessions = [] ∧ (run v ticks).2.heap.processes = [] ∧
        (run v ticks).2.lease ≠ .held := by
  have hends := ends_run v ticks
  have hleft : ∀ w : World, Fresh w ∨ Finished v .released w →
      w.heap.sessions = [] ∧ w.heap.processes = [] ∧ w.lease ≠ .held := by
    intro w hw
    have hidle : w.heap.Idle := hw.elim (·.idle) (·.idle)
    refine ⟨Idle.sessions hidle, hidle.processes, ?_⟩
    rcases hw with hw | hw
    . rw [hw.lease]
      decide
    . rw [hw.lease]
      decide
  unfold run at hcut ⊢
  rcases hrun : handleVideo v {} ticks with ⟨_ | exn | _, w, rest⟩
  all_goals rw [hrun] at hends hcut
  . exact hleft w (.inr hends.1)
  . exact hleft w hends
  . exact absurd rfl hcut

/--
At every point of every run the objects of the handler are alive in the order of their ownership, and
a run that ends leaves nothing behind.
-/
theorem pipeline_ownership (v : Setting) (ticks : List Tick)
    : PipelineOwned (run v ticks).2 ∧
        ((run v ticks).1 ≠ .cut → (run v ticks).2.heap.sessions = [] ∧
          (run v ticks).2.heap.processes = [] ∧ (run v ticks).2.lease ≠ .held) := by
  constructor
  . exact (anywhere_run v ticks).pipelineOwned
  . exact left_run

/--
The bytes after the header block are a part, from its start, of an encoding that decodes to what was
read from the process, and reach its last chunk only after the end of that output.
-/
structure BodyDecodes (body : Bytes) (p : FfmpegProcess) (chunks : List Bytes) : Prop where
  nonempty : ∀ chunk ∈ chunks, chunk ≠ []
  carries : chunks.flatten = p.output
  decodes : Chunked.decode (Chunked.encode chunks) = some p.output
  part : body <+: Chunked.frames chunks ∨ (p.eof = true ∧ body <+: Chunked.encode chunks)

theorem BodyExact.decodes {w : World} (h : BodyExact w) {n : Nat} (hn : w.headers = some n)
    : ∃ p chunks, w.heap.Latest p ∧ BodyDecodes (w.wire.drop n) p chunks := by
  rcases h with hnone | ⟨output, eof, ⟨p, hlatest, houtput, heof⟩, hbody⟩
  . rw [hnone] at hn
    contradiction
  . obtain ⟨chunks, hchunks, hflatten, hpart⟩ := hbody n hn
    refine ⟨p, chunks, hlatest, hchunks, hflatten.trans houtput.symm, ?_, ?_⟩
    . rw [Chunked.decode_encode hchunks, hflatten, houtput]
    . rw [heof]
      exact hpart

theorem BodyComplete.decode {w : World} (h : BodyComplete w)
    : ∃ n p, w.headers = some n ∧ w.heap.Latest p ∧ p.eof = true ∧
        Chunked.decode (w.wire.drop n) = some p.output := by
  obtain ⟨output, eof, ⟨p, hlatest, houtput, heof⟩, hend, n, chunks, hn, hchunks, hflatten, hwire⟩ := h
  refine ⟨n, p, hn, hlatest, heof.trans hend, ?_⟩
  rw [hwire, Chunked.decode_encode hchunks, hflatten, houtput]

theorem Anywhere.bodyExact {w : World} (h : Anywhere v w) : BodyExact w := by
  rcases h with hw | hw | hw
  . exact .inl hw.headers
  . exact hw.body
  . exact hw.body

/--
At every point of every run the browser has received a part of the encoding of what FFmpeg emitted,
and all of it from a run that returns. `write_socket_all` reports success only for bytes that were all
sent, each once.
-/
theorem body_exactness (v : Setting) (ticks : List Tick)
    : (∀ n, (run v ticks).2.headers = some n →
          ∃ p chunks, (run v ticks).2.heap.Latest p ∧
            BodyDecodes ((run v ticks).2.wire.drop n) p chunks) ∧
        ((run v ticks).1 = .ok () → ∃ n p, (run v ticks).2.headers = some n ∧
          (run v ticks).2.heap.Latest p ∧ p.eof = true ∧
          Chunked.decode ((run v ticks).2.wire.drop n) = some p.output) ∧
        ∀ before data, Program.Triple (fun c => c.wire = before) (Client.writeSocketAll v data)
          (fun ok c => (ok = true → c.wire = before ++ data) ∧ Client.Sent before data c)
          (fun _ => Client.Sent before data) (Client.Sent before data) := by
  refine ⟨?_, ?_, ?_⟩
  . intro n hn
    exact (anywhere_run v ticks).bodyExact.decodes hn
  . intro hok
    have hends := ends_run v ticks
    unfold run at hok ⊢
    rcases hrun : handleVideo v {} ticks with ⟨_ | exn | _, w, rest⟩
    all_goals rw [hrun] at hends hok
    . exact hends.2.decode
    . cases hok
    . cases hok
  . intro before data
    exact Client.triple_writeSocketAll

theorem Anywhere.length_ends {w : World} (h : Anywhere v w) : w.ends.length ≤ 1 := by
  rcases h with hw | hw | hw
  . exact hw.unpublished.length_ends
  . exact hw.ends
  . exact hw.publication.length_ends

theorem Publication.recorded {w : World} (h : Publication v w) (hlogging : v.loggingThrows = false)
    (hsetEnded : v.setEndedThrows = false) : Recorded v.request.sid w := by
  rcases h with ⟨hthrows, _⟩ | hrecorded
  . rw [hlogging, hsetEnded] at hthrows
    simp at hthrows
  . exact hrecorded

theorem Anywhere.recorded {w : World} (h : Anywhere v w) (hlogging : v.loggingThrows = false)
    (hsetEnded : v.setEndedThrows = false) (hlease : w.lease = .released)
    : Recorded v.request.sid w := by
  rcases h with hw | hw | hw
  . rw [hw.lease] at hlease
    contradiction
  . rw [hw.lease] at hlease
    contradiction
  . exact hw.publication.recorded hlogging hsetEnded

/--
The end of a session is published at most once at every point, and exactly once, with a reason that
tells what happened, when the lease is returned; and a run that ends has returned it.
-/
theorem end_publication (v : Setting) (hlogging : v.loggingThrows = false)
    (hsetEnded : v.setEndedThrows = false) (ticks : List Tick)
    : (run v ticks).2.ends.length ≤ 1 ∧
        ((run v ticks).2.lease = .released →
          ∃ r, (run v ticks).2.ends = [r] ∧ Truthful v.request.sid (run v ticks).2.handled r) ∧
        ((run v ticks).1 ≠ .cut → (run v ticks).2.lease ≠ .held) := by
  refine ⟨?_, ?_, fun hcut => (left_run hcut).2.2⟩
  . exact (anywhere_run v ticks).length_ends
  . exact (anywhere_run v ticks).recorded hlogging hsetEnded

-- A live view that FFmpeg copies.
def liveView : Setting where
  request :=
    { option := .RealPlay, ip := "10.0.0.1", port := 8000, speedIsOne := true
      startTime := 0, endTime := 0, sid := [65] }
  windows := false
  hardwareBackend := false
  enableAudio := true
  readVideoCodecFromDevice := true
  realplayKeyframeIntervalFrames := 25
  loggingThrows := false
  setEndedThrows := false

-- FFmpeg has output for a while, then its end is reached, and then the server stops.
def streamEnd (rounds : Nat) : List Tick :=
  let quiet : Tick := {}
  List.replicate 100 { quiet with data := Bytes.lit "ftypmoovmoofmdat" }
    ++ List.replicate rounds quiet
    ++ { quiet with shutdown := true } :: List.replicate 50 quiet

theorem end_publication_streamEnd
    : (run liveView (streamEnd 50)).2.lease = .released ∧
        ∃ r, (run liveView (streamEnd 50)).2.ends = [r] ∧
          Truthful liveView.request.sid (run liveView (streamEnd 50)).2.handled r :=
  have hreleased : (run liveView (streamEnd 50)).2.lease = .released := by decide +kernel
  ⟨hreleased, (end_publication liveView rfl rfl (streamEnd 50)).2.1 hreleased⟩

/--
The end of the output is published first, and then the last chunk fails because the server stops.
-/
theorem end_publication_before_shutdown
    : (run liveView (streamEnd 14)).2.handled
          = some { exn := .clientDisconnected, stopped := true, published := true } ∧
        (run liveView (streamEnd 14)).2.ends.map (fun r => (r.reason, r.cancelledAtCall))
          = [(.FfmpegExit, false)] := by
  decide +kernel

end HikBridge.World
