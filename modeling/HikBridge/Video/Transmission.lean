import HikBridge.Video.HandleVideo
import HikBridge.Video.Stages

/-!
This module contains the transmission of the stream: what is on the wire after the headers belongs to
the chunked encoding of what was read from the process that `ffmpeg` owns.
-/

namespace HikBridge

namespace Heap

-- `output` was read from the process that `ffmpeg` owns, and `eof` says whether it has ended.
def Emits (output : Bytes) (eof : Bool) : Heap → Prop :=
  Transcoding .ffmpeg fun p => p.output = output ∧ p.eof = eof

end Heap

namespace Pipeline

open Heap (Emits Transcoding)

variable {v : Setting} {α : Type} {P : Heap → Prop} {Q : α → Heap → Prop}
  {E D : Exn → Heap → Prop} {C : Heap → Prop} {output : Bytes} {eof : Bool}

theorem Does.emits {m : Program Pipeline Tick Exn α}
    (h : ∀ id p, p.FedBy id → p.Settled → p.output = output → p.eof = eof →
      Does (Heap.Holds (some id) (some p) ((Owners.fetching id).setSlot .ffmpeg (some p.id))) m Q E C)
    : Does (Emits output eof) m Q E C := by
  apply Does.transcoding
  intro id p hfed hsettled hp
  exact h id p hfed hsettled hp.1 hp.2

theorem emits_of_holds {id : Nat} {p : FfmpegProcess} (hfed : p.FedBy id) (hsettled : p.Settled)
    (houtput : p.output = output) (heof : p.eof = eof) {h : Heap}
    (hh : h.Holds (some id) (some p) ((Owners.fetching id).setSlot .ffmpeg (some p.id)))
    : h.Emits output eof :=
  ⟨id, p, ⟨hfed, hsettled, houtput, heof⟩, hh⟩

theorem session_of_emits {h : Heap} (hh : h.Emits output eof)
    : ∃ id process owners, owners.session = some id ∧ h.Holds (some id) process owners := by
  obtain ⟨id, p, _, hh⟩ := hh
  exact ⟨id, some p, _, rfl, hh⟩

theorem triple_read
    : Program.Triple (fun p => p.heap.Emits output false) (read v)
        (fun data p => p.heap.Emits (output ++ data) data.isEmpty ∨
          (data = [] ∧ p.env.running = false ∧ p.heap.Emits output false))
        (fun _ p => p.heap.Emits output false) (fun p => p.heap.Emits output false) := by
  intro q ts ⟨id, p, ⟨hfed, hsettled, houtput, heof⟩, hq⟩
  let Now : Heap → Prop :=
    Heap.Holds (some id) (some p) ((Owners.fetching id).setSlot .ffmpeg (some p.id))
  have hnow : ∀ h, Now h → h.Emits output false :=
    fun _ hh => emits_of_holds hfed hsettled houtput heof hh
  have henv : ∀ {β : Type} {m : Program Env Tick Exn β},
      Does Now (onEnv m) (fun _ => Now) (fun _ h => h.Emits output false)
        (fun h => h.Emits output false) := does_onEnv (fun _ => hnow) hnow
  have hround : Program.Triple (fun p => Now p.heap) (readRound v p.id)
      (fun r p => Sum.elim (fun _ => Now p.heap)
        (fun data => p.heap.Emits (output ++ data) data.isEmpty ∨
          (data = [] ∧ p.env.running = false ∧ p.heap.Emits output false)) r)
      (fun _ p => p.heap.Emits output false) (fun p => p.heap.Emits output false) := by
    apply Program.triple_bind
      (R := fun running p => (running = false → p.env.running = false) ∧ Now p.heap)
    . apply (Program.triple_zoom (p := envPart) (F := fun p => Now p.heap) triple_isRunning
        fun _ _ hh => hh).conseq
      . exact fun _ hh => ⟨trivial, hh⟩
      . exact fun _ _ hh => hh
      . exact fun _ _ hh => hh.1.elim
      . exact fun p hh => hnow p.heap hh.2
    . intro running
      apply Program.triple_ite
      . intro hrunning
        apply Program.triple_pure
        intro p hp
        exact .inr ⟨rfl, hp.1 (by simpa using hrunning), hnow p.heap hp.2⟩
      . intro _
        apply Program.Triple.pre (H := fun p => Now p.heap)
        . apply Program.triple_bind henv
          intro _
          apply Program.triple_bind henv
          intro clock
          apply Program.triple_ite
          . intro _
            exact Program.triple_raise fun p hp => hnow p.heap hp
          . intro _
            apply Program.triple_bind
            . apply (does_readOutputTimeout (v := v) (p := p)).conseq
              . exact fun _ hh => hh
              . exact fun _ _ hh => hh
              . exact fun _ => hnow
              . exact hnow
            . intro count
              cases count with
              | none => exact Program.triple_pure fun _ hp => hp
              | some data =>
                apply Program.triple_pure
                intro q hq
                left
                apply emits_of_holds (p := p.receive data) hfed hsettled _ _ hq
                . simp [FfmpegProcess.receive, houtput]
                . simp [FfmpegProcess.receive, heof]
        . exact fun _ hp => hp.2
  have hread : Program.Triple (fun p => Now p.heap) (read v)
      (fun data p => p.heap.Emits (output ++ data) data.isEmpty ∨
        (data = [] ∧ p.env.running = false ∧ p.heap.Emits output false))
      (fun _ p => p.heap.Emits output false) (fun p => p.heap.Emits output false) := by
    apply Program.triple_bind (does_deref rfl)
    intro process
    apply Program.Triple.given
    intro hprocess
    rw [hprocess]
    apply Program.triple_iterate (I := fun _ (p : Pipeline) => Now p.heap)
    . exact fun _ p hp => hnow p.heap hp
    . exact fun _ => hround
  exact hread q ts hq

theorem does_queueNumber
    (hP : ∀ h, P h → h.session = none ∨
      ∃ id process owners, owners.session = some id ∧ h.Holds (some id) process owners)
    : Does P World.queueNumber (fun _ => P) D P := by
  apply does_currentHeap
  intro h hh
  have hback : ∀ h', h' = h → P h' := by
    intro h' heq
    rw [heq]
    exact hh
  rcases hP h hh with hnone | ⟨id, process, owners, howner, hheap⟩
  . rw [hnone]
    exact does_pure hback
  . rw [hheap.session_eq, howner]
    apply does_bind (R := fun _ h' => h' = h)
    . apply Does.post (K := fun session h' => session ∈ h'.sessions ∧ h' = h)
      . apply does_derefSession_mem
        intro h' heq
        rw [heq]
        exact ⟨id, process, owners, howner, hheap⟩
      . exact fun _ _ hh => hh.2
    . intro _
      apply does_bind (does_observe hback)
      intro answer
      exact does_pure hback

-- `end_reason()` of a session whose threads have stored `sdkEnd`.
def sdkReason (sdkEnd : Option SdkEnd) : StreamEndReason :=
  match sdkEnd with
  | none => .Active
  | some sdkEnd => sdkEnd.reason

def Stored (sdkEnd : Option SdkEnd) (h : Heap) : Prop :=
  ∀ session ∈ h.sessions, session.sdkEnd = sdkEnd

theorem exists_stored {h : Heap} (hh : h.Emits output eof) : ∃ sdkEnd, Stored sdkEnd h := by
  obtain ⟨id, p, _, hh⟩ := hh
  obtain ⟨session, hsession⟩ : ∃ session, h.sessions = [session] :=
    List.length_eq_one_iff.mp (by simpa using congrArg List.length hh.sessions)
  exact ⟨session.sdkEnd, by simp [Stored, hsession]⟩

theorem does_endReason {sdkEnd : Option SdkEnd}
    : Does (fun h => h.Emits output eof ∧ Stored sdkEnd h) endReason
        (fun reason h => ∃ sdkEnd', ((sdkEnd.isSome = true → sdkEnd'.isSome = true) ∧
          reason = sdkReason sdkEnd') ∧ h.Emits output eof ∧ Stored sdkEnd' h)
        (fun _ h => h.Emits output eof) (fun h => h.Emits output eof) := by
  apply does_bind (does_onEnv (fun _ _ hh => hh.1) fun _ hh => hh.1)
  intro answer
  apply does_bind (does_derefSession_mem fun _ hh => session_of_emits hh.1)
  intro session
  apply does_bind
    (R := fun _ h => ((sdkEnd.isSome = true → (answer.sdkEnd.or session.sdkEnd).isSome = true) ∧
      h.Emits output eof ∧ Stored (answer.sdkEnd.or session.sdkEnd) h))
  . apply does_updateHeap
    intro h ⟨hmem, hh, hstored⟩
    have hsdk := hstored session hmem
    obtain ⟨id, p, hp, hh⟩ := hh
    have hid : h.sessions = [session] := by
      obtain ⟨session', hsession⟩ : ∃ session', h.sessions = [session'] :=
        List.length_eq_one_iff.mp (by simpa using congrArg List.length hh.sessions)
      rw [hsession, List.mem_singleton] at hmem
      rw [hsession, hmem]
    refine ⟨?_, ⟨id, p, hp, hh.mapSession session.id fun _ => rfl⟩, ?_⟩
    . rw [hsdk]
      cases answer.sdkEnd with
      | none => exact fun hsome => hsome
      | some _ => exact fun _ => rfl
    . simp [Stored, Heap.mapSession, hid]
  . intro _
    apply Does.given
    intro hsome
    cases hor : answer.sdkEnd.or session.sdkEnd with
    | none =>
      rw [hor] at hsome
      exact does_pure fun _ hh => ⟨none, ⟨hsome, rfl⟩, hh⟩
    | some sdkEnd' =>
      rw [hor] at hsome
      exact does_pure fun _ hh => ⟨some sdkEnd', ⟨hsome, rfl⟩, hh⟩

theorem does_inputEndReason
    : Does (Emits output eof) inputEndReason (fun _ => Emits output eof) (fun _ => Emits output eof)
        (Emits output eof) := by
  apply does_bind stays_onEnv
  intro answer
  apply Does.emits
  intro id p hfed hsettled houtput heof
  apply does_bind (does_deref rfl)
  intro process
  apply Does.given
  intro hprocess
  rw [hprocess]
  apply does_bind does_mapProcess
  intro _
  apply does_pure
  intro h hh
  exact emits_of_holds (p := { p with inputTimedOut := answer.inputTimeout || p.inputTimedOut }) hfed
    hsettled houtput heof hh

end Pipeline

-- The reasons with which a stream ends that neither the browser nor an exception has ended.
def StreamEndReason.OfStream (reason : StreamEndReason) : Prop :=
  (∃ sdkEnd : SdkEnd, reason = sdkEnd.reason) ∨ reason = .SdkDataTimeout ∨ reason = .FfmpegExit ∨
    reason = .StreamEnded ∨ reason = .ServerStopped

namespace World

open Pipeline Heap

variable {v : Setting} {output : Bytes} {eof : Bool}

/--
The code reads `end_reason_` twice, and both reads find a reason when the first one does.
-/
theorem does_resolveEndReason
    : Does (Emits output eof) resolveEndReason
        (fun reason h => reason.OfStream ∧ h.Emits output eof) (fun _ => Emits output eof)
        (Emits output eof) := by
  apply does_peek
  intro h ⟨id, p, _, hh⟩
  rw [hh.session_eq, hh.ffmpeg_eq]
  apply Does.pre (H := fun h => ∃ sdkEnd, h.Emits output eof ∧ Stored sdkEnd h)
  . apply Does.exists
    intro sdkEnd
    apply does_bind does_endReason
    intro sdk
    apply Does.exists
    intro sdkEnd'
    apply Does.given
    intro ⟨_, hsdk⟩
    apply does_ite
    . intro hactive
      have hsome : sdkEnd'.isSome = true := by
        cases sdkEnd' with
        | none => exact absurd hsdk hactive
        | some _ => rfl
      apply does_endReason.post
      intro reason _ ⟨last, ⟨hlast, hreason⟩, hh, _⟩
      obtain ⟨last, rfl⟩ := Option.isSome_iff_exists.mp (hlast hsome)
      exact ⟨.inl ⟨last, hreason⟩, hh⟩
    . intro _
      apply Does.pre (H := Emits output eof)
      . apply does_bind does_inputEndReason
        intro input
        apply does_pure
        intro _ hh
        refine ⟨?_, hh⟩
        by_cases hinput : input = .SdkDataTimeout
        . simp [hinput, StreamEndReason.OfStream]
        . simp [hinput, StreamEndReason.OfStream]
      . exact fun _ hh => hh.1
  . intro h hh
    obtain ⟨sdkEnd, hstored⟩ := exists_stored hh
    exact ⟨sdkEnd, hh, hstored⟩

end World
end HikBridge
