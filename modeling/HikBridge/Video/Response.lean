import HikBridge.Video.Runs

/-!
This module contains the response of `handle_video` to its browser: what `send_video_headers`
advertises in every run, and what is on the wire before and after the headers are complete.
-/

namespace HikBridge.World

open Heap (Idle Resting Safe Delivers)

variable {v : Setting} {α : Type}

def Mute (I : World → Prop) : Prop :=
  ∀ w w' : World, w'.wire = w.wire → w'.headers = w.headers → w'.advertised = w.advertised →
    w'.responseStarted = w.responseStarted → I w → I w'

section Keeps

variable {I : World → Prop}

theorem keeps_env (hI : Mute I) {m : Program Env Tick Exn α} : Program.Keeps I (onEnv m) := by
  apply Program.keeps_zoom
  exact fun _ w hw => hI w _ rfl rfl rfl rfl hw

theorem keeps_pipeline (hI : Mute I) {m : Program Pipeline Tick Exn α}
    : Program.Keeps I (onPipeline m) := by
  apply Program.keeps_zoom
  exact fun _ w hw => hI w _ rfl rfl rfl rfl hw

theorem keeps_status (hI : Mute I) {reason : StreamEndReason}
    : Program.Keeps I (publishStatus v reason) := by
  apply Program.keeps_bind Program.keeps_inspect
  intro _
  apply Program.keeps_ite Program.keeps_pure
  apply Program.keeps_bind (keeps_env hI)
  intro _
  iterate 3
    apply Program.keeps_bind (keeps_pipeline hI)
    intro _
  apply Program.keeps_bind (keeps_env hI)
  intro _
  apply Program.keeps_ite Program.keeps_raise
  apply Program.keeps_bind
  . apply Program.keeps_update
    exact fun w hw => hI w _ rfl rfl rfl rfl hw
  . intro _
    apply Program.keeps_update
    exact fun w hw => hI w _ rfl rfl rfl rfl hw

theorem keeps_endOfOutput (hI : Mute I) : Program.Keeps I endOfOutput := by
  apply Program.keeps_bind (keeps_env hI)
  intro _
  exact Program.keeps_ite (keeps_pipeline hI) Program.keeps_pure

theorem triple_exception (hI : Mute I) {exn : Exn}
    : Program.Triple I (handleException v exn) (fun _ _ => False) (fun _ => I) I := by
  apply Program.triple_bind (R := fun _ => I)
  . apply Program.triple_update
    exact fun w hw => hI w _ rfl rfl rfl rfl hw
  . intro _
    apply Program.triple_bind (R := fun _ => I)
    . cases exn with
      | clientDisconnected =>
        apply Program.keeps_bind (keeps_env hI)
        intro _
        exact keeps_status hI
      | bridge error => exact keeps_status hI
      | other =>
        apply Program.keeps_bind (keeps_env hI)
        intro _
        exact keeps_status hI
    . intro _
      exact Program.triple_raise fun _ hw => hw

theorem keeps_cleanup (hI : Mute I) : Program.Keeps I (cleanup v) := by
  iterate 3
    apply Program.keeps_bind (keeps_pipeline hI)
    intro _
  exact Program.keeps_rescue (keeps_env hI) fun _ => Program.keeps_pure

theorem keeps_release (hI : Mute I) : Program.Keeps I (release v) := by
  apply Program.keeps_bind (keeps_env hI)
  intro _
  apply Program.keeps_bind
  . apply Program.keeps_update
    exact fun w hw => hI w _ rfl rfl rfl rfl hw
  . intro _
    exact Program.keeps_rescue (keeps_env hI) fun _ => Program.keeps_pure

end Keeps

-- Nothing is sent yet.
structure Silent (w : World) : Prop where
  wire : w.wire = []
  headers : w.headers = none
  advertised : w.advertised = none
  responseStarted : w.responseStarted = false

/--
The header block of this pipeline is being sent, or was sent before all that is on the wire.
-/
structure Heading (v : Setting) (heap : Heap) (o : Pipeline.Output) (w : World) : Prop where
  advertised : w.advertised = some (heap, o)
  delivers : heap.Delivers v o
  wire : (w.responseStarted = false ∧ w.headers = none ∧
      w.wire <+: Client.videoHeaders v o.initialMp4) ∨
    (w.responseStarted = true ∧ w.headers = some (Client.videoHeaders v o.initialMp4).length ∧
      Client.videoHeaders v o.initialMp4 <+: w.wire)

def Headed (v : Setting) (w : World) : Prop := Silent w ∨ ∃ heap o, Heading v heap o w

-- The header block is complete.
structure Streaming (v : Setting) (heap : Heap) (o : Pipeline.Output) (w : World) : Prop where
  advertised : w.advertised = some (heap, o)
  delivers : heap.Delivers v o
  responseStarted : w.responseStarted = true
  headers : w.headers = some (Client.videoHeaders v o.initialMp4).length
  wire : Client.videoHeaders v o.initialMp4 <+: w.wire

variable {heap : Heap} {o : Pipeline.Output}

theorem Streaming.headed {w : World} (h : Streaming v heap o w) : Headed v w :=
  .inr ⟨heap, o, h.advertised, h.delivers, .inr ⟨h.responseStarted, h.headers, h.wire⟩⟩

theorem mute_silent : Mute Silent :=
  fun _ _ hwire hheaders hadvertised hstarted hw =>
    ⟨hwire.trans hw.1, hheaders.trans hw.2, hadvertised.trans hw.3, hstarted.trans hw.4⟩

theorem mute_heading : Mute (Heading v heap o) := by
  intro w w' hwire hheaders hadvertised hstarted hw
  refine ⟨hadvertised.trans hw.advertised, hw.delivers, ?_⟩
  rw [hwire, hheaders, hstarted]
  exact hw.wire

theorem mute_streaming : Mute (Streaming v heap o) := by
  intro w w' hwire hheaders hadvertised hstarted hw
  refine ⟨hadvertised.trans hw.1, hw.2, hstarted.trans hw.3, hheaders.trans hw.4, ?_⟩
  rw [hwire]
  exact hw.wire

theorem mute_headed : Mute (Headed v) := by
  intro w w' hwire hheaders hadvertised hstarted hw
  rcases hw with hw | ⟨heap, o, hw⟩
  . exact .inl (mute_silent w w' hwire hheaders hadvertised hstarted hw)
  . exact .inr ⟨heap, o, mute_heading w w' hwire hheaders hadvertised hstarted hw⟩

theorem keeps_sends {text : Bytes} {m : Program Client Tick Exn Unit} (hm : Client.Sends text m)
    : Program.Keeps (Streaming v heap o) (onClient m) := by
  have hgrow : ∀ (base sent : Bytes) (w : World), w.wire = base ++ sent →
      Client.videoHeaders v o.initialMp4 <+: base →
      Client.videoHeaders v o.initialMp4 <+: w.wire := by
    intro base sent w hwire hbase
    rw [hwire]
    exact hbase.trans (List.prefix_append base sent)
  let Rest (w : World) : Prop :=
    w.advertised = some (heap, o) ∧ heap.Delivers v o ∧ w.responseStarted = true ∧
      w.headers = some (Client.videoHeaders v o.initialMp4).length
  have hback : ∀ (base : Bytes) (w : World),
      Client.videoHeaders v o.initialMp4 <+: base →
      Client.Sent base text (clientPart.get w) ∧ Rest w → Streaming v heap o w := by
    intro base w hbase ⟨⟨sent, _, hwire⟩, hadvertised, hdelivers, hstarted, hheaders⟩
    exact ⟨hadvertised, hdelivers, hstarted, hheaders, hgrow base sent w hwire hbase⟩
  have hbase : ∀ base, Program.Triple
      (fun w => Client.videoHeaders v o.initialMp4 <+: base ∧ w.wire = base ∧ Rest w) (onClient m)
      (fun _ => Streaming v heap o) (fun _ => Streaming v heap o) (Streaming v heap o) := by
    intro base
    apply Program.Triple.given
    intro hpart
    apply (Program.triple_zoom (p := clientPart) (F := Rest) (hm base) fun _ _ hw => hw).conseq
    . exact fun _ hw => hw
    . exact fun _ w hw => hback base w hpart ⟨⟨text, List.prefix_refl text, hw.1⟩, hw.2⟩
    . exact fun _ w hw => hback base w hpart hw
    . exact fun w hw => hback base w hpart hw
  apply (Program.Triple.exists hbase).pre
  exact fun w hw => ⟨w.wire, hw.wire, rfl, hw.1, hw.2, hw.3, hw.4⟩

theorem keeps_transmit : Program.Keeps (Streaming v heap o) (transmit v) := by
  apply Program.keeps_iterate
  intro _
  apply Program.keeps_bind (keeps_env mute_streaming)
  intro running
  apply Program.keeps_ite Program.keeps_pure
  apply Program.keeps_bind (keeps_pipeline mute_streaming)
  intro data
  by_cases hdata : data = []
  . rw [if_pos hdata]
    apply Program.keeps_bind (keeps_endOfOutput mute_streaming)
    intro _
    exact Program.keeps_pure
  . rw [if_neg hdata]
    apply Program.keeps_bind (keeps_sends (Client.sends_sendChunk hdata))
    intro _
    exact Program.keeps_pure

theorem keeps_finish {reason : StreamEndReason} : Program.Keeps (Streaming v heap o) (finish v reason) := by
  apply Program.keeps_bind
  . exact Program.keeps_ite (keeps_endOfOutput mute_streaming) Program.keeps_pure
  . intro _
    apply Program.keeps_bind
    . apply Program.keeps_bind (keeps_status mute_streaming)
      intro _
      apply Program.keeps_bind (keeps_pipeline mute_streaming)
      intro _
      exact keeps_env mute_streaming
    . intro _
      exact keeps_sends (Client.sends_sendText _)

theorem triple_headers
    : Program.Triple (fun w => w.heap.Delivers v o ∧ Silent w) (deliver v o)
        (fun _ w => ∃ heap, Streaming v heap o w) (fun _ => Headed v) (Headed v) := by
  have hsilent : ∀ {α : Type} {m : Program Env Tick Exn α},
      Program.Triple (fun w => w.heap.Delivers v o ∧ Silent w) (onEnv m)
        (fun _ w => w.heap.Delivers v o ∧ Silent w) (fun _ => Headed v) (Headed v) := by
    intro α m
    apply (keeps_onEnv (P := fun w => w.heap.Delivers v o ∧ Silent w) _).conseq
    . exact fun _ hw => hw
    . exact fun _ _ hw => hw
    . exact fun _ _ hw => .inl hw.2
    . exact fun _ hw => .inl hw.2
    . exact fun _ w hw => ⟨hw.1, mute_silent w _ rfl rfl rfl rfl hw.2⟩
  have hkeeps : ∀ {heap : Heap} {α : Type} {m : Program World Tick Exn α},
      Program.Keeps (Streaming v heap o) m →
      Program.Triple (Streaming v heap o) m (fun _ => Streaming v heap o) (fun _ => Headed v)
        (Headed v) := by
    intro heap α m hm
    apply hm.conseq
    . exact fun _ hw => hw
    . exact fun _ _ hw => hw
    . exact fun _ _ hw => hw.headed
    . exact fun _ hw => hw.headed
  apply Program.triple_bind hsilent
  intro _
  apply Program.triple_bind hsilent
  intro _
  let Named (heap : Heap) (w : World) : Prop :=
    w.advertised = some (heap, o) ∧ heap.Delivers v o ∧ w.responseStarted = false ∧ w.headers = none
  have hpart : ∀ (heap : Heap) (w : World),
      Client.Sent [] (Client.videoHeaders v o.initialMp4) (clientPart.get w) ∧ Named heap w →
      Headed v w := by
    intro heap w ⟨⟨sent, hsent, hwire⟩, hadvertised, hdelivers, hstarted, hheaders⟩
    refine .inr ⟨heap, o, hadvertised, hdelivers, .inl ⟨hstarted, hheaders, ?_⟩⟩
    have hw : w.wire = sent := hwire
    rw [hw]
    exact hsent
  apply Program.triple_bind (R := fun _ w => ∃ heap, w.wire = [] ∧ Named heap w)
  . apply Program.triple_update
    intro w ⟨hdelivers, hw⟩
    exact ⟨w.heap, hw.wire, rfl, hdelivers, hw.responseStarted, hw.headers⟩
  intro _
  apply Program.Triple.exists
  intro heap
  apply Program.triple_bind
    (R := fun _ w => w.wire = Client.videoHeaders v o.initialMp4 ∧ Named heap w)
  . apply (Program.triple_zoom (p := clientPart) (F := Named heap)
      (Client.sends_sendText (v := v) (Client.videoHeaders v o.initialMp4) []) fun _ _ hw => hw).conseq
    . exact fun _ hw => hw
    . exact fun _ _ hw => hw
    . exact fun _ w hw => hpart heap w hw
    . exact fun w hw => hpart heap w hw
  intro _
  apply Program.triple_bind (R := fun _ => Streaming v heap o)
  . apply Program.triple_update
    intro w ⟨hwire, hadvertised, hdelivers, _, _⟩
    refine ⟨hadvertised, hdelivers, rfl, by rw [hwire], ?_⟩
    show Client.videoHeaders v o.initialMp4 <+: w.wire
    exact hwire ▸ List.prefix_refl _
  intro _
  by_cases hprefix : o.initialMp4 = []
  . -- a pipeline that delivers has read something
    intro w _ hw
    have hmedia := hw.delivers.serving.1
    exact absurd hprefix (ne_nil_of_mediaReady hmedia)
  . apply Program.triple_bind (hkeeps (keeps_sends (Client.sends_sendChunk hprefix)))
    intro _
    apply Program.triple_bind (hkeeps keeps_transmit)
    intro reason
    apply (hkeeps keeps_finish).conseq
    . exact fun _ hw => hw
    . exact fun _ _ hw => ⟨heap, hw⟩
    . exact fun _ _ hw => hw
    . exact fun _ hw => hw

theorem triple_headed_serve
    : Program.Triple (fun w => w.heap.Idle ∧ Silent w) (serve v)
        (fun _ w => ∃ heap o, Streaming v heap o w) (fun _ => Headed v) (Headed v) := by
  apply Program.triple_bind (R := fun o w => w.heap.Delivers v o ∧ Silent w)
  . apply (triple_onPipeline (F := Silent) Pipeline.does_setup
      fun _ w hw => mute_silent w _ rfl rfl rfl rfl hw).conseq
    . exact fun _ hw => hw
    . exact fun _ _ hw => hw
    . exact fun _ _ hw => .inl hw.2
    . exact fun _ hw => .inl hw.2
  . intro o
    apply triple_headers.conseq
    . exact fun _ hw => hw
    . exact fun _ _ ⟨heap, hw⟩ => ⟨heap, o, hw⟩
    . exact fun _ _ hw => hw
    . exact fun _ hw => hw

theorem triple_headed
    : Program.Triple (fun w => w.heap.Idle ∧ Silent w) (handleVideo v)
        (fun _ w => ∃ heap o, Streaming v heap o w) (fun _ => Headed v) (Headed v) := by
  let Start (w : World) : Prop := w.heap.Idle ∧ Silent w
  have henv : ∀ {α : Type} {m : Program Env Tick Exn α},
      Program.Triple Start (onEnv m) (fun _ => Start) (fun _ => Headed v) (Headed v) := by
    intro α m
    apply (keeps_onEnv (P := Start) _).conseq
    . exact fun _ hw => hw
    . exact fun _ _ hw => hw
    . exact fun _ _ hw => .inl hw.2
    . exact fun _ hw => .inl hw.2
    . exact fun _ w hw => ⟨hw.1, mute_silent w _ rfl rfl rfl rfl hw.2⟩
  have hafter : ∀ {heap : Heap} {o : Pipeline.Output} {m : Program World Tick Exn Unit},
      Program.Keeps (Streaming v heap o) m →
      Program.Triple (Streaming v heap o) m (fun _ w => ∃ heap o, Streaming v heap o w)
        (fun _ => Headed v) (Headed v) := by
    intro heap o m hm
    apply hm.conseq
    . exact fun _ hw => hw
    . exact fun _ _ hw => ⟨heap, o, hw⟩
    . exact fun _ _ hw => hw.headed
    . exact fun _ hw => hw.headed
  have hscope : ∀ {m cleanup : Program World Tick Exn Unit},
      Program.Triple Start m (fun _ w => ∃ heap o, Streaming v heap o w) (fun _ => Headed v)
        (Headed v) →
      (∀ {I : World → Prop}, Mute I → Program.Keeps I cleanup) →
      Program.Triple Start (Program.ensuring m cleanup)
        (fun _ w => ∃ heap o, Streaming v heap o w) (fun _ => Headed v) (Headed v) := by
    intro m cleanup hm hcleanup
    apply Program.triple_ensuring hm
    . intro _
      apply Program.Triple.exists
      intro heap
      apply Program.Triple.exists
      intro o
      exact hafter (hcleanup mute_streaming)
    . exact fun _ => hcleanup mute_headed
  apply Program.triple_bind henv
  intro _
  apply Program.triple_bind (R := fun _ => Start)
  . apply Program.triple_bind henv
    intro answer
    apply Program.triple_ite
    . intro _
      exact Program.triple_pure fun _ hw => hw
    . intro _
      apply Program.triple_bind (R := fun _ => Start)
      . apply Program.triple_update
        exact fun w hw => ⟨hw.1, mute_silent w _ rfl rfl rfl rfl hw.2⟩
      . intro _
        exact Program.triple_pure fun _ hw => hw
  intro reserved
  apply Program.triple_ite
  . intro _
    exact Program.triple_raise fun _ hw => .inl hw.2
  . intro _
    apply hscope
    . apply Program.triple_bind henv
      intro _
      apply hscope
      . apply Program.triple_rescue triple_headed_serve
        intro exn
        apply (triple_exception mute_headed).conseq
        . exact fun _ hw => hw
        . exact fun _ _ hw => hw.elim
        . exact fun _ _ hw => hw
        . exact fun _ hw => hw
      . exact keeps_cleanup
    . exact keeps_release

theorem silent_empty : Silent {} := ⟨rfl, rfl, rfl, rfl⟩

theorem headed_run (v : Setting) (ticks : List Tick) : Headed v (run v ticks).2 := by
  have hends := triple_headed (v := v) {} ticks ⟨fresh_empty.idle, silent_empty⟩
  unfold run
  rcases hrun : handleVideo v {} ticks with ⟨_ | exn | _, w, rest⟩
  all_goals rw [hrun] at hends
  . obtain ⟨heap, o, hw⟩ := hends
    exact hw.headed
  . exact hends
  . exact hends

theorem Headed.delivers {w : World} (h : Headed v w) {heap : Heap} {o : Pipeline.Output}
    (hadvertised : w.advertised = some (heap, o)) : heap.Delivers v o := by
  rcases h with hw | ⟨heap', o', hw⟩
  . rw [hw.advertised] at hadvertised
    contradiction
  . rw [hw.advertised] at hadvertised
    cases hadvertised
    exact hw.delivers

end HikBridge.World
