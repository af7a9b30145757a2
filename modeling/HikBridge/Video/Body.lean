import HikBridge.Video.Publication

/-!
This module contains what the transmission puts on the wire after the headers: the frames of the
bytes that were read, and the last chunk only after their end.
-/

namespace HikBridge

namespace World

open Heap (Emits Delivers)

variable {v : Setting} {F : World → Prop} {head body output : Bytes}
  {chunks : List Bytes} {eof : Bool}

-- The lease is not returned and no exception has reached a `catch` clause.
def Held (w : World) : Prop := w.lease = .held ∧ w.handled = none

-- The headers `head` are sent, and `body` after them.
structure OnWire (head body : Bytes) (w : World) : Prop where
  headers : w.headers = some head.length
  wire : w.wire = head ++ body

/--
What was sent after the headers belongs to the encoding of chunks that carry the output, up to the
last chunk only if the output has ended.
-/
def Encodes (output : Bytes) (eof : Bool) (body : Bytes) : Prop :=
  ∃ chunks, (∀ chunk ∈ chunks, chunk ≠ []) ∧ chunks.flatten = output ∧
    (body <+: Chunked.frames chunks ∨ (eof = true ∧ body <+: Chunked.encode chunks))

-- The transmission at any of its points.
def Delivering (sid : Bytes) (w : World) : Prop :=
  (∃ output eof, w.heap.Emits output eof ∧
    ∀ n, w.headers = some n → Encodes output eof (w.wire.drop n)) ∧
  Held w ∧ (Unpublished w ∨ ∃ reason, reason.OfStream ∧ Published sid reason w)

-- The transmission between two chunks.
structure Flowing (head : Bytes) (chunks : List Bytes) (eof : Bool) (w : World) : Prop where
  nonempty : ∀ chunk ∈ chunks, chunk ≠ []
  emits : w.heap.Emits chunks.flatten eof
  unpublished : Unpublished w
  lease : Held w
  onWire : OnWire head (Chunked.frames chunks) w

theorem OnWire.drop {w : World} (h : OnWire head body w) {n : Nat} (hn : w.headers = some n)
    : w.wire.drop n = body := by
  rw [h.headers] at hn
  injection hn with hn
  rw [← hn, h.wire]
  exact List.drop_left

theorem OnWire.encodes {w : World} (h : OnWire head body w) (hbody : Encodes output eof body)
    : ∀ n, w.headers = some n → Encodes output eof (w.wire.drop n) := by
  intro n hn
  rw [h.drop hn]
  exact hbody

theorem encodes_frames (h : ∀ chunk ∈ chunks, chunk ≠ [])
    : Encodes chunks.flatten eof (Chunked.frames chunks) :=
  ⟨chunks, h, rfl, .inl (List.prefix_refl _)⟩

theorem Flowing.delivering {w : World} {sid : Bytes} (h : Flowing head chunks eof w)
    : Delivering sid w :=
  ⟨⟨_, _, h.emits, h.onWire.encodes (encodes_frames h.nonempty)⟩, h.lease, .inl h.unpublished⟩

theorem Flowing.env {w : World} (h : Flowing head chunks eof w) (env : Env)
    : Flowing head chunks eof { w with env } :=
  { nonempty := h.nonempty, emits := h.emits, unpublished := h.unpublished, lease := h.lease
    onWire := ⟨h.onWire.headers, h.onWire.wire⟩ }

theorem triple_onClient_sends {text : Bytes} {m : Program Client Tick Exn Unit}
    (hm : Client.Sends text m) (hF : ∀ (c : Client) w, F w → F { w with env := c.env, wire := c.wire })
    : Program.Triple (fun w => F w ∧ OnWire head body w) (onClient m)
        (fun _ w => F w ∧ OnWire head (body ++ text) w)
        (fun _ w => ∃ sent, sent <+: text ∧ F w ∧ OnWire head (body ++ sent) w)
        (fun w => ∃ sent, sent <+: text ∧ F w ∧ OnWire head (body ++ sent) w) := by
  have hpart : ∀ w : World, (Client.Sent (head ++ body) text (clientPart.get w) ∧
      F w ∧ w.headers = some head.length) →
      ∃ sent, sent <+: text ∧ F w ∧ OnWire head (body ++ sent) w := by
    intro w ⟨⟨sent, hsent, hwire⟩, hw, hheaders⟩
    exact ⟨sent, hsent, hw, hheaders, by rw [← List.append_assoc]; exact hwire⟩
  apply (Program.triple_zoom (p := clientPart) (hm (head ++ body))
    (F := fun w => F w ∧ w.headers = some head.length) fun c w hw => ⟨hF c w hw.1, hw.2⟩).conseq
  . exact fun _ hw => ⟨hw.2.wire, hw.1, hw.2.headers⟩
  . exact fun _ _ hw => ⟨hw.2.1, hw.2.2, by rw [← List.append_assoc]; exact hw.1⟩
  . exact fun _ w hw => hpart w hw
  . exact hpart

-- The last read is on its way to the browser.
theorem triple_sendChunk {data : Bytes} {sid : Bytes} (hdata : data ≠ [])
    (hchunks : ∀ chunk ∈ chunks, chunk ≠ [])
    : Program.Triple
        (fun w => (w.heap.Emits (chunks.flatten ++ data) false ∧ Unpublished w ∧ Held w) ∧
          OnWire head (Chunked.frames chunks) w)
        (onClient (Client.sendChunk v data)) (fun _ => Flowing head (chunks ++ [data]) false)
        (fun _ => Delivering sid) (Delivering sid) := by
  have hall : ∀ chunk ∈ chunks ++ [data], chunk ≠ [] := by
    intro chunk hchunk
    rcases List.mem_append.mp hchunk with hchunk | hchunk
    . exact hchunks chunk hchunk
    . rw [List.mem_singleton.mp hchunk]
      exact hdata
  have hpart : ∀ w : World, (∃ sent, sent <+: Chunked.frame data ∧
      (w.heap.Emits (chunks.flatten ++ data) false ∧ Unpublished w ∧ Held w) ∧
      OnWire head (Chunked.frames chunks ++ sent) w) → Delivering sid w := by
    intro w ⟨sent, hsent, ⟨hemits, hunpublished, hlease⟩, hwire⟩
    refine ⟨⟨_, _, hemits, hwire.encodes ⟨chunks ++ [data], hall, by simp, .inl ?_⟩⟩, hlease,
      .inl hunpublished⟩
    rw [Chunked.frames_append]
    apply (List.prefix_append_right_inj _).mpr
    simpa using hsent
  let Read (w : World) : Prop :=
    w.heap.Emits (chunks.flatten ++ data) false ∧ Unpublished w ∧ Held w
  apply (triple_onClient_sends (F := Read) (Client.sends_sendChunk hdata) fun _ _ hw => hw).conseq
  . exact fun _ hw => hw
  . intro _ w ⟨⟨hemits, hunpublished, hlease⟩, hwire⟩
    exact { nonempty := hall, emits := by simpa using hemits, unpublished := hunpublished,
            lease := hlease, onWire := by simpa using hwire }
  . exact fun _ => hpart
  . exact hpart

/--
The reason is looked up in a session and a process that are alive.
-/
theorem triple_endOfOutput (hF : ∀ (p : Pipeline) w, F w → F { w with env := p.env, heap := p.heap })
    : Program.Triple (fun w => w.heap.Emits output eof ∧ F w) endOfOutput
        (fun reason w => reason.OfStream ∧ w.heap.Emits output eof ∧ F w)
        (fun _ w => w.heap.Emits output eof ∧ F w) (fun w => w.heap.Emits output eof ∧ F w) := by
  apply Program.triple_bind (keeps_onEnv fun env w hw => ⟨hw.1, hF ⟨env, w.heap⟩ w hw.2⟩)
  intro running
  apply Program.triple_ite
  . intro _
    apply (triple_onPipeline does_resolveEndReason hF).conseq
    . exact fun _ hw => hw
    . exact fun _ _ hw => ⟨hw.1.1, hw.1.2, hw.2⟩
    . exact fun _ _ hw => hw
    . exact fun _ hw => hw
  . intro _
    exact Program.triple_pure fun _ hw => ⟨.inr (.inr (.inr (.inr rfl))), hw⟩

theorem triple_endOfOutput_stopped (hF : ∀ env w, F w → F { w with env })
    : Program.Triple (fun w => w.env.running = false ∧ F w) endOfOutput
        (fun reason w => reason = .ServerStopped ∧ w.env.running = false ∧ F w) (fun _ => F) F := by
  apply Program.triple_bind (R := fun running w => running = false ∧ w.env.running = false ∧ F w)
  . apply (Program.triple_zoom (p := envPart) (F := F) triple_isRunning_stopped hF).conseq
    . exact fun _ hw => hw
    . exact fun _ _ hw => ⟨hw.1.1, hw.1.2, hw.2⟩
    . exact fun _ _ hw => hw.2
    . exact fun _ hw => hw.2
  . intro running
    apply Program.Triple.given
    intro hrunning
    rw [hrunning]
    exact Program.triple_pure fun _ hw => ⟨rfl, hw⟩

def Over (head : Bytes) (reason : StreamEndReason) (w : World) : Prop :=
  ∃ chunks eof, Flowing head chunks eof w ∧
    ((eof = true ∧ reason.OfStream) ∨
      (w.env.running = false ∧ (reason = .Active ∨ reason = .ServerStopped)))

theorem triple_transmitRound {sid : Bytes}
    : Program.Triple (Flowing head chunks false) (transmitRound v)
        (fun r w => Sum.elim (fun _ => ∃ chunks, Flowing head chunks false w)
          (fun reason => Over head reason w) r)
        (fun _ => Delivering sid) (Delivering sid) := by
  apply Program.triple_bind
    (R := fun running w => (running = false → w.env.running = false) ∧ Flowing head chunks false w)
  . apply (Program.triple_zoom (p := envPart) (F := Flowing head chunks false) triple_isRunning
      fun env _ hw => hw.env env).conseq
    . exact fun _ hw => ⟨trivial, hw⟩
    . exact fun _ _ hw => hw
    . exact fun _ _ hw => hw.1.elim
    . exact fun _ hw => hw.2.delivering
  . intro running
    apply Program.triple_ite
    . intro hrunning
      apply Program.triple_pure
      intro w hw
      exact ⟨chunks, false, hw.2, .inr ⟨hw.1 (by simpa using hrunning), .inl rfl⟩⟩
    . intro _
      let Rest (w : World) : Prop :=
        Unpublished w ∧ Held w ∧ OnWire head (Chunked.frames chunks) w
      have hrest : ∀ (p : Pipeline) w, Rest w → Rest { w with env := p.env, heap := p.heap } :=
        fun _ _ hw => ⟨hw.1, hw.2.1, hw.2.2.headers, hw.2.2.wire⟩
      have hflowing : (∀ chunk ∈ chunks, chunk ≠ []) → ∀ eof w,
          w.heap.Emits chunks.flatten eof ∧ Rest w → Flowing head chunks eof w :=
        fun hchunks _ _ hw => ⟨hchunks, hw.1, hw.2.1, hw.2.2.1, hw.2.2.2⟩
      apply Program.Triple.pre
        (H := fun w => (∀ chunk ∈ chunks, chunk ≠ []) ∧ w.heap.Emits chunks.flatten false ∧ Rest w)
      . apply Program.Triple.given
        intro hchunks
        apply Program.triple_bind
        . apply (Program.triple_zoom (p := pipelinePart) (F := Rest) Pipeline.triple_read hrest).conseq
          . exact fun _ hw => hw
          . exact fun _ _ hw => hw
          . exact fun _ w hw => (hflowing hchunks false w hw).delivering
          . exact fun w hw => (hflowing hchunks false w hw).delivering
        . intro data
          apply Program.triple_ite
          . intro hdata
            apply Program.Triple.pre (H := fun w => (w.heap.Emits chunks.flatten true ∧ Rest w) ∨
              (w.env.running = false ∧ Flowing head chunks false w))
            . apply Program.Triple.or
              . apply Program.triple_bind
                . apply (triple_endOfOutput (F := Rest) hrest).conseq
                  . exact fun _ hw => hw
                  . exact fun _ _ hw => hw
                  . exact fun _ w hw => (hflowing hchunks true w hw).delivering
                  . exact fun w hw => (hflowing hchunks true w hw).delivering
                . intro reason
                  apply Program.triple_pure
                  intro w hw
                  exact ⟨chunks, true, hflowing hchunks true w hw.2, .inl ⟨rfl, hw.1⟩⟩
              . apply Program.triple_bind
                . apply (triple_endOfOutput_stopped (F := Flowing head chunks false)
                    fun env _ hw => hw.env env).conseq
                  . exact fun _ hw => hw
                  . exact fun _ _ hw => hw
                  . exact fun _ w hw => hw.delivering
                  . exact fun w hw => hw.delivering
                . intro reason
                  apply Program.triple_pure
                  intro w hw
                  exact ⟨chunks, false, hw.2.2, .inr ⟨hw.2.1, .inr hw.1⟩⟩
            . intro w ⟨hw, hwire⟩
              rcases hw with hw | ⟨_, hrunning, hw⟩
              . left
                rw [hdata, List.append_nil] at hw
                exact ⟨hw, hwire⟩
              . exact .inr ⟨hrunning, hflowing hchunks false w ⟨hw, hwire⟩⟩
          . intro hdata
            apply Program.triple_bind (R := fun _ => Flowing head (chunks ++ [data]) false)
            . apply (triple_sendChunk hdata hchunks).pre
              intro w ⟨hw, hwire⟩
              rcases hw with hw | ⟨hempty, _⟩
              . have hnonempty : data.isEmpty = false := by simpa using hdata
                rw [hnonempty] at hw
                exact ⟨⟨hw, hwire.1, hwire.2.1⟩, hwire.2.2⟩
              . contradiction
            . intro _
              exact Program.triple_pure fun _ hw => ⟨chunks ++ [data], hw⟩
      . exact fun _ hw => ⟨hw.2.nonempty, hw.2.emits, hw.2.unpublished, hw.2.lease, hw.2.onWire⟩

theorem triple_transmit {sid : Bytes}
    : Program.Triple (fun w => ∃ chunks, Flowing head chunks false w) (transmit v)
        (fun reason w => Over head reason w) (fun _ => Delivering sid) (Delivering sid) := by
  apply Program.triple_iterate (I := fun _ w => ∃ chunks, Flowing head chunks false w)
  . exact fun _ _ ⟨_, hw⟩ => hw.delivering
  . intro _
    apply Program.Triple.exists
    intro chunks
    exact triple_transmitRound

-- The end is published and the last chunk is not sent yet.
structure Closing (head : Bytes) (chunks : List Bytes) (eof : Bool) (sid : Bytes) (w : World)
    : Prop where
  nonempty : ∀ chunk ∈ chunks, chunk ≠ []
  emits : w.heap.Emits chunks.flatten eof
  published : ∃ reason, reason.OfStream ∧ Published sid reason w
  lease : Held w
  onWire : OnWire head (Chunked.frames chunks) w

theorem Closing.delivering {sid : Bytes} {w : World} (h : Closing head chunks eof sid w)
    : Delivering sid w :=
  ⟨⟨_, _, h.emits, h.onWire.encodes (encodes_frames h.nonempty)⟩, h.lease, .inr h.published⟩

theorem triple_publishEnd {reason : StreamEndReason} (hreason : reason.OfStream)
    : Program.Triple (Flowing head chunks eof) (publishEnd v reason)
        (fun _ => Closing head chunks eof v.request.sid) (fun _ => Delivering v.request.sid)
        (Delivering v.request.sid) := by
  apply Program.Triple.pre
    (H := fun w => (∀ chunk ∈ chunks, chunk ≠ []) ∧ Flowing head chunks eof w)
  . apply Program.Triple.given
    intro hchunks
    let Unhandled (w : World) : Prop := OnWire head (Chunked.frames chunks) w ∧ w.handled = none
    have hcollecting : ∀ w, Collecting (Emits chunks.flatten eof) Unhandled w →
        Delivering v.request.sid w := by
      intro w ⟨hemits, hunpublished, hlease, hwire, hhandled⟩
      have hflowing : Flowing head chunks eof w :=
        ⟨hchunks, hemits, hunpublished, ⟨hlease, hhandled⟩, hwire⟩
      exact hflowing.delivering
    have hsession : HasSession (Emits chunks.flatten eof) :=
      fun _ hh => .inr (Pipeline.session_of_emits hh)
    have happart : Apart Unhandled := by
      intro w w' hwire hheaders _ hhandled hw
      exact ⟨⟨by rw [hheaders, hw.1.headers], by rw [hwire, hw.1.wire]⟩, by rw [hhandled, hw.2]⟩
    let Rest (w : World) : Prop :=
      (∃ reason, reason.OfStream ∧ Published v.request.sid reason w) ∧ Held w ∧
        OnWire head (Chunked.frames chunks) w
    have hclosing : ∀ w, w.heap.Emits chunks.flatten eof ∧ Rest w →
        Closing head chunks eof v.request.sid w :=
      fun _ hw => ⟨hchunks, hw.1, hw.2.1, hw.2.2.1, hw.2.2.2⟩
    apply Program.triple_bind
      (R := fun _ w => w.heap.Emits chunks.flatten eof ∧ Rest w)
    . apply (triple_publishStatus hsession happart).conseq
      . exact fun _ hw => ⟨hw.emits, hw.unpublished, hw.lease.1, hw.onWire, hw.lease.2⟩
      . exact fun _ _ hw => ⟨hw.1, ⟨reason, hreason, hw.2.1⟩, ⟨hw.2.2.1, hw.2.2.2.2⟩, hw.2.2.2.1⟩
      . exact fun _ w hw => hcollecting w hw.2
      . exact hcollecting
    . intro _
      apply Program.triple_bind (R := fun _ w => w.heap.Emits chunks.flatten eof ∧ Rest w)
      . apply (triple_onPipeline (F := Rest) (Pipeline.does_derefSession_mem
          (P := Emits chunks.flatten eof) (E := fun _ _ => False) (C := fun _ => False)
          fun _ hh => Pipeline.session_of_emits hh)
          fun _ _ hw => ⟨hw.1, hw.2.1, hw.2.2.headers, hw.2.2.wire⟩).conseq
        . exact fun _ hw => hw
        . exact fun _ _ hw => ⟨hw.1.2, hw.2⟩
        . exact fun _ _ hw => hw.1.elim
        . exact fun _ hw => hw.1.elim
      . intro _
        apply (keeps_onEnv (P := fun w => w.heap.Emits chunks.flatten eof ∧ Rest w)
          fun _ _ hw => ⟨hw.1, hw.2.1, hw.2.2.1, hw.2.2.2.headers, hw.2.2.2.wire⟩).conseq
        . exact fun _ hw => hw
        . exact fun _ => hclosing
        . exact fun _ w hw => (hclosing w hw).delivering
        . exact fun w hw => (hclosing w hw).delivering
  . exact fun _ hw => ⟨hw.nonempty, hw⟩

theorem keeps_publishEnd_stopped {reason : StreamEndReason}
    : Program.Keeps (fun w => w.env.running = false) (publishEnd v reason) := by
  let Stopped (env : Env) : Prop := env.running = false
  apply Program.keeps_bind (keeps_publishStatus stable_stopped)
  intro _
  apply Program.keeps_bind
  . exact keeps_onPipeline_stable (I := Stopped) (Pipeline.keeps_derefSession (I := Stopped))
  . intro _
    exact keeps_onEnv_stable (keeps_logLine stable_stopped v)

theorem lit_terminator : Bytes.lit "0\r\n\r\n" = Chunked.terminator := by decide

-- The whole stream is sent.
structure Delivered (sid : Bytes) (w : World) : Prop where
  delivering : Delivering sid w
  published : ∃ reason, reason.OfStream ∧ Published sid reason w
  complete : ∃ head chunks, (∀ chunk ∈ chunks, chunk ≠ []) ∧ w.heap.Emits chunks.flatten true ∧
    OnWire head (Chunked.encode chunks) w

theorem triple_lastChunk {sid : Bytes}
    : Program.Triple (Closing head chunks true sid)
        (onClient (Client.sendText v (Bytes.lit "0\r\n\r\n"))) (fun _ => Delivered sid)
        (fun _ => Delivering sid) (Delivering sid) := by
  rw [lit_terminator]
  let Rest (w : World) : Prop :=
    (∀ chunk ∈ chunks, chunk ≠ []) ∧ w.heap.Emits chunks.flatten true ∧
      (∃ reason, reason.OfStream ∧ Published sid reason w) ∧ Held w
  have hpart : ∀ sent w, sent <+: Chunked.terminator → Rest w →
      OnWire head (Chunked.frames chunks ++ sent) w → Delivering sid w := by
    intro sent w hsent ⟨hchunks, hemits, hpublished, hlease⟩ hwire
    refine ⟨⟨_, _, hemits, hwire.encodes ⟨chunks, hchunks, rfl, .inr ⟨rfl, ?_⟩⟩⟩, hlease,
      .inr hpublished⟩
    exact (List.prefix_append_right_inj _).mpr hsent
  apply (triple_onClient_sends (F := Rest) (Client.sends_sendText _) fun _ _ hw => hw).conseq
  . exact fun _ hw => ⟨⟨hw.nonempty, hw.emits, hw.published, hw.lease⟩, hw.onWire⟩
  . intro _ w ⟨hw, hwire⟩
    exact ⟨hpart _ w (List.prefix_refl _) hw hwire, hw.2.2.1, head, chunks, hw.1, hw.2.1, hwire⟩
  . exact fun _ w ⟨sent, hsent, hw, hwire⟩ => hpart sent w hsent hw hwire
  . exact fun w ⟨sent, hsent, hw, hwire⟩ => hpart sent w hsent hw hwire

theorem triple_lastChunk_stopped {sid : Bytes}
    : Program.Triple (fun w => w.env.running = false ∧ Closing head chunks eof sid w)
        (onClient (Client.sendText v (Bytes.lit "0\r\n\r\n"))) (fun _ _ => False)
        (fun _ => Delivering sid) (Delivering sid) := by
  rw [lit_terminator]
  let Rest (w : World) : Prop :=
    (∀ chunk ∈ chunks, chunk ≠ []) ∧ w.heap.Emits chunks.flatten eof ∧
      (∃ reason, reason.OfStream ∧ Published sid reason w) ∧ Held w ∧
      w.headers = some head.length
  have hback : ∀ w : World, (clientPart.get w).wire = head ++ Chunked.frames chunks ∧ Rest w →
      Delivering sid w := by
    intro w ⟨hwire, hchunks, hemits, hpublished, hlease, hheaders⟩
    have hclosing : Closing head chunks eof sid w :=
      ⟨hchunks, hemits, hpublished, hlease, hheaders, hwire⟩
    exact hclosing.delivering
  apply (Program.triple_zoom (p := clientPart) (F := Rest)
    (Client.triple_sendText_stopped (v := v) (b := head ++ Chunked.frames chunks)
      (t := Chunked.terminator) (by decide)) fun _ _ hw => hw).conseq
  . exact fun _ ⟨hrunning, hw⟩ => ⟨⟨hw.onWire.wire, hrunning⟩, hw.nonempty, hw.emits, hw.published,
      hw.lease, hw.onWire.headers⟩
  . exact fun _ _ hw => hw.1.elim
  . exact fun _ => hback
  . exact hback

theorem triple_finish {reason : StreamEndReason}
    : Program.Triple (Over head reason) (finish v reason) (fun _ => Delivered v.request.sid)
        (fun _ => Delivering v.request.sid) (Delivering v.request.sid) := by
  apply Program.Triple.exists
  intro chunks
  apply Program.Triple.exists
  intro eof
  apply Program.Triple.pre (H := fun w =>
    ((eof = true ∧ reason.OfStream) ∧ Flowing head chunks eof w) ∨
      ((reason = .Active ∨ reason = .ServerStopped) ∧
        w.env.running = false ∧ Flowing head chunks eof w))
  . apply Program.Triple.or
    . apply Program.Triple.given
      intro ⟨heof, hreason⟩
      subst heof
      have hactive : reason ≠ .Active := by
        intro hactive
        subst hactive
        rcases hreason with ⟨sdkEnd, h⟩ | h | h | h | h
        . cases sdkEnd <;> cases h
        all_goals cases h
      unfold finish
      rw [if_neg hactive]
      apply Program.triple_bind (R := fun r w => r = reason ∧ Flowing head chunks true w)
      . exact Program.triple_pure fun _ hw => ⟨rfl, hw⟩
      . intro r
        apply Program.Triple.given
        intro hr
        rw [hr]
        apply Program.triple_bind (triple_publishEnd hreason)
        intro _
        exact triple_lastChunk
    . apply Program.Triple.given
      intro hreason
      apply Program.triple_bind
        (R := fun r w => r = .ServerStopped ∧ w.env.running = false ∧ Flowing head chunks eof w)
      . apply Program.triple_ite
        . intro _
          apply (triple_endOfOutput_stopped (F := Flowing head chunks eof)
            fun env _ hw => hw.env env).conseq
          . exact fun _ hw => hw
          . exact fun _ _ hw => hw
          . exact fun _ _ hw => hw.delivering
          . exact fun _ hw => hw.delivering
        . intro hactive
          exact Program.triple_pure fun _ hw => ⟨hreason.resolve_left hactive, hw⟩
      . intro r
        apply Program.Triple.given
        intro hr
        rw [hr]
        apply Program.triple_bind
        . apply (keeps_publishEnd_stopped.and
            (triple_publishEnd (.inr (.inr (.inr (.inr rfl)))))).conseq
          . exact fun _ hw => hw
          . exact fun _ _ hw => hw
          . exact fun _ _ hw => hw.2
          . exact fun _ hw => hw.2
        . intro _
          apply triple_lastChunk_stopped.conseq
          . exact fun _ hw => hw
          . exact fun _ _ hw => hw.elim
          . exact fun _ _ hw => hw
          . exact fun _ hw => hw
  . intro w ⟨hw, hend⟩
    rcases hend with hend | ⟨hrunning, hreason⟩
    . exact .inl ⟨hend, hw⟩
    . exact .inr ⟨hreason, hrunning, hw⟩

-- The handler before it sends the headers.
structure Preparing (H : Heap → Prop) (w : World) : Prop where
  heap : H w.heap
  unpublished : Unpublished w
  lease : Held w
  headers : w.headers = none

theorem Delivers.emits {o : Pipeline.Output} {h : Heap} (hh : h.Delivers v o)
    : h.Emits o.initialMp4 false :=
  hh.serving.2.mono fun _ hp => hp.1

theorem Preparing.delivering {o : Pipeline.Output} {sid : Bytes} {w : World}
    (h : Preparing (Delivers v o) w) : Delivering sid w := by
  refine ⟨⟨o.initialMp4, false, Delivers.emits h.heap, ?_⟩, h.lease, .inl h.unpublished⟩
  intro n hn
  rw [h.headers] at hn
  cases hn

theorem ne_nil_of_mediaReady {initialMp4 : Bytes}
    (h : Pipeline.mediaReady initialMp4 true = true) : initialMp4 ≠ [] := by
  intro hnil
  simp [hnil, Pipeline.mediaReady, Pipeline.initialized, containsAtom_nil] at h

theorem triple_deliver {o : Pipeline.Output}
    : Program.Triple (Preparing (Delivers v o)) (deliver v o)
        (fun _ => Delivered v.request.sid) (fun _ => Delivering v.request.sid)
        (Delivering v.request.sid) := by
  have hstep : ∀ {α : Type} {m : Program World Tick Exn α},
      Program.Keeps (Preparing (Delivers v o)) m →
      Program.Triple (Preparing (Delivers v o)) m (fun _ => Preparing (Delivers v o))
        (fun _ => Delivering v.request.sid) (Delivering v.request.sid) := by
    intro α m hm
    apply hm.conseq
    . exact fun _ hw => hw
    . exact fun _ _ hw => hw
    . exact fun _ _ hw => hw.delivering
    . exact fun _ hw => hw.delivering
  apply Program.triple_bind (hstep (keeps_onEnv fun _ _ hw => ⟨hw.1, hw.2, hw.3, hw.4⟩))
  intro _
  apply Program.triple_bind (hstep (keeps_onEnv fun _ _ hw => ⟨hw.1, hw.2, hw.3, hw.4⟩))
  intro _
  apply Program.triple_bind (R := fun _ => Preparing (Delivers v o))
  . apply Program.triple_update
    exact fun _ hw => ⟨hw.1, hw.2, hw.3, hw.4⟩
  intro _
  apply Program.triple_bind (hstep (Program.keeps_zoom fun _ _ hw => ⟨hw.1, hw.2, hw.3, hw.4⟩))
  intro _
  apply Program.triple_bind (R := fun _ w => o.initialMp4 ≠ [] ∧ ∃ head,
    (w.heap.Emits (([] : List Bytes).flatten ++ o.initialMp4) false ∧ Unpublished w ∧
      Held w) ∧ OnWire head (Chunked.frames []) w)
  . apply Program.triple_update
    intro w hw
    refine ⟨ne_nil_of_mediaReady hw.heap.serving.1, w.wire,
      ⟨Delivers.emits hw.heap, hw.unpublished, hw.lease⟩, rfl, ?_⟩
    simp
  . intro _
    apply Program.Triple.given
    intro hprefix
    apply Program.Triple.exists
    intro head
    apply Program.triple_bind
      (triple_sendChunk hprefix (show ∀ chunk ∈ ([] : List Bytes), chunk ≠ [] by simp))
    intro _
    apply Program.triple_bind (triple_transmit.pre fun _ hw => ⟨_, hw⟩)
    intro reason
    exact triple_finish

theorem triple_serve
    : Program.Triple (Preparing Heap.Idle) (serve v) (fun _ => Delivered v.request.sid)
        (fun _ w => Preparing Heap.Resting w ∨ Delivering v.request.sid w)
        (fun w => Preparing Heap.Safe w ∨ Delivering v.request.sid w) := by
  apply Program.triple_bind (R := fun o => Preparing (Delivers v o))
  . apply (triple_onPipeline (F := fun w => Unpublished w ∧ Held w ∧ w.headers = none)
      Pipeline.does_setup fun _ _ hw => hw).conseq
    . exact fun _ hw => ⟨hw.heap, hw.unpublished, hw.lease, hw.headers⟩
    . exact fun _ _ hw => ⟨hw.1, hw.2.1, hw.2.2.1, hw.2.2.2⟩
    . exact fun _ _ hw => .inl ⟨hw.1, hw.2.1, hw.2.2.1, hw.2.2.2⟩
    . exact fun _ hw => .inl ⟨hw.1, hw.2.1, hw.2.2.1, hw.2.2.2⟩
  . intro o
    apply triple_deliver.conseq
    . exact fun _ hw => hw
    . exact fun _ _ hw => hw
    . exact fun _ _ hw => .inr hw
    . exact fun _ hw => .inr hw

end World
end HikBridge
