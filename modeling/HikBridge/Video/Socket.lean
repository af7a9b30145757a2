import HikBridge.Lib.Chunked
import HikBridge.Video.Basic

/-!
This module contains the functions of the bridge that write to the socket of the browser.
-/

namespace HikBridge

-- `wire` holds the bytes that `send` has accepted.
structure Client where
  env : Env
  wire : Bytes

def Client.envPart : Program.Part Client Env where
  get c := c.env
  put env c := { c with env }
  get_put _ _ := rfl

namespace Client

variable (v : Setting)

def onEnv {α : Type} (m : Program Env Tick Exn α) : Program Client Tick Exn α :=
  Program.zoom envPart m

def clientWriteTimeout : BridgeError :=
  ⟨504, "CLIENT_WRITE_TIMEOUT", "浏览器持续未接收视频，已结束会话"⟩

-- One round of the loop of `write_socket_all`, with the bytes that are not sent yet.
def writeRound (rest : Bytes) : Program Client Tick Exn (Bytes ⊕ Bool) :=
  if rest = [] then
    pure (.inr true)
  else do
    let running ← onEnv isRunning
    if !running then
      pure (.inr false)
    else do
      let sent ← onEnv observe
      if 0 < sent.count then do
        -- `send` accepts at most what it is offered
        let size := min sent.count.toNat (min rest.length (64 * 1024))
        Program.update fun c => { c with wire := c.wire ++ rest.take size }
        pure (.inl (rest.drop size))
      else if sent.count < 0 ∧ sent.error = .wouldBlock then do
        onEnv (checkVideoClient v)
        let clock ← onEnv observe
        if clock.late then
          Program.raise (.bridge clientWriteTimeout)
        else
          pure (.inl rest)
      else if sent.count < 0 ∧ sent.error = .interrupted ∧ !v.windows then
        pure (.inl rest)
      else
        pure (.inr false)

def writeSocketAll (data : Bytes) : Program Client Tick Exn Bool :=
  Program.iterate (writeRound v) data

def sendText (text : Bytes) : Program Client Tick Exn Unit := do
  let written ← writeSocketAll v text
  if written then pure () else Program.raise .clientDisconnected

def sendChunk (data : Bytes) : Program Client Tick Exn Unit := do
  sendText v (Numeral.numeral 16 data.length ++ Bytes.lit "\r\n")
  if data = [] then pure () else sendText v data
  sendText v (Bytes.lit "\r\n")

-- `std::setw(2)` with `std::setfill('0')` and `std::hex`
def hexByte (byte : UInt8) : Bytes :=
  if byte < 16 then 48 :: Numeral.numeral 16 byte.toNat else Numeral.numeral 16 byte.toNat

def avcMseCodec (initialMp4 : Bytes) : Bytes :=
  let position := findAtom initialMp4 (Bytes.lit "avcC")
  match initialMp4.drop (position + 5) with
  | profile :: compatibility :: level :: _ =>
    Bytes.lit "avc1." ++ hexByte profile ++ hexByte compatibility ++ hexByte level
  | _ => Bytes.lit "avc1.640029"

def initialMp4HasAudio (initialMp4 : Bytes) : Bool := containsAtom initialMp4 "soun"

def videoHeaders (initialMp4 : Bytes) : Bytes :=
  let request := v.request
  let videoCodec := avcMseCodec initialMp4
  let codecs :=
    if v.enableAudio && request.speedIsOne && initialMp4HasAudio initialMp4 then
      videoCodec ++ Bytes.lit ",mp4a.40.2"
    else
      videoCodec
  let playbackStart := if request.option = .Playback then Bytes.ofInt request.startTime else []
  let playbackEnd := if request.option = .Playback then Bytes.ofInt request.endTime else []
  Bytes.lit ("HTTP/1.1 200 OK\r\nContent-Type: video/mp4\r\nTransfer-Encoding: chunked\r\n"
      ++ "Cache-Control: no-store, no-cache\r\nAccept-Ranges: none\r\n"
      ++ "Access-Control-Allow-Origin: *\r\nAccess-Control-Expose-Headers: X-Hik-Bridge-Mse-Codecs, "
      ++ "X-Hik-Bridge-Video-Codec, X-Hik-Bridge-Playback-Start, X-Hik-Bridge-Playback-End, "
      ++ "X-Hik-Bridge-Session-Id, X-Hik-Bridge-Session-Status-Url\r\nX-Hik-Bridge-Mse-Codecs: ")
    ++ codecs
    ++ Bytes.lit "\r\nX-Hik-Bridge-Video-Codec: h264\r\nX-Hik-Bridge-Playback-Start: "
    ++ playbackStart
    ++ Bytes.lit "\r\nX-Hik-Bridge-Playback-End: "
    ++ playbackEnd
    ++ Bytes.lit "\r\nX-Hik-Bridge-Session-Id: "
    ++ request.sid
    ++ Bytes.lit "\r\nX-Hik-Bridge-Session-Status-Url: /session-status?sid="
    ++ request.sid
    ++ Bytes.lit "\r\nX-Content-Type-Options: nosniff\r\nConnection: close\r\n\r\n"

def sendVideoHeaders (initialMp4 : Bytes) : Program Client Tick Exn Unit :=
  sendText v (videoHeaders v initialMp4)

section Sends

variable {v : Setting} {α : Type} {P : Client → Prop} {b : Bytes}

theorem keeps_onEnv {m : Program Env Tick Exn α} (hP : ∀ env c, P c → P { c with env })
    : Program.Keeps P (onEnv m) :=
  Program.keeps_zoom hP

-- What was sent is a part of the text from its start.
def Sent (b text : Bytes) (c : Client) : Prop := ∃ sent, sent <+: text ∧ c.wire = b ++ sent

-- The program sends the whole text when it returns, and a part of it from its start otherwise.
def Sends (text : Bytes) (m : Program Client Tick Exn Unit) : Prop :=
  ∀ b, Program.Triple (fun c => c.wire = b) m (fun _ c => c.wire = b ++ text)
    (fun _ => Sent b text) (Sent b text)

theorem triple_writeRound {data rest : Bytes}
    : Program.Triple (fun c => ∃ sent, sent ++ rest = data ∧ c.wire = b ++ sent) (writeRound v rest)
        (fun r c => Sum.elim
          (fun rest => ∃ sent, sent ++ rest = data ∧ c.wire = b ++ sent)
          (fun ok => (ok = true → c.wire = b ++ data) ∧ Sent b data c) r)
        (fun _ => Sent b data) (Sent b data) := by
  let I (rest : Bytes) (c : Client) : Prop := ∃ sent, sent ++ rest = data ∧ c.wire = b ++ sent
  have hsent : ∀ c, I rest c → Sent b data c :=
    fun _ ⟨sent, hdata, hwire⟩ => ⟨sent, ⟨rest, hdata⟩, hwire⟩
  have henv : ∀ {β : Type} (m : Program Env Tick Exn β),
      Program.Triple (I rest) (onEnv m) (fun _ => I rest) (fun _ => Sent b data) (Sent b data) := by
    intro β m
    apply (keeps_onEnv (P := I rest) fun _ _ hc => hc).conseq
    . exact fun _ hc => hc
    . exact fun _ _ hc => hc
    . exact fun _ => hsent
    . exact hsent
  apply Program.triple_ite
  . intro hrest
    apply Program.triple_pure
    intro c ⟨sent, hdata, hwire⟩
    rw [hrest, List.append_nil] at hdata
    rw [hdata] at hwire
    exact ⟨fun _ => hwire, data, List.prefix_refl data, hwire⟩
  . intro _
    have hrefused : Program.Triple (I rest) (pure (.inr false) : Program Client Tick Exn (Bytes ⊕ Bool))
        (fun r c => Sum.elim (fun rest => I rest c)
          (fun ok => (ok = true → c.wire = b ++ data) ∧ Sent b data c) r)
        (fun _ => Sent b data) (Sent b data) :=
      Program.triple_pure fun c hc => ⟨by simp, hsent c hc⟩
    apply Program.triple_bind (henv _)
    intro running
    apply Program.triple_ite
    . intro _
      exact hrefused
    . intro _
      apply Program.triple_bind (henv _)
      intro sent
      apply Program.triple_ite
      . intro _
        let size := min sent.count.toNat (min rest.length (64 * 1024))
        apply Program.triple_bind (R := fun _ => I (rest.drop size))
        . apply Program.triple_update
          intro c ⟨before, hdata, hwire⟩
          refine ⟨before ++ rest.take size, ?_, ?_⟩
          . rw [List.append_assoc, List.take_append_drop, hdata]
          . show c.wire ++ rest.take size = b ++ (before ++ rest.take size)
            rw [hwire, List.append_assoc]
        . intro _
          exact Program.triple_pure fun _ hc => hc
      . intro _
        apply Program.triple_ite
        . intro _
          apply Program.triple_bind (henv _)
          intro _
          apply Program.triple_bind (henv _)
          intro clock
          apply Program.triple_ite
          . intro _
            exact Program.triple_raise hsent
          . intro _
            exact Program.triple_pure fun _ hc => hc
        . intro _
          apply Program.triple_ite
          . intro _
            exact Program.triple_pure fun _ hc => hc
          . intro _
            exact hrefused

theorem triple_writeSocketAll {data : Bytes}
    : Program.Triple (fun c => c.wire = b) (writeSocketAll v data)
        (fun ok c => (ok = true → c.wire = b ++ data) ∧ Sent b data c)
        (fun _ => Sent b data) (Sent b data) := by
  apply Program.Triple.pre
  . apply Program.triple_iterate
      (I := fun rest c => ∃ sent, sent ++ rest = data ∧ c.wire = b ++ sent)
    . intro rest c ⟨sent, hdata, hwire⟩
      exact ⟨sent, ⟨rest, hdata⟩, hwire⟩
    . intro rest
      exact triple_writeRound
  . intro c hc
    exact ⟨[], rfl, by simpa using hc⟩

theorem sends_sendText (text : Bytes) : Sends text (sendText v text) := by
  intro b
  apply Program.triple_bind triple_writeSocketAll
  intro written
  apply Program.triple_ite
  . intro hwritten
    exact Program.triple_pure fun _ hc => hc.1 hwritten
  . intro _
    exact Program.triple_raise fun _ hc => hc.2

theorem sends_bind {first second : Bytes} {m n : Program Client Tick Exn Unit} (hm : Sends first m)
    (hn : Sends second n) : Sends (first ++ second) (m >>= fun _ => n) := by
  intro b
  have hfirst : ∀ c, Sent b first c → Sent b (first ++ second) c :=
    fun _ ⟨sent, hsent, hwire⟩ => ⟨sent, hsent.trans (List.prefix_append first second), hwire⟩
  have hsecond : ∀ c, Sent (b ++ first) second c → Sent b (first ++ second) c := by
    intro c ⟨sent, hsent, hwire⟩
    refine ⟨first ++ sent, (List.prefix_append_right_inj first).mpr hsent, ?_⟩
    rw [hwire, List.append_assoc]
  apply Program.triple_bind (R := fun _ c => c.wire = b ++ first)
  . exact (hm b).conseq (fun _ hc => hc) (fun _ _ hc => hc) (fun _ => hfirst) hfirst
  . intro _
    apply (hn (b ++ first)).conseq (fun _ hc => hc) _ (fun _ => hsecond) hsecond
    intro _ c hc
    rw [hc, List.append_assoc]

theorem lit_crlf : Bytes.lit "\r\n" = Chunked.crlf := by decide

theorem sends_sendChunk {data : Bytes} (h : data ≠ []) : Sends (Chunked.frame data) (sendChunk v data) := by
  have hsend : Sends (Numeral.numeral 16 data.length ++ Chunked.crlf ++ (data ++ Chunked.crlf))
      (sendChunk v data) := by
    unfold sendChunk
    rw [if_neg h, lit_crlf]
    exact sends_bind (sends_sendText _) (sends_bind (sends_sendText _) (sends_sendText _))
  simpa [Chunked.frame] using hsend

theorem triple_sendText_stopped {t : Bytes} (h : t ≠ [])
    : Program.Triple (fun c => c.wire = b ∧ c.env.running = false) (sendText v t)
        (fun _ _ => False) (fun _ c => c.wire = b) (fun c => c.wire = b) := by
  let Stopped (c : Client) : Prop := c.wire = b ∧ c.env.running = false
  have hround : Program.Triple Stopped (writeRound v t)
      (fun r c => Sum.elim (fun _ => False) (fun ok => ok = false ∧ c.wire = b) r)
      (fun _ c => c.wire = b) (fun c => c.wire = b) := by
    unfold writeRound
    rw [if_neg h]
    apply Program.triple_bind (R := fun running c => running = false ∧ c.wire = b)
    . apply (Program.triple_zoom (p := envPart) (F := fun c => c.wire = b)
        triple_isRunning_stopped fun _ _ hc => hc).conseq
      . exact fun _ hc => ⟨hc.2, hc.1⟩
      . exact fun _ _ hc => ⟨hc.1.1, hc.2⟩
      . exact fun _ _ hc => hc.2
      . exact fun _ hc => hc.2
    . intro running
      apply Program.triple_ite
      . intro _
        exact Program.triple_pure fun _ hc => ⟨rfl, hc.2⟩
      . intro hrunning c _ hc
        rw [hc.1] at hrunning
        contradiction
  apply Program.triple_bind (R := fun ok c => ok = false ∧ c.wire = b)
  . apply Program.Triple.pre (H := fun c => t = t ∧ Stopped c)
    . apply Program.triple_iterate (I := fun rest c => rest = t ∧ Stopped c)
      . exact fun _ _ hc => hc.2.1
      . intro rest c ts hc
        rw [hc.1]
        apply (hround c ts hc.2).mono
        . intro r c hr
          cases r with
          | inl rest => exact hr.elim
          | inr ok => exact hr
        . exact fun _ _ hc => hc
        . exact fun _ hc => hc
    . exact fun _ hc => ⟨rfl, hc⟩
  . intro written
    apply Program.triple_ite
    . intro hwritten c _ hc
      rw [hc.1] at hwritten
      contradiction
    . intro _
      exact Program.triple_raise fun _ hc => hc.2

end Sends

theorem writeRound_nil (v : Setting) (rest : Bytes) (client : Client)
    : writeRound v rest client [] = (.ok (.inr true), client, []) ∨
        writeRound v rest client [] = (.cut, client, []) := by
  unfold writeRound
  split
  . exact .inl rfl
  . exact .inr rfl

theorem sendText_quiet {v : Setting} {text : Bytes} (htext : text ≠ []) (client : Client)
    (hrunning : client.env.running = true)
    : client.wire.length < (sendText v text client [quiet, quiet]).2.1.wire.length := by
  let size := min quiet.count.toNat (min text.length (64 * 1024))
  have hsize : 0 < size := by
    have := List.length_pos_iff.mpr htext
    show 0 < min 65536 (min text.length 65536)
    omega
  let client' : Client := { client with wire := client.wire ++ text.take size }
  have hlength : client.wire.length < client'.wire.length := by
    have := List.length_pos_iff.mpr htext
    simp [client']
    omega
  have hround : writeRound v text client [quiet, quiet]
      = (.ok (.inl (text.drop size)), client', []) := by
    have hisRunning : onEnv isRunning client [quiet, quiet] = (.ok true, client, [quiet]) := by
      have := isRunning_quiet client.env [quiet]
      rw [hrunning] at this
      exact Program.zoom_ok (p := envPart) this
    have hobserve : onEnv observe client [quiet] = (.ok quiet, client, []) :=
      Program.zoom_ok (p := envPart) (observe_quiet client.env [])
    unfold writeRound
    rw [if_neg htext, Program.bind_ok hisRunning]
    show (onEnv observe >>= _ : Program Client Tick Exn (Bytes ⊕ Bool)) client [quiet] = _
    rw [Program.bind_ok hobserve]
    rfl
  have hloop : writeSocketAll v text client [quiet, quiet] = (.ok true, client', []) ∨
      writeSocketAll v text client [quiet, quiet] = (.cut, client', []) := by
    unfold writeSocketAll Program.iterate
    rw [Program.iterateFuel_again hround]
    rcases writeRound_nil v (text.drop size) client' with hdone | hcut
    . exact .inl (Program.iterateFuel_done hdone)
    . exact .inr (Program.iterateFuel_cut hcut)
  unfold sendText
  rcases hloop with hloop | hloop
  . rw [Program.bind_ok hloop]
    exact hlength
  . rw [Program.bind_cut hloop]
    exact hlength

end Client
end HikBridge
