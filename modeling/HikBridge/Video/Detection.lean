import HikBridge.Lib.Segments
import HikBridge.Video.Pipeline

/-!
This module contains what the detection of the codec makes of the pieces in which the pipe of FFmpeg
brings the initial fragment, in both implementations.
-/

namespace HikBridge

section Atoms

variable {atom : Bytes} {xs ys : Bytes}

theorem findAtom_le : findAtom xs atom ≤ xs.length := by
  induction xs with
  | nil => simp [findAtom]
  | cons x xs ih =>
    unfold findAtom
    split
    . omega
    . simp
      omega

theorem findAtom_lt_iff (hatom : atom ≠ []) : findAtom xs atom < xs.length ↔ atom <:+: xs := by
  induction xs with
  | nil => simp [findAtom, hatom]
  | cons x xs ih =>
    rw [List.infix_cons_iff, ← ih, findAtom]
    split
    . next h => simp [List.isPrefixOf_iff_prefix.mp h]
    . next h =>
      rw [List.isPrefixOf_iff_prefix] at h
      simp [h]

theorem containsAtom_iff {text : String} (htext : Bytes.lit text ≠ [])
    : containsAtom xs text = true ↔ Bytes.lit text <:+: xs := by
  rw [← findAtom_lt_iff htext]
  have hle : findAtom xs (Bytes.lit text) ≤ xs.length := findAtom_le
  unfold containsAtom
  rw [decide_eq_true_iff]
  omega

theorem containsAtom_append {text : String} (htext : Bytes.lit text ≠ [])
    (h : containsAtom xs text = true) : containsAtom (xs ++ ys) text = true := by
  rw [containsAtom_iff htext] at h ⊢
  exact h.trans (List.prefix_append xs ys).isInfix

theorem grows_initialized : Segments.Grows Pipeline.initialized := by
  intro xs ys h
  unfold Pipeline.initialized at h ⊢
  rw [Bool.and_eq_true] at h ⊢
  exact ⟨containsAtom_append (by decide) h.1, containsAtom_append (by decide) h.2⟩

theorem convex_detectVideoCodec : Segments.Convex detectVideoCodec := by
  intro xs ys zs
  have hhevc : containsAtom xs "hvcC" = true → containsAtom (xs ++ ys) "hvcC" = true :=
    containsAtom_append (by decide)
  have hhevc' : containsAtom (xs ++ ys) "hvcC" = true → containsAtom (xs ++ ys ++ zs) "hvcC" = true :=
    containsAtom_append (by decide)
  have havc : containsAtom xs "avcC" = true → containsAtom (xs ++ ys) "avcC" = true :=
    containsAtom_append (by decide)
  have havc' : containsAtom (xs ++ ys) "avcC" = true → containsAtom (xs ++ ys ++ zs) "avcC" = true :=
    containsAtom_append (by decide)
  unfold detectVideoCodec
  grind

end Atoms

namespace Pipeline

variable (v : Setting)

structure Probing where
  pipeline : Pipeline
  process : FfmpegProcess
  running : pipeline.env.running = true
  cancelled : pipeline.env.cancelled = false
  slot : pipeline.heap.probeFfmpeg = some process.id
  alive : (pipeline.heap.processes.find? fun p => p.id = process.id) = some process

-- The answers to one round of `read_until_ready` in which a piece arrives.
def arrival (piece : Bytes) : List Tick :=
  List.replicate (if v.windows then 10 else 6) quiet ++ [{ quiet with data := piece }]

-- All pieces arrive before the deadline, and then the output ends.
def arrivals (pieces : List Bytes) : List Tick := pieces.flatMap (arrival v) ++ arrival v []

-- `detect_video_codec(probe_ffmpeg->read_initial(...))`
def probedCodec : Program Pipeline Tick Exn DetectedVideoCodec := do
  let initialMp4 ← readInitial v
  pure (detectVideoCodec initialMp4)

-- The loop of `read_until_ready` with a name for its body.
def readLoopRound (id : Nat) (requireMediaFragment : Bool) (result : Bytes)
    : Program Pipeline Tick Exn (Bytes ⊕ Bool × Bytes) := do
  let clock ← onEnv observe
  if clock.late || decide (result.length ≥ 4 * 1024 * 1024) then
    pure (.inr (false, result))
  else do
    onEnv checkRunning
    onEnv (checkClient v)
    let readSize ← readOutputTimeout v id 32768
    match readSize with
    | none => pure (.inl result)
    | some [] => pure (.inr (false, result))
    | some data =>
      let result := result ++ data
      if mediaReady result requireMediaFragment then
        pure (.inr (true, result))
      else
        pure (.inl result)

theorem readLoop_eq (id : Nat) (result : Bytes) (requireMediaFragment : Bool)
    : readLoop v id result requireMediaFragment
        = Program.iterate (readLoopRound v id requireMediaFragment) result := by
  rfl


section Quiet

variable {v} {p : Pipeline} {env : Env} {rest : List Tick}

theorem checkRunning_quiet (h : env.running = true)
    : checkRunning env (quiet :: rest) = (.ok (), env, rest) := by
  unfold checkRunning
  rw [Program.bind_ok (isRunning_quiet env rest), h]
  rfl

theorem checkClient_quiet (h : env.running = true) (hcancelled : env.cancelled = false)
    : checkClient v env (quiet :: quiet :: quiet :: rest) = (.ok (), env, rest) := by
  have hisCancelled : isCancelled env (quiet :: quiet :: quiet :: rest)
      = (.ok false, env, quiet :: quiet :: rest) := by
    unfold isCancelled
    rw [Program.bind_ok (observe_quiet env _), ← hcancelled]
    rfl
  have hvideo : checkVideoClient v env (quiet :: quiet :: rest) = (.ok (), env, rest) := by
    unfold checkVideoClient
    rw [Program.bind_ok (isRunning_quiet env _), h]
    show (observe >>= _ : Program Env Tick Exn Unit) env (quiet :: rest) = _
    rw [Program.bind_ok (observe_quiet env rest)]
    rfl
  unfold checkClient
  rw [Program.bind_ok hisCancelled]
  exact hvideo

theorem onEnv_ok {α : Type} {m : Program Env Tick Exn α} {value : α} {ts us : List Tick}
    (h : m p.env ts = (.ok value, p.env, us)) : onEnv m p ts = (.ok value, p, us) :=
  Program.zoom_ok (p := envPart) h

-- The state after the bytes were read.
def afterRead (p : Pipeline) (id : Nat) (data : Bytes) : Pipeline :=
  { p with heap := p.heap.mapProcess id fun process =>
      { process with output := process.output ++ data, eof := process.eof || data.isEmpty } }

theorem received_eq (id : Nat) (data : Bytes) (ts : List Tick)
    : received id data p ts = (.ok (some data), afterRead p id data, ts) := by
  rfl

theorem observe_data (piece : Bytes)
    : onEnv observe p ({ quiet with data := piece } :: rest)
        = (.ok { quiet with data := piece }, p, rest) := by
  apply onEnv_ok
  show (Outcome.ok _, p.env.advance quiet, rest) = _
  rw [advance_quiet]

theorem readOutputTimeout_arrival (hrunning : p.env.running = true)
    (hcancelled : p.env.cancelled = false) (id : Nat) {piece : Bytes} (hpiece : piece.length ≤ 32768)
    : readOutputTimeout v id 32768 p
          (List.replicate (if v.windows then 5 else 1) quiet ++ { quiet with data := piece } :: rest)
        = (.ok (some piece), afterRead p id piece, rest) := by
  have htake : piece.take 32768 = piece := List.take_of_length_le hpiece
  unfold readOutputTimeout
  cases v.windows with
  | false =>
    show readOutputLinux id 32768 p (quiet :: { quiet with data := piece } :: rest) = _
    unfold readOutputLinux
    rw [Program.bind_ok (onEnv_ok (observe_quiet p.env _))]
    show (onEnv observe >>= _ : Program Pipeline Tick Exn (Option Bytes)) p _ = _
    rw [Program.bind_ok (observe_data piece)]
    show received id (piece.take 32768) p rest = _
    rw [htake, received_eq]
  | true =>
    show readOutputWindows v id 32768 p
      (quiet :: quiet :: quiet :: quiet :: quiet :: { quiet with data := piece } :: rest) = _
    unfold readOutputWindows Program.iterate
    apply Program.iterateFuel_done
    rw [Program.bind_ok (onEnv_ok (observe_quiet p.env _))]
    show (onEnv checkRunning >>= _ : Program Pipeline Tick Exn (Unit ⊕ Option Bytes)) p _ = _
    rw [Program.bind_ok (onEnv_ok (checkRunning_quiet hrunning)),
      Program.bind_ok (onEnv_ok (checkClient_quiet hrunning hcancelled)),
      Program.bind_ok (observe_data piece)]
    show (received id (piece.take 32768) >>= _ : Program Pipeline Tick Exn (Unit ⊕ Option Bytes)) p _ = _
    rw [htake, Program.bind_ok (received_eq id piece rest)]
    rfl

theorem arrival_append (piece : Bytes) (rest : List Tick)
    : arrival v piece ++ rest = quiet :: quiet :: quiet :: quiet :: quiet
        :: (List.replicate (if v.windows then 5 else 1) quiet ++ { quiet with data := piece } :: rest) := by
  unfold arrival
  cases v.windows with
  | false => rfl
  | true => rfl

theorem readLoopRound_full {result : Bytes} (hfull : 4 * 1024 * 1024 ≤ result.length) (id : Nat)
    : readLoopRound v id false result p (quiet :: rest) = (.ok (.inr (false, result)), p, rest) := by
  unfold readLoopRound
  rw [Program.bind_ok (onEnv_ok (observe_quiet p.env rest)), if_pos (by simp [hfull])]
  rfl

-- What a round makes of a piece.
def roundResult (result piece : Bytes) : Bytes ⊕ Bool × Bytes :=
  match piece with
  | [] => .inr (false, result)
  | piece => if initialized (result ++ piece) then .inr (true, result ++ piece) else .inl (result ++ piece)

theorem readLoopRound_arrival (hrunning : p.env.running = true) (hcancelled : p.env.cancelled = false)
    {result : Bytes} (hshort : result.length < 4 * 1024 * 1024) (id : Nat) {piece : Bytes}
    (hpiece : piece.length ≤ 32768) (rest : List Tick)
    : readLoopRound v id false result p (arrival v piece ++ rest)
        = (.ok (roundResult result piece), afterRead p id piece, rest) := by
  rw [arrival_append]
  unfold readLoopRound
  rw [Program.bind_ok (onEnv_ok (observe_quiet p.env _)), if_neg (by simp [quiet]; omega),
    Program.bind_ok (onEnv_ok (checkRunning_quiet hrunning)),
    Program.bind_ok (onEnv_ok (checkClient_quiet hrunning hcancelled)),
    Program.bind_ok (readOutputTimeout_arrival hrunning hcancelled id hpiece)]
  cases piece with
  | nil => rfl
  | cons byte piece =>
    unfold roundResult
    simp only [mediaReady, Bool.not_false, Bool.true_or, Bool.and_true]
    split
    . rfl
    . rfl

theorem arrivals_eq_cons (v : Setting) (pieces : List Bytes) : ∃ ts, arrivals v pieces = quiet :: ts := by
  unfold arrivals
  cases pieces with
  | nil => exact ⟨_, (List.append_nil _).symm.trans (arrival_append [] [])⟩
  | cons piece pieces =>
    rw [List.flatMap_cons, List.append_assoc, arrival_append]
    exact ⟨_, rfl⟩

def LoopEnds (v : Setting) (p : Pipeline) (id fuel : Nat) (result : Bytes) (pieces : List Bytes) : Prop :=
  ∃ ready r,
    (Program.iterateFuel (readLoopRound v id false) fuel result p (arrivals v pieces)).1 = .ok (ready, r) ∧
      Segments.collect initialized (4 * 1024 * 1024) result pieces = if ready then some r else none

theorem loopEnds_full {id fuel : Nat} {pieces : List Bytes} {result : Bytes}
    (hfull : 4 * 1024 * 1024 ≤ result.length) : LoopEnds v p id (fuel + 1) result pieces := by
  obtain ⟨ts, hts⟩ := arrivals_eq_cons v pieces
  refine ⟨false, result, ?_, ?_⟩
  . rw [hts, Program.iterateFuel_done (readLoopRound_full hfull id)]
  . unfold Segments.collect
    split
    . rfl
    . rw [if_pos hfull]
      rfl

theorem loopEnds_arrivals {id fuel : Nat} {pieces : List Bytes} {result : Bytes}
    (hrunning : p.env.running = true) (hcancelled : p.env.cancelled = false)
    (hnonempty : ∀ piece ∈ pieces, piece ≠ []) (hbounded : ∀ piece ∈ pieces, piece.length ≤ 32768)
    (hfuel : pieces.length ≤ fuel) : LoopEnds v p id (fuel + 1) result pieces := by
  induction pieces generalizing p result fuel with
  | nil =>
    by_cases hfull : 4 * 1024 * 1024 ≤ result.length
    . exact loopEnds_full hfull
    refine ⟨false, result, ?_, rfl⟩
    have hround := readLoopRound_arrival (v := v) hrunning hcancelled
      (Nat.lt_of_not_le hfull) id (show ([] : Bytes).length ≤ 32768 by simp) []
    unfold arrivals
    rw [List.flatMap_nil, List.nil_append, ← List.append_nil (arrival v []),
      Program.iterateFuel_done hround]
  | cons piece pieces ih =>
    by_cases hfull : 4 * 1024 * 1024 ≤ result.length
    . exact loopEnds_full hfull
    have hround := readLoopRound_arrival (v := v) hrunning hcancelled
      (Nat.lt_of_not_le hfull) id (hbounded piece (by simp)) (arrivals v pieces)
    have hroundResult : roundResult result piece = if initialized (result ++ piece) then
        .inr (true, result ++ piece) else .inl (result ++ piece) := by
      unfold roundResult
      split
      . exact absurd rfl (hnonempty [] (by simp))
      . rfl
    have harrivals : arrivals v (piece :: pieces) = arrival v piece ++ arrivals v pieces := by
      simp [arrivals]
    unfold LoopEnds
    rw [harrivals, Segments.collect, if_neg hfull]
    split
    . next hready =>
      rw [hroundResult, if_pos hready] at hround
      exact ⟨true, result ++ piece, by rw [Program.iterateFuel_done hround], rfl⟩
    . next hready =>
      rw [hroundResult, if_neg hready] at hround
      rw [Program.iterateFuel_again hround]
      simp at hfuel
      obtain ⟨fuel, rfl⟩ := Nat.exists_eq_add_one.mpr (show 0 < fuel by omega)
      have hends : LoopEnds v (afterRead p id piece) id (fuel + 1) (result ++ piece) pieces := by
        apply ih
        . exact hrunning
        . exact hcancelled
        . exact fun other hother => hnonempty other (by simp [hother])
        . exact fun other hother => hbounded other (by simp [hother])
        . omega
      exact hends

theorem deref_probing (probing : Probing) (ts : List Tick)
    : deref .probe probing.pipeline ts = (.ok probing.process, probing.pipeline, ts) := by
  have hslot : probing.pipeline.heap.slot .probe = some probing.process.id := probing.slot
  have hread : currentHeap probing.pipeline ts = (.ok probing.pipeline.heap, probing.pipeline, ts) := rfl
  unfold deref
  rw [Program.bind_ok hread, hslot]
  dsimp only
  unfold processAt
  rw [Program.bind_ok hread, probing.alive]
  rfl

theorem length_le_arrivals (pieces : List Bytes) : pieces.length ≤ (arrivals v pieces).length := by
  induction pieces with
  | nil => simp
  | cons piece pieces ih =>
    unfold arrivals at ih ⊢
    rw [List.flatMap_cons, List.append_assoc, List.length_append]
    have : 0 < (arrival v piece).length := by simp [arrival]
    simp only [List.length_cons]
    omega

theorem probedCodec_arrivals (probing : Probing) {pieces : List Bytes}
    (hnonempty : ∀ piece ∈ pieces, piece ≠ []) (hbounded : ∀ piece ∈ pieces, piece.length ≤ 32768)
    : (probedCodec v probing.pipeline (arrivals v pieces)).1
        = match Segments.collect initialized (4 * 1024 * 1024) [] pieces with
          | some initialMp4 => .ok (detectVideoCodec initialMp4)
          | none => .error (.bridge ffmpegNoMp4) := by
  obtain ⟨ready, r, hrun, hcollect⟩ := loopEnds_arrivals (v := v)
    probing.running probing.cancelled hnonempty hbounded (length_le_arrivals pieces)
  rcases hloop : readLoop v probing.process.id [] false probing.pipeline (arrivals v pieces)
    with ⟨outcome, p', us⟩
  have houtcome : outcome = .ok (ready, r) := by
    rw [← hrun]
    exact (congrArg Prod.fst hloop).symm
  rw [houtcome] at hloop
  have hread : readInitial v probing.pipeline (arrivals v pieces)
      = (if ready then .ok r else .error (.bridge ffmpegNoMp4), p', us) := by
    unfold readInitial readUntilReady
    rw [Program.bind_ok (deref_probing probing _), Program.bind_ok hloop]
    cases ready with
    | true => rfl
    | false => rfl
  rw [hcollect]
  unfold probedCodec
  cases ready with
  | true =>
    rw [Program.bind_ok hread]
    rfl
  | false =>
    rw [Program.bind_error hread]
    rfl

end Quiet

end Pipeline
end HikBridge
