import HikBridge.Lib.LineBuffer
import HikBridge.Lib.Machine
import HikBridge.Video.Basic

/-!
This module contains `FfmpegProcess::read_diagnostics`: the reader of FFmpeg's stderr, which takes
whatever the pipe holds, 1024 bytes at most, and moves it line by line into the tail of the
diagnostics, beside a handler that may look at the tail at any moment.
-/

namespace HikBridge

inductive DiagnosticsPc where
  | waiting
  | lines
  | done
  deriving DecidableEq, Repr

/--
`received` keeps all that was read from stderr, `log` the codecs that the log lines name.
-/
structure Diagnostics where
  received : Bytes := []
  pending : Bytes := []
  tail : Bytes := []
  log : List DetectedVideoCodec := []
  pc : DiagnosticsPc := .waiting
  deriving DecidableEq, Repr

inductive DiagnosticsEvent where
  | read (data : Bytes)
  | timeout (stopRequested : Bool)
  | line
  deriving DecidableEq, Repr

namespace Diagnostics

-- `find_first_of("\r\n")`
def isLineEnd (c : UInt8) : Bool := c == 13 || c == 10

-- `line.find(text) != npos`
def mentions (line : Bytes) (text : String) : Bool := line.tails.any (Bytes.lit text).isPrefixOf

def codecOfLine (line : Bytes) : Option DetectedVideoCodec :=
  if mentions line "Video: hevc" || mentions line "Video: h265" then some .H265
  else if mentions line "Video: h264" || mentions line "Video: avc" then some .H264
  else none

def limit : Nat := 8192

def append (tail line : Bytes) : Bytes :=
  let tail := tail ++ line ++ [10]
  if limit < tail.length then tail.drop (tail.length - limit) else tail

-- The code logs the codec after it has released the mutex of the tail.
def takeLine (s : Diagnostics) : Diagnostics :=
  match LineBuffer.takeLine isLineEnd s.pending with
  | none => { s with pc := .waiting }
  | some (line, rest) =>
    { s with
      pending := rest
      tail := if line = [] then s.tail else append s.tail line
      log := s.log ++ (codecOfLine line).toList }

def step (s : Diagnostics) (event : DiagnosticsEvent) : Option Diagnostics :=
  match s.pc, event with
  | .waiting, .read data =>
    if data = [] then
      some { s with pc := .done }
    else if data.length ≤ 1024 then
      some { s with
        received := s.received ++ data
        pending := s.pending ++ data
        pc := .lines }
    else
      none
  | .waiting, .timeout stopRequested => some { s with pc := if stopRequested then .done else .waiting }
  | .lines, .line => some s.takeLine
  | _, _ => none

def text (lines : List Bytes) : Bytes :=
  (lines.filter fun line => !line.isEmpty).flatMap fun line => line ++ [10]

def stderrLines (received : Bytes) : List Bytes := LineBuffer.completed isLineEnd [] received

variable {s s' : Diagnostics} {event : DiagnosticsEvent}

theorem append_eq (tail line : Bytes)
    : append tail line = LineBuffer.keepLast limit (tail ++ line ++ [10]) := by
  simp only [append]
  split
  . rfl
  . exact (LineBuffer.keepLast_of_length_le (by omega)).symm

theorem text_append (lines : List Bytes) (line : Bytes)
    : text (lines ++ [line]) = text lines ++ if line = [] then [] else line ++ [10] := by
  unfold text
  rw [List.filter_append, List.flatMap_append]
  cases line <;> simp

structure Moved (s : Diagnostics) (taken : Bytes) : Prop where
  received : s.received = taken ++ s.pending
  whole : LineBuffer.pending isLineEnd [] taken = []
  tail : s.tail = LineBuffer.keepLast limit (text (stderrLines taken))
  log : s.log = (stderrLines taken).filterMap codecOfLine
  waiting : s.pc ≠ .lines → ∀ c ∈ s.pending, isLineEnd c = false

theorem moved_takeLine {taken : Bytes} (h : s.Moved taken) (hpc : s.pc = .lines)
    : ∃ taken', s.takeLine.Moved taken' := by
  cases htake : LineBuffer.takeLine isLineEnd s.pending with
  | none =>
    refine ⟨taken, ?_⟩
    simp only [takeLine, htake]
    exact ⟨h.received, h.whole, h.tail, h.log, fun _ => LineBuffer.takeLine_eq_none htake⟩
  | some read =>
    obtain ⟨line, rest⟩ := read
    obtain ⟨sep, hsep, hline, hpending⟩ := LineBuffer.takeLine_eq_some htake
    obtain ⟨hcompleted, hwhole⟩ := LineBuffer.completed_line h.whole hline hsep
    refine ⟨taken ++ line ++ [sep], ?_⟩
    simp only [takeLine, htake]
    refine ⟨?_, hwhole, ?_, ?_, ?_⟩
    . rw [h.received, hpending]
      simp
    . show _ = LineBuffer.keepLast limit (text (LineBuffer.completed isLineEnd [] _))
      rw [hcompleted, text_append]
      split
      . next hempty => rw [List.append_nil]; exact h.tail
      . rw [append_eq, h.tail, List.append_assoc, LineBuffer.keepLast_append, stderrLines]
    . show _ = (LineBuffer.completed isLineEnd [] _).filterMap codecOfLine
      rw [hcompleted, List.filterMap_append, h.log]
      cases hcodec : codecOfLine line <;> simp [hcodec, stderrLines]
    . intro hnot
      exact absurd hpc hnot

theorem moved_step {taken : Bytes} (h : s.Moved taken) (hstep : s.step event = some s')
    : ∃ taken', s'.Moved taken' := by
  unfold step at hstep
  split at hstep
  . next data hpc =>
    split at hstep
    . cases hstep
      exact ⟨taken, h.received, h.whole, h.tail, h.log, fun _ => h.waiting (by rw [hpc]; exact nofun)⟩
    . split at hstep
      . cases hstep
        refine ⟨taken, ?_, h.whole, h.tail, h.log, fun hnot => absurd rfl hnot⟩
        rw [h.received, List.append_assoc]
      . cases hstep
  . next stopRequested hpc =>
    cases hstep
    exact ⟨taken, h.received, h.whole, h.tail, h.log, fun _ => h.waiting (by rw [hpc]; exact nofun)⟩
  . next hpc =>
    cases hstep
    exact moved_takeLine h hpc
  . cases hstep

theorem moved_run {es : List DiagnosticsEvent} (hrun : Machine.run step {} es = some s')
    : ∃ taken, s'.Moved taken := by
  have hstart : ({} : Diagnostics).Moved [] := ⟨rfl, rfl, rfl, rfl, by simp⟩
  exact Machine.run_invariant (I := fun s => ∃ taken, s.Moved taken)
    (fun _ _ _ ⟨_, h⟩ hstep => moved_step h hstep) ⟨[], hstart⟩ hrun

/--
However stderr is cut into reads: at every moment the tail is the last 8192 bytes of the lines of some
part of what was received, which is all of it whenever the reader waits for more, and the log names
the codecs of the same lines.
-/
theorem tail_of_run {es : List DiagnosticsEvent} (hrun : Machine.run step {} es = some s')
    : ∃ taken,
        taken <+: s'.received
          ∧ s'.tail = LineBuffer.keepLast limit (text (stderrLines taken))
          ∧ s'.log = (stderrLines taken).filterMap codecOfLine
          ∧ (s'.pc ≠ .lines → stderrLines taken = stderrLines s'.received) := by
  obtain ⟨taken, h⟩ := moved_run hrun
  refine ⟨taken, ⟨s'.pending, h.received.symm⟩, h.tail, h.log, ?_⟩
  intro hpc
  unfold stderrLines
  rw [h.received, LineBuffer.completed_append, LineBuffer.completed_of_not_sep (h.waiting hpc),
    List.append_nil]

-- "av" and "c:\r\nVi" in two reads, of which one line is complete
theorem tail_of_run_sample
    : ∃ taken,
        taken <+: Bytes.lit "avc:\r\nVi"
          ∧ Bytes.lit "avc:\n" = LineBuffer.keepLast limit (text (stderrLines taken))
          ∧ [] = (stderrLines taken).filterMap codecOfLine
          ∧ (DiagnosticsPc.waiting ≠ .lines
              → stderrLines taken = stderrLines (Bytes.lit "avc:\r\nVi")) :=
  @tail_of_run
    { received := Bytes.lit "avc:\r\nVi", pending := Bytes.lit "Vi", tail := Bytes.lit "avc:\n" }
    [.read (Bytes.lit "av"), .line, .timeout false, .read (Bytes.lit "c:\r\nVi"), .line, .line, .line]
    (by decide)

end Diagnostics
end HikBridge
