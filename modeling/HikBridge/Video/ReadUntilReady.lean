import HikBridge.Video.Detection
import HikBridge.Video.Objects

/-!
This module contains the loop of `read_until_ready` over the results of its reads, which end with the
deadline, and shows for which bytes to start with it returns at the first possible moment.
-/

namespace HikBridge
namespace Pipeline

section Reads

variable (requireMediaFragment : Bool)

/--
The loop, where `none` is a negative count of `read_output_timeout` and no bytes are the end of the
output. It returns whether it returned from within.
-/
def readRounds : Bytes → List (Option Bytes) → Bool × Bytes
  | result, [] => (false, result)
  | result, readSize :: reads =>
    if result.length ≥ 4 * 1024 * 1024 then (false, result)
    else
      match readSize with
      | none => readRounds result reads
      | some [] => (false, result)
      | some data =>
        let result := result ++ data
        if mediaReady result requireMediaFragment then (true, result) else readRounds result reads

def endOfLoop (r : Bool × Bytes) : Except BridgeError Bytes :=
  let (ready, result) := r
  if ready then .ok result
  else if requireMediaFragment && initialized result then .error ffmpegNoMediaFragment
  else .error ffmpegNoMp4

def readReady (initial : Bytes) (reads : List (Option Bytes)) : Except BridgeError Bytes :=
  endOfLoop requireMediaFragment (readRounds requireMediaFragment initial reads)

/--
The bytes at the first moment at which the required atoms are there, before the end of the output and
the deadline. The moment before the first read counts.
-/
def firstReady : Bytes → List (Option Bytes) → Option Bytes
  | result, reads =>
    if mediaReady result requireMediaFragment then some result
    else
      match reads with
      | [] => none
      | none :: reads => firstReady result reads
      | some [] :: _ => none
      | some data :: reads => firstReady (result ++ data) reads

def ExactRead (initial : Bytes) (reads : List (Option Bytes)) : Prop :=
  match firstReady requireMediaFragment initial reads with
  | some bytes => readReady requireMediaFragment initial reads = .ok bytes
  | none => ∃ error, readReady requireMediaFragment initial reads = .error error

def readBytes (reads : List (Option Bytes)) : Bytes := reads.flatMap fun readSize => readSize.getD []

variable {requireMediaFragment : Bool} {initial : Bytes} {reads : List (Option Bytes)}

theorem readBytes_cons (readSize : Option Bytes) (reads : List (Option Bytes))
    : readBytes (readSize :: reads) = readSize.getD [] ++ readBytes reads := rfl

theorem ne_of_readRounds {bytes : Bytes}
    (h : readRounds requireMediaFragment initial reads = (true, bytes)) : initial.length < bytes.length := by
  induction reads generalizing initial with
  | nil => cases h
  | cons readSize reads ih =>
    unfold readRounds at h
    split at h
    . cases h
    . split at h
      . exact ih h
      . cases h
      next data hdata =>
        have hpos : 0 < data.length := List.length_pos_iff.mpr hdata
        have hlength : (initial ++ data).length = initial.length + data.length := List.length_append
        dsimp only at h
        split at h
        . cases h
          omega
        . have hlt := ih h
          omega

theorem readReady_ne_initial : readReady requireMediaFragment initial reads ≠ .ok initial := by
  unfold readReady endOfLoop
  rcases hrounds : readRounds requireMediaFragment initial reads with ⟨ready, bytes⟩
  cases ready with
  | true =>
    have hlt := ne_of_readRounds hrounds
    intro h
    cases h
    exact absurd hlt (Nat.lt_irrefl _)
  | false =>
    dsimp only
    intro h
    rw [if_neg (by simp)] at h
    split at h
    . cases h
    . cases h

theorem exists_error (bytes : Bytes)
    : ∃ error, endOfLoop requireMediaFragment (false, bytes) = .error error := by
  unfold endOfLoop
  dsimp only
  rw [if_neg (by simp)]
  split
  . exact ⟨_, rfl⟩
  . exact ⟨_, rfl⟩

theorem readRounds_data {byte : UInt8} {data : Bytes} (hshort : ¬ initial.length ≥ 4 * 1024 * 1024)
    : readRounds requireMediaFragment initial (some (byte :: data) :: reads)
        = if mediaReady (initial ++ byte :: data) requireMediaFragment then
            (true, initial ++ byte :: data)
          else
            readRounds requireMediaFragment (initial ++ byte :: data) reads := by
  rw [readRounds, if_neg hshort]
  simp

theorem firstReady_data {byte : UInt8} {data : Bytes}
    (hinitial : mediaReady initial requireMediaFragment = false)
    : firstReady requireMediaFragment initial (some (byte :: data) :: reads)
        = firstReady requireMediaFragment (initial ++ byte :: data) reads := by
  rw [firstReady, hinitial, if_neg (by simp)]
  simp

theorem ExactRead.of_eq {result result' : Bytes} {reads reads' : List (Option Bytes)}
    (hrounds : readRounds requireMediaFragment result reads = readRounds requireMediaFragment result' reads')
    (hfirst : firstReady requireMediaFragment result reads = firstReady requireMediaFragment result' reads')
    (h : ExactRead requireMediaFragment result' reads') : ExactRead requireMediaFragment result reads := by
  unfold ExactRead readReady at h ⊢
  rw [hrounds, hfirst]
  exact h

theorem exactRead_of_not_ready (hlimit : (initial ++ readBytes reads).length < 4 * 1024 * 1024)
    (hinitial : mediaReady initial requireMediaFragment = false)
    : ExactRead requireMediaFragment initial reads := by
  induction reads generalizing initial with
  | nil =>
    unfold ExactRead firstReady
    rw [hinitial]
    exact exists_error initial
  | cons readSize reads ih =>
    rw [readBytes_cons] at hlimit
    have hshort : ¬ initial.length ≥ 4 * 1024 * 1024 := by
      rw [List.length_append] at hlimit
      omega
    match readSize with
    | none =>
      apply ExactRead.of_eq _ _ (ih hlimit hinitial)
      . rw [readRounds, if_neg hshort]
      . rw [firstReady, hinitial, if_neg (by simp)]
    | some [] =>
      unfold ExactRead
      rw [firstReady, hinitial, if_neg (by simp)]
      unfold readReady
      rw [readRounds, if_neg hshort]
      exact exists_error initial
    | some (byte :: data) =>
      rw [Option.getD_some, ← List.append_assoc] at hlimit
      cases hready : mediaReady (initial ++ byte :: data) requireMediaFragment with
      | true =>
        have hfirst : firstReady requireMediaFragment initial (some (byte :: data) :: reads)
            = some (initial ++ byte :: data) := by
          rw [firstReady_data hinitial]
          unfold firstReady
          rw [if_pos hready]
        unfold ExactRead
        rw [hfirst]
        unfold readReady
        rw [readRounds_data hshort, if_pos hready]
        rfl
      | false =>
        apply ExactRead.of_eq _ _ (ih hlimit hready)
        . rw [readRounds_data hshort, hready, if_neg (by simp)]
        . rw [firstReady_data hinitial]

/--
Below the size limit `read_until_ready` is exact if and only if the bytes that it starts with do not
hold the required atoms already.
-/
theorem exactRead_iff (hlimit : (initial ++ readBytes reads).length < 4 * 1024 * 1024)
    : ExactRead requireMediaFragment initial reads ↔ mediaReady initial requireMediaFragment = false := by
  constructor
  . intro h
    by_contra hready
    rw [Bool.not_eq_false] at hready
    unfold ExactRead firstReady at h
    rw [if_pos hready] at h
    exact readReady_ne_initial h
  . exact exactRead_of_not_ready hlimit

def probedFragment : Bytes := Bytes.lit "ftypmoovmoofmdat"

/--
FFmpeg writes nothing more before the deadline, and the fragment that is there is reported missing.
-/
theorem firstMedia_of_probedFragment
    : firstReady true probedFragment [none, none] = some probedFragment
        ∧ readReady true probedFragment [none, none] = .error ffmpegNoMediaFragment := by
  decide +kernel

theorem exactRead_iff_probe
    : ExactRead true (Bytes.lit "ftypmoov") [none, some (Bytes.lit "moofmdat")]
        ↔
      mediaReady (Bytes.lit "ftypmoov") true = false :=
  exactRead_iff (by decide +kernel)

end Reads

section Refines

variable {v : Setting} {id : Nat} {p : FfmpegProcess} {o : Owners}

def Received (id : Nat) (p : FfmpegProcess) (o : Owners) (reads : List (Option Bytes)) (h : Heap) : Prop :=
  ∃ eof, h.Holds (some id) (some { p with output := p.output ++ readBytes reads, eof }) o

theorem received_of_answered {reads : List (Option Bytes)} {readSize : Option Bytes} {eof : Bool} {h : Heap}
    (hh : Answered id { p with output := p.output ++ readBytes reads, eof } o readSize h)
    : Received id p o (reads ++ [readSize]) h := by
  have hbytes : readBytes (reads ++ [readSize]) = readBytes reads ++ readSize.getD [] := by
    simp [readBytes]
  unfold Received
  rw [hbytes, ← List.append_assoc]
  cases readSize with
  | none =>
    refine ⟨eof, ?_⟩
    rw [Option.getD_none, List.append_nil]
    exact hh
  | some data => exact ⟨_, hh⟩

def Goes (requireMediaFragment : Bool) (initial : Bytes) (reads : List (Option Bytes)) (result : Bytes) : Prop :=
  ∀ more, readRounds requireMediaFragment initial (reads ++ more) = readRounds requireMediaFragment result more

section Goes

variable {requireMediaFragment : Bool} {initial result : Bytes} {reads : List (Option Bytes)}
  {byte : UInt8} {data : Bytes}

theorem Goes.start : Goes requireMediaFragment initial [] initial := fun _ => rfl

theorem Goes.stop (h : Goes requireMediaFragment initial reads result)
    : readRounds requireMediaFragment initial reads = (false, result) := by
  have hnil := h []
  rw [List.append_nil] at hnil
  exact hnil

theorem Goes.skip (h : Goes requireMediaFragment initial reads result)
    (hshort : ¬ result.length ≥ 4 * 1024 * 1024) : Goes requireMediaFragment initial (reads ++ [none]) result := by
  intro more
  rw [List.append_assoc, h, List.singleton_append, readRounds, if_neg hshort]

theorem Goes.close (h : Goes requireMediaFragment initial reads result)
    (hshort : ¬ result.length ≥ 4 * 1024 * 1024)
    : readRounds requireMediaFragment initial (reads ++ [some []]) = (false, result) := by
  rw [h, readRounds, if_neg hshort]

theorem Goes.ready (h : Goes requireMediaFragment initial reads result)
    (hshort : ¬ result.length ≥ 4 * 1024 * 1024)
    (hready : mediaReady (result ++ byte :: data) requireMediaFragment = true)
    : readRounds requireMediaFragment initial (reads ++ [some (byte :: data)])
        = (true, result ++ byte :: data) := by
  rw [h, readRounds_data hshort, if_pos hready]

theorem Goes.more (h : Goes requireMediaFragment initial reads result)
    (hshort : ¬ result.length ≥ 4 * 1024 * 1024)
    (hready : ¬ mediaReady (result ++ byte :: data) requireMediaFragment = true)
    : Goes requireMediaFragment initial (reads ++ [some (byte :: data)]) (result ++ byte :: data) := by
  intro more
  rw [List.append_assoc, h, List.singleton_append, readRounds_data hshort, if_neg hready]

end Goes

theorem does_readLoop_readRounds (v : Setting) (requireMediaFragment : Bool) (initial : Bytes)
    : Does (Heap.Holds (some id) (some p) o) (readLoop v p.id initial requireMediaFragment)
        (fun r h => ∃ reads, readRounds requireMediaFragment initial reads = r
          ∧ Received id p o reads h)
        (fun _ _ => True) (fun _ => True) := by
  let I (result : Bytes) (h : Heap) : Prop :=
    ∃ reads, Goes requireMediaFragment initial reads result ∧ Received id p o reads h
  apply Does.pre (H := I initial)
  . rw [readLoop_eq]
    apply does_iterate (I := I) (fun _ _ _ => trivial)
    intro result
    apply Does.exists
    intro reads
    apply Does.given
    intro hgoes
    apply does_bind (does_onEnv (fun _ _ _ => trivial) fun _ _ => trivial)
    intro clock
    apply does_ite
    . intro hover
      apply does_pure
      intro h hreceived
      exact ⟨reads, hgoes.stop, hreceived⟩
    . intro hshort
      rw [Bool.or_eq_true, decide_eq_true_eq, not_or] at hshort
      apply does_bind (does_onEnv (fun _ _ _ => trivial) fun _ _ => trivial)
      intro _
      apply does_bind (does_onEnv (fun _ _ _ => trivial) fun _ _ => trivial)
      intro _
      apply does_bind (R := fun readSize => Received id p o (reads ++ [readSize]))
      . apply Does.exists
        intro eof
        apply (does_readOutputTimeout (p := { p with output := p.output ++ readBytes reads, eof })).conseq
        . exact fun _ hh => hh
        . exact fun _ _ hh => received_of_answered hh
        . exact fun _ _ _ => trivial
        . exact fun _ _ => trivial
      intro readSize
      match readSize with
      | none =>
        apply does_pure
        intro h hreceived
        exact ⟨_, hgoes.skip hshort.2, hreceived⟩
      | some [] =>
        apply does_pure
        intro h hreceived
        exact ⟨_, hgoes.close hshort.2, hreceived⟩
      | some (byte :: data) =>
        apply does_ite
        . intro hready
          apply does_pure
          intro h hreceived
          exact ⟨_, hgoes.ready hshort.2 hready, hreceived⟩
        . intro hready
          apply does_pure
          intro h hreceived
          exact ⟨_, hgoes.more hshort.2 hready, hreceived⟩
  . intro h hh
    refine ⟨[], Goes.start, p.eof, ?_⟩
    simpa [readBytes] using hh

def finish (r : Except BridgeError Bytes) : Outcome Exn Bytes :=
  match r with
  | .ok bytes => .ok bytes
  | .error error => .error (.bridge error)

theorem deref_of_holds {s : Slot} {pipeline : Pipeline} {ts : List Tick}
    (hheap : pipeline.heap.Holds (some id) (some p) o) (howner : o.slot s = some p.id)
    : deref s pipeline ts = (.ok p, pipeline, ts) := by
  have hslot : pipeline.heap.slot s = some p.id := by rw [hheap.slot_eq, howner]
  have hfind : (pipeline.heap.processes.find? fun process => process.id = p.id) = some p := by
    rw [hheap.processes]
    simp
  have hread : currentHeap pipeline ts = (.ok pipeline.heap, pipeline, ts) := rfl
  unfold deref
  rw [Program.bind_ok hread, hslot]
  dsimp only
  unfold processAt
  rw [Program.bind_ok hread, hfind]
  rfl

/--
Unless a check throws in it, `read_until_ready` does what the loop over its reads does.
-/
theorem readUntilReady_refines {requireMediaFragment : Bool} {initial : Bytes} {s : Slot}
    {pipeline pipeline' : Pipeline} {r : Bool × Bytes} {ts us : List Tick}
    (hheap : pipeline.heap.Holds (some id) (some p) o) (howner : o.slot s = some p.id)
    (hloop : readLoop v p.id initial requireMediaFragment pipeline ts = (.ok r, pipeline', us))
    : ∃ reads,
        Received id p o reads pipeline'.heap
          ∧ readUntilReady v s initial requireMediaFragment pipeline ts
            = (finish (readReady requireMediaFragment initial reads), pipeline', us) := by
  have hends := does_readLoop_readRounds v requireMediaFragment initial pipeline ts hheap
  rw [hloop] at hends
  obtain ⟨reads, hrounds, hreceived⟩ := hends
  refine ⟨reads, hreceived, ?_⟩
  unfold readUntilReady
  rw [Program.bind_ok (deref_of_holds hheap howner), Program.bind_ok hloop]
  obtain ⟨ready, result⟩ := r
  unfold readReady
  rw [hrounds]
  unfold endOfLoop
  cases ready with
  | true => rfl
  | false =>
    simp only [Bool.false_eq_true, if_false]
    split
    . rfl
    . rfl

end Refines

end Pipeline
end HikBridge
