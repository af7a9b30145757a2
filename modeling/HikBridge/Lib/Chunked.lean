import HikBridge.Lib.Numeral

/-!
This module contains the chunked transfer coding of HTTP, without chunk extensions and trailers: the
encoder of a list of chunks and the decoder of a recipient.
-/

namespace Chunked

def crlf : List UInt8 := [13, 10]

/--
The chunk that carries `data`. An empty `data` would give the last chunk of the body.
-/
def frame (data : List UInt8) : List UInt8 := Numeral.numeral 16 data.length ++ crlf ++ data ++ crlf

def frames (chunks : List (List UInt8)) : List UInt8 := chunks.flatMap frame

-- `"0\r\n\r\n"`
def terminator : List UInt8 := [48, 13, 10, 13, 10]

def encode (chunks : List (List UInt8)) : List UInt8 := frames chunks ++ terminator

def splitLine : List UInt8 → Option (List UInt8 × List UInt8)
  | 13 :: 10 :: rest => some ([], rest)
  | c :: rest => (splitLine rest).map fun (line, rest) => (c :: line, rest)
  | [] => none

def decodeFuel : Nat → List UInt8 → Option (List UInt8)
  | 0, _ => none
  | fuel + 1, input =>
    match splitLine input with
    | none => none
    | some ([], _) => none
    | some (digit :: digits, rest) =>
      match Numeral.value 16 0 (digit :: digits) with
      | none => none
      | some 0 => if rest = crlf then some [] else none
      | some size =>
        if size ≤ rest.length ∧ crlf <+: rest.drop size then
          (decodeFuel fuel (rest.drop (size + 2))).map fun data => rest.take size ++ data
        else
          none

def decode (input : List UInt8) : Option (List UInt8) := decodeFuel input.length input

@[simp]
theorem frames_nil : frames [] = [] := rfl

@[simp]
theorem frames_append (xs ys : List (List UInt8)) : frames (xs ++ ys) = frames xs ++ frames ys := by
  unfold frames
  exact List.flatMap_append

@[simp]
theorem frames_cons (x : List UInt8) (xs : List (List UInt8))
    : frames (x :: xs) = frame x ++ frames xs :=
  rfl

theorem splitLine_append {line : List UInt8} (h : 13 ∉ line) (rest : List UInt8)
    : splitLine (line ++ crlf ++ rest) = some (line, rest) := by
  induction line with
  | nil => rfl
  | cons c line ih =>
    have hc : c ≠ 13 := by
      intro hc
      simp [hc] at h
    have hline : 13 ∉ line := by
      intro hmem
      simp [hmem] at h
    have hstep : splitLine (c :: (line ++ crlf ++ rest))
        = (splitLine (line ++ crlf ++ rest)).map fun (line, rest) => (c :: line, rest) := by
      rw [splitLine]
      intro _ hcons _
      exact hc hcons
    calc splitLine (c :: line ++ crlf ++ rest)
      _ = splitLine (c :: (line ++ crlf ++ rest)) := by simp
      _ = some (c :: line, rest) := by rw [hstep, ih hline]; rfl

theorem splitLine_numeral (n : Nat) (rest : List UInt8)
    : splitLine (Numeral.numeral 16 n ++ crlf ++ rest) = some (Numeral.numeral 16 n, rest) :=
  splitLine_append (Numeral.not_mem_numeral (by omega) (by omega) n (by decide)) rest

theorem decodeFuel_frame {data : List UInt8} (h : data ≠ []) (fuel : Nat) (rest : List UInt8)
    : decodeFuel (fuel + 1) (frame data ++ rest)
        = (decodeFuel fuel rest).map fun decoded => data ++ decoded := by
  have hsplit : splitLine (frame data ++ rest)
      = some (Numeral.numeral 16 data.length, data ++ (crlf ++ rest)) := by
    rw [← splitLine_numeral]
    simp [frame]
  have hvalue := Numeral.value_numeral (b := 16) (by omega) (by omega) data.length
  obtain ⟨digit, digits, hdigits⟩ := List.exists_cons_of_ne_nil (Numeral.numeral_ne_nil 16 data.length)
  obtain ⟨size, hsize⟩ := Nat.exists_eq_succ_of_ne_zero (mt List.length_eq_zero_iff.mp h)
  have htake : (data ++ (crlf ++ rest)).take (size + 1) = data := List.take_left' hsize
  have hdrop : (data ++ (crlf ++ rest)).drop (size + 1) = crlf ++ rest := List.drop_left' hsize
  have hrest : (data ++ (crlf ++ rest)).drop (size + 1 + 2) = rest := by
    rw [← List.drop_drop, hdrop]
    rfl
  rw [hdigits] at hsplit hvalue
  rw [hsize] at hvalue
  rw [decodeFuel, hsplit]
  simp only [hvalue]
  rw [htake, hdrop, hrest, if_pos]
  exact ⟨by simp [hsize], List.prefix_append crlf rest⟩

theorem decodeFuel_terminator (fuel : Nat) : decodeFuel (fuel + 1) terminator = some [] := by
  rfl

theorem decodeFuel_encode {chunks : List (List UInt8)} (h : ∀ chunk ∈ chunks, chunk ≠ [])
    {fuel : Nat} (hfuel : chunks.length < fuel)
    : decodeFuel fuel (encode chunks) = some chunks.flatten := by
  induction chunks generalizing fuel with
  | nil =>
    obtain ⟨fuel, rfl⟩ := Nat.exists_eq_add_of_lt hfuel
    exact decodeFuel_terminator _
  | cons chunk chunks ih =>
    cases fuel with
    | zero => simp at hfuel
    | succ fuel =>
      have hlt : chunks.length < fuel := by simpa using hfuel
      have hrest := ih (fun c hc => h c (List.mem_cons_of_mem _ hc)) hlt
      have hframe := decodeFuel_frame (h chunk List.mem_cons_self) fuel (encode chunks)
      rw [hrest] at hframe
      calc decodeFuel (fuel + 1) (encode (chunk :: chunks))
        _ = decodeFuel (fuel + 1) (frame chunk ++ encode chunks) := by simp [encode]
        _ = some (chunk :: chunks).flatten := by simpa using hframe

theorem length_le_length_frames (chunks : List (List UInt8)) : chunks.length ≤ (frames chunks).length := by
  induction chunks with
  | nil => simp
  | cons chunk chunks ih =>
    simp only [frames_cons, List.length_append, List.length_cons, frame, crlf]
    omega

theorem decode_encode {chunks : List (List UInt8)} (h : ∀ chunk ∈ chunks, chunk ≠ [])
    : decode (encode chunks) = some chunks.flatten := by
  apply decodeFuel_encode h
  have := length_le_length_frames chunks
  simp only [encode, terminator, List.length_append, List.length_cons]
  omega

end Chunked
