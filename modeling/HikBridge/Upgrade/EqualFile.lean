import HikBridge.Basic

/-!
This module contains `equal_file`, which compares a copied file with its source, and the failures of the
source file that it does not notice.
-/

namespace HikBridge.Upgrade

-- One call of `read`. It may deliver less than there is, and it may set `badbit`.
structure ReadAnswer where
  stops : Option Nat := none
  bad : Bool := false

structure FileAnswer where
  opens : Bool := true
  reads : Nat → ReadAnswer := fun _ => {}

structure Comparison where
  source : FileAnswer := {}
  copy : FileAnswer := {}

/--
A `std::ifstream` with what is not read yet. A stream that is at the end of the file has failed, too.
-/
structure FileStream where
  rest : Bytes
  failed : Bool := false
  bad : Bool := false

def ReadAnswer.deliver (answer : ReadAnswer) (available : Bytes) : Bytes :=
  match answer.stops with
  | none => available
  | some n => available.take n

def ReadAnswer.Short (answer : ReadAnswer) (available : Nat) : Prop :=
  ∃ n, answer.stops = some n ∧ n < available

theorem ReadAnswer.deliver_eq_take (answer : ReadAnswer) (available : Bytes)
    : ∃ n, answer.deliver available = available.take n := by
  unfold deliver
  split
  . exact ⟨available.length, (List.take_length).symm⟩
  . next n _ => exact ⟨n, rfl⟩

theorem ReadAnswer.deliver_whole {answer : ReadAnswer} {available : Bytes} (h : ¬answer.Short available.length)
    : answer.deliver available = available := by
  unfold deliver
  split
  . rfl
  . next n hn =>
    apply List.take_of_length_le
    by_contra hlt
    exact h ⟨n, hn, Nat.lt_of_not_le hlt⟩

theorem ReadAnswer.length_deliver_le (answer : ReadAnswer) (available : Bytes)
    : (answer.deliver available).length ≤ available.length := by
  obtain ⟨n, hn⟩ := answer.deliver_eq_take available
  rw [hn, List.length_take]
  exact Nat.min_le_right _ _

theorem ReadAnswer.length_deliver_stops {answer : ReadAnswer} {n : Nat} (h : answer.stops = some n)
    (available : Bytes) : (answer.deliver available).length ≤ n := by
  unfold deliver
  rw [h, List.length_take]
  exact Nat.min_le_left _ _

def blockSize : Nat := 65536

theorem blockSize_pos : 0 < blockSize := by decide

namespace FileStream

def ofFile (answer : FileAnswer) (data : Bytes) : FileStream := { rest := data, failed := !answer.opens }

-- A stream that has failed delivers nothing.
def read (x : FileStream) (count : Nat) (answer : ReadAnswer) : Bytes × FileStream :=
  if x.failed then
    ([], x)
  else
    let got := answer.deliver (x.rest.take count)
    (got, {
      rest := x.rest.drop got.length
      failed := answer.bad || decide (got.length < count)
      bad := answer.bad
    })

theorem read_failed {x : FileStream} (h : x.failed = true) (count : Nat) (answer : ReadAnswer)
    : x.read count answer = ([], x) :=
  if_pos h

theorem read_of_good {x : FileStream} (h : x.failed = false) (count : Nat) (answer : ReadAnswer)
    : x.read count answer = (answer.deliver (x.rest.take count), {
        rest := x.rest.drop (answer.deliver (x.rest.take count)).length
        failed := answer.bad || decide ((answer.deliver (x.rest.take count)).length < count)
        bad := answer.bad
      }) := by
  unfold read
  rw [h]
  rfl

-- A stream that is still good after a read has got as much as it asked for.
theorem read_good {x : FileStream} {count : Nat} {answer : ReadAnswer} (hx : x.failed = false)
    (h : (x.read count answer).2.failed = false)
    : answer.bad = false
      ∧ ¬answer.Short count
      ∧ (x.read count answer).1.length = count
      ∧ (x.read count answer).2.rest = x.rest.drop count := by
  rw [read_of_good hx] at h ⊢
  simp only [Bool.or_eq_false_iff, decide_eq_false_iff_not, Nat.not_lt] at h ⊢
  have hlength : (answer.deliver (x.rest.take count)).length = count := by
    have hle := answer.length_deliver_le (x.rest.take count)
    rw [List.length_take] at hle
    omega
  refine ⟨h.1, ?_, hlength, by rw [hlength]⟩
  rintro ⟨n, hn, hlt⟩
  have hle := ReadAnswer.length_deliver_stops hn (x.rest.take count)
  omega

-- A stream that has failed without `badbit` is at the end of the file, or so it seems.
theorem read_last {x : FileStream} {count : Nat} {answer : ReadAnswer} (hx : x.failed = false)
    (h : (x.read count answer).2.failed = true) (hbad : (x.read count answer).2.bad = false)
    : answer.bad = false
      ∧ ((x.read count answer).2.rest = [] ∨ answer.Short (min count x.rest.length)) := by
  rw [read_of_good hx] at h hbad ⊢
  dsimp only at h hbad ⊢
  rw [hbad, Bool.false_or, decide_eq_true_eq] at h
  refine ⟨hbad, ?_⟩
  by_cases hshort : answer.Short (x.rest.take count).length
  . rw [List.length_take] at hshort
    exact .inr hshort
  . rw [ReadAnswer.deliver_whole hshort, List.length_take] at h ⊢
    exact .inl (List.drop_eq_nil_of_le (by omega))

theorem read_whole {x : FileStream} {count : Nat} {answer : ReadAnswer} (hx : x.failed = false)
    (hbad : answer.bad = false) (hwhole : ¬answer.Short count) (hle : count ≤ x.rest.length)
    : x.read count answer = (x.rest.take count, { rest := x.rest.drop count }) := by
  have hlength : (x.rest.take count).length = count := by
    rw [List.length_take, Nat.min_eq_left hle]
  have hdeliver : answer.deliver (x.rest.take count) = x.rest.take count := by
    apply ReadAnswer.deliver_whole
    rw [hlength]
    exact hwhole
  rw [read_of_good hx, hdeliver, hlength, hbad]
  simp

theorem read_stops {x : FileStream} {count n : Nat} {answer : ReadAnswer} (hx : x.failed = false)
    (hn : answer.stops = some n) (hlt : n < min count x.rest.length)
    : x.read count answer = (x.rest.take n, { rest := x.rest.drop n, failed := true, bad := answer.bad }) := by
  have hdeliver : answer.deliver (x.rest.take count) = x.rest.take n := by
    unfold ReadAnswer.deliver
    rw [hn]
    dsimp only
    rw [List.take_take, Nat.min_eq_left (by omega)]
  have hlength : (x.rest.take n).length = n := by
    rw [List.length_take, Nat.min_eq_left (by omega)]
  have hcount : n < count := by omega
  rw [read_of_good hx, hdeliver, hlength]
  simp [hcount]

-- What is read and what is left make up what was there.
theorem read_append (x : FileStream) (count : Nat) (answer : ReadAnswer)
    : (x.read count answer).1 ++ (x.read count answer).2.rest = x.rest := by
  cases hx : x.failed with
  | true =>
    rw [read_failed hx]
    rfl
  | false =>
    rw [read_of_good hx]
    obtain ⟨n, hn⟩ := answer.deliver_eq_take (x.rest.take count)
    have htake : x.rest.take (min n count) = answer.deliver (x.rest.take count) := by
      rw [hn, List.take_take]
    rw [← htake, List.length_take]
    rcases Nat.le_total (min n count) x.rest.length with hle | hle
    . rw [Nat.min_eq_left hle]
      exact List.take_append_drop _ _
    . rw [Nat.min_eq_right hle, List.take_of_length_le hle, List.drop_length, List.append_nil]

end FileStream

def compareStreams (source copy : Nat → ReadAnswer) (x y : FileStream) : Bool × FileStream × FileStream :=
  if hx : x.failed = true then
    (!x.bad && !y.bad, x, y)
  else
    let fromX := x.read blockSize (source 0)
    let fromY := y.read fromX.1.length (copy 0)
    if fromY.1 ≠ fromX.1 then
      (false, fromX.2, fromY.2)
    else
      compareStreams (fun i => source (i + 1)) (fun i => copy (i + 1)) fromX.2 fromY.2
termination_by if x.failed then 0 else x.rest.length + 1
decreasing_by
  rw [if_neg hx]
  split
  . omega
  . next hnext =>
    have hgood := (FileStream.read_good (by simpa using hx) (by simpa using hnext)).2.2.1
    have hlength := congrArg List.length (x.read_append blockSize (source 0))
    have hpos := blockSize_pos
    rw [List.length_append] at hlength
    omega

def Comparison.run (c : Comparison) (a b : Bytes) : Bool × FileStream × FileStream :=
  compareStreams c.source.reads c.copy.reads (.ofFile c.source a) (.ofFile c.copy b)

-- The files have the sizes that `file_size` reports.
def equalFile (c : Comparison) (a b : Bytes) : Bool :=
  if a.length ≠ b.length then false else (c.run a b).1

section Comparison

variable {source copy : Nat → ReadAnswer} {x y x' y' : FileStream}

/--
A read of the source delivers less than there is although nothing is wrong with the stream, and before it
all were whole.
-/
def EndsEarly (reads : Nat → ReadAnswer) (data : Bytes) : Prop :=
  ∃ i, (∀ j < i, (reads j).bad = false ∧ ¬(reads j).Short blockSize)
    ∧ (reads i).bad = false
    ∧ (reads i).Short (min blockSize (data.length - i * blockSize))

theorem EndsEarly.of_first {data : Bytes} (hbad : (source 0).bad = false)
    (hshort : (source 0).Short (min blockSize data.length)) : EndsEarly source data := by
  refine ⟨0, by simp, hbad, ?_⟩
  simpa using hshort

theorem EndsEarly.of_rest {data : Bytes} (hbad : (source 0).bad = false) (hwhole : ¬(source 0).Short blockSize)
    (h : EndsEarly (fun i => source (i + 1)) (data.drop blockSize)) : EndsEarly source data := by
  obtain ⟨i, hbefore, hgood, hshort⟩ := h
  refine ⟨i + 1, ?_, hgood, ?_⟩
  . intro j hj
    cases j with
    | zero => exact ⟨hbad, hwhole⟩
    | succ j => exact hbefore j (by omega)
  . rw [List.length_drop, Nat.sub_sub, Nat.add_comm blockSize, ← Nat.succ_mul] at hshort
    exact hshort

-- The last round of the loop.
theorem compareStreams_failed (hx : x.failed = true)
    : compareStreams source copy x y = (!x.bad && !y.bad, x, y) := by
  rw [compareStreams, dif_pos hx]

theorem compareStreams_good (hx : x.failed = false)
    : compareStreams source copy x y =
        if (y.read (x.read blockSize (source 0)).1.length (copy 0)).1 ≠ (x.read blockSize (source 0)).1 then
          (false, (x.read blockSize (source 0)).2, (y.read (x.read blockSize (source 0)).1.length (copy 0)).2)
        else
          compareStreams (fun i => source (i + 1)) (fun i => copy (i + 1)) (x.read blockSize (source 0)).2
            (y.read (x.read blockSize (source 0)).1.length (copy 0)).2 := by
  rw [compareStreams, dif_neg (by simp [hx])]

theorem compareStreams_agree (h : compareStreams source copy x y = (true, x', y'))
    : ∃ same, same ++ x'.rest = x.rest ∧ same ++ y'.rest = y.rest := by
  fun_induction compareStreams with
  | case1 source copy x y hx =>
    simp only [Prod.mk.injEq] at h
    obtain ⟨_, rfl, rfl⟩ := h
    exact ⟨[], rfl, rfl⟩
  | case2 => cases h
  | case3 source copy x y hx fromX fromY hsame ih =>
    obtain ⟨same, hsameX, hsameY⟩ := ih h
    refine ⟨fromX.1 ++ same, ?_, ?_⟩
    . rw [List.append_assoc, hsameX]
      exact x.read_append _ _
    . rw [List.append_assoc, hsameY, ← not_not.mp hsame]
      exact y.read_append _ _

theorem compareStreams_rest (h : compareStreams source copy x y = (true, x', y')) (hx : x.failed = false)
    (hearly : ¬EndsEarly source x.rest) : x'.rest = [] := by
  fun_induction compareStreams with
  | case1 source copy x y hfailed =>
    rw [hx] at hfailed
    cases hfailed
  | case2 => cases h
  | case3 source copy x y hgood fromX fromY hsame ih =>
    cases hfailed : fromX.2.failed with
    | true =>
      rw [compareStreams_failed hfailed] at h
      simp only [Prod.mk.injEq, Bool.and_eq_true, Bool.not_eq_true'] at h
      obtain ⟨⟨hbad, _⟩, rfl, rfl⟩ := h
      obtain ⟨hgood, hrest | hshort⟩ := FileStream.read_last hx hfailed hbad
      . exact hrest
      . exact absurd (.of_first hgood hshort) hearly
    | false =>
      obtain ⟨hbad, hwhole, _, hrest⟩ := FileStream.read_good hx hfailed
      apply ih h hfailed
      intro hlater
      apply hearly
      apply EndsEarly.of_rest hbad hwhole
      rw [← hrest]
      exact hlater

theorem compareStreams_unopened (hx : x.failed = false) (hy : y.failed = true) (hbad : y.bad = false)
    : (compareStreams source copy x y).1 = true ↔
        (source 0).deliver (x.rest.take blockSize) = [] ∧ (source 0).bad = false := by
  rw [compareStreams_good hx, FileStream.read_failed hy, FileStream.read_of_good hx]
  dsimp only
  cases hgot : (source 0).deliver (x.rest.take blockSize) with
  | cons byte got => simp
  | nil =>
    rw [if_neg (by simp), compareStreams_failed (by simp [blockSize_pos])]
    simp [hbad]

theorem compareStreams_early (hx : x.failed = false) (hy : y.failed = false) (hbad : y.bad = false)
    (hrest : y.rest = x.rest) (hearly : EndsEarly source x.rest)
    : ∃ x' y', compareStreams source (fun _ => {}) x y = (true, x', y') ∧ x'.rest ≠ [] := by
  obtain ⟨i, hbefore, hgood, n, hn, hlt⟩ := hearly
  have hwhole : ∀ count, ¬(({} : ReadAnswer).Short count) := fun _ ⟨_, hnone, _⟩ => by cases hnone
  induction i generalizing source x y with
  | zero =>
    rw [Nat.zero_mul, Nat.sub_zero] at hlt
    have hlength : (x.rest.take n).length = n := by
      rw [List.length_take, Nat.min_eq_left (by omega)]
    rw [compareStreams_good hx, x.read_stops hx hn hlt]
    dsimp only
    rw [hlength, y.read_whole hy rfl (hwhole n) (by rw [hrest]; omega), hrest, if_neg (by simp),
      compareStreams_failed rfl, hgood]
    refine ⟨_, _, rfl, ?_⟩
    apply List.ne_nil_of_length_pos
    rw [List.length_drop]
    omega
  | succ i ih =>
    obtain ⟨hgood0, hwhole0⟩ := hbefore 0 (by omega)
    have hpos := blockSize_pos
    rw [Nat.succ_mul] at hlt
    have hle : blockSize ≤ x.rest.length := by omega
    have hlength : (x.rest.take blockSize).length = blockSize := by
      rw [List.length_take, Nat.min_eq_left hle]
    rw [compareStreams_good hx, x.read_whole hx hgood0 hwhole0 hle]
    dsimp only
    rw [hlength, y.read_whole hy rfl (hwhole blockSize) (by rw [hrest]; exact hle), hrest, if_neg (by simp)]
    apply ih rfl rfl rfl rfl
    . intro j hj
      exact hbefore (j + 1) (by omega)
    . exact hgood
    . exact hn
    . dsimp only
      rw [List.length_drop]
      omega

variable {a b : Bytes}

/--
The answer `true` means that both files were opened and that every byte of both was compared.
-/
structure Compared (c : Comparison) (a b : Bytes) : Prop where
  source : c.source.opens = true
  copy : c.copy.opens = true
  sourceRest : (c.run a b).2.1.rest = []
  copyRest : (c.run a b).2.2.rest = []
  equal : a = b

def Sound (c : Comparison) (a b : Bytes) : Prop := equalFile c a b = true → Compared c a b

/--
The source is opened. Where the copy is opened, too, the reads of the source do not end early. Otherwise the
first of them delivers something or fails with `badbit`.
-/
structure Reliable (source : FileAnswer) (copyOpens : Bool) (a : Bytes) : Prop where
  opens : source.opens = true
  whole : copyOpens = true → ¬EndsEarly source.reads a
  noticed : copyOpens = false → (source.reads 0).deliver (a.take blockSize) ≠ [] ∨ (source.reads 0).bad = true

theorem equalFile_eq_true_iff {c : Comparison}
    : equalFile c a b = true ↔ a.length = b.length ∧ (c.run a b).1 = true := by
  unfold equalFile
  split
  . next hne => simp [hne]
  . next heq => simp [not_not.mp heq]

theorem Reliable.sound {c : Comparison} (h : Reliable c.source c.copy.opens a) (b : Bytes) : Sound c a b := by
  intro htrue
  obtain ⟨hlength, hrun⟩ := equalFile_eq_true_iff.mp htrue
  have hx : (FileStream.ofFile c.source a).failed = false := by
    simp [FileStream.ofFile, h.opens]
  cases hcopy : c.copy.opens with
  | false =>
    have hy : (FileStream.ofFile c.copy b).failed = true := by
      simp [FileStream.ofFile, hcopy]
    obtain ⟨hempty, hgood⟩ := (compareStreams_unopened hx hy rfl).mp hrun
    rcases h.noticed hcopy with hsome | hbad
    . exact absurd hempty hsome
    . rw [hgood] at hbad
      cases hbad
  | true =>
    have hruns : c.run a b = (true, (c.run a b).2.1, (c.run a b).2.2) := by
      rw [← hrun]
    obtain ⟨same, hsource, hcopies⟩ := compareStreams_agree hruns
    have hsourceRest := compareStreams_rest hruns hx (h.whole hcopy)
    change same ++ _ = a at hsource
    change same ++ _ = b at hcopies
    rw [hsourceRest, List.append_nil] at hsource
    have hcopyRest : (c.run a b).2.2.rest = [] := by
      apply List.eq_nil_of_length_eq_zero
      rw [← hsource, ← hcopies, List.length_append] at hlength
      omega
    rw [hcopyRest, List.append_nil, hsource] at hcopies
    exact ⟨h.opens, hcopy, hsourceRest, hcopyRest, hcopies⟩

/--
Whether an answer `true` can be relied on, whatever is in the copy and however its reads end, is decided by
what happens to the source.
-/
theorem sound_iff_reliable {source : FileAnswer} {copyOpens : Bool}
    : (∀ reads b, Sound ⟨source, ⟨copyOpens, reads⟩⟩ a b) ↔ Reliable source copyOpens a := by
  constructor
  . intro hsound
    have hcompared : ((⟨source, ⟨copyOpens, fun _ => {}⟩⟩ : Comparison).run a a).1 = true →
        Compared ⟨source, ⟨copyOpens, fun _ => {}⟩⟩ a a :=
      fun hrun => hsound _ a (equalFile_eq_true_iff.mpr ⟨rfl, hrun⟩)
    have hopens : source.opens = true := by
      by_contra hclosed
      apply hclosed
      have hx : (FileStream.ofFile source a).failed = true := by
        simpa [FileStream.ofFile] using hclosed
      apply (hcompared _).source
      unfold Comparison.run
      rw [compareStreams_failed hx]
      rfl
    have hx : (FileStream.ofFile source a).failed = false := by
      simp [FileStream.ofFile, hopens]
    refine ⟨hopens, ?_, ?_⟩
    . rintro rfl hearly
      obtain ⟨x', y', hrun, hrest⟩ := compareStreams_early (y := .ofFile {} a) hx rfl rfl rfl hearly
      apply hrest
      have hsourceRest := (hcompared (congrArg Prod.fst hrun)).sourceRest
      unfold Comparison.run at hsourceRest
      rw [← hsourceRest]
      exact congrArg (fun r => r.2.1.rest) hrun.symm
    . rintro rfl
      by_contra hnoticed
      rw [not_or, not_not, Bool.not_eq_true] at hnoticed
      have hrun : ((⟨source, ⟨false, fun _ => {}⟩⟩ : Comparison).run a a).1 = true :=
        (compareStreams_unopened hx rfl rfl).mpr hnoticed
      cases (hcompared hrun).copy
  . intro h reads b
    exact Reliable.sound (c := ⟨source, ⟨copyOpens, reads⟩⟩) h b

end Comparison

end HikBridge.Upgrade
