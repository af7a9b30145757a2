import HikBridge.VideoCodecCache.Persistence

/-!
This module contains the faults that can hit the cache while it saves itself, in the C++ bridge and in
the C# bridge: file operations that fail and a process that is killed between two of them.
-/

namespace HikBridge
namespace VideoCodecCache

/--
How a file operation ends. `left` is what the temporary file holds after a write or a close that
failed; the other operations have no effect when they fail.
-/
inductive Outcome where
  | done
  | fails (left : Bytes)
  deriving DecidableEq, Repr

def Outcome.left? : Outcome → Option Bytes
  | .done => none
  | .fails left => some left

inductive Output where
  | good
  | failed
  | thrown
  deriving DecidableEq, Repr

structure Saving where
  disk : Disk
  output : Output := .good
  deriving DecidableEq, Repr

namespace Saving

def step (s : Saving) (op : FileOp) (outcome : Outcome) : Saving :=
  match s.output, op, outcome with
  | .thrown, _, _ => s
  | _, .openTemporary, .fails _ => { s with output := .thrown }
  -- A stream that failed drops what is written to it.
  | .failed, .write _, _ => s
  | .good, .write _, .fails left => ⟨{ s.disk with temporary := some left }, .failed⟩
  | _, .close, .fails left => { s with disk := { s.disk with temporary := some left } }
  | _, _, .fails _ => s
  | _, _, .done => { s with disk := s.disk.apply op }

def attempt : Saving → List FileOp → List Outcome → Saving
  | s, op :: ops, outcome :: outcomes => attempt (s.step op outcome) ops outcomes
  | s, _, _ => s

end Saving

def Cache.persistFaulty (cache : Cache) (now : Int) (disk : Disk) (outcomes : List Outcome) : Disk :=
  (Saving.attempt { disk } (cache.persistLocked now) outcomes).disk

namespace CSharp

-- `char.IsWhiteSpace`
def isWhiteSpace (c : Char) : Bool :=
  let n := c.toNat
  (9 ≤ n && n ≤ 13) || n == 32 || n == 133 || n == 160 || n == 5760 || (8192 ≤ n && n ≤ 8202)
    || n == 8232 || n == 8233 || n == 8239 || n == 8287 || n == 12288

-- `File.Move`, which does not replace a file.
def move (disk : Disk) : List Outcome → Disk
  | .done :: _ => if disk.file.isSome then disk else disk.apply .rename
  | _ => disk

def deleteAndMove (disk : Disk) : List Outcome → Disk
  | .done :: outcomes => move { disk with file := none } outcomes
  | _ => disk

/--
`File.Exists` says no where it fails, all other operations throw.
-/
def replace (disk : Disk) : List Outcome → Disk
  | .done :: outcomes => if disk.file.isSome then deleteAndMove disk outcomes else move disk outcomes
  | .fails _ :: outcomes => move disk outcomes
  | [] => disk

def saveText (text : Bytes) (disk : Disk) : List Outcome → Disk
  | .done :: .done :: outcomes => replace { disk with temporary := some text } outcomes
  | .done :: .fails left :: _ => { disk with temporary := some left }
  | _ => disk

def persistQuietly (ttlSeconds : Int) (filePath : String) (text : Bytes) (disk : Disk)
    (outcomes : List Outcome) : Disk :=
  if ttlSeconds ≤ 0 ∨ filePath.toList.all isWhiteSpace then disk else saveText text disk outcomes

end CSharp

namespace Cache

variable (cache : Cache) (now : Int)

def text : Bytes := ((rows cache.items now).map (· ++ [newline])).flatten

def lineCount : Nat := (rows cache.items now).length

end Cache

section Conditions

variable (lines : Nat) (outcomes : List Outcome)

def Opens : Prop := outcomes[1]? = some .done

def Removes : Prop := Opens outcomes ∧ outcomes[lines + 3]? = some .done

def Renames : Prop := Opens outcomes ∧ outcomes[lines + 4]? = some .done

def damaged : Option Bytes :=
  (outcomes[lines + 2]?.bind Outcome.left?).or (((outcomes.drop 2).take lines).findSome? Outcome.left?)

end Conditions

/--
No file is removed without its successor, and no damaged file takes its place.
-/
def Survives (cache : Cache) (now : Int) (disk : Disk) (outcomes : List Outcome) : Prop :=
  cache.ttl ≤ 0 ∨ cache.cacheFile = []
    ∨ ((disk.file ≠ none → Removes (cache.lineCount now) outcomes
        → Renames (cache.lineCount now) outcomes)
      ∧ (Renames (cache.lineCount now) outcomes
        → ∀ left ∈ damaged (cache.lineCount now) outcomes,
          left = cache.text now ∨ some left = disk.file))

/--
The process is neither killed between `File.Delete` and `File.Move` nor does the latter fail.
-/
def CSharp.Survives (ttlSeconds : Int) (filePath : String) (disk : Disk) (outcomes : List Outcome)
    : Prop :=
  ttlSeconds ≤ 0 ∨ filePath.toList.all isWhiteSpace ∨ disk.file = none
    ∨ ([.done, .done, .done, .done] <+: outcomes → outcomes[4]? = some .done)

/--
The file holds the complete previous or the complete new content.
-/
def Intact (previous : Disk) (text : Bytes) (disk : Disk) : Prop :=
  disk.file = previous.file ∨ disk.file = some text

namespace Saving

variable {s : Saving} {disk : Disk} {output : Output} {ops : List FileOp} {outcomes : List Outcome}
  {file : Option Bytes} {written : Bytes}

theorem attempt_nil (s : Saving) (ops : List FileOp) : attempt s ops [] = s := by
  cases ops <;> rfl

theorem attempt_append (s : Saving) (ops ops' : List FileOp) (outcomes : List Outcome)
    : attempt s (ops ++ ops') outcomes
        =
      attempt (attempt s ops outcomes) ops' (outcomes.drop ops.length) := by
  induction ops generalizing s outcomes with
  | nil => cases outcomes <;> rfl
  | cons op ops ih =>
    cases outcomes with
    | nil => simp [attempt_nil]
    | cons outcome outcomes => exact ih (s.step op outcome) outcomes

theorem attempt_thrown (disk : Disk) (ops : List FileOp) (outcomes : List Outcome)
    : attempt ⟨disk, .thrown⟩ ops outcomes = ⟨disk, .thrown⟩ := by
  induction ops generalizing outcomes with
  | nil => cases outcomes <;> rfl
  | cons op ops ih =>
    cases outcomes with
    | nil => rfl
    | cons outcome outcomes => exact ih outcomes

theorem attempt_done (houtput : s.output = .good)
    : (attempt s ops (List.replicate ops.length .done)).disk = s.disk.applyAll ops := by
  induction ops generalizing s with
  | nil => rfl
  | cons op ops ih =>
    have hstep : s.step op .done = { s with disk := s.disk.apply op } := by
      unfold step
      rw [houtput]
      cases op <;> rfl
    rw [List.length_cons, List.replicate_succ]
    show (attempt (s.step op .done) ops _).disk = (s.disk.apply op).applyAll ops
    rw [hstep]
    exact ih houtput

theorem attempt_writes_failed (disk : Disk) (lines : List Bytes) (outcomes : List Outcome)
    : attempt ⟨disk, .failed⟩ (lines.map .write) outcomes = ⟨disk, .failed⟩ := by
  induction lines generalizing outcomes with
  | nil => cases outcomes <;> rfl
  | cons line lines ih =>
    cases outcomes with
    | nil => rfl
    | cons outcome outcomes => exact ih outcomes

theorem attempt_writes_file (s : Saving) (lines : List Bytes) (outcomes : List Outcome)
    : (attempt s (lines.map .write) outcomes).disk.file = s.disk.file := by
  induction lines generalizing s outcomes with
  | nil => cases outcomes <;> rfl
  | cons line lines ih =>
    cases outcomes with
    | nil => rfl
    | cons outcome outcomes =>
      have hstep : (s.step (.write line) outcome).disk.file = s.disk.file := by
        rcases s with ⟨disk, output⟩
        cases output <;> cases outcome <;> rfl
      rw [← hstep]
      exact ih (s.step (.write line) outcome) outcomes

theorem attempt_writes (file : Option Bytes) (written : Bytes) (lines : List Bytes)
    (outcomes : List Outcome) (hlength : lines.length ≤ outcomes.length)
    : ∃ output, output ≠ .thrown
        ∧ attempt ⟨⟨file, some written⟩, .good⟩ (lines.map .write) outcomes
          = ⟨⟨file, some (((outcomes.take lines.length).findSome? Outcome.left?).getD
              (written ++ lines.flatten))⟩, output⟩ := by
  induction lines generalizing written outcomes with
  | nil =>
    refine ⟨.good, nofun, ?_⟩
    cases outcomes <;> simp [attempt]
  | cons line lines ih =>
    cases outcomes with
    | nil => simp at hlength
    | cons outcome outcomes =>
      cases outcome with
      | done =>
        obtain ⟨output, houtput, heq⟩ := ih (written ++ line) outcomes (by simpa using hlength)
        refine ⟨output, houtput, ?_⟩
        simp only [List.length_cons, List.take_succ_cons, List.findSome?_cons, Outcome.left?,
          List.flatten_cons, ← List.append_assoc]
        exact heq
      | fails left =>
        refine ⟨.failed, nofun, ?_⟩
        simp only [List.length_cons, List.take_succ_cons, List.findSome?_cons, Outcome.left?]
        exact attempt_writes_failed _ lines outcomes

theorem attempt_replace (houtput : output ≠ .thrown) (outcomes : List Outcome)
    : (attempt ⟨⟨file, some written⟩, output⟩ [.close, .remove, .rename] outcomes).disk.file
        =
      if outcomes[2]? = some .done then
        some ((outcomes[0]?.bind Outcome.left?).getD written)
      else if outcomes[1]? = some .done then
        none
      else
        file := by
  have hclose : ∀ outcome : Outcome, (⟨⟨file, some written⟩, output⟩ : Saving).step .close outcome
      = ⟨⟨file, some (outcome.left?.getD written)⟩, output⟩ := by
    intro outcome
    cases output <;> cases outcome <;> first | rfl | contradiction
  rcases outcomes with _ | ⟨closed, _ | ⟨removed, _ | ⟨renamed, rest⟩⟩⟩
  . rfl
  . simp [attempt, hclose]
  . simp only [attempt, hclose]
    cases output <;> cases removed <;> first | rfl | contradiction
  . simp only [attempt, hclose]
    cases output <;> cases removed <;> cases renamed <;> first | rfl | contradiction

end Saving

variable {cache : Cache} {now : Int} {disk : Disk} {outcomes : List Outcome}

theorem persistFaulty_of_opens {first : Outcome} {rest : List Outcome} (httl : 0 < cache.ttl)
    (hfile : cache.cacheFile ≠ [])
    : (cache.persistFaulty now disk (first :: .done :: rest)).file
        =
      if rest[cache.lineCount now + 2]? = some .done then
        some ((damaged (cache.lineCount now) (first :: .done :: rest)).getD (cache.text now))
      else if rest[cache.lineCount now + 1]? = some .done then
        none
      else
        disk.file := by
  have hsaves : ¬ (cache.ttl ≤ 0 ∨ cache.cacheFile = []) := by
    rintro (h | h)
    . omega
    . exact hfile h
  have hops : (Cache.rows cache.items now).map (fun line => FileOp.write (line ++ [newline]))
      = ((Cache.rows cache.items now).map (· ++ [newline])).map .write := by
    rw [List.map_map]
    rfl
  have hstart : ∀ ops, Saving.attempt ⟨disk, .good⟩ (.createDirectories :: .openTemporary :: ops)
      (first :: .done :: rest) = Saving.attempt ⟨⟨disk.file, some []⟩, .good⟩ ops rest := by
    intro ops
    cases first <;> rfl
  unfold Cache.persistFaulty Cache.persistLocked
  rw [if_neg hsaves, hops, List.append_assoc, List.cons_append, List.cons_append,
    List.nil_append, hstart, Saving.attempt_append, List.length_map, List.length_map]
  by_cases hlength : cache.lineCount now ≤ rest.length
  . obtain ⟨output, houtput, hwrites⟩ := Saving.attempt_writes disk.file []
      ((Cache.rows cache.items now).map (· ++ [newline])) rest
      (by rwa [List.length_map])
    rw [hwrites, Saving.attempt_replace houtput, List.length_map]
    simp only [List.getElem?_drop, Nat.add_zero, List.nil_append]
    have hdamaged : (damaged (cache.lineCount now) (first :: .done :: rest)).getD (cache.text now)
        = (rest[cache.lineCount now]?.bind Outcome.left?).getD
          (((rest.take (cache.lineCount now)).findSome? Outcome.left?).getD (cache.text now)) := by
      show ((rest[cache.lineCount now]?.bind Outcome.left?).or
        ((rest.take (cache.lineCount now)).findSome? Outcome.left?)).getD (cache.text now) = _
      cases rest[cache.lineCount now]?.bind Outcome.left? <;> rfl
    rw [hdamaged]
    rfl
  . have hnone : ∀ k, rest[cache.lineCount now + k]? = none := by
      intro k
      rw [List.getElem?_eq_none_iff]
      omega
    have hdrop : rest.drop (Cache.rows cache.items now).length = [] := by
      rw [List.drop_eq_nil_iff]
      unfold Cache.lineCount at hlength
      omega
    rw [hdrop, Saving.attempt_nil, Saving.attempt_writes_file, hnone, hnone]
    simp

theorem persistFaulty_of_not_opens (hopens : ¬ Opens outcomes)
    : (cache.persistFaulty now disk outcomes).file = disk.file := by
  unfold Cache.persistFaulty Cache.persistLocked
  split
  . cases outcomes <;> rfl
  . rcases outcomes with _ | ⟨created, _ | ⟨opened, rest⟩⟩
    . rfl
    . cases created <;> rfl
    . cases opened with
      | done => exact absurd rfl hopens
      | fails left =>
        cases created
        all_goals
          show (Saving.attempt ⟨disk, .thrown⟩ _ rest).disk.file = disk.file
          rw [Saving.attempt_thrown]

theorem intact_persistFaulty_iff (cache : Cache) (now : Int) (disk : Disk) (outcomes : List Outcome)
    : Intact disk (cache.text now) (cache.persistFaulty now disk outcomes)
        ↔
      Survives cache now disk outcomes := by
  unfold Intact Survives
  by_cases hopens : Opens outcomes
  . by_cases httl : cache.ttl ≤ 0
    . have hkeep : cache.persistFaulty now disk outcomes = disk := by
        unfold Cache.persistFaulty Cache.persistLocked
        rw [if_pos (.inl httl)]
        cases outcomes <;> rfl
      simp [hkeep, httl]
    . by_cases hfile : cache.cacheFile = []
      . have hkeep : cache.persistFaulty now disk outcomes = disk := by
          unfold Cache.persistFaulty Cache.persistLocked
          rw [if_pos (.inr hfile)]
          cases outcomes <;> rfl
        simp [hkeep, hfile]
      . rcases outcomes with _ | ⟨first, _ | ⟨opened, rest⟩⟩
        . exact absurd hopens nofun
        . exact absurd hopens nofun
        . obtain rfl : opened = .done := Option.some.inj hopens
          have hrenames : Renames (cache.lineCount now) (first :: .done :: rest)
              ↔ rest[cache.lineCount now + 2]? = some .done := and_iff_right rfl
          have hremoves : Removes (cache.lineCount now) (first :: .done :: rest)
              ↔ rest[cache.lineCount now + 1]? = some .done := and_iff_right rfl
          rw [persistFaulty_of_opens (by omega) hfile, hrenames, hremoves]
          split
          . next hrenamed =>
            cases damaged (cache.lineCount now) (first :: .done :: rest) with
            | none => simp [httl, hfile, hrenamed]
            | some left => simp [httl, hfile, hrenamed, or_comm]
          . next hrenamed =>
            split
            . next hremoved =>
              cases disk.file <;> simp [httl, hfile, hrenamed, hremoved]
            . next hremoved => simp [hrenamed, hremoved]
  . have hrenames : ¬ Renames (cache.lineCount now) outcomes := fun h => hopens h.1
    have hremoves : ¬ Removes (cache.lineCount now) outcomes := fun h => hopens h.1
    rw [persistFaulty_of_not_opens hopens]
    simp [hrenames, hremoves]

namespace CSharp

theorem replace_file {text : Bytes} {outcomes : List Outcome}
    (htemporary : disk.temporary = some text)
    : Intact disk text (replace disk outcomes)
        ↔
      disk.file = none ∨ ([.done, .done] <+: outcomes → outcomes[2]? = some .done) := by
  rcases disk with ⟨file, temporary⟩
  obtain rfl : temporary = some text := htemporary
  unfold Intact
  cases file with
  | none =>
    rcases outcomes with _ | ⟨⟨⟩ | left, _ | ⟨⟨⟩ | left', rest⟩⟩
    all_goals simp [replace, move, Disk.apply]
  | some previous =>
    rcases outcomes with _ | ⟨⟨⟩ | left, _ | ⟨⟨⟩ | left', _ | ⟨⟨⟩ | left'', rest⟩⟩⟩
    all_goals simp [replace, deleteAndMove, move, Disk.apply]

theorem intact_persistQuietly_iff (ttlSeconds : Int) (filePath : String) (text : Bytes) (disk : Disk)
    (outcomes : List Outcome)
    : Intact disk text (persistQuietly ttlSeconds filePath text disk outcomes)
        ↔
      CSharp.Survives ttlSeconds filePath disk outcomes := by
  unfold persistQuietly CSharp.Survives
  split
  . next hskip =>
    rcases hskip with hskip | hskip
    . simp [Intact, hskip]
    . simp [Intact, hskip]
  . next hsaves =>
    rw [not_or] at hsaves
    simp only [hsaves.1, hsaves.2, Bool.false_eq_true, false_or]
    rcases outcomes with _ | ⟨⟨⟩ | left, _ | ⟨⟨⟩ | left', rest⟩⟩
    . simp [saveText, Intact]
    . simp [saveText, Intact]
    . unfold saveText
      have hreplace := @replace_file { disk with temporary := some text } text rest rfl
      unfold Intact at hreplace ⊢
      rw [hreplace]
      simp
    . simp [saveText, Intact]
    . simp [saveText, Intact]
    . simp [saveText, Intact]
    . simp [saveText, Intact]

end CSharp

/--
Which faults the file of the cache survives, in both bridges.
-/
theorem file_intact_iff_survives (cache : Cache) (now : Int) (disk : Disk) (outcomes : List Outcome)
    (ttlSeconds : Int) (filePath : String) (text : Bytes)
    : (Intact disk (cache.text now) (cache.persistFaulty now disk outcomes)
          ↔ Survives cache now disk outcomes)
      ∧ (Intact disk text (CSharp.persistQuietly ttlSeconds filePath text disk outcomes)
          ↔ CSharp.Survives ttlSeconds filePath disk outcomes) :=
  ⟨intact_persistFaulty_iff cache now disk outcomes,
    CSharp.intact_persistQuietly_iff ttlSeconds filePath text disk outcomes⟩

def oneEntry : Cache where
  ttl := 60
  cacheFile := Bytes.lit "codec.cache"
  items := (∅ : Items).insert (Bytes.lit "10.0.0.1") ⟨.H264, 200⟩

def fullDisk : List Outcome := [.done, .done, .done, .fails [], .done, .done]

/--
The truncated file takes the place of the previous one, and a process that is killed before the rename
leaves no file at all, in both bridges.
-/
theorem file_lost_by_faults
    : ¬ Intact ⟨some (Bytes.lit "old"), none⟩ (oneEntry.text 100)
          (oneEntry.persistFaulty 100 ⟨some (Bytes.lit "old"), none⟩ fullDisk)
      ∧ (oneEntry.persistFaulty 100 ⟨some (Bytes.lit "old"), none⟩ fullDisk).file = some []
      ∧ (oneEntry.persistFaulty 100 ⟨some (Bytes.lit "old"), none⟩ (List.replicate 5 .done)).file
        = none
      ∧ (CSharp.persistQuietly 60 "codec.json" (Bytes.lit "new") ⟨some (Bytes.lit "old"), none⟩
          (List.replicate 4 .done)).file
        = none := by
  refine ⟨?_, by decide +kernel, by decide +kernel, by decide +kernel⟩
  unfold Intact
  decide +kernel

end VideoCodecCache
end HikBridge
