import HikBridge.FfmpegProcess.Descriptors

/-!
This module contains what an FFmpeg process inherits from the bridge, and with it who can read from
and write to each pipe.
-/

namespace HikBridge
namespace Spawning

open Descriptors

/--
A child has its own pipe ends on its stdio, and beyond them only what the SDK or the starter of the
bridge left inheritable and the log file if it is being written.
-/
structure ChildTable (number : Nat) (t : Table File) : Prop where
  stdio : ∀ stdio : Stdio, t.get stdio.number = some ⟨.pipe number stdio stdio.childEnd, false⟩
  others : ∀ fd d, t.get fd = some d
    → (∃ stdio : Stdio, fd = stdio.number) ∨ d.file = .log ∨ d.file = .foreign

def Stdio.bridgeEnd : Stdio → End
  | .input => .write
  | .output | .error => .read

theorem Stdio.bridgeEnd_ne (stdio : Stdio) : stdio.bridgeEnd ≠ stdio.childEnd := by
  cases stdio <;> decide

theorem Stdio.number_lt (stdio : Stdio) : stdio.number < 3 := by
  cases stdio <;> decide

theorem mem_stdios (stdio : Stdio) : stdio ∈ stdios := by
  cases stdio <;> decide

namespace FfmpegProcess

variable {p p' : FfmpegProcess} {number : Nat} {table table' : Table File} {act : ProcessAct}

theorem spawn_actions (hends : ∀ a b, High (p.ends a b))
    (hopen : ∀ a b fd, p.ends a b = some fd → table.get fd = some ⟨.pipe number a b, true⟩)
    : ∃ childTable,
        table.spawn p.actions = some childTable
          ∧ (∀ stdio : Stdio,
              childTable.get stdio.number = some ⟨.pipe number stdio stdio.childEnd, false⟩)
          ∧ ∀ fd d, childTable.get fd = some d
              → (∃ stdio : Stdio, fd = stdio.number) ∨ table.get fd = some d ∧ d.cloexec = false := by
  let source := fun stdio side => (p.ends stdio side).getD 0
  have hsource : ∀ a b, 3 ≤ source a b ∧ table.get (source a b) = some ⟨.pipe number a b, true⟩ := by
    intro a b
    obtain ⟨fd, hfd, hhigh⟩ := hends a b
    have heq : source a b = fd := by
      show (p.ends a b).getD 0 = fd
      rw [hfd]
      rfl
    rw [heq]
    exact ⟨hhigh, hopen a b fd hfd⟩
  let pairs := stdios.map fun stdio => (source stdio stdio.childEnd, stdio.number)
  let fds := pipeEnds.map fun e => source e.1 e.2
  have hpair : ∀ q ∈ pairs, ∃ stdio : Stdio, q = (source stdio stdio.childEnd, stdio.number) := by
    intro q hq
    obtain ⟨stdio, -, heq⟩ := List.mem_map.mp hq
    exact ⟨stdio, heq.symm⟩
  have hhigh : ∀ fd ∈ fds, 3 ≤ fd := by
    intro fd hfd
    obtain ⟨e, -, rfl⟩ := List.mem_map.mp hfd
    exact (hsource e.1 e.2).1
  obtain ⟨u, hu, hstdio, hrest⟩ := @Table.redirect _ table pairs
    (fun q hq => by
      obtain ⟨stdio, rfl⟩ := hpair q hq
      rw [(hsource stdio stdio.childEnd).2]
      exact nofun)
    (fun q hq r hr => by
      obtain ⟨stdio, rfl⟩ := hpair q hq
      obtain ⟨stdio', rfl⟩ := hpair r hr
      have := (hsource stdio stdio.childEnd).1
      have := stdio'.number_lt
      omega)
    (show [0, 1, 2].Nodup by decide)
  obtain ⟨v, hv, hget⟩ := @Table.closes _ u fds
  refine ⟨v.exec, ?_, ?_, ?_⟩
  . have hactions : p.actions
        = (pairs.map fun q => Table.Action.dup2 q.1 q.2) ++ fds.map Table.Action.close := rfl
    rw [Table.spawn, hactions, List.foldlM_append, hu]
    show ((fds.map Table.Action.close).foldlM Table.act u).map Table.exec = some v.exec
    rw [hv]
    rfl
  . intro stdio
    have hnot : stdio.number ∉ fds := by
      intro hmem
      have := hhigh _ hmem
      have := stdio.number_lt
      omega
    rw [Table.get_exec_eq_some, hget, if_neg hnot]
    refine ⟨?_, rfl⟩
    exact hstdio (source stdio stdio.childEnd, stdio.number)
      (List.mem_map.mpr ⟨stdio, mem_stdios stdio, rfl⟩) _ (hsource stdio stdio.childEnd).2
  . intro fd d hd
    obtain ⟨hv, hcloexec⟩ := Table.get_exec_eq_some.mp hd
    rw [hget] at hv
    by_cases hfd : ∃ stdio : Stdio, fd = stdio.number
    . exact .inl hfd
    . right
      split at hv
      . cases hv
      . rw [hrest fd fun q hq heq => ?_] at hv
        . exact ⟨hv, hcloexec⟩
        . obtain ⟨stdio, rfl⟩ := hpair q hq
          exact hfd ⟨stdio, heq⟩

theorem running_of_moves {childTable : Table File} {killed : Bool}
    (hmoves : p.Moves number table act table' p') (hchild : p'.child = .running childTable killed)
    : (∃ killed', p.child = .running childTable killed')
      ∨ p.pc = .posixSpawn ∧ table.spawn p.actions = some childTable := by
  have hsignal : ∀ hard, p.child.signal hard = .running childTable killed
      → ∃ killed', p.child = .running childTable killed' := by
    intro hard hsignal
    cases hc : p.child with
    | running t k =>
      rw [hc] at hsignal
      cases hsignal
      exact ⟨k, rfl⟩
    | none | zombie | reaped =>
      rw [hc] at hsignal
      cases hsignal
  cases hmoves with
  | spawned hpc hspawn =>
    cases hchild
    exact .inr ⟨hpc, hspawn⟩
  | kill | sigkill => exact .inl (hsignal _ hchild)
  | reaped hpc hnot =>
    left
    cases hc : p.child with
    | running t k => exact absurd hc (hnot t k)
    | none | zombie | reaped =>
      simp only [hc, Child.reap] at hchild
      cases hchild
  | exit => cases hchild
  | construct | throws | pipe2 | raise | keep | closeLow | configured | closeEnd | unwound
  | handedOver | startErrorPump | logged | stops | startPump | read | stoppedBefore | exchange | waits
  | waitsOn | joinPump | closeInput | joinErrorPump | closeOutput | closeError | pump | pumpClose
  | errorPump => exact .inl ⟨killed, hchild⟩

end FfmpegProcess

namespace BridgeProcess

variable {s s' : BridgeProcess} {e : Event}

def ChildInv (s : BridgeProcess) : Prop :=
  ∀ number childTable killed, (s.processes number).child = .running childTable killed
    → ChildTable number childTable

theorem spawned_table (h : s.Inv) {number : Nat} (hpc : (s.processes number).pc = .posixSpawn)
    : ∃ childTable,
        s.table.spawn (s.processes number).actions = some childTable
          ∧ ChildTable number childTable := by
  have hends := (h.processes number).ends
  rw [hpc] at hends
  obtain ⟨childTable, hspawn, hstdio, hothers⟩ := FfmpegProcess.spawn_actions hends
    fun a b fd hfd => h.owned.isOpen fd (.pipe number a b) (.inl hfd)
  refine ⟨childTable, hspawn, hstdio, ?_⟩
  intro fd d hd
  refine (hothers fd d hd).imp_right ?_
  rintro ⟨hold, hcloexec⟩
  -- pipes and sockets are close-on-exec
  obtain ⟨file, cloexec⟩ := d
  cases file with
  | pipe n a b =>
    rw [(h.owned.accounted fd _ hold rfl).2] at hcloexec
    cases hcloexec
  | socket =>
    rw [h.sockets fd _ hold rfl] at hcloexec
    cases hcloexec
  | log => exact .inl rfl
  | foreign => exact .inr rfl

theorem step_childInv (h : s.Inv) (hchild : s.ChildInv) (hstep : s.step e = some s')
    : s'.ChildInv := by
  cases e with
  | process number act =>
    obtain ⟨table, p, hp, rfl⟩ := process_of_step hstep
    show ∀ n childTable killed, (Function.update s.processes number p n).child = _ → _
    intro n childTable killed hn
    by_cases heq : n = number
    . subst heq
      rw [Function.update_self] at hn
      cases FfmpegProcess.running_of_moves (FfmpegProcess.moves_of_step hp) hn with
      | inl hbefore =>
        obtain ⟨killed', hbefore⟩ := hbefore
        exact hchild n childTable killed' hbefore
      | inr hspawned =>
        obtain ⟨t, ht, htable⟩ := spawned_table h hspawned.1
        rw [hspawned.2] at ht
        cases ht
        exact htable
    . rw [Function.update_of_ne heq] at hn
      exact hchild n childTable killed hn
  | openSocket | openLog | openForeign =>
    cases hstep
    exact hchild
  | closeOther fd =>
    simp only [step] at hstep
    split at hstep
    . split at hstep
      . cases hstep
      . cases hstep
        exact hchild
    . cases hstep

theorem run_childInv (h : s.Started) {es : List Event} (hrun : Machine.run step s es = some s')
    : s'.ChildInv := by
  have hstart : s.ChildInv := by
    intro number childTable killed hchild
    rw [h.processes] at hchild
    cases hchild
  have hinv : s'.Inv ∧ s'.ChildInv := by
    apply Machine.run_invariant (I := fun s => s.Inv ∧ s.ChildInv) _ ⟨h.inv, hstart⟩ hrun
    intro t e t' ht hstep
    exact ⟨step_inv ht.1 hstep, step_childInv ht.1 ht.2 hstep⟩
  exact hinv.2

def IsOpen (s : BridgeProcess) (file : File) : Prop :=
  (∃ fd cloexec, s.table.get fd = some ⟨file, cloexec⟩)
    ∨ ∃ number childTable killed fd cloexec,
        (s.processes number).child = .running childTable killed
          ∧ childTable.get fd = some ⟨file, cloexec⟩

theorem file_of_childTable {number : Nat} {t : Table File} (h : ChildTable number t) {fd : Nat}
    {d : Descriptor File} (hd : t.get fd = some d)
    : (∃ stdio, d.file = .pipe number stdio stdio.childEnd) ∨ d.file = .log ∨ d.file = .foreign := by
  refine (h.others fd d hd).imp_left ?_
  rintro ⟨stdio, rfl⟩
  refine ⟨stdio, ?_⟩
  rw [h.stdio stdio] at hd
  cases hd
  rfl

/--
In every run the FFmpeg processes inherit no socket and no pipe of another one.
-/
theorem children_inherit_own_stdio (h : s.Started) {es : List Event}
    (hrun : Machine.run step s es = some s') {number : Nat} {childTable : Table File} {killed : Bool}
    (hchild : (s'.processes number).child = .running childTable killed)
    : (∀ stdio : Stdio,
        childTable.get stdio.number = some ⟨.pipe number stdio stdio.childEnd, false⟩)
      ∧ ∀ fd d, childTable.get fd = some d → d.file ≠ .socket
          ∧ ∀ n a b, d.file = .pipe n a b → n = number ∧ b = a.childEnd := by
  have htable := run_childInv h hrun number childTable killed hchild
  refine ⟨htable.stdio, ?_⟩
  intro fd d hd
  rcases file_of_childTable htable hd with ⟨stdio, hfile⟩ | hfile | hfile
  . refine ⟨by simp [hfile], ?_⟩
    intro n a b hpipe
    rw [hfile] at hpipe
    cases hpipe
    exact ⟨rfl, rfl⟩
  . simp [hfile]
  . simp [hfile]

def sampleChildTable : Table File :=
  match (sampleRunning.processes 0).child with
  | .running childTable _ => childTable
  | _ => Table.empty

theorem children_inherit_own_stdio_sample
    : (∀ stdio : Stdio,
        sampleChildTable.get stdio.number = some ⟨.pipe 0 stdio stdio.childEnd, false⟩)
      ∧ ∀ fd d, sampleChildTable.get fd = some d → d.file ≠ .socket
          ∧ ∀ n a b, d.file = .pipe n a b → n = 0 ∧ b = a.childEnd :=
  children_inherit_own_stdio sampleStart_started (Option.some_get sampleLife_runs).symm
    (rfl : (sampleRunning.processes 0).child = .running sampleChildTable false)

theorem isOpen_pipe_iff (h : s.Inv) (hchild : s.ChildInv) {number : Nat} {stdio : Stdio} {side : End}
    : s.IsOpen (.pipe number stdio side)
        ↔ (∃ fd, (s.processes number).Holds fd stdio side)
          ∨ side = stdio.childEnd
              ∧ ∃ childTable killed, (s.processes number).child = .running childTable killed := by
  constructor
  . rintro (⟨fd, cloexec, hd⟩ | ⟨n, childTable, killed, fd, cloexec, hrunning, hd⟩)
    . exact .inl ⟨fd, (h.owned.accounted fd _ hd rfl).1⟩
    . right
      rcases file_of_childTable (hchild n childTable killed hrunning) hd with ⟨a, ha⟩ | ha | ha
      . cases ha
        exact ⟨rfl, childTable, killed, hrunning⟩
      . cases ha
      . cases ha
  . rintro (⟨fd, hheld⟩ | ⟨rfl, childTable, killed, hrunning⟩)
    . exact .inl ⟨fd, true, h.owned.isOpen fd (.pipe number stdio side) hheld⟩
    . exact .inr ⟨number, childTable, killed, stdio.number, false, hrunning,
        (hchild number childTable killed hrunning).stdio stdio⟩

/--
Once `start_linux` is over, FFmpeg alone can read its input and write its output and diagnostics,
and the bridge alone has the other ends: closing the input ends FFmpeg's stdin, and the end of FFmpeg
ends what the bridge reads and fails what it writes.
-/
theorem pipe_ends_of_run (h : s.Started) {es : List Event} (hrun : Machine.run step s es = some s')
    {number : Nat} (hstarted : 2 ≤ (s'.processes number).pc.stage) (stdio : Stdio)
    : (s'.IsOpen (.pipe number stdio stdio.childEnd)
        ↔ ∃ childTable killed, (s'.processes number).child = .running childTable killed)
      ∧ (s'.IsOpen (.pipe number stdio stdio.bridgeEnd)
        ↔ (s'.processes number).member stdio stdio.bridgeEnd ≠ none) := by
  have hinv := run_inv h hrun
  have hchild := run_childInv h hrun
  have hprocess := hinv.processes number
  rw [isOpen_pipe_iff hinv hchild, isOpen_pipe_iff hinv hchild]
  simp only [FfmpegProcess.holds_iff_member hprocess hstarted]
  constructor
  . have hnone : (s'.processes number).member stdio stdio.childEnd = none := by
      cases stdio <;> rfl
    simp [hnone]
  . rw [Option.ne_none_iff_exists']
    simp [stdio.bridgeEnd_ne]

theorem pipe_ends_of_run_sample
    : (sampleRunning.IsOpen (.pipe 0 .input Stdio.input.childEnd)
        ↔ ∃ childTable killed, (sampleRunning.processes 0).child = .running childTable killed)
      ∧ (sampleRunning.IsOpen (.pipe 0 .input Stdio.input.bridgeEnd)
        ↔ (sampleRunning.processes 0).member .input Stdio.input.bridgeEnd ≠ none) :=
  pipe_ends_of_run sampleStart_started (Option.some_get sampleLife_runs).symm (by decide) .input

/--
When `stop_process` is over, also in a constructor that throws, nothing of the object is left: no
process has one of its pipes open, its threads have ended and its child is waited for.
-/
theorem nothing_left_of_run (h : s.Started) {es : List Event}
    (hrun : Machine.run step s es = some s') {number : Nat}
    (hgone : (s'.processes number).pc = .stopped ∨ (s'.processes number).pc = .gone)
    : (∀ stdio side, ¬ s'.IsOpen (.pipe number stdio side))
      ∧ (s'.processes number).pump.isActive = false
      ∧ (s'.processes number).errorPump.isActive = false
      ∧ (s'.processes number).child.isUnreaped = false := by
  have hinv := run_inv h hrun
  have hprocess := hinv.processes number
  have hstage : (s'.processes number).pc.stage = 15 := by
    rcases hgone with hpc | hpc <;> rw [hpc] <;> rfl
  have hunreaped : (s'.processes number).child.isUnreaped = false := by
    rw [← hprocess.pid, Bool.eq_false_iff, ne_eq, hprocess.waits (by omega)]
    omega
  refine ⟨?_, ?_, ?_, hunreaped⟩
  . intro stdio side
    rw [isOpen_pipe_iff hinv (run_childInv h hrun)]
    rintro (⟨fd, hheld⟩ | ⟨-, childTable, killed, hrunning⟩)
    . rw [FfmpegProcess.holds_iff_member hprocess (by omega)] at hheld
      have hinput := hprocess.closedInput (by omega)
      have houtput := hprocess.closedOutput (by omega)
      have herror := hprocess.closedError (by omega)
      cases stdio <;> cases side <;> simp_all [FfmpegProcess.member]
    . rw [hrunning] at hunreaped
      cases hunreaped
  . rw [Bool.eq_false_iff]
    intro hactive
    have := hprocess.pump hactive
    omega
  . rw [Bool.eq_false_iff]
    intro hactive
    have := hprocess.errorPump hactive
    omega

def sampleThrow : List Event :=
  [.construct, .pipe2 true, .fcntl true, .close, .fcntl true, .close, .pipe2 false,
    .closeEnd, .closeEnd, .closeEnd, .closeEnd, .closeEnd, .closeEnd, .closeEnd,
    .exchange, .joinPump, .closeInput, .joinErrorPump, .closeOutput, .closeError].map (.process 0)

theorem sampleThrow_runs : (Machine.run step sampleStart sampleThrow).isSome = true := by
  decide

def sampleGone : BridgeProcess := (Machine.run step sampleStart sampleThrow).get sampleThrow_runs

theorem nothing_left_of_run_sample
    : (∀ stdio side, ¬ sampleGone.IsOpen (.pipe 0 stdio side))
      ∧ (sampleGone.processes 0).pump.isActive = false
      ∧ (sampleGone.processes 0).errorPump.isActive = false
      ∧ (sampleGone.processes 0).child.isUnreaped = false :=
  nothing_left_of_run sampleStart_started (Option.some_get sampleThrow_runs).symm (.inr rfl)

end BridgeProcess
end Spawning
end HikBridge
