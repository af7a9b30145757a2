import HikBridge.FfmpegProcess.Invariant

/-!
This module contains the proof that every descriptor that the threads of an `FfmpegProcess` pass to
the system is open on its own pipe, whatever else the bridge does meanwhile.
-/

namespace HikBridge
namespace Spawning

open Descriptors

namespace FfmpegProcess

inductive Effect (number : Nat)
    : Table File → (Nat → Stdio → End → Prop) → Table File → (Nat → Stdio → End → Prop) → Prop where
  | keeps {table : Table File} {held held' : Nat → Stdio → End → Prop}
      (h : ∀ fd a b, held' fd a b ↔ held fd a b)
    : Effect number table held table held'
  | opens {table : Table File} {held held' : Nat → Stdio → End → Prop} {fd : Nat} {stdio : Stdio} {side : End}
      (hfree : table.get fd = none)
      (h : ∀ fd' a b, held' fd' a b ↔ held fd' a b ∨ fd' = fd ∧ a = stdio ∧ b = side)
    : Effect number table held (table.set fd (some ⟨.pipe number stdio side, true⟩)) held'
  | closes {table : Table File} {held held' : Nat → Stdio → End → Prop} {fd : Nat} {stdio : Stdio}
      {side : End} (hheld : held fd stdio side)
      (h : ∀ fd' a b, held' fd' a b ↔ held fd' a b ∧ fd' ≠ fd)
    : Effect number table held (table.close fd) held'
  | andThen {table table' table'' : Table File} {held held' held'' : Nat → Stdio → End → Prop}
      (first : Effect number table held table' held')
      (second : Effect number table' held' table'' held'')
    : Effect number table held table'' held''

def Unique (p : FfmpegProcess) : Prop :=
  ∀ fd a b a' b', p.Holds fd a b → p.Holds fd a' b' → a = a' ∧ b = b'

variable {p p' : FfmpegProcess} {number : Nat} {table table' : Table File} {act : ProcessAct}

def NotClosing (pc : OwnerPc) : Prop := ∀ a b fd, pc ≠ .close a b fd

theorem holds_iff (hpc : NotClosing p.pc) {fd : Nat} {a : Stdio} {b : End}
    : p.Holds fd a b ↔ p.ends a b = some fd ∨ p.member a b = some fd := by
  simp [Holds, hpc a b fd]

theorem effect_keeps (hends : p'.ends = p.ends) (hmember : p'.member = p.member)
    (hpc : NotClosing p.pc) (hpc' : NotClosing p'.pc)
    : Effect number table p.Holds table p'.Holds := by
  apply Effect.keeps
  intro fd a b
  rw [holds_iff hpc, holds_iff hpc', hends, hmember]

theorem effect_closing {fd : Option Nat} {stdio : Stdio} {side : End}
    (hheld : ∀ n, fd = some n → p.Holds n stdio side)
    (h : ∀ fd' a b, p'.Holds fd' a b ↔ p.Holds fd' a b ∧ fd ≠ some fd')
    : Effect number table p.Holds (closing table fd) p'.Holds := by
  cases fd with
  | none => exact .keeps fun fd' a b => by simp [h fd' a b]
  | some fd =>
    apply Effect.closes (hheld fd rfl)
    intro fd' a b
    rw [h fd' a b, ne_eq, Option.some.injEq, eq_comm]

theorem notClosing_afterRaise (stdio : Stdio) (side : End) : NotClosing (afterRaise stdio side) := by
  cases stdio <;> cases side <;> exact nofun

theorem notClosing_afterStop (caller : StopCaller) : NotClosing (afterStop caller) := by
  cases caller <;> exact nofun

theorem notClosing_of_stage (hpos : 1 ≤ p.pc.stage) : NotClosing p.pc := by
  intro a b fd hpc
  rw [hpc] at hpos
  exact absurd hpos (Nat.not_succ_le_zero 0)

theorem Bare.member (h : p.Bare) (a : Stdio) (b : End) : p.member a b = none := by
  cases a <;> cases b <;> simp [FfmpegProcess.member, h.inputFd, h.outputFd, h.errorFd]

theorem effect_pipe2 {stdio : Stdio} {read write : Nat} (h : p.Inv) (hpc : p.pc = .pipe2 stdio)
    (hread : table.get read = none) (hwrite : table.get write = none) (hne : write ≠ read)
    : Effect number table p.Holds
        ((table.set read (some ⟨.pipe number stdio .read, true⟩)).set write
          (some ⟨.pipe number stdio .write, true⟩))
        ({ (p.setEnd stdio .read (some read)).setEnd stdio .write (some write) with
          pc := .fcntl stdio .read } : FfmpegProcess).Holds := by
  have hends := h.ends
  rw [hpc] at hends
  have hnone : ∀ b, p.ends stdio b = none := fun b => hends.2 stdio b (Nat.le_refl _)
  have hmember := (h.bare (by rw [hpc]; rfl)).member
  have hfirst : Effect number table p.Holds
      (table.set read (some ⟨.pipe number stdio .read, true⟩))
      (fun fd a b => p.Holds fd a b ∨ fd = read ∧ a = stdio ∧ b = End.read) :=
    .opens hread fun _ _ _ => Iff.rfl
  refine .andThen hfirst (.opens ?_ ?_)
  . rw [Table.get_set_of_ne hne]
    exact hwrite
  . intro fd a b
    rw [holds_iff (p := { (p.setEnd stdio .read (some read)).setEnd stdio .write (some write) with
      pc := .fcntl stdio .read }) nofun]
    have hheld : p.Holds fd a b ↔ p.ends a b = some fd := by
      rw [holds_iff (by rw [hpc]; exact nofun), hmember a b]
      simp
    show _ ∨ p.member a b = some fd ↔ (p.Holds fd a b ∨ _) ∨ _
    rw [hheld, hmember a b]
    by_cases ha : a = stdio
    . subst ha
      cases b <;> simp [setEnd, hnone, eq_comm]
    . simp [setEnd, ha]

theorem effect_raise {stdio : Stdio} {side : End} {raised : Nat} (hpc : p.pc = .fcntl stdio side)
    (hfree : table.get raised = none)
    : Effect number table p.Holds (table.set raised (some ⟨.pipe number stdio side, true⟩))
        ({ p with pc := .close stdio side raised } : FfmpegProcess).Holds := by
  refine .opens hfree ?_
  intro fd a b
  rw [holds_iff (p := p) (by rw [hpc]; exact nofun)]
  show p.ends a b = some fd ∨ p.member a b = some fd ∨ OwnerPc.close stdio side raised = .close a b fd
    ↔ _
  rw [OwnerPc.close.injEq, or_assoc]
  constructor
  . rintro (h | h | ⟨rfl, rfl, rfl⟩)
    . exact .inl h
    . exact .inr (.inl h)
    . exact .inr (.inr ⟨rfl, rfl, rfl⟩)
  . rintro (h | h | ⟨rfl, rfl, rfl⟩)
    . exact .inl h
    . exact .inr (.inl h)
    . exact .inr (.inr ⟨rfl, rfl, rfl⟩)

theorem effect_closeLow {stdio : Stdio} {side : End} {raised : Nat} (h : p.Inv)
    (hunique : p.Unique) (hpc : p.pc = .close stdio side raised)
    : Effect number table p.Holds (closing table (p.ends stdio side))
        ({ p.setEnd stdio side (some raised) with pc := afterRaise stdio side }
          : FfmpegProcess).Holds := by
  have hends := h.ends
  rw [hpc] at hends
  obtain ⟨-, -, -, -, hraised, low, hlow, hlt⟩ := hends
  have hmember := (h.bare (by rw [hpc]; rfl)).member
  have hheld : p.Holds low stdio side := .inl hlow
  apply effect_closing fun _ => .inl
  intro fd a b
  rw [holds_iff (p := { p.setEnd stdio side (some raised) with pc := afterRaise stdio side })
    (notClosing_afterRaise stdio side)]
  show (if a = stdio ∧ b = side then some raised else p.ends a b) = some fd ∨ p.member a b = some fd
    ↔ (p.ends a b = some fd ∨ p.member a b = some fd ∨ p.pc = .close a b fd) ∧ _
  rw [hmember a b, hpc, hlow, OwnerPc.close.injEq]
  by_cases hab : a = stdio ∧ b = side
  . obtain ⟨rfl, rfl⟩ := hab
    simp only [and_self, if_true, Option.some.injEq, reduceCtorEq, or_false, false_or, true_and,
      hlow, ne_eq]
    omega
  . have hother : low = fd → p.ends a b ≠ some fd := by
      rintro rfl hfd
      exact hab (hunique low a b stdio side (.inl hfd) hheld)
    simp only [if_neg hab, reduceCtorEq, or_false, false_or, ne_eq, Option.some.injEq]
    constructor
    . exact fun hfd => ⟨.inl hfd, fun heq => hother heq hfd⟩
    . rintro ⟨hfd | ⟨rfl, rfl, -⟩, -⟩
      . exact hfd
      . exact absurd ⟨rfl, rfl⟩ hab

theorem effect_spawned {childTable : Table File} (h : p.Inv) (hpc : p.pc = .posixSpawn)
    : Effect number table p.Holds table (p.spawned childTable).Holds := by
  have hmember := (h.bare (by rw [hpc]; rfl)).member
  apply Effect.keeps
  intro fd a b
  rw [holds_iff (p := p) (by rw [hpc]; exact nofun), hmember a b,
    holds_iff (p := p.spawned childTable) nofun]
  cases a <;> cases b <;> simp [spawned, FfmpegProcess.member, Stdio.childEnd]

theorem effect_closeEnd {stdio : Stdio} {side : End} {left : List (Stdio × End)} {thrown : Bool}
    (h : p.Inv) (hunique : p.Unique) (hpc : p.pc = .pipeEnds ((stdio, side) :: left) thrown)
    : Effect number table p.Holds (closing table (p.ends stdio side))
        ({ p.setEnd stdio side none with pc := .pipeEnds left thrown } : FfmpegProcess).Holds := by
  have hends := h.ends
  rw [hpc] at hends
  -- what is still in a local array is in no member
  have hmember : p.ends stdio side ≠ none → p.member stdio side = none := by
    intro hne
    cases thrown with
    | true => exact (h.bare (by rw [hpc]; rfl)).member stdio side
    | false =>
      rw [(hends stdio side hne).2 rfl]
      cases stdio <;> rfl
  have hclosing : NotClosing p.pc := by
    rw [hpc]
    exact nofun
  apply effect_closing fun _ => .inl
  intro fd a b
  rw [holds_iff hclosing, holds_iff
    (p := { p.setEnd stdio side none with pc := .pipeEnds left thrown }) nofun]
  show (if a = stdio ∧ b = side then none else p.ends a b) = some fd ∨ p.member a b = some fd ↔ _
  by_cases hab : a = stdio ∧ b = side
  . obtain ⟨rfl, rfl⟩ := hab
    by_cases hfd : p.ends a b = some fd
    . simp [hfd, hmember (by rw [hfd]; exact nofun)]
    . simp [hfd]
  . rw [if_neg hab]
    constructor
    . intro hfd
      refine ⟨hfd, ?_⟩
      intro heq
      exact hab (hunique fd a b stdio side ((holds_iff hclosing).mpr hfd) (.inl heq))
    . exact And.left

theorem holds_iff_member (h : p.Inv) (hstage : 2 ≤ p.pc.stage) {fd : Nat} {a : Stdio} {b : End}
    : p.Holds fd a b ↔ p.member a b = some fd := by
  rw [holds_iff (notClosing_of_stage (by omega)), h.ends_eq_none hstage]
  simp

theorem effect_member {stdio : Stdio} {side : End} (h : p.Inv) (hunique : p.Unique)
    (hstage : 2 ≤ p.pc.stage) (hpc : NotClosing p'.pc) (hends : p'.ends = p.ends)
    (hmember : ∀ a b, p'.member a b = if a = stdio ∧ b = side then none else p.member a b)
    : Effect number table p.Holds (closing table (p.member stdio side)) p'.Holds := by
  apply effect_closing fun _ hfd => .inr (.inl hfd)
  intro fd a b
  rw [holds_iff hpc, hends, h.ends_eq_none hstage, hmember a b, holds_iff_member h hstage]
  by_cases hab : a = stdio ∧ b = side
  . obtain ⟨rfl, rfl⟩ := hab
    simp
  . simp only [if_neg hab, reduceCtorEq, false_or]
    constructor
    . intro hfd
      refine ⟨hfd, ?_⟩
      intro heq
      exact hab (hunique fd a b stdio side ((holds_iff_member h hstage).mpr hfd)
        ((holds_iff_member h hstage).mpr heq))
    . exact And.left

theorem effect_of_moves (h : p.Inv) (hunique : p.Unique)
    (hmoves : p.Moves number table act table' p')
    : Effect number table p.Holds table' p'.Holds := by
  cases hmoves with
  | construct hpc => exact effect_keeps rfl rfl (by rw [hpc]; exact nofun) nofun
  | throws hpc =>
    refine effect_keeps rfl rfl ?_ nofun
    intro _ _ _ heq
    rw [heq] at hpc
    cases hpc
  | pipe2 hpc hread hwrite hne => exact effect_pipe2 h hpc hread hwrite hne
  | raise hpc _ _ _ hfree => exact effect_raise hpc hfree
  | keep hpc => exact effect_keeps rfl rfl (by rw [hpc]; exact nofun) (notClosing_afterRaise _ _)
  | closeLow hpc => exact effect_closeLow h hunique hpc
  | configured hpc => exact effect_keeps rfl rfl (by rw [hpc]; exact nofun) nofun
  | spawned hpc => exact effect_spawned h hpc
  | closeEnd hpc => exact effect_closeEnd h hunique hpc
  | unwound hpc | handedOver hpc | startErrorPump hpc | logged hpc | exchange hpc | kill hpc
  | waits hpc | sigkill hpc | joinPump hpc | joinErrorPump hpc =>
    exact effect_keeps rfl rfl (by rw [hpc]; exact nofun) nofun
  | stops hpc =>
    have hstage := hpc.stage
    exact effect_keeps rfl rfl (notClosing_of_stage (by omega)) nofun
  | startPump hpc | read hpc | waitsOn hpc =>
    exact effect_keeps rfl rfl (by rw [hpc]; exact nofun) (by rw [hpc]; exact nofun)
  | stoppedBefore hpc =>
    exact effect_keeps rfl rfl (by rw [hpc]; exact nofun) (notClosing_afterStop _)
  | reaped hpc =>
    have hstage := hpc.stage
    exact effect_keeps rfl rfl (notClosing_of_stage (by omega)) nofun
  | closeInput hpc =>
    have hstage : p.pc.stage = 11 := by rw [hpc]; rfl
    refine @effect_member p _ number table .input .write h hunique (by omega) nofun rfl ?_
    intro a b
    cases a <;> cases b <;> rfl
  | closeOutput hpc =>
    have hstage : p.pc.stage = 13 := by rw [hpc]; rfl
    refine @effect_member p _ number table .output .read h hunique (by omega) nofun rfl ?_
    intro a b
    cases a <;> cases b <;> rfl
  | closeError hpc =>
    have hstage : p.pc.stage = 14 := by rw [hpc]; rfl
    refine @effect_member p _ number table .error .read h hunique (by omega)
      (notClosing_afterStop _) rfl ?_
    intro a b
    cases a <;> cases b <;> rfl
  | pump hactive =>
    have hstage := (h.pump hactive).2.1
    have hpc : NotClosing p.pc := notClosing_of_stage (by omega)
    exact effect_keeps rfl rfl hpc hpc
  | pumpClose hpump =>
    have hstage := (h.pump (by rw [hpump]; rfl)).2.1
    have hpc : NotClosing p.pc := notClosing_of_stage (by omega)
    refine @effect_member p _ number table .input .write h hunique (by omega) hpc rfl ?_
    intro a b
    cases a <;> cases b <;> rfl
  | errorPump hactive =>
    have hstage := (h.errorPump hactive).2.1
    have hpc : NotClosing p.pc := notClosing_of_stage (by omega)
    exact effect_keeps rfl rfl hpc hpc
  | exit hchild =>
    have hpc := notClosing_of_stage (h.stage_pos (by rw [hchild]; exact nofun))
    exact effect_keeps rfl rfl hpc hpc

def uses (p : FfmpegProcess) : ProcessAct → List (Option Nat × Stdio × End)
  | .fcntl _ =>
    match p.pc with
    | .fcntl stdio side => [(p.ends stdio side, stdio, side)]
    | _ => []
  | .close =>
    match p.pc with
    | .close stdio side _ => [(p.ends stdio side, stdio, side)]
    | _ => []
  | .posixSpawn _ => pipeEnds.map fun e => (p.ends e.1 e.2, e.1, e.2)
  | .closeEnd =>
    match p.pc with
    | .pipeEnds ((stdio, side) :: _) _ =>
      if (p.ends stdio side).isSome then [(p.ends stdio side, stdio, side)] else []
    | _ => []
  | .pump (.write _) => [(p.inputFd, .input, .write)]
  | .pump .close | .closeInput => if p.inputFd.isSome then [(p.inputFd, .input, .write)] else []
  | .read => [(p.outputFd, .output, .read)]
  | .closeOutput => if p.outputFd.isSome then [(p.outputFd, .output, .read)] else []
  | .errorPump (.poll _) | .errorPump (.read _) => [(p.errorFd, .error, .read)]
  | .closeError => if p.errorFd.isSome then [(p.errorFd, .error, .read)] else []
  | _ => []

theorem holds_of_ends {stdio : Stdio} {side : End} (hsome : p.ends stdio side ≠ none)
    : ∃ fd, p.ends stdio side = some fd ∧ p.Holds fd stdio side := by
  obtain ⟨fd, hfd⟩ := Option.ne_none_iff_exists'.mp hsome
  exact ⟨fd, hfd, .inl hfd⟩

theorem holds_of_member {stdio : Stdio} {side : End} (hsome : p.member stdio side ≠ none)
    : ∃ fd, p.member stdio side = some fd ∧ p.Holds fd stdio side := by
  obtain ⟨fd, hfd⟩ := Option.ne_none_iff_exists'.mp hsome
  exact ⟨fd, hfd, .inr (.inl hfd)⟩

theorem holds_of_checked {stdio : Stdio} {side : End} {fd : Option Nat}
    (heq : p.ends stdio side = fd ∨ p.member stdio side = fd)
    : ∀ use ∈ (if fd.isSome then [(fd, stdio, side)] else []),
        ∃ fd, use.1 = some fd ∧ p.Holds fd use.2.1 use.2.2 := by
  intro use huse
  cases fd with
  | none => cases huse
  | some fd =>
    rw [List.mem_singleton.mp huse]
    exact ⟨fd, rfl, heq.imp_right .inl⟩

theorem uses_held (h : p.Inv) (hmoves : p.Moves number table act table' p')
    : ∀ use ∈ p.uses act, ∃ fd, use.1 = some fd ∧ p.Holds fd use.2.1 use.2.2 := by
  have hends := h.ends
  intro use huse
  cases act with
  | fcntl ok =>
    simp only [uses] at huse
    split at huse
    . next hpc =>
      rw [hpc] at hends
      rw [List.mem_singleton.mp huse]
      exact holds_of_ends (hends.2.1 _)
    . cases huse
  | close =>
    simp only [uses] at huse
    split at huse
    . next hpc =>
      rw [hpc] at hends
      rw [List.mem_singleton.mp huse]
      exact holds_of_ends (hends.2.1 _)
    . cases huse
  | posixSpawn ok =>
    obtain ⟨e, -, rfl⟩ := List.mem_map.mp huse
    have hpc := pc_of_posixSpawn hmoves
    rw [hpc] at hends
    obtain ⟨fd, hfd, -⟩ := hends e.1 e.2
    exact holds_of_ends (by rw [hfd]; exact nofun)
  | closeEnd =>
    simp only [uses] at huse
    split at huse
    . exact holds_of_checked (.inl rfl) use huse
    . cases huse
  | closeInput => exact @holds_of_checked p .input .write p.inputFd (.inr rfl) use huse
  | closeOutput => exact @holds_of_checked p .output .read p.outputFd (.inr rfl) use huse
  | closeError => exact @holds_of_checked p .error .read p.errorFd (.inr rfl) use huse
  | read =>
    have hstage : p.pc.stage = 4 := by
      rw [pc_of_read hmoves]
      rfl
    rw [List.mem_singleton.mp huse]
    exact @holds_of_member p .output .read (h.used (by omega) (by omega)).2.1
  | pump pumpAct =>
    have hinput := (h.pump (isActive_of_pump hmoves)).1
    cases pumpAct with
    | write result =>
      rw [List.mem_singleton.mp huse]
      exact @holds_of_member p .input .write hinput
    | close => exact @holds_of_checked p .input .write p.inputFd (.inr rfl) use huse
    | checkStop | popped | continues | breaks => cases huse
  | errorPump errorPumpAct =>
    have herror := (h.errorPump (isActive_of_errorPump hmoves)).1
    cases errorPumpAct with
    | checkFd => cases huse
    | poll | read =>
      rw [List.mem_singleton.mp huse]
      exact @holds_of_member p .error .read herror
  | construct | pipe2 | configure | startErrorPump | log | startPump | stopForPipelineSwitch | destroy
  | exchange | kill | waitNoHang | sigkill | wait | joinPump | joinErrorPump | exit => cases huse

end FfmpegProcess

namespace BridgeProcess

def held (s : BridgeProcess) (fd : Nat) : File → Prop
  | .pipe number stdio side => (s.processes number).Holds fd stdio side
  | _ => False

structure Inv (s : BridgeProcess) : Prop where
  processes : ∀ number, (s.processes number).Inv
  owned : Owned (fun file => file.isPipe = true) s.held s.table
  sockets : ∀ fd d, s.table.get fd = some d → d.file = .socket → d.cloexec = true

structure Started (s : BridgeProcess) : Prop where
  processes : s.processes = fun _ => {}
  table : ∀ fd d, s.table.get fd = some d → d.file = .foreign

variable {s s' : BridgeProcess} {e : Event}

theorem Started.inv (h : s.Started) : s.Inv where
  processes number := by
    rw [h.processes]
    exact FfmpegProcess.inv_start
  owned := by
    refine ⟨?_, ?_⟩
    . intro fd d hd hpipe
      rw [h.table fd d hd] at hpipe
      cases hpipe
    . intro fd file hheld
      cases file with
      | pipe number stdio side =>
        rw [held, h.processes] at hheld
        rcases hheld with h | h | h
        . cases h
        . cases stdio <;> cases side <;> cases h
        . cases h
      | socket | log | foreign => exact absurd hheld id
  sockets fd d hd hsocket := by
    rw [h.table fd d hd] at hsocket
    cases hsocket

theorem Inv.unique (h : s.Inv) (number : Nat) : (s.processes number).Unique := by
  intro fd a b a' b' hab hab'
  have heq := @Owned.unique _ _ s.held _ _ (.pipe number a b) h.owned (.pipe number a' b') hab hab'
  cases heq
  exact ⟨rfl, rfl⟩

def account (number : Nat) (held : Nat → Stdio → End → Prop) (others : Nat → File → Prop) (fd : Nat)
    : File → Prop
  | .pipe n stdio side =>
    if n = number then held fd stdio side else others fd (.pipe n stdio side)
  | file => others fd file

theorem owned_of_effect {number : Nat} {held held' : Nat → Stdio → End → Prop}
    {table table' : Table File} (heffect : FfmpegProcess.Effect number table held table' held')
    {others : Nat → File → Prop}
    (howned : Owned (fun file => file.isPipe = true) (account number held others) table)
    : Owned (fun file => file.isPipe = true) (account number held' others) table' := by
  induction heffect with
  | keeps h =>
    apply howned.congr
    intro fd file
    cases file with
    | pipe n a b => simp only [account, h fd a b]
    | socket | log | foreign => rfl
  | @opens table held held' fd stdio side hfree h =>
    apply howned.install hfree
    intro fd' file
    cases file with
    | pipe n a b =>
      by_cases hn : n = number
      . simp [account, hn, h fd' a b]
      . simp [account, hn]
    | socket | log | foreign => simp [account]
  | @closes table held held' fd stdio side hheld h =>
    have hfd : account number held others fd (.pipe number stdio side) := by
      simpa [account] using hheld
    apply howned.close
    intro fd' file
    by_cases hfile : ∃ a b, file = .pipe number a b
    . obtain ⟨a, b, rfl⟩ := hfile
      simpa [account] using h fd' a b
    . have hsame : account number held' others fd' file ↔ account number held others fd' file := by
        cases file with
        | pipe n a b =>
          have hn : n ≠ number := fun hn => hfile ⟨a, b, by rw [hn]⟩
          simp [account, hn]
        | socket | log | foreign => rfl
      rw [hsame]
      constructor
      . intro hother
        refine ⟨hother, ?_⟩
        rintro rfl
        exact hfile ⟨stdio, side, howned.unique hother hfd⟩
      . exact And.left
  | andThen first second ihFirst ihSecond => exact ihSecond (ihFirst howned)

theorem isPipe_of_held (fd : Nat) (file : File) (h : s.held fd file) : file.isPipe = true := by
  cases file with
  | pipe n a b => rfl
  | socket | log | foreign => exact absurd h id

theorem account_held (s : BridgeProcess) (number : Nat)
    : account number (s.processes number).Holds s.held = s.held := by
  funext fd file
  cases file with
  | pipe n a b =>
    by_cases hn : n = number
    . simp [account, held, hn]
    . simp [account, hn]
  | socket | log | foreign => rfl

theorem account_update (s : BridgeProcess) (table : Table File) (number : Nat) (p : FfmpegProcess)
    : account number p.Holds s.held
        = held { table, processes := Function.update s.processes number p } := by
  funext fd file
  cases file with
  | pipe n a b =>
    by_cases hn : n = number
    . simp [account, held, hn]
    . simp [account, held, hn]
  | socket | log | foreign => rfl

theorem Inv.openOther (h : s.Inv) {d : Descriptor File} (hpipe : d.file.isPipe = false)
    (hsocket : d.file = .socket → d.cloexec = true)
    : ({ s with table := s.table.set (s.table.free 0) (some d) } : BridgeProcess).Inv where
  processes := h.processes
  owned := by
    apply h.owned.setOther
    . intro old hold
      rw [Table.get_free] at hold
      cases hold
    . exact isPipe_of_held
    . intro new hnew
      cases hnew
      simp [hpipe]
  sockets fd old hold hfile := by
    by_cases hfd : fd = s.table.free 0
    . rw [hfd, Table.get_set_self] at hold
      cases hold
      exact hsocket hfile
    . rw [Table.get_set_of_ne hfd] at hold
      exact h.sockets fd old hold hfile

theorem Inv.closeOther (h : s.Inv) {fd : Nat} {d : Descriptor File} (hd : s.table.get fd = some d)
    (hpipe : d.file.isPipe = false)
    : ({ s with table := s.table.close fd } : BridgeProcess).Inv where
  processes := h.processes
  owned := by
    apply h.owned.setOther
    . intro old hold
      rw [hd] at hold
      cases hold
      simp [hpipe]
    . exact isPipe_of_held
    . exact nofun
  sockets fd' old hold hfile := by
    by_cases hfd : fd' = fd
    . rw [hfd, Table.get_close_self] at hold
      cases hold
    . rw [Table.get_close_of_ne hfd] at hold
      exact h.sockets fd' old hold hfile

theorem process_of_step {number : Nat} {act : ProcessAct}
    (h : s.step (.process number act) = some s')
    : ∃ table p, (s.processes number).step number s.table act = some (table, p)
        ∧ s' = { table, processes := Function.update s.processes number p } := by
  obtain ⟨⟨table, p⟩, hp, rfl⟩ := Option.map_eq_some_iff.mp h
  exact ⟨table, p, hp, rfl⟩

theorem get_of_effect {number : Nat} {held held' : Nat → Stdio → End → Prop}
    {table table' : Table File} (heffect : FfmpegProcess.Effect number table held table' held')
    {fd : Nat} {d : Descriptor File} (hd : table'.get fd = some d) (hpipe : d.file.isPipe = false)
    : table.get fd = some d := by
  induction heffect with
  | keeps => exact hd
  | @opens table held held' opened stdio side hfree h =>
    by_cases hfd : fd = opened
    . rw [hfd, Table.get_set_self] at hd
      cases hd
      cases hpipe
    . rwa [Table.get_set_of_ne hfd] at hd
  | @closes table held held' closed stdio side hheld h =>
    by_cases hfd : fd = closed
    . rw [hfd, Table.get_close_self] at hd
      cases hd
    . rwa [Table.get_close_of_ne hfd] at hd
  | andThen first second ihFirst ihSecond => exact ihFirst (ihSecond hd)

theorem step_inv (h : s.Inv) (hstep : s.step e = some s') : s'.Inv := by
  cases e with
  | process number act =>
    obtain ⟨table, p, hp, rfl⟩ := process_of_step hstep
    have hmoves := FfmpegProcess.moves_of_step hp
    have heffect := FfmpegProcess.effect_of_moves (h.processes number) (h.unique number) hmoves
    refine ⟨?_, ?_, ?_⟩
    . show ∀ n, (Function.update s.processes number p n).Inv
      intro n
      by_cases hn : n = number
      . subst hn
        rw [Function.update_self]
        exact FfmpegProcess.inv_of_moves (h.processes n) hmoves
      . rw [Function.update_of_ne hn]
        exact h.processes n
    . rw [← account_update]
      apply owned_of_effect heffect
      rw [account_held]
      exact h.owned
    . intro fd d hd hsocket
      exact h.sockets fd d (get_of_effect heffect hd (by rw [hsocket]; rfl)) hsocket
  | openSocket =>
    cases hstep
    exact h.openOther rfl fun _ => rfl
  | openLog =>
    cases hstep
    exact h.openOther rfl nofun
  | openForeign cloexec =>
    cases hstep
    exact h.openOther rfl nofun
  | closeOther fd =>
    simp only [step] at hstep
    split at hstep
    . next d hd =>
      split at hstep
      . cases hstep
      . next hpipe =>
        cases hstep
        exact h.closeOther hd (Bool.eq_false_iff.mpr hpipe)
    . cases hstep

theorem run_inv (h : s.Started) {es : List Event} (hrun : Machine.run step s es = some s') : s'.Inv :=
  Machine.run_invariant (fun _ _ _ hinv hstep => step_inv hinv hstep) h.inv hrun

/--
In every run, whatever the other threads open and close and however the objects interleave, a call
of an object finds its own pipe end behind every descriptor that it hands to the system, and its own
child, not waited for so far, behind `pid_`.
-/
theorem uses_own_descriptors (h : s.Started) {es : List Event}
    (hrun : Machine.run step s es = some s') {number : Nat} {act : ProcessAct}
    (hstep : (s'.step (.process number act)).isSome = true)
    : (∀ use ∈ (s'.processes number).uses act,
        ∃ fd,
          use.1 = some fd ∧ s'.table.get fd = some ⟨.pipe number use.2.1 use.2.2, true⟩)
      ∧ (FfmpegProcess.usesPid act = true → (s'.processes number).child.isUnreaped = true) := by
  have hinv := run_inv h hrun
  have hprocess := hinv.processes number
  obtain ⟨s'', hs''⟩ := Option.isSome_iff_exists.mp hstep
  obtain ⟨table, p, hp, -⟩ := process_of_step hs''
  have hmoves := FfmpegProcess.moves_of_step hp
  constructor
  . intro use huse
    obtain ⟨fd, hfd, hheld⟩ := FfmpegProcess.uses_held hprocess hmoves use huse
    exact ⟨fd, hfd, hinv.owned.isOpen fd (.pipe number use.2.1 use.2.2) hheld⟩
  . intro hpid
    have hstage : 6 ≤ (s'.processes number).pc.stage ∧ (s'.processes number).pc.stage ≤ 9 := by
      obtain ⟨point, caller, hpc, hpoint⟩ := FfmpegProcess.pc_of_usesPid hmoves hpid
      rw [hpc]
      rcases hpoint with rfl | rfl | rfl | rfl <;> simp [OwnerPc.stage]
    rw [← hprocess.pid, hprocess.waits hstage.1]
    exact hstage.2

def sampleStart : BridgeProcess where
  table := Table.empty

theorem sampleStart_started : sampleStart.Started := ⟨rfl, fun _ _ hd => by cases hd⟩

def sampleLife : List Event :=
  [.construct, .pipe2 true, .fcntl true, .close, .fcntl true, .close,
    .pipe2 true, .fcntl true, .close, .fcntl true, .close,
    .pipe2 true, .fcntl true, .close, .fcntl true, .close,
    .configure true, .posixSpawn true, .closeEnd, .closeEnd, .closeEnd, .closeEnd, .closeEnd,
    .closeEnd, .closeEnd, .startErrorPump true, .log true].map (.process 0)

theorem sampleLife_runs : (Machine.run step sampleStart sampleLife).isSome = true := by
  decide

def sampleRunning : BridgeProcess := (Machine.run step sampleStart sampleLife).get sampleLife_runs

theorem uses_own_descriptors_sample
    : (∀ use ∈ (sampleRunning.processes 0).uses .read,
        ∃ fd,
          use.1 = some fd ∧ sampleRunning.table.get fd = some ⟨.pipe 0 use.2.1 use.2.2, true⟩)
      ∧ (FfmpegProcess.usesPid .read = true
          → (sampleRunning.processes 0).child.isUnreaped = true) :=
  uses_own_descriptors sampleStart_started (Option.some_get sampleLife_runs).symm
    (by decide)

end BridgeProcess
end Spawning
end HikBridge
