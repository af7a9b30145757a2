import HikBridge.HttpBridgeServer.HandleVideo

/-!
This module contains the proof that `HandleVideo` of the C# bridge stops every FFmpeg that it starts,
whichever of its statements throw, and never has two of them at a time.
-/

namespace HikBridge
namespace NetBridge

open Program

inductive Holder where
  | nobody
  | constructor
  | probing
  | probe
  | ffmpeg
  deriving DecidableEq

def objectOf (x : Holder) (s : VideoRun) : Option FfmpegChild :=
  match x with
  | .probing => s.probing
  | .probe => s.probeFfmpeg
  | .ffmpeg => s.ffmpeg
  | .nobody | .constructor => none

def VideoRun.children (s : VideoRun) : List FfmpegChild :=
  (objectOf .probing s).toList ++ ((objectOf .probe s).toList
    ++ ((objectOf .ffmpeg s).toList ++ s.dropped))

structure AtMost (x : Holder) (s : VideoRun) : Prop where
  starting : x ≠ .constructor → s.starting = false
  stopped : ∀ y, y ≠ x → ∀ p ∈ objectOf y s, p.processStopped = true
  dropped : ∀ p ∈ s.dropped, p.processStopped = true

structure Stage (x : Holder) (s : VideoRun) : Prop extends AtMost x s where
  disposed : ∀ y, ∀ p ∈ objectOf y s, p.disposed = true → p.processStopped = true

def Within (X : Holder → Prop) (s : VideoRun) : Prop := ∃ x, X x ∧ Stage x s

theorem Within.mono {X Y : Holder → Prop} {s : VideoRun} (h : Within X s) (hXY : ∀ x, X x → Y x)
    : Within Y s :=
  h.imp fun x hx => ⟨hXY x hx.1, hx.2⟩

def Somewhere (s : VideoRun) : Prop := ∃ x, AtMost x s

section Stages

variable {X : Holder → Prop} {x y z : Holder} {α : Type} {s : VideoRun}

theorem AtMost.stopped_of_objectless (h : AtMost x s) (hx : ∀ s, objectOf x s = none)
    {p : FfmpegChild} (hp : p ∈ objectOf y s) : p.processStopped = true := by
  refine h.stopped y ?_ p hp
  intro hy
  subst hy
  rw [hx] at hp
  cases hp

theorem Stage.of_nobody (h : Stage .nobody s) (x : Holder) : Stage x s where
  starting _ := h.starting nofun
  stopped _ _ _ hp := h.stopped_of_objectless (fun _ => rfl) hp
  dropped := h.dropped
  disposed := h.disposed

structure Disposing (z x : Holder) (s : VideoRun) : Prop extends AtMost x s where
  others : ∀ y, y ≠ z → ∀ p ∈ objectOf y s, p.disposed = true → p.processStopped = true

def After (z x y : Holder) : Prop := y ≠ z ∧ (y = x ∨ y = .nobody)

theorem Disposing.after {p : FfmpegChild} (h : Disposing z x s) (hobject : objectOf z s = some p)
    (hp : p.processStopped = true) : Within (After z x) s := by
  have hdisposed : ∀ y, ∀ q ∈ objectOf y s, q.disposed = true → q.processStopped = true := by
    intro y q hq hdis
    by_cases hy : y = z
    . subst hy
      rw [hobject] at hq
      cases hq
      exact hp
    . exact h.others y hy q hq hdis
  by_cases hx : x = z
  . subst hx
    refine ⟨.nobody, ⟨?_, .inr rfl⟩, { h.toAtMost with starting := ?_, stopped := ?_, disposed := hdisposed }⟩
    . intro hx
      subst hx
      cases hobject
    . intro _
      apply h.starting
      intro hx
      subst hx
      cases hobject
    . intro y _ q hq
      by_cases hy : y = x
      . subst hy
        rw [hobject] at hq
        cases hq
        exact hp
      . exact h.stopped y hy q hq
  . exact ⟨x, ⟨hx, .inl rfl⟩, h.toAtMost, hdisposed⟩

/--
A part of the `try` block that starts with the assertion `P`. It may throw where `X` allows.
-/
def Runs (X : Holder → Prop) (P : VideoRun → Prop) (m : Video α) (Q : α → VideoRun → Prop) : Prop :=
  Triple P m Q (fun _ => Within X) Somewhere

theorem runs_bind {β : Type} {P : VideoRun → Prop} {Q : α → VideoRun → Prop} {R : β → VideoRun → Prop}
    {m : Video β} {f : β → Video α} (hm : Runs X P m R) (hf : ∀ b, Runs X (R b) (f b) Q)
    : Runs X P (m >>= f) Q :=
  triple_bind hm hf

theorem runs_raise {e : Thrown} {Q : α → VideoRun → Prop} (hx : X x)
    : Runs X (Stage x) (raise e : Video α) Q :=
  triple_raise fun _ h => ⟨x, hx, h⟩

theorem runs_within {Y : Holder → Prop} {m : Video α} {Q : α → VideoRun → Prop}
    (h : ∀ x, Y x → Runs X (Stage x) m Q) : Runs X (Within Y) m Q := by
  rintro s ts ⟨x, hx, hs⟩
  exact h x hx s ts hs

theorem runs_of_keeps {I : VideoRun → Prop} {m : Video α} (h : ∀ I, Keeps I m) (hx : X x)
    (hI : ∀ s, I s → Stage x s) : Runs X I m fun _ => I :=
  (h I).conseq (fun _ => id) (fun _ _ => id) (fun _ s hs => ⟨x, hx, hI s hs⟩)
    fun s hs => ⟨x, (hI s hs).toAtMost⟩

theorem runs_statement (hx : X x) : Runs X (Stage x) statement fun _ => Stage x :=
  runs_of_keeps (fun _ => keeps_statement) hx fun _ => id

theorem runs_log (hx : X x) : Runs X (Stage x) log fun _ => Stage x :=
  runs_of_keeps (fun _ => keeps_log) hx fun _ => id

theorem runs_newFfmpegProcess {v : StreamRequest} {enableAudio : Bool} {mode : VideoOutputMode}
    {assign : FfmpegChild → VideoRun → VideoRun} (hnobody : X .nobody) (hconstructor : X .constructor)
    (hassign : ∀ p s, p.disposed = false → Stage .nobody s → Stage x (assign p s))
    : Runs X (Stage .nobody) (newFfmpegProcess v enableAudio mode assign) fun _ => Stage x := by
  apply runs_bind (runs_statement hnobody)
  intro file
  apply triple_ite
  . intro _
    apply runs_bind (runs_statement hnobody)
    intro started
    apply triple_ite
    . intro _
      have hstarts : Runs X (Stage .nobody) (update fun s => { s with starting := true })
          fun _ => Stage .constructor := by
        apply triple_update
        intro s h
        exact { h.of_nobody .constructor with starting := fun hne => absurd rfl hne }
      apply runs_bind hstarts
      intro _
      apply runs_bind (runs_statement hconstructor)
      intro _
      apply runs_bind (runs_log hconstructor)
      intro _
      apply triple_update
      intro s h
      refine hassign _ _ rfl ?_
      exact {
        h with
        starting := fun _ => rfl
        stopped := fun _ _ _ hp => h.stopped_of_objectless (fun _ => rfl) hp }
    . exact fun _ => runs_raise hnobody
  . exact fun _ => runs_raise hnobody

structure Stores (z : Holder) (store : FfmpegChild → VideoRun → VideoRun) : Prop where
  object : ∀ p s, (objectOf z s).isSome → objectOf z (store p s) = some p
  others : ∀ p s y, y ≠ z → objectOf y (store p s) = objectOf y s
  starting : ∀ p s, (store p s).starting = s.starting
  dropped : ∀ p s, (store p s).dropped = s.dropped

theorem stores_probing : Stores .probing setProbing where
  object _ _ _ := rfl
  others _ _ y hy := by
    cases y <;> first | rfl | exact absurd rfl hy
  starting _ _ := rfl
  dropped _ _ := rfl

theorem stores_probe : Stores .probe setProbe where
  object p s h := by
    cases hprobe : s.probe with
    | none =>
      rw [objectOf, VideoRun.probeFfmpeg, hprobe] at h
      cases h
    | some probe => simp [objectOf, VideoRun.probeFfmpeg, setProbe, hprobe]
  others _ _ y hy := by
    cases y <;> first | rfl | exact absurd rfl hy
  starting _ _ := rfl
  dropped _ _ := rfl

theorem stores_ffmpeg : Stores .ffmpeg setFfmpeg where
  object _ _ _ := rfl
  others _ _ y hy := by
    cases y <;> first | rfl | exact absurd rfl hy
  starting _ _ := rfl
  dropped _ _ := rfl

theorem Stores.disposing {store : FfmpegChild → VideoRun → VideoRun} (hstore : Stores z store)
    {p : FfmpegChild} (h : Disposing z x s) (hobject : (objectOf z s).isSome)
    (hp : x ≠ z → p.processStopped = true) : Disposing z x (store p s) where
  starting hx := (hstore.starting p s).trans (h.starting hx)
  stopped y hy q hq := by
    by_cases hyz : y = z
    . subst hyz
      rw [hstore.object p s hobject] at hq
      cases hq
      exact hp hy.symm
    . rw [hstore.others p s y hyz] at hq
      exact h.stopped y hy q hq
  dropped := by
    rw [hstore.dropped]
    exact h.dropped
  others y hy q hq := by
    rw [hstore.others p s y hy] at hq
    exact h.others y hy q hq

theorem runs_stopProcess {p : FfmpegChild} {immediate : Bool}
    {store : FfmpegChild → VideoRun → VideoRun} (hstore : Stores z store) (hX : ∀ y, After z x y → X y)
    : Runs X (fun s => Disposing z x s ∧ objectOf z s = some p) (stopProcess p immediate store)
        fun _ => Within (After z x) := by
  apply triple_ite
  . intro hp
    apply triple_pure
    intro s h
    exact h.1.after h.2 hp
  . intro _
    apply triple_bind (R := fun _ s => Disposing z x s ∧ objectOf z s = some p)
    . apply triple_ask
      . intro s h
        exact ⟨x, h.1.toAtMost⟩
      . exact fun _ _ => id
    . intro a
      apply triple_bind (R := fun _ => Within (After z x))
      . apply triple_update
        intro s h
        have hobject := Option.isSome_of_eq_some h.2
        exact (hstore.disposing h.1 hobject fun _ => rfl).after (hstore.object _ _ hobject) rfl
      . intro _
        apply runs_within
        intro y hy
        exact (runs_log (hX y hy)).conseq (fun _ => id) (fun _ _ h => ⟨y, hy, h⟩) (fun _ _ => id)
          fun _ => id

theorem runs_dispose {p : FfmpegChild} {store : FfmpegChild → VideoRun → VideoRun}
    (hstore : Stores z store) (hX : ∀ y, After z x y → X y)
    : Runs X (fun s => Stage x s ∧ objectOf z s = some p) (dispose p store)
        fun _ => Within (After z x) := by
  apply triple_ite
  . intro hp
    apply triple_pure
    intro s h
    have hdisposing : Disposing z x s := ⟨h.1.toAtMost, fun y _ => h.1.disposed y⟩
    exact hdisposing.after h.2 (h.1.disposed z p h.2 hp)
  . intro _
    apply triple_bind (R := fun _ s => Disposing z x s ∧ objectOf z s = some { p with disposed := true })
    . apply triple_update
      intro s h
      have hobject := Option.isSome_of_eq_some h.2
      refine ⟨hstore.disposing ⟨h.1.toAtMost, fun y _ => h.1.disposed y⟩ hobject ?_,
        hstore.object _ _ hobject⟩
      intro hx
      exact h.1.stopped z hx.symm p h.2
    . intro _
      exact runs_stopProcess hstore hX

theorem Stage.replaced {store : FfmpegChild → VideoRun → VideoRun} (hstore : Stores x store)
    {p q : FfmpegChild} (h : Stage x s) (hobject : objectOf x s = some p)
    (hq : q.disposed = true → q.processStopped = true) : Stage x (store q s) := by
  have hsome := Option.isSome_of_eq_some hobject
  have hstage := hstore.disposing (p := q) ⟨h.toAtMost, fun y _ => h.disposed y⟩ hsome
    fun hne => absurd rfl hne
  refine ⟨hstage.toAtMost, fun y r hr => ?_⟩
  by_cases hy : y = x
  . subst hy
    rw [hstore.object _ _ hsome] at hr
    cases hr
    exact hq
  . exact hstage.others y hy r hr

theorem runs_inspect {P : VideoRun → Prop} : Runs X P inspect fun t s => s = t ∧ P s :=
  triple_inspect fun _ h => ⟨rfl, h⟩

theorem runs_deref (hx : X x) {get : VideoRun → Option FfmpegChild}
    : Runs X (Stage x) (deref get) fun p s => Stage x s ∧ get s = some p := by
  apply runs_bind runs_inspect
  intro t
  cases hget : get t with
  | none =>
    apply triple_raise
    rintro s ⟨-, h⟩
    exact ⟨x, hx, h⟩
  | some p =>
    apply triple_pure
    rintro s ⟨rfl, h⟩
    exact ⟨h, hget⟩

theorem runs_sessionStart (hx : X x) : Runs X (Stage x) sessionStart fun _ => Stage x :=
  runs_bind (runs_of_keeps (fun _ => keeps_bridgeStatement) hx fun _ => id) fun _ => triple_update fun _ h => { h with }

theorem runs_readInitial (hx : X x) {p : FfmpegChild} {store : FfmpegChild → VideoRun → VideoRun}
    (hstore : Stores x store)
    : Runs X (fun s => Stage x s ∧ objectOf x s = some p) (readInitial p store) fun _ => Stage x := by
  apply runs_bind (runs_of_keeps (fun _ => keeps_statement) hx fun _ => And.left)
  intro a
  cases hread : (p.received a).readInitialMp4 a.after [] a.reads with
  | error e =>
    simp only [hread]
    exact triple_raise fun _ h => ⟨x, hx, h.1⟩
  | ok initialMp4 =>
    simp only [hread]
    apply triple_bind (R := fun _ => Stage x)
    . apply triple_update
      rintro s ⟨h, hobject⟩
      exact h.replaced hstore hobject (h.disposed x p hobject)
    . exact fun _ => triple_pure fun _ => id

def Outside (x : Holder) : Prop := x ≠ .probing

theorem After.eq_nobody (h : After z z y) : y = .nobody := by
  cases h.2 with
  | inl hy => exact absurd hy h.1
  | inr hy => exact hy

theorem Stage.nobody_of_none (h : Stage x s) (hx : x ≠ .constructor) (hobject : objectOf x s = none)
    : Stage .nobody s := by
  refine { h with starting := fun _ => h.starting hx, stopped := ?_ }
  intro y _ p hp
  refine h.stopped y ?_ p hp
  intro hy
  subst hy
  rw [hobject] at hp
  cases hp

theorem AtMost.stopped_dropped (h : AtMost x s) (y : Holder) (hy : y ≠ x)
    : ∀ p ∈ (objectOf y s).toList ++ s.dropped, p.processStopped = true := by
  intro p hp
  cases List.mem_append.mp hp with
  | inl hp => exact h.stopped y hy p (Option.mem_toList.mp hp)
  | inr hp => exact h.dropped p hp

theorem stage_setProbing {p : FfmpegChild} (h : Stage .nobody s) (hp : p.disposed = false)
    : Stage .probing (setProbing p s) := by
  refine { h.of_nobody .probing with stopped := ?_, disposed := ?_ }
  . intro y hy q hq
    cases y with
    | nobody | constructor => cases hq
    | probing => exact absurd rfl hy
    | probe => exact h.stopped .probe nofun q hq
    | ffmpeg => exact h.stopped .ffmpeg nofun q hq
  . intro y q hq hdisposed
    cases y with
    | nobody | constructor => cases hq
    | probing =>
      cases hq
      rw [hp] at hdisposed
      cases hdisposed
    | probe => exact h.disposed .probe q hq hdisposed
    | ffmpeg => exact h.disposed .ffmpeg q hq hdisposed

theorem stage_assignFfmpeg {p : FfmpegChild} (h : Stage .nobody s) (hp : p.disposed = false)
    : Stage .ffmpeg (assignFfmpeg p s) := by
  refine { h.of_nobody .ffmpeg with stopped := ?_, dropped := ?_, disposed := ?_ }
  . intro y hy q hq
    cases y with
    | nobody | constructor => cases hq
    | ffmpeg => exact absurd rfl hy
    | probing => exact h.stopped .probing nofun q hq
    | probe => exact h.stopped .probe nofun q hq
  . exact h.stopped_dropped .ffmpeg nofun
  . intro y q hq hdisposed
    cases y with
    | nobody | constructor => cases hq
    | ffmpeg =>
      cases hq
      rw [hp] at hdisposed
      cases hdisposed
    | probing => exact h.disposed .probing q hq hdisposed
    | probe => exact h.disposed .probe q hq hdisposed

theorem stage_probed {p : FfmpegChild} (h : Stage .probing s) (hp : s.probing = some p)
    (initialMp4 : Bytes)
    : Stage .probe { s with
        probing := none, probe := some ⟨some p, initialMp4, p.detectedVideoCodec⟩ } := by
  refine { h with starting := fun _ => h.starting nofun, stopped := ?_, disposed := ?_ }
  . intro y hy q hq
    cases y with
    | nobody | constructor | probing => cases hq
    | probe => exact absurd rfl hy
    | ffmpeg => exact h.stopped .ffmpeg nofun q hq
  . intro y q hq
    cases y with
    | nobody | constructor | probing => cases hq
    | probe =>
      cases hq
      exact h.disposed .probing p hp
    | ffmpeg => exact h.disposed .ffmpeg q hq

theorem stage_takeProbe {probe : CodecProbe} (h : Stage .probe s) (hprobe : s.probe = some probe)
    : Stage .ffmpeg { s with
        ffmpeg := probe.ffmpeg, dropped := s.ffmpeg.toList ++ s.dropped, probe := none } := by
  refine { h with
    starting := fun _ => h.starting nofun, stopped := ?_, dropped := ?_, disposed := ?_ }
  . intro y hy q hq
    cases y with
    | nobody | constructor | probe => cases hq
    | ffmpeg => exact absurd rfl hy
    | probing => exact h.stopped .probing nofun q hq
  . exact h.stopped_dropped .ffmpeg nofun
  . intro y q hq
    cases y with
    | nobody | constructor | probe => cases hq
    | ffmpeg =>
      refine h.disposed .probe q ?_
      rw [objectOf, VideoRun.probeFfmpeg, hprobe]
      exact hq
    | probing => exact h.disposed .probing q hq

theorem stage_dropProbe (h : Stage .nobody s) : Stage .nobody (dropProbe s) := by
  refine { h with starting := fun _ => h.starting nofun, stopped := ?_, dropped := ?_, disposed := ?_ }
  . intro y _ q hq
    cases y with
    | nobody | constructor | probe => cases hq
    | ffmpeg => exact h.stopped .ffmpeg nofun q hq
    | probing => exact h.stopped .probing nofun q hq
  . exact h.stopped_dropped .probe nofun
  . intro y q hq
    cases y with
    | nobody | constructor | probe => cases hq
    | ffmpeg => exact h.disposed .ffmpeg q hq
    | probing => exact h.disposed .probing q hq

theorem runs_unlessNull (hz : z ≠ .constructor) (hz' : z ≠ .nobody) {use : FfmpegChild → Video Unit}
    (huse : ∀ p, Runs X (fun s => Stage x s ∧ objectOf z s = some p) (use p)
      fun _ => Within (After z x))
    : Runs X (Stage x) (unlessNull (objectOf z) use) fun _ => Within (After z x) := by
  apply runs_bind runs_inspect
  intro t
  cases hobject : objectOf z t with
  | some p =>
    apply (huse p).pre
    rintro s ⟨rfl, h⟩
    exact ⟨h, hobject⟩
  | none =>
    apply triple_pure
    rintro s ⟨rfl, h⟩
    by_cases hx : x = z
    . subst hx
      exact ⟨.nobody, ⟨hz'.symm, .inr rfl⟩, h.nobody_of_none hz hobject⟩
    . exact ⟨x, ⟨hx, .inl rfl⟩, h⟩

variable {v : StreamRequest} {enableAudio : Bool} {mode : VideoOutputMode}

theorem runs_startCodecProbe
    : Runs Outside (Stage .nobody) (startCodecProbe v enableAudio) fun _ => Stage .probe := by
  apply triple_rescue (D := fun _ => Within fun _ => True)
  . apply runs_bind (runs_newFfmpegProcess trivial trivial fun _ _ hp h => stage_setProbing h hp)
    intro _
    apply runs_bind (runs_log trivial)
    intro _
    apply runs_bind (runs_sessionStart trivial)
    intro _
    apply runs_bind (runs_statement trivial)
    intro _
    apply runs_bind
      (runs_bind (runs_deref trivial) fun p => runs_readInitial trivial stores_probing)
    intro initialMp4
    apply runs_bind (runs_log trivial)
    intro _
    apply runs_bind (runs_deref trivial)
    intro p
    apply triple_bind (R := fun _ => Stage .probe)
    . exact triple_update fun s h => stage_probed h.1 h.2 initialMp4
    . exact fun _ => triple_pure fun _ => id
  . intro e
    apply runs_within
    intro x _
    apply triple_bind (R := fun _ => Within (After .probing x))
    . have hdispose : Runs (After .probing x) (Stage x)
          (unlessNull VideoRun.probing fun p => dispose p setProbing)
          fun _ => Within (After .probing x) :=
        runs_unlessNull (z := .probing) nofun nofun fun p => runs_dispose stores_probing fun _ => id
      exact hdispose.conseq (fun _ => id) (fun _ _ => id) (fun _ _ h => h.mono fun _ => And.left)
        fun _ => id
    . intro _
      apply runs_within
      exact fun y hy => runs_raise hy.1

theorem runs_detectCodec
    : Runs Outside (Stage .nobody) (detectCodec v enableAudio) fun _ => Stage .probe := by
  apply runs_bind (runs_statement nofun)
  intro cached
  cases cached.codec with
  | some codec => exact runs_bind (runs_log nofun) fun _ => triple_pure fun _ h => h.of_nobody _
  | none =>
    apply runs_bind runs_inspect
    intro t
    cases t.session with
    | none => exact triple_raise fun s h => ⟨.nobody, nofun, h.2⟩
    | some session =>
      apply triple_ite
      . intro _
        apply runs_bind (runs_startCodecProbe.pre fun _ => And.right)
        intro codec
        exact runs_bind (runs_statement nofun) fun _ => triple_pure fun _ => id
      . intro _
        apply runs_bind ((runs_statement nofun).pre fun _ => And.right)
        intro _
        exact runs_bind (runs_log nofun) fun _ => triple_pure fun _ h => h.of_nobody _

theorem runs_startOutput
    : Runs Outside (Stage .nobody) (startOutput v enableAudio mode) fun _ => Stage .ffmpeg := by
  apply runs_bind (runs_newFfmpegProcess nofun nofun fun _ _ hp h => stage_assignFfmpeg h hp)
  intro _
  apply runs_bind (runs_statement nofun)
  intro _
  exact runs_bind (runs_deref nofun) fun p => runs_readInitial nofun stores_ffmpeg

theorem runs_self {P : VideoRun → Prop} {m : Video α} (h : Runs X P m fun _ => Within (After z z))
    : Runs X P m fun _ => Stage .nobody := by
  apply h.conseq (fun _ => id) _ (fun _ _ => id) fun _ => id
  rintro _ s ⟨y, hy, h⟩
  rw [hy.eq_nobody] at h
  exact h

theorem outside_of_after (h : After z z y) : Outside y := by
  rw [h.eq_nobody]
  exact nofun

theorem runs_stopNow {store : FfmpegChild → VideoRun → VideoRun} (hstore : Stores z store)
    {p : FfmpegChild} {immediate : Bool}
    : Runs Outside (fun s => Stage z s ∧ objectOf z s = some p) (stopProcess p immediate store)
        fun _ => Stage .nobody := by
  apply runs_self (z := z)
  exact (runs_stopProcess hstore fun _ => outside_of_after).pre
    fun _ h => ⟨⟨h.1.toAtMost, fun y _ => h.1.disposed y⟩, h.2⟩

theorem runs_disposeNow {store : FfmpegChild → VideoRun → VideoRun} (hstore : Stores z store)
    {p : FfmpegChild}
    : Runs Outside (fun s => Stage z s ∧ objectOf z s = some p) (dispose p store)
        fun _ => Stage .nobody :=
  runs_self (z := z) (runs_dispose hstore fun _ => outside_of_after)

theorem runs_unlessNull_self {use : FfmpegChild → Video Unit} (hz : z ≠ .constructor)
    (huse : ∀ p, Runs X (fun s => Stage z s ∧ objectOf z s = some p) (use p) fun _ => Stage .nobody)
    : Runs X (Stage z) (unlessNull (objectOf z) use) fun _ => Stage .nobody := by
  apply runs_bind runs_inspect
  intro t
  cases hobject : objectOf z t with
  | some p =>
    apply (huse p).pre
    rintro s ⟨rfl, h⟩
    exact ⟨h, hobject⟩
  | none =>
    apply triple_pure
    rintro s ⟨rfl, h⟩
    exact h.nobody_of_none hz hobject

theorem runs_stopProbe : Runs Outside (Stage .probe) stopProbe fun _ => Stage .nobody := by
  apply runs_bind runs_inspect
  intro t
  apply triple_ite
  . intro _
    have hstop : Runs Outside (Stage .probe)
        (unlessNull VideoRun.probeFfmpeg fun p => stopProcess p true setProbe)
        fun _ => Stage .nobody :=
      runs_unlessNull_self (z := .probe) nofun fun _ => runs_stopNow stores_probe
    have hdispose : Runs Outside (Stage .probe)
        (unlessNull VideoRun.probeFfmpeg fun p => dispose p setProbe) fun _ => Stage .nobody :=
      runs_unlessNull_self (z := .probe) nofun fun _ => runs_disposeNow stores_probe
    apply runs_bind (hstop.pre fun _ => And.right)
    intro _
    apply runs_bind (hdispose.pre fun _ h => h.of_nobody .probe)
    intro _
    apply triple_bind (R := fun _ => Stage .nobody)
    . exact triple_update fun _ => stage_dropProbe
    . exact fun _ => runs_log nofun
  . intro hnone
    apply triple_pure
    rintro s ⟨rfl, h⟩
    apply h.nobody_of_none nofun
    rw [objectOf, VideoRun.probeFfmpeg, Option.not_isSome_iff_eq_none.mp hnone]
    rfl

theorem runs_startSession (hx : X x) : Runs X (Stage x) startSession fun _ => Stage x := by
  apply runs_bind runs_inspect
  intro t
  apply triple_ite
  . exact fun _ => triple_pure fun _ => And.right
  . exact fun _ => (runs_sessionStart hx).pre fun _ => And.right

theorem runs_firstOutput
    : Runs Outside (Stage .probe) (firstOutput v enableAudio mode) fun _ => Stage .ffmpeg := by
  apply runs_bind runs_inspect
  intro t
  have hnew : Runs Outside (fun s => s = t ∧ Stage .probe s)
      (do
        stopProbe
        log
        startSession
        startOutput v enableAudio mode) fun _ => Stage .ffmpeg := by
    apply runs_bind (runs_stopProbe.pre fun _ => And.right)
    intro _
    apply runs_bind (runs_log nofun)
    intro _
    apply runs_bind (runs_startSession nofun)
    exact fun _ => runs_startOutput
  cases mode with
  | H264Transcode => exact hnew
  | Copy =>
    cases hprobe : t.probe with
    | none =>
      simp only
      exact hnew
    | some probe =>
      simp only
      apply triple_bind (R := fun _ => Stage .ffmpeg)
      . apply triple_update
        rintro s ⟨rfl, h⟩
        exact stage_takeProbe h hprobe
      . exact fun _ => runs_bind (runs_log nofun) fun _ => triple_pure fun _ => id

theorem runs_correctOutput (initialMp4 : Bytes)
    : Runs Outside (Stage .ffmpeg) (correctOutput v enableAudio mode initialMp4)
        fun _ => Stage .ffmpeg := by
  apply runs_bind (runs_deref nofun)
  intro p
  apply triple_ite
  . intro _
    apply runs_bind (runs_of_keeps (fun _ => keeps_log) nofun fun _ => And.left)
    intro _
    apply runs_bind (runs_of_keeps (fun _ => keeps_statement) nofun fun _ => And.left)
    intro _
    apply runs_bind (runs_stopNow stores_ffmpeg)
    intro _
    apply runs_bind ((runs_deref (x := .ffmpeg) nofun).pre fun _ h => h.of_nobody .ffmpeg)
    intro q
    apply runs_bind (runs_disposeNow stores_ffmpeg)
    exact fun _ => runs_startOutput
  . exact fun _ => triple_pure fun _ => And.left

theorem runs_write (hx : X x) (data : Bytes) : Runs X (Stage x) (write data) fun _ => Stage x := by
  apply runs_bind (runs_statement hx)
  intro _
  apply triple_bind (R := fun _ => Stage x)
  . exact triple_update fun _ h => { h with }
  . exact fun _ => runs_bind (runs_statement hx) fun _ => triple_pure fun _ => id

theorem stage_delivered {data : Bytes} (h : Stage .ffmpeg s) : Stage .ffmpeg (delivered data s) := by
  have hdelivered : delivered data s
      = { s with ffmpeg := s.ffmpeg.map fun p => { p with output := p.output ++ data } } := rfl
  rw [hdelivered]
  cases hffmpeg : s.ffmpeg with
  | none =>
    have hsame : ({ s with ffmpeg := none } : VideoRun) = s := by rw [← hffmpeg]
    exact hsame.symm ▸ h
  | some p => exact h.replaced stores_ffmpeg hffmpeg (h.disposed .ffmpeg p hffmpeg)

theorem runs_transmitRound (round : Unit)
    : Runs Outside (Stage .ffmpeg) (transmitRound round) fun _ => Stage .ffmpeg := by
  apply triple_bind (R := fun _ => Stage .ffmpeg)
  . exact triple_ask (fun _ h => ⟨.ffmpeg, h.toAtMost⟩) fun _ _ => id
  . intro a
    apply triple_ite
    . exact fun _ => triple_pure fun _ => id
    . intro _
      apply runs_bind (runs_statement nofun)
      intro read
      apply triple_ite
      . intro _
        apply runs_bind runs_inspect
        intro t
        apply triple_bind (R := fun _ => Stage .ffmpeg)
        . exact triple_update fun _ h => { h.2 with }
        . exact fun _ => triple_pure fun _ => id
      . intro _
        apply triple_bind (R := fun _ => Stage .ffmpeg)
        . exact triple_update fun _ => stage_delivered
        . exact fun _ => runs_bind (runs_write nofun _) fun _ => triple_pure fun _ => id

theorem runs_transmit (initialMp4 : Bytes)
    : Runs Outside (Stage .ffmpeg) (transmit v initialMp4) fun _ => Stage .ffmpeg := by
  apply runs_bind (runs_log nofun)
  intro _
  apply triple_bind (R := fun _ => Stage .ffmpeg)
  . exact triple_update fun _ h => { h with }
  intro _
  apply runs_bind (runs_deref nofun)
  intro p
  apply runs_bind (runs_of_keeps (fun _ => keeps_statement) nofun fun _ => And.left)
  intro a
  apply triple_bind (R := fun _ => Stage .ffmpeg)
  . exact triple_update fun _ h => h.1.replaced stores_ffmpeg h.2 (h.1.disposed .ffmpeg p h.2)
  intro _
  apply triple_bind (R := fun _ => Stage .ffmpeg)
  . exact triple_update fun _ h => { h with }
  intro _
  apply runs_bind (runs_write nofun initialMp4)
  intro _
  apply triple_iterate (I := fun _ => Stage .ffmpeg) (fun _ _ h => ⟨.ffmpeg, h.toAtMost⟩)
  intro round
  apply (runs_transmitRound round).conseq (fun _ => id) _ (fun _ _ => id) fun _ => id
  intro r s h
  cases r <;> exact h

theorem runs_body : Runs Outside (Stage .nobody) (body v enableAudio) fun _ => Within Outside := by
  apply runs_bind (runs_statement nofun)
  intro _
  apply triple_bind (R := fun _ => Stage .nobody)
  . exact triple_update fun _ h => { h with }
  intro _
  have hprepare : Runs Outside (Stage .nobody) prepare fun _ => Stage .nobody :=
    runs_bind (runs_of_keeps (x := .nobody) (fun _ => keeps_bridgeStatement) nofun fun _ => id)
      fun _ => triple_update fun _ h => { h with }
  apply runs_bind hprepare
  intro _
  apply runs_bind runs_detectCodec
  intro codec
  apply runs_bind (runs_log nofun)
  intro _
  apply runs_bind runs_firstOutput
  intro initialMp4
  apply runs_bind (runs_correctOutput initialMp4)
  intro initialMp4
  apply (runs_transmit initialMp4).conseq (fun _ => id) _ (fun _ _ => id) fun _ => id
  exact fun _ s h => ⟨.ffmpeg, nofun, h⟩

theorem runs_catches (e : Thrown)
    : Runs Outside (Within Outside) (catches e) fun _ => Within Outside := by
  apply runs_within
  intro x hx
  have hset : ∀ reason message,
      Runs Outside (Stage x) (update (setEnd reason message)) fun _ => Stage x :=
    fun _ _ => triple_update fun _ h => { h with }
  apply triple_ite
  . intro _
    apply runs_bind (hset _ _)
    intro _
    exact (runs_log hx).conseq (fun _ => id) (fun _ _ h => ⟨x, hx, h⟩) (fun _ _ => id) fun _ => id
  . intro _
    cases e with
    | bridge error => exact runs_bind (hset _ _) fun _ => runs_raise hx
    | httpListener | io | ioBecause | objectDisposed | other => exact runs_raise hx

structure Cleaned (s : VideoRun) : Prop where
  stopped : ∀ p ∈ s.children, p.processStopped = true
  session : ∀ session ∈ s.session, session.disposed = true

theorem AtMost.children_stopped (h : AtMost x s) (hx : ∀ s, objectOf x s = none)
    : ∀ p ∈ s.children, p.processStopped = true := by
  intro p hp
  rcases List.mem_append.mp hp with hp | hp
  . exact h.stopped_of_objectless hx (y := .probing) (Option.mem_toList.mp hp)
  rcases List.mem_append.mp hp with hp | hp
  . exact h.stopped_of_objectless hx (y := .probe) (Option.mem_toList.mp hp)
  rcases List.mem_append.mp hp with hp | hp
  . exact h.stopped_of_objectless hx (y := .ffmpeg) (Option.mem_toList.mp hp)
  . exact h.dropped p hp

theorem runs_finish (hx : Outside x)
    : Runs (fun _ => True) (Stage x) finish fun _ => Cleaned := by
  apply triple_bind (R := fun _ => Stage x)
  . exact triple_ask (fun _ h => ⟨x, h.toAtMost⟩) fun _ _ => id
  intro a
  apply triple_bind (R := fun _ => Stage x)
  . apply triple_update
    intro s h
    split
    . exact { h with }
    . exact h
  intro _
  apply triple_bind (R := fun _ => Stage x)
  . exact triple_update fun _ h => { h with }
  intro _
  apply runs_bind (runs_log trivial)
  intro _
  have hprobe : Runs (fun _ => True) (Stage x)
      (unlessNull VideoRun.probeFfmpeg fun p => dispose p setProbe) fun _ => Within (After .probe x) :=
    runs_unlessNull (z := .probe) nofun nofun fun p => runs_dispose stores_probe fun _ _ => trivial
  apply runs_bind hprobe
  intro _
  apply runs_within
  intro y hy
  have hffmpeg : Runs (fun _ => True) (Stage y)
      (unlessNull VideoRun.ffmpeg fun p => dispose p setFfmpeg) fun _ => Within (After .ffmpeg y) :=
    runs_unlessNull (z := .ffmpeg) nofun nofun fun p => runs_dispose stores_ffmpeg fun _ _ => trivial
  apply runs_bind hffmpeg
  intro _
  apply runs_within
  intro z hz
  have hnone : ∀ s, objectOf z s = none := by
    rcases hz with ⟨hz, rfl | rfl⟩
    . rcases hy with ⟨hy, rfl | rfl⟩
      . intro s
        cases z with
        | nobody | constructor => rfl
        | probing => exact absurd rfl hx
        | probe => exact absurd rfl hy
        | ffmpeg => exact absurd rfl hz
      . exact fun _ => rfl
    . exact fun _ => rfl
  apply triple_bind (R := fun _ s => Stage z s ∧ ∀ session ∈ s.session, session.disposed = true)
  . apply triple_update
    intro s h
    refine ⟨{ h with }, fun session hsession => ?_⟩
    obtain ⟨_, _, rfl⟩ := Option.mem_map.mp hsession
    rfl
  intro _
  apply (runs_of_keeps (X := fun _ => True) (x := z) (fun _ => keeps_log) trivial
    fun _ => And.left).conseq (fun _ => id) _ (fun _ _ => id) fun _ => id
  rintro _ s ⟨h, hsession⟩
  exact ⟨h.children_stopped hnone, hsession⟩

theorem AtMost.count_le (h : AtMost x s)
    : s.children.countP (fun p => !p.processStopped) + s.starting.toNat ≤ 1 := by
  have hdropped : s.dropped.countP (fun p => !p.processStopped) = 0 := by
    apply List.countP_eq_zero.mpr
    intro p hp
    simp [h.dropped p hp]
  have hothers : ∀ y, y ≠ x → (objectOf y s).toList.countP (fun p => !p.processStopped) = 0 := by
    intro y hy
    apply List.countP_eq_zero.mpr
    intro p hp
    simp [h.stopped y hy p (Option.mem_toList.mp hp)]
  have hone : ∀ y, (objectOf y s).toList.countP (fun p => !p.processStopped) ≤ 1 := by
    intro y
    refine Nat.le_trans List.countP_le_length ?_
    cases objectOf y s <;> simp
  unfold VideoRun.children
  simp only [List.countP_append, hdropped]
  cases x with
  | nobody | constructor =>
    rw [hothers .probing nofun, hothers .probe nofun, hothers .ffmpeg nofun]
    cases s.starting <;> simp
  | probing =>
    have := hone .probing
    rw [hothers .probe nofun, hothers .ffmpeg nofun, h.starting nofun]
    simpa using this
  | probe =>
    have := hone .probe
    rw [hothers .probing nofun, hothers .ffmpeg nofun, h.starting nofun]
    simpa using this
  | ffmpeg =>
    have := hone .ffmpeg
    rw [hothers .probing nofun, hothers .probe nofun, h.starting nofun]
    simpa using this

/--
What is left of a request: no session of the registry, and no child and no login unless a statement of
the `finally` block has thrown.
-/
structure Released (s : VideoRun) : Prop where
  slot : s.slotHeld = false
  children : s.cleanupThrew = false → ∀ p ∈ s.children, p.child ≠ .running
  session : s.cleanupThrew = false → ∀ session ∈ s.session, session.disposed = true

theorem triple_try
    : Triple (Stage .nobody)
        (ensuring (rescue (body v enableAudio) catches)
          (rescue finish fun e => do
            update fun s => { s with cleanupThrew := true }
            raise e))
        (fun _ s => s.cleanupThrew = false → Cleaned s) (fun _ s => s.cleanupThrew = false → Cleaned s)
        Somewhere := by
  have hfinish : Triple (Within Outside)
      (rescue finish fun e => do
        update fun s => { s with cleanupThrew := true }
        raise e)
      (fun _ s => s.cleanupThrew = false → Cleaned s) (fun _ s => s.cleanupThrew = false → Cleaned s)
      Somewhere := by
    apply triple_rescue (D := fun _ _ => True)
    . apply Triple.exists
      intro x
      apply Triple.given
      intro hx
      exact (runs_finish hx).conseq (fun _ => id) (fun _ _ h _ => h) (fun _ _ _ => trivial) fun _ => id
    . intro e
      apply triple_bind (R := fun _ s => s.cleanupThrew = true)
      . exact triple_update fun _ _ => rfl
      . intro _
        apply triple_raise
        intro s h hfalse
        rw [hfalse] at h
        cases h
  have hbody : Triple (Stage .nobody) (rescue (body v enableAudio) catches)
      (fun _ => Within Outside) (fun _ => Within Outside) Somewhere :=
    triple_rescue runs_body runs_catches
  exact triple_ensuring hbody (fun _ => hfinish) fun _ => hfinish

theorem stage_fresh : Stage .nobody ({} : VideoRun) where
  starting _ := rfl
  stopped y _ p hp := by
    cases y <;> cases hp
  dropped := nofun
  disposed y p hp := by
    cases y <;> cases hp

theorem released_fresh : Released {} where
  slot := rfl
  children _ := nofun
  session _ := nofun

theorem triple_release
    : Triple (fun s => s.cleanupThrew = false → Cleaned s)
        (update fun s => { s with slotHeld := false } : Video Unit) (fun _ => Released)
        (fun _ => Released) Somewhere := by
  apply triple_update
  intro s h
  exact {
    slot := rfl
    children := fun hc p hp => p.ended ((h hc).stopped p hp)
    session := fun hc => (h hc).session }

end Stages

end NetBridge
end HikBridge
