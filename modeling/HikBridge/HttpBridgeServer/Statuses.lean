import HikBridge.HttpBridgeServer.HandleVideo

/-!
This module contains what the status registry of the C# bridge is told of a video request, one call after
the other, and that its slot is given back.
-/

namespace HikBridge
namespace NetBridge

open Program

structure Books where
  slotHeld : Bool
  statuses : List StatusCall
  endReason : String
  endMessage : String
  response : Option VideoResponse
  cleanupThrew : Bool

def VideoRun.books (s : VideoRun) : Books :=
  ⟨s.slotHeld, s.statuses, s.endReason, s.endMessage, s.response, s.cleanupThrew⟩

def LeavesBooks {α : Type} (m : Video α) : Prop := ∀ J : Books → Prop, Keeps (fun s => J s.books) m

section Books

variable {α β : Type} {m : Video α}

theorem leaves_bind {m : Video β} {f : β → Video α} (hm : LeavesBooks m) (hf : ∀ b, LeavesBooks (f b))
    : LeavesBooks (m >>= f) :=
  fun J => keeps_bind (hm J) fun b => hf b J

theorem leaves_pure {value : α} : LeavesBooks (pure value) := fun _ => keeps_pure

theorem leaves_raise {e : Thrown} : LeavesBooks (raise e : Video α) := fun _ => keeps_raise

theorem leaves_statement : LeavesBooks statement := fun _ => keeps_statement

theorem leaves_log : LeavesBooks log := fun _ => keeps_log

theorem leaves_bridgeStatement : LeavesBooks bridgeStatement := fun _ => keeps_bridgeStatement

theorem leaves_inspect : LeavesBooks inspect := fun _ => keeps_inspect

theorem leaves_ask : LeavesBooks ask := fun _ => keeps_ask

theorem leaves_update {f : VideoRun → VideoRun} (h : ∀ s, (f s).books = s.books)
    : LeavesBooks (update f) := by
  intro J
  apply keeps_update
  intro s hs
  rw [h]
  exact hs

theorem leaves_ite {c : Prop} [Decidable c] {n : Video α} (hthen : LeavesBooks m)
    (helse : LeavesBooks n) : LeavesBooks (if c then m else n) :=
  fun J => keeps_ite (hthen J) (helse J)

theorem leaves_rescue {handler : Thrown → Video α} (hm : LeavesBooks m)
    (hhandler : ∀ e, LeavesBooks (handler e)) : LeavesBooks (rescue m handler) :=
  fun J => keeps_rescue (hm J) fun e => hhandler e J

theorem books_setProbing (p : FfmpegChild) (s : VideoRun) : (setProbing p s).books = s.books := rfl

theorem books_setProbe (p : FfmpegChild) (s : VideoRun) : (setProbe p s).books = s.books := rfl

theorem books_setFfmpeg (p : FfmpegChild) (s : VideoRun) : (setFfmpeg p s).books = s.books := rfl

theorem books_assignFfmpeg (p : FfmpegChild) (s : VideoRun) : (assignFfmpeg p s).books = s.books := rfl

variable {v : StreamRequest} {enableAudio : Bool} {mode : VideoOutputMode} {p : FfmpegChild}
  {store : FfmpegChild → VideoRun → VideoRun}

theorem leaves_newFfmpegProcess (hstore : ∀ p s, (store p s).books = s.books)
    : LeavesBooks (newFfmpegProcess v enableAudio mode store) := by
  apply leaves_bind leaves_statement
  intro file
  apply leaves_ite _ leaves_raise
  apply leaves_bind leaves_statement
  intro started
  apply leaves_ite _ leaves_raise
  apply leaves_bind
  . exact leaves_update fun _ => rfl
  intro _
  apply leaves_bind leaves_statement
  intro _
  apply leaves_bind leaves_log
  exact fun _ => leaves_update fun s => hstore _ _

theorem leaves_stopProcess {immediate : Bool} (hstore : ∀ p s, (store p s).books = s.books)
    : LeavesBooks (stopProcess p immediate store) := by
  apply leaves_ite leaves_pure
  apply leaves_bind leaves_ask
  intro a
  exact leaves_bind (leaves_update (hstore _)) fun _ => leaves_log

theorem leaves_dispose (hstore : ∀ p s, (store p s).books = s.books)
    : LeavesBooks (dispose p store) := by
  apply leaves_ite leaves_pure
  exact leaves_bind (leaves_update (hstore _)) fun _ => leaves_stopProcess hstore

theorem leaves_unlessNull {get : VideoRun → Option FfmpegChild} {use : FfmpegChild → Video Unit}
    (huse : ∀ p, LeavesBooks (use p)) : LeavesBooks (unlessNull get use) := by
  apply leaves_bind leaves_inspect
  intro s
  cases get s with
  | some p => exact huse p
  | none => exact leaves_pure

theorem leaves_sessionStart : LeavesBooks sessionStart :=
  leaves_bind leaves_bridgeStatement fun _ => leaves_update fun _ => rfl

theorem leaves_prepare : LeavesBooks prepare :=
  leaves_bind leaves_bridgeStatement fun _ => leaves_update fun _ => rfl

theorem leaves_deref {get : VideoRun → Option FfmpegChild} : LeavesBooks (deref get) := by
  apply leaves_bind leaves_inspect
  intro s
  cases get s with
  | some p => exact leaves_pure
  | none => exact leaves_raise

theorem leaves_readInitial (hstore : ∀ p s, (store p s).books = s.books)
    : LeavesBooks (readInitial p store) := by
  apply leaves_bind leaves_statement
  intro a
  cases hread : (p.received a).readInitialMp4 a.after [] a.reads with
  | error e =>
    simp only [hread]
    exact leaves_raise
  | ok initialMp4 =>
    simp only [hread]
    exact leaves_bind (leaves_update (hstore _)) fun _ => leaves_pure

theorem leaves_startCodecProbe : LeavesBooks (startCodecProbe v enableAudio) := by
  apply leaves_rescue
  . apply leaves_bind (leaves_newFfmpegProcess books_setProbing)
    intro _
    apply leaves_bind leaves_log
    intro _
    apply leaves_bind leaves_sessionStart
    intro _
    apply leaves_bind leaves_statement
    intro _
    apply leaves_bind (leaves_bind leaves_deref fun p => leaves_readInitial books_setProbing)
    intro initialMp4
    apply leaves_bind leaves_log
    intro _
    apply leaves_bind leaves_deref
    intro p
    apply leaves_bind
    . exact leaves_update fun _ => rfl
    . exact fun _ => leaves_pure
  . intro e
    apply leaves_bind (leaves_unlessNull fun p => leaves_dispose books_setProbing)
    exact fun _ => leaves_raise

theorem leaves_detectCodec : LeavesBooks (detectCodec v enableAudio) := by
  apply leaves_bind leaves_statement
  intro cached
  cases cached.codec with
  | some codec => exact leaves_bind leaves_log fun _ => leaves_pure
  | none =>
    apply leaves_bind leaves_inspect
    intro s
    cases s.session with
    | none => exact leaves_raise
    | some session =>
      apply leaves_ite
      . apply leaves_bind leaves_startCodecProbe
        exact fun _ => leaves_bind leaves_statement fun _ => leaves_pure
      . apply leaves_bind leaves_statement
        exact fun _ => leaves_bind leaves_log fun _ => leaves_pure

theorem leaves_startOutput : LeavesBooks (startOutput v enableAudio mode) := by
  apply leaves_bind (leaves_newFfmpegProcess books_assignFfmpeg)
  intro _
  apply leaves_bind leaves_statement
  exact fun _ => leaves_bind leaves_deref fun p => leaves_readInitial books_setFfmpeg

theorem leaves_stopProbe : LeavesBooks stopProbe := by
  apply leaves_bind leaves_inspect
  intro s
  apply leaves_ite _ leaves_pure
  apply leaves_bind (leaves_unlessNull fun p => leaves_stopProcess books_setProbe)
  intro _
  apply leaves_bind (leaves_unlessNull fun p => leaves_dispose books_setProbe)
  intro _
  apply leaves_bind
  . exact leaves_update fun _ => rfl
  . exact fun _ => leaves_log

theorem leaves_startSession : LeavesBooks startSession := by
  apply leaves_bind leaves_inspect
  exact fun _ => leaves_ite leaves_pure leaves_sessionStart

theorem leaves_firstOutput : LeavesBooks (firstOutput v enableAudio mode) := by
  apply leaves_bind leaves_inspect
  intro s
  have hnew : LeavesBooks (do
      stopProbe
      log
      startSession
      startOutput v enableAudio mode) := by
    apply leaves_bind leaves_stopProbe
    intro _
    apply leaves_bind leaves_log
    intro _
    exact leaves_bind leaves_startSession fun _ => leaves_startOutput
  cases mode with
  | H264Transcode => exact hnew
  | Copy =>
    cases s.probe with
    | none => exact hnew
    | some probe =>
      apply leaves_bind
      . exact leaves_update fun _ => rfl
      . exact fun _ => leaves_bind leaves_log fun _ => leaves_pure

theorem leaves_correctOutput (initialMp4 : Bytes)
    : LeavesBooks (correctOutput v enableAudio mode initialMp4) := by
  apply leaves_bind leaves_deref
  intro p
  apply leaves_ite _ leaves_pure
  apply leaves_bind leaves_log
  intro _
  apply leaves_bind leaves_statement
  intro _
  apply leaves_bind (leaves_stopProcess books_setFfmpeg)
  intro _
  apply leaves_bind leaves_deref
  intro q
  apply leaves_bind (leaves_dispose books_setFfmpeg)
  exact fun _ => leaves_startOutput

end Books

section Exceptions

variable {α : Type}

theorem fromFramework_ne_bridge (e : Thrown) (error : BridgeError) : fromFramework e ≠ .bridge error := by
  cases e <;> exact nofun

def ThrowsOwn (m : Video α) : Prop :=
  Triple (fun _ => True) m (fun _ _ => True) (fun e _ => ∀ error, e ≠ .bridge error) fun _ => True

theorem throwsOwn_log : ThrowsOwn log := by
  apply triple_bind (R := fun _ _ => True) _ fun _ => triple_pure fun _ => id
  apply triple_bind (R := fun _ _ => True) (triple_ask (fun _ => id) fun _ _ => id)
  intro a
  cases a.thrown with
  | none => exact triple_pure fun _ => id
  | some e => exact triple_raise fun _ _ => fromFramework_ne_bridge e

theorem throwsOwn_stopProcess {p : FfmpegChild} {immediate : Bool}
    {store : FfmpegChild → VideoRun → VideoRun} : ThrowsOwn (stopProcess p immediate store) := by
  apply triple_ite
  . exact fun _ => triple_pure fun _ => id
  . intro _
    apply triple_bind (R := fun _ _ => True) (triple_ask (fun _ => id) fun _ _ => id)
    intro a
    exact triple_bind (R := fun _ _ => True) (triple_update fun _ => id) fun _ => throwsOwn_log

theorem throwsOwn_dispose {p : FfmpegChild} {store : FfmpegChild → VideoRun → VideoRun}
    : ThrowsOwn (dispose p store) := by
  apply triple_ite
  . exact fun _ => triple_pure fun _ => id
  . intro _
    exact triple_bind (R := fun _ _ => True) (triple_update fun _ => id) fun _ => throwsOwn_stopProcess

theorem throwsOwn_unlessNull {get : VideoRun → Option FfmpegChild} {use : FfmpegChild → Video Unit}
    (huse : ∀ p, ThrowsOwn (use p)) : ThrowsOwn (unlessNull get use) := by
  apply triple_bind (R := fun _ _ => True) (triple_inspect fun _ => id)
  intro t
  cases get t with
  | some p => exact huse p
  | none => exact triple_pure fun _ => id

theorem throwsOwn_finish : ThrowsOwn finish := by
  apply triple_bind (R := fun _ _ => True) (triple_ask (fun _ => id) fun _ _ => id)
  intro a
  apply triple_bind (R := fun _ _ => True) (triple_update fun _ => id)
  intro _
  apply triple_bind (R := fun _ _ => True) (triple_update fun _ => id)
  intro _
  apply triple_bind throwsOwn_log
  intro _
  apply triple_bind (throwsOwn_unlessNull fun p => throwsOwn_dispose)
  intro _
  apply triple_bind (throwsOwn_unlessNull fun p => throwsOwn_dispose)
  intro _
  exact triple_bind (R := fun _ _ => True) (triple_update fun _ => id) fun _ => throwsOwn_log

end Exceptions

/--
A session has been made active, has perhaps been ready, and has been ended with a reason and a message as
`D` says.
-/
def EndedAs (D : String → String → Prop) (statuses : List StatusCall) : Prop :=
  ∃ more reason message queue,
    statuses = .setActive :: more ++ [.setEnded reason message queue]
      ∧ (more = [] ∨ more = [.setOutputReady]) ∧ D reason message

def Named (reason message : String) : Prop :=
  reason ≠ "active" ∧ message = netEndReasonMessage reason

def StartupFailed (reason message : String) : Prop :=
  reason = "startup_failed" ∧ message = "Bridge 建流失败"

-- The variables before the `finally` block, unless a `BridgeException` has passed.
def Unfailed (reason message : String) : Prop :=
  reason = "active" ∨ message = netEndReasonMessage reason

structure Books.Open (K : String → String → Prop) (b : Books) : Prop where
  slotHeld : b.slotHeld = true
  statuses : b.statuses = [.setActive] ∨ b.statuses = [.setActive, .setOutputReady]
  ending : K b.endReason b.endMessage

structure Books.Begun (b : Books) : Prop extends b.Open Unfailed where
  active : b.statuses = [.setActive]

structure Books.Closed (D : String → String → Prop) (b : Books) : Prop where
  slotHeld : b.slotHeld = true
  ended : EndedAs D b.statuses

section Statuses

variable {v : StreamRequest} {enableAudio : Bool} {α : Type} {D K : String → String → Prop}

theorem resolveEndReason_ne_active (s : VideoRun) (a : VideoAnswer) : resolveEndReason s a ≠ "active" := by
  have hactive : equalsIgnoreCase "active" "active" = true := by simp [equalsIgnoreCase]
  unfold resolveEndReason
  split
  . next h =>
    intro heq
    rw [heq, hactive] at h
    simp at h
  . split
    . split
      . next h =>
        intro heq
        rw [heq, hactive] at h
        cases h
      . split <;> decide
    . decide

theorem triple_begun {m : Video α} (h : LeavesBooks m)
    : Triple (fun s => s.books.Begun) m (fun _ s => s.books.Begun) (fun _ s => s.books.Open Unfailed)
        fun s => s.books.slotHeld = true :=
  (h Books.Begun).conseq (fun _ => id) (fun _ _ => id) (fun _ _ h => h.toOpen) fun _ h => h.slotHeld

theorem open_setEnd {s : VideoRun} (h : s.books.Open K) {reason message : String}
    (hending : D reason message) : (setEnd reason message s).books.Open D where
  slotHeld := h.slotHeld
  statuses := h.statuses
  ending := hending

theorem open_setOutputReady {s : VideoRun} (h : s.books.Begun)
    : ({ s with statuses := s.statuses ++ [.setOutputReady] } : VideoRun).books.Open Unfailed where
  slotHeld := h.slotHeld
  statuses := .inr (congrArg (· ++ [StatusCall.setOutputReady]) h.active)
  ending := h.ending

theorem keeps_open_write (data : Bytes) : Keeps (fun s => s.books.Open K) (write data) := by
  apply keeps_bind keeps_statement
  intro _
  apply keeps_bind
  . exact keeps_update fun s h => { h with }
  . exact fun _ => keeps_bind keeps_statement fun _ => keeps_pure

theorem keeps_open_transmitRound (round : Unit)
    : Keeps (fun s => s.books.Open Unfailed) (transmitRound round) := by
  apply keeps_bind keeps_ask
  intro a
  apply keeps_ite keeps_pure
  apply keeps_bind keeps_statement
  intro read
  apply keeps_ite
  . apply keeps_bind keeps_inspect
    intro t
    apply keeps_bind
    . exact keeps_update fun s h => open_setEnd h (.inr rfl)
    . exact fun _ => keeps_pure
  . apply keeps_bind
    . exact keeps_update fun s h => { h with }
    . exact fun _ => keeps_bind (keeps_open_write _) fun _ => keeps_pure

theorem triple_transmit_open (initialMp4 : Bytes)
    : Triple (fun s => s.books.Begun) (transmit v initialMp4) (fun _ s => s.books.Open Unfailed)
        (fun _ s => s.books.Open Unfailed) fun s => s.books.slotHeld = true := by
  apply triple_bind (triple_begun leaves_log)
  intro _
  apply triple_bind (R := fun _ s => s.books.Open Unfailed)
  . exact triple_update fun s => open_setOutputReady
  intro _
  have hrest : Keeps (fun s => s.books.Open Unfailed) (do
      let p ← deref VideoRun.ffmpeg
      let a ← statement
      update (setFfmpeg (p.received a))
      update fun s => { s with response := some { headers := videoHeaders v (p.received a) } }
      write initialMp4
      iterate transmitRound ()) := by
    apply keeps_bind (leaves_deref (Books.Open Unfailed))
    intro p
    apply keeps_bind keeps_statement
    intro a
    apply keeps_bind (leaves_update (books_setFfmpeg _) (Books.Open Unfailed))
    intro _
    apply keeps_bind
    . exact keeps_update fun s h => { h with }
    intro _
    apply keeps_bind (keeps_open_write initialMp4)
    exact fun _ => keeps_iterate keeps_open_transmitRound
  exact hrest.conseq (fun _ => id) (fun _ _ => id) (fun _ _ => id) fun _ h => h.slotHeld

theorem triple_body_open
    : Triple (fun s => s.books.Begun) (body v enableAudio) (fun _ s => s.books.Open Unfailed)
        (fun _ s => s.books.Open Unfailed) fun s => s.books.slotHeld = true := by
  apply triple_bind (triple_begun leaves_statement)
  intro _
  apply triple_bind (R := fun _ s => s.books.Begun)
  . exact triple_update fun s h => { h with }
  intro _
  apply triple_bind (triple_begun leaves_prepare)
  intro _
  apply triple_bind (triple_begun leaves_detectCodec)
  intro codec
  apply triple_bind (triple_begun leaves_log)
  intro _
  apply triple_bind (triple_begun leaves_firstOutput)
  intro initialMp4
  exact triple_bind (triple_begun (leaves_correctOutput initialMp4)) triple_transmit_open

def Thrown.Caught (e : Thrown) (b : Books) : Prop :=
  (∀ error, e = .bridge error → b.Open StartupFailed)
    ∧ ((∀ error, e ≠ .bridge error) → b.Open Unfailed)

theorem caught_of_own {e : Thrown} {b : Books} (he : ∀ error, e ≠ .bridge error) (h : b.Open Unfailed)
    : e.Caught b :=
  ⟨fun error heq => absurd heq (he error), fun _ => h⟩

theorem triple_catches_open (e : Thrown)
    : Triple (fun s => s.books.Open Unfailed) (catches e) (fun _ s => s.books.Open Unfailed)
        (fun e s => e.Caught s.books) fun s => s.books.slotHeld = true := by
  apply triple_ite
  . intro _
    apply triple_bind (R := fun _ s => s.books.Open Unfailed)
    . exact triple_update fun s h => open_setEnd h (.inr rfl)
    . intro _
      exact ((leaves_log (Books.Open Unfailed)).and throwsOwn_log).conseq (fun _ h => ⟨h, trivial⟩)
        (fun _ _ => And.left) (fun _ _ h => caught_of_own h.2 h.1) fun _ h => h.1.slotHeld
  . intro _
    cases e with
    | bridge error =>
      apply triple_bind (R := fun _ s => s.books.Open StartupFailed)
      . exact triple_update fun s h => open_setEnd h ⟨rfl, rfl⟩
      . exact fun _ => triple_raise fun _ h => ⟨fun _ _ => h, fun he => absurd rfl (he error)⟩
    | httpListener | io | ioBecause | objectDisposed | other =>
      exact triple_raise fun _ => caught_of_own nofun

theorem closed_setEnded {s : VideoRun} (h : s.books.Open D) (queue : QueueStats)
    : ({ s with
          statuses := s.statuses ++ [.setEnded s.endReason s.endMessage queue] } : VideoRun).books.Closed D where
  slotHeld := h.slotHeld
  ended := by
    cases h.statuses with
    | inl hstatuses =>
      exact ⟨[], s.endReason, s.endMessage, queue, congrArg (· ++ _) hstatuses, .inl rfl, h.ending⟩
    | inr hstatuses =>
      exact ⟨[.setOutputReady], s.endReason, s.endMessage, queue, congrArg (· ++ _) hstatuses, .inr rfl,
        h.ending⟩

theorem triple_finish_closed
    (hkept : ∀ reason message, K reason message → reason ≠ "active" → D reason message)
    (hresolved : ∀ reason message, K "active" message → reason ≠ "active"
      → D reason (netEndReasonMessage reason))
    : Triple (fun s => s.books.Open K) finish (fun _ s => s.books.Closed D)
        (fun e s => s.books.Closed D ∧ ∀ error, e ≠ .bridge error) fun s => s.books.slotHeld = true := by
  have hclosed : Triple (fun s => s.books.Open K) finish (fun _ s => s.books.Closed D)
      (fun _ s => s.books.Closed D) fun s => s.books.slotHeld = true := by
    apply triple_bind (R := fun _ s => s.books.Open K)
    . exact triple_ask (fun _ h => h.slotHeld) fun _ _ => id
    intro a
    apply triple_bind (R := fun _ s => s.books.Open D)
    . apply triple_update
      intro s h
      split
      . next hactive =>
        have hK : K s.endReason s.endMessage := h.ending
        rw [hactive] at hK
        refine open_setEnd h (hresolved _ s.endMessage hK ?_)
        split
        . decide
        . exact resolveEndReason_ne_active s a
      . next hreason => exact ⟨h.slotHeld, h.statuses, hkept _ _ h.ending hreason⟩
    intro _
    apply triple_bind (R := fun _ s => s.books.Closed D)
    . exact triple_update fun s h => closed_setEnded h _
    intro _
    have hrest : LeavesBooks (log >>= fun _ =>
        unlessNull VideoRun.probeFfmpeg (fun p => dispose p setProbe) >>= fun _ =>
        unlessNull VideoRun.ffmpeg (fun p => dispose p setFfmpeg) >>= fun _ =>
        update (fun s =>
          { s with session := s.session.map fun session => { session with disposed := true } }) >>= fun _ =>
        log) := by
      apply leaves_bind leaves_log
      intro _
      apply leaves_bind (leaves_unlessNull fun p => leaves_dispose books_setProbe)
      intro _
      apply leaves_bind (leaves_unlessNull fun p => leaves_dispose books_setFfmpeg)
      intro _
      apply leaves_bind
      . exact leaves_update fun _ => rfl
      . exact fun _ => leaves_log
    exact (hrest (Books.Closed D)).conseq (fun _ => id) (fun _ _ => id) (fun _ _ => id)
      fun _ h => h.slotHeld
  exact (hclosed.and throwsOwn_finish).conseq (fun _ h => ⟨h, trivial⟩) (fun _ _ => And.left)
    (fun _ _ => id) fun _ => And.left

theorem triple_cleanup_closed
    (hkept : ∀ reason message, K reason message → reason ≠ "active" → D reason message)
    (hresolved : ∀ reason message, K "active" message → reason ≠ "active"
      → D reason (netEndReasonMessage reason))
    : Triple (fun s => s.books.Open K)
        (rescue finish fun e => do
          update fun s => { s with cleanupThrew := true }
          raise e)
        (fun _ s => s.books.Closed D)
        (fun e s => s.books.Closed D ∧ s.books.cleanupThrew = true ∧ ∀ error, e ≠ .bridge error)
        fun s => s.books.slotHeld = true := by
  apply triple_rescue (triple_finish_closed hkept hresolved)
  intro e
  apply triple_bind (R := fun _ s =>
    s.books.Closed D ∧ s.books.cleanupThrew = true ∧ ∀ error, e ≠ .bridge error)
  . exact triple_update fun _ h => ⟨{ h.1 with }, rfl, h.2⟩
  . exact fun _ => triple_raise fun _ => id

/--
What has been told when an exception leaves `HandleVideo`. Only one of the `finally` block may take the
place of a `BridgeException`.
-/
structure Thrown.Told (e : Thrown) (cleanupThrew : Bool) (statuses : List StatusCall) : Prop where
  bridge : ∀ error, e = .bridge error → EndedAs StartupFailed statuses
  own : (∀ error, e ≠ .bridge error) →
    EndedAs Named statuses ∨ cleanupThrew = true ∧ EndedAs StartupFailed statuses

theorem told_of_own {e : Thrown} {cleanupThrew : Bool} {statuses : List StatusCall}
    (he : ∀ error, e ≠ .bridge error)
    (h : EndedAs Named statuses ∨ cleanupThrew = true ∧ EndedAs StartupFailed statuses)
    : e.Told cleanupThrew statuses :=
  ⟨fun error heq => absurd heq (he error), fun _ => h⟩

theorem triple_cleanup_unfailed
    : Triple (fun s => s.books.Open Unfailed)
        (rescue finish fun e => do
          update fun s => { s with cleanupThrew := true }
          raise e)
        (fun _ s => s.books.Closed Named)
        (fun e s => s.books.slotHeld = true ∧ e.Told s.books.cleanupThrew s.books.statuses)
        fun s => s.books.slotHeld = true := by
  apply (triple_cleanup_closed _ _).conseq (fun _ => id) (fun _ _ => id)
    (fun e s h => ⟨h.1.slotHeld, told_of_own h.2.2 (.inl h.1.ended)⟩) fun _ => id
  . exact fun reason message h hreason => ⟨hreason, h.resolve_left hreason⟩
  . exact fun reason message _ hreason => ⟨hreason, rfl⟩

theorem triple_cleanup_failed
    : Triple (fun s => s.books.Open StartupFailed)
        (rescue finish fun e => do
          update fun s => { s with cleanupThrew := true }
          raise e)
        (fun _ s => s.books.Closed StartupFailed)
        (fun e s => s.books.slotHeld = true ∧ e.Told s.books.cleanupThrew s.books.statuses)
        fun s => s.books.slotHeld = true := by
  apply (triple_cleanup_closed _ _).conseq (fun _ => id) (fun _ _ => id)
    (fun e s h => ⟨h.1.slotHeld, told_of_own h.2.2 (.inr ⟨h.2.1, h.1.ended⟩)⟩) fun _ => id
  . exact fun _ _ h _ => h
  . exact fun _ _ h _ => absurd h.1 (by decide)

theorem triple_try_closed
    : Triple (fun s => s.books.Begun)
        (ensuring (rescue (body v enableAudio) catches)
          (rescue finish fun e => do
            update fun s => { s with cleanupThrew := true }
            raise e))
        (fun _ s => s.books.Closed Named)
        (fun e s => s.books.slotHeld = true ∧ e.Told s.books.cleanupThrew s.books.statuses)
        fun s => s.books.slotHeld = true := by
  apply triple_ensuring (triple_rescue triple_body_open triple_catches_open)
  . exact fun _ => triple_cleanup_unfailed
  . intro e
    by_cases hbridge : ∃ error, e = .bridge error
    . obtain ⟨error, rfl⟩ := hbridge
      exact triple_cleanup_failed.conseq (fun _ h => h.1 error rfl)
        (fun _ _ h => ⟨h.slotHeld, fun _ _ => h.ended, fun he => absurd rfl (he error)⟩)
        (fun _ _ => id) fun _ => id
    . have hown : ∀ error, e ≠ .bridge error := fun error heq => hbridge ⟨error, heq⟩
      exact triple_cleanup_unfailed.conseq (fun _ h => h.2 hown)
        (fun _ _ h => ⟨h.slotHeld, told_of_own hown (.inl h.ended)⟩) (fun _ _ => id) fun _ => id

/--
A request that `Reserve` refuses leaves no trace. Any other one has given its slot back at the end, also
when the `finally` block throws, and its session has been made active and ended once, with the message
that belongs to the reason.
-/
theorem session_ended_of_handleVideo (reserve : VideoAnswer) (answers : List VideoAnswer)
    : (∀ e, reserve.thrown = some e →
        handleVideo v enableAudio {} (reserve :: answers) = (.error e, {}, answers))
      ∧ (reserve.thrown = none →
        Ends (fun _ s => s.slotHeld = false ∧ EndedAs Named s.statuses)
          (fun e s => s.slotHeld = false ∧ e.Told s.cleanupThrew s.statuses)
          (fun s => s.slotHeld = true)
          (handleVideo v enableAudio {} (reserve :: answers))) := by
  have hask : (ask : Video VideoAnswer) {} (reserve :: answers) = (.ok reserve, {}, answers) := rfl
  constructor
  . intro e he
    have hreserve : bridgeStatement {} (reserve :: answers) = (.error e, {}, answers) := by
      rw [bridgeStatement, bind_ok hask]
      simp only [he]
      rfl
    exact bind_error hreserve
  . intro hnone
    have hreserve : bridgeStatement {} (reserve :: answers) = (.ok reserve, {}, answers) := by
      rw [bridgeStatement, bind_ok hask]
      simp only [hnone]
      rfl
    rw [handleVideo, bind_ok hreserve]
    have htriple : Triple (fun s => s = ({} : VideoRun))
        (do
          update fun s => { s with slotHeld := true }
          ensuring
            (do
              update fun s => { s with statuses := s.statuses ++ [.setActive] }
              ensuring (rescue (body v enableAudio) catches)
                (rescue finish fun e => do
                  update fun s => { s with cleanupThrew := true }
                  raise e))
            (update fun s => { s with slotHeld := false }))
        (fun _ s => s.slotHeld = false ∧ EndedAs Named s.statuses)
        (fun e s => s.slotHeld = false ∧ e.Told s.cleanupThrew s.statuses)
        fun s => s.slotHeld = true := by
      apply triple_bind (R := fun _ s => s = { slotHeld := true })
      . apply triple_update
        rintro _ rfl
        rfl
      intro _
      apply triple_ensuring (K := fun _ s => s.books.Closed Named)
        (D := fun e s => s.books.slotHeld = true ∧ e.Told s.books.cleanupThrew s.books.statuses)
      . apply triple_bind (R := fun _ s => s.books.Begun)
        . apply triple_update
          rintro _ rfl
          exact ⟨⟨rfl, .inl rfl, .inl rfl⟩, rfl⟩
        . exact fun _ => triple_try_closed
      . exact fun _ => triple_update fun _ h => ⟨rfl, h.ended⟩
      . exact fun _ => triple_update fun _ h => ⟨rfl, h.2⟩
    exact htriple {} answers rfl

end Statuses

end NetBridge
end HikBridge
