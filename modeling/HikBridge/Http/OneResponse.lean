import HikBridge.Http.HandleConnection
import HikBridge.Video.Response

/-!
This module contains what one connection gets to see: one response or a part of it from its start, and
the runs in which the answer to an exception follows a response that had begun.
-/

namespace HikBridge.Exchange

variable {c : Server} {request : HttpRequest}

def IsResponse (c : Server) (text : Bytes) : Prop :=
  (∃ answer : Answer, text = answer.text) ∨
    ∃ stream initialMp4, ∃ chunks : List Bytes, (∀ chunk ∈ chunks, chunk ≠ []) ∧
      text = Client.videoHeaders { c.setting with request := stream } initialMp4
        ++ Chunked.encode chunks

-- What was sent is a part of one response.
def Part (c : Server) (wire : Bytes) : Prop := ∃ text, IsResponse c text ∧ wire <+: text

-- No status line was sent after a byte of a response.
def NoSecond (e : Exchange) : Prop :=
  ∀ n answer, (n, answer) ∈ e.answers → n = 0 ∨ e.world.wire.length ≤ n

structure OneResponse (c : Server) (e : Exchange) : Prop where
  part : Part c e.world.wire
  noSecond : NoSecond e

-- Every answer so far was begun on an empty wire.
structure First (c : Server) (e : Exchange) : Prop where
  part : Part c e.world.wire
  answers : ∀ n answer, (n, answer) ∈ e.answers → n = 0

theorem First.oneResponse {e : Exchange} (h : First c e) : OneResponse c e :=
  ⟨h.part, fun n answer hmem => .inl (h.answers n answer hmem)⟩

theorem part_nil : Part c [] :=
  ⟨_, .inl ⟨.preflight true, rfl⟩, List.nil_prefix⟩

theorem part_answer {answer : Answer} {wire : Bytes} (h : wire <+: answer.text) : Part c wire :=
  ⟨answer.text, .inl ⟨answer, rfl⟩, h⟩

theorem part_video {stream : StreamRequest} {w : World}
    (hheaded : World.Headed { c.setting with request := stream } w) (hbody : World.BodyExact w)
    : Part c w.wire := by
  rcases hheaded with hw | ⟨heap, o, hw⟩
  . rw [hw.wire]
    exact part_nil
  rcases hw.wire with ⟨_, _, hpart⟩ | ⟨_, hheaders, hpart⟩
  . refine ⟨_, .inr ⟨stream, o.initialMp4, [], by simp, rfl⟩, ?_⟩
    exact hpart.trans (List.prefix_append _ _)
  . rcases hbody with hnone | ⟨output, eof, _, hencodes⟩
    . rw [hheaders] at hnone
      contradiction
    . obtain ⟨chunks, hchunks, _, hframes⟩ := hencodes _ hheaders
      obtain ⟨body, hwire⟩ := hpart
      rw [← hwire, List.drop_left] at hframes
      refine ⟨_, .inr ⟨stream, o.initialMp4, chunks, hchunks, rfl⟩, ?_⟩
      rw [← hwire]
      apply (List.prefix_append_right_inj _).mpr
      rcases hframes with hframes | ⟨_, hencode⟩
      . exact hframes.trans (List.prefix_append _ _)
      . exact hencode

-- Nothing was sent or begun.
structure Blank (e : Exchange) : Prop where
  fresh : World.Fresh e.world
  silent : World.Silent e.world
  answers : e.answers = []

theorem Blank.first {e : Exchange} (h : Blank e) : First c e := by
  constructor
  . rw [h.silent.wire]
    exact part_nil
  . intro n answer hmem
    rw [h.answers] at hmem
    contradiction

theorem Blank.env {e : Exchange} (h : Blank e) (env : Env)
    : Blank { e with world := { e.world with env } } :=
  ⟨⟨h.fresh.1, h.fresh.2, h.fresh.3, h.fresh.4, h.fresh.5⟩,
    ⟨h.silent.1, h.silent.2, h.silent.3, h.silent.4⟩, h.answers⟩

-- Every end of the program leaves at most one response.
def Answers (c : Server) (P : Exchange → Prop) (m : Program Exchange Tick Exn Unit) : Prop :=
  Program.Triple P m (fun _ => First c) (fun _ => First c) (First c)

theorem keeps_onEnv {I : Exchange → Prop} {α : Type} {m : Program Env Tick Exn α}
    (hI : ∀ env e, I e → I { e with world := { e.world with env } })
    : Program.Keeps I (onEnv m) := by
  intro e ts he
  show Program.Ends _ _ _ (Program.zoom worldPart (Program.zoom World.envPart m) e ts)
  unfold Program.zoom
  rcases m (World.envPart.get (worldPart.get e)) ts with ⟨_ | _ | _, env, us⟩
  all_goals exact hI env e he

theorem blank_onEnv {α : Type} {m : Program Env Tick Exn α}
    : Program.Triple Blank (onEnv m) (fun _ => Blank) (fun _ => First c) (First c) := by
  apply (keeps_onEnv (I := Blank) fun env _ he => he.env env).conseq
  . exact fun _ he => he
  . exact fun _ _ he => he
  . exact fun _ _ he => he.first
  . exact fun _ he => he.first

theorem triple_external {f : Tick → Program Exchange Tick Exn Unit}
    (hf : ∀ tick, Answers c Blank (f tick)) : Answers c Blank (onEnv external >>= f) :=
  Program.triple_bind blank_onEnv hf

theorem answers_raise {exn : Exn} : Answers c Blank (Program.raise exn) :=
  Program.triple_raise fun _ he => he.first

theorem answers_sendAnswer {answer : Answer}
    : Answers c (fun e => e.world.wire = [] ∧ First c e) (sendAnswer c answer) := by
  let Begun (e : Exchange) : Prop := ∀ n answer, (n, answer) ∈ e.answers → n = 0
  apply Program.triple_bind (R := fun _ e => e.world.wire = [] ∧ Begun e)
  . apply Program.triple_update
    intro e ⟨hwire, hfirst⟩
    refine ⟨hwire, ?_⟩
    intro n answer hmem
    rcases List.mem_append.mp hmem with hmem | hmem
    . exact hfirst.answers n answer hmem
    . cases List.mem_singleton.mp hmem
      simp [hwire]
  . intro _
    have hsends := Program.triple_zoom (p := World.clientPart) (F := fun _ : World => True)
      (Client.sends_sendText (v := c.setting) answer.text []) fun _ _ hw => hw
    have hpart : ∀ e : Exchange, (∃ sent, sent <+: answer.text ∧ e.world.wire = [] ++ sent) →
        Begun e → First c e := by
      intro e ⟨sent, hsent, hwire⟩ hbegun
      refine ⟨?_, hbegun⟩
      rw [hwire]
      exact part_answer hsent
    apply (Program.triple_zoom (p := worldPart) (F := Begun) hsends fun _ _ he => he).conseq
    . exact fun _ he => ⟨⟨he.1, trivial⟩, he.2⟩
    . exact fun _ e he => hpart e ⟨answer.text, List.prefix_refl _, he.1.1⟩ he.2
    . exact fun _ e he => hpart e he.1.1 he.2
    . exact fun e he => hpart e he.1.1 he.2

theorem answers_blank {answer : Answer} : Answers c Blank (sendAnswer c answer) :=
  answers_sendAnswer.pre fun _ he => ⟨he.silent.wire, he.first⟩

theorem answers_ite {φ : Prop} [Decidable φ] {m n : Program Exchange Tick Exn Unit}
    (hm : Answers c Blank m) (hn : Answers c Blank n) : Answers c Blank (if φ then m else n) :=
  Program.triple_ite (fun _ => hm) fun _ => hn

theorem answers_requiredSid {f : Bytes → Program Exchange Tick Exn Unit}
    (hf : ∀ sid, Answers c Blank (f sid)) : Answers c Blank (requiredSid request >>= f) := by
  apply Program.triple_bind (R := fun _ => Blank)
  . unfold requiredSid
    split
    . exact Program.triple_raise fun _ he => he.first
    . exact Program.triple_raise fun _ he => he.first
    . exact Program.triple_pure fun _ he => he
  . exact hf

theorem answers_elapsedMs {f : Int → Program Exchange Tick Exn Unit}
    (hf : ∀ elapsed, Answers c Blank (f elapsed)) : Answers c Blank (elapsedMs request >>= f) := by
  apply Program.triple_bind (R := fun _ => Blank)
  . unfold elapsedMs
    split
    . exact Program.triple_pure fun _ he => he
    . split
      . exact Program.triple_raise fun _ he => he.first
      . apply Program.triple_ite
        . intro _
          exact Program.triple_raise fun _ he => he.first
        . intro _
          exact Program.triple_pure fun _ he => he
  . exact hf

theorem answers_cleanSessions : Answers c Blank (cleanSessions c request) := by
  apply answers_ite answers_blank
  apply answers_ite answers_raise
  apply answers_ite answers_raise
  apply answers_ite answers_raise
  apply triple_external
  intro _
  exact answers_blank

theorem answers_sessionStatus : Answers c Blank (sessionStatus c request) := by
  apply answers_requiredSid
  intro sid
  apply triple_external
  intro _
  split
  . exact answers_blank
  . exact answers_blank

theorem answers_sessionRendered : Answers c Blank (sessionRendered c request) := by
  apply answers_requiredSid
  intro sid
  apply answers_elapsedMs
  intro elapsed
  apply triple_external
  intro _
  split
  . exact answers_blank
  . apply Program.triple_bind blank_onEnv
    intro _
    exact answers_blank

theorem answers_handleVideo {stream : StreamRequest}
    : Answers c Blank (onWorld (World.handleVideo { c.setting with request := stream })) := by
  let v : Setting := { c.setting with request := stream }
  have hboth := (World.triple_handleVideo (v := v)).and (World.triple_headed (v := v))
  have hvideo : Program.Triple (fun w => World.Fresh w ∧ World.Silent w) (World.handleVideo v)
      (fun _ w => World.Headed v w ∧ World.BodyExact w)
      (fun _ w => World.Headed v w ∧ World.BodyExact w)
      fun w => World.Headed v w ∧ World.BodyExact w := by
    apply hboth.conseq
    . exact fun _ hw => ⟨hw.1, hw.1.idle, hw.2⟩
    . exact fun _ w ⟨hfinished, heap, o, hw⟩ => ⟨hw.headed, hfinished.1.body⟩
    . intro _ w ⟨hw, hheaded⟩
      rcases hw with hw | hw
      . exact ⟨hheaded, .inl hw.headers⟩
      . exact ⟨hheaded, hw.body⟩
    . exact fun w hw => ⟨hw.2, hw.1.bodyExact⟩
  let None (e : Exchange) : Prop := e.answers = []
  have hfirst : ∀ e : Exchange, (World.Headed v e.world ∧ World.BodyExact e.world) ∧ None e →
      First c e := by
    intro e ⟨⟨hheaded, hbody⟩, hnone⟩
    refine ⟨part_video hheaded hbody, ?_⟩
    intro n answer hmem
    rw [hnone] at hmem
    contradiction
  apply (Program.triple_zoom (p := worldPart) (F := None) hvideo fun _ _ he => he).conseq
  . exact fun _ he => ⟨⟨he.fresh, he.silent⟩, he.answers⟩
  . exact fun _ e he => hfirst e he
  . exact fun _ e he => hfirst e he
  . exact fun e he => hfirst e he

theorem answers_video : Answers c Blank (video c request) := by
  unfold video
  split
  . exact answers_raise
  . apply Program.triple_bind (R := fun _ => Blank)
    . apply Program.triple_update
      exact fun _ he => ⟨he.fresh, he.silent, he.answers⟩
    . intro _
      apply Program.triple_bind blank_onEnv
      intro _
      exact answers_handleVideo

theorem answers_respond : Answers c Blank (respond c request) := by
  apply triple_external
  intro _
  apply answers_ite answers_cleanSessions
  apply answers_ite answers_blank
  apply answers_ite answers_raise
  apply answers_ite
  . apply triple_external
    intro _
    exact answers_blank
  apply answers_ite answers_blank
  apply answers_ite answers_sessionStatus
  apply answers_ite answers_sessionRendered
  apply answers_ite answers_raise
  exact answers_video

/--
What the `catch` clauses must not find: an exception that they answer, with a part of a response on
the wire and `response_started` not set.
-/
structure Stalled (exn : Exn) (e : Exchange) : Prop where
  exn : exn ≠ .clientDisconnected
  wire : e.world.wire ≠ []
  responseStarted : e.world.responseStarted = false
  running : e.world.env.running = true

section Exceptions

variable {P : Exchange → Prop} {exn : Exn}

def Settles (c : Server) (P : Exchange → Prop) (m : Program Exchange Tick Exn Unit) : Prop :=
  Program.Triple P m (fun _ => OneResponse c) (fun _ => OneResponse c) (OneResponse c)

theorem settles_answerException (hP : ∀ e, P e → OneResponse c e)
    (hlog : Program.Keeps P (onEnv (logLine c.setting)))
    (hanswer : exn ≠ .clientDisconnected → ∀ answer, Settles c P (answerOnce c answer))
    : Settles c P (answerException c exn) := by
  apply Program.triple_bind (R := fun _ => P)
  . apply hlog.conseq
    . exact fun _ he => he
    . exact fun _ _ he => he
    . exact fun _ => hP
    . exact hP
  . intro _
    cases exn with
    | clientDisconnected => exact Program.triple_pure hP
    | bridge error => exact hanswer (by simp) _
    | other => exact hanswer (by simp) _

theorem settles_started {answer : Bytes → Answer}
    : Settles c (fun e => First c e ∧ e.world.responseStarted = true) (answerOnce c answer) := by
  intro e ts ⟨hfirst, hstarted⟩
  show Program.Ends _ _ _ ((if e.world.responseStarted = true then pure () else
    Program.rescue (sendAnswer c (answer e.sid)) fun _ => pure () : Program Exchange Tick Exn Unit) e ts)
  rw [if_pos hstarted]
  exact hfirst.oneResponse

theorem settles_answerOnce {answer : Bytes → Answer} (hP : ∀ e, P e → OneResponse c e)
    (h : ∀ answer, Settles c P (sendAnswer c answer)) : Settles c P (answerOnce c answer) := by
  intro e ts he
  show Program.Ends _ _ _ ((if e.world.responseStarted = true then pure () else
    Program.rescue (sendAnswer c (answer e.sid)) fun _ => pure () : Program Exchange Tick Exn Unit) e ts)
  split
  . exact hP e he
  . have hrescue : Settles c P
        (Program.rescue (sendAnswer c (answer e.sid)) fun _ => pure ()) := by
      apply Program.triple_rescue (h _)
      exact fun _ => Program.triple_pure fun _ he => he
    exact hrescue e ts he

theorem settles_blank {answer : Answer}
    : Settles c (fun e => e.world.wire = [] ∧ First c e) (sendAnswer c answer) := by
  apply answers_sendAnswer.conseq
  . exact fun _ he => he
  . exact fun _ _ he => he.oneResponse
  . exact fun _ _ he => he.oneResponse
  . exact fun _ he => he.oneResponse

theorem settles_stopped {answer : Answer}
    : Settles c (fun e => e.world.env.running = false ∧ First c e) (sendAnswer c answer) := by
  have hwire : ∀ wire, Settles c
      (fun e => e.world.env.running = false ∧ e.world.wire = wire ∧ First c e)
      (sendAnswer c answer) := by
    intro wire
    let Begun (e : Exchange) : Prop := Part c wire ∧
      ∀ n answer, (n, answer) ∈ e.answers → n = 0 ∨ wire.length ≤ n
    apply Program.triple_bind
      (R := fun _ e => (e.world.wire = wire ∧ e.world.env.running = false) ∧ Begun e)
    . apply Program.triple_update
      intro e ⟨hrunning, hwire, hfirst⟩
      refine ⟨⟨hwire, hrunning⟩, hwire ▸ hfirst.part, ?_⟩
      intro n answer hmem
      rcases List.mem_append.mp hmem with hmem | hmem
      . exact .inl (hfirst.answers n answer hmem)
      . cases List.mem_singleton.mp hmem
        simp [hwire]
    . intro _
      have hstopped := Program.triple_zoom (p := World.clientPart) (F := fun _ : World => True)
        (Client.triple_sendText_stopped (v := c.setting) (b := wire) answer.text_ne_nil)
        fun _ _ hw => hw
      have hone : ∀ e : Exchange, e.world.wire = wire ∧ Begun e → OneResponse c e := by
        intro e ⟨hwire, hpart, hanswers⟩
        rw [← hwire] at hpart hanswers
        exact ⟨hpart, hanswers⟩
      apply (Program.triple_zoom (p := worldPart) (F := Begun) hstopped fun _ _ he => he).conseq
      . exact fun _ he => ⟨⟨he.1, trivial⟩, he.2⟩
      . exact fun _ _ he => he.1.1.elim
      . exact fun _ e he => hone e ⟨he.1.1, he.2⟩
      . exact fun e he => hone e ⟨he.1.1, he.2⟩
  apply (Program.Triple.exists hwire).pre
  exact fun e he => ⟨e.world.wire, he.1, rfl, he.2⟩

theorem First.env {e : Exchange} (h : First c e) (env : Env)
    : First c { e with world := { e.world with env } } :=
  ⟨h.part, h.answers⟩

theorem keeps_log_stopped
    : Program.Keeps (fun e => e.world.env.running = false ∧ First c e)
        (onEnv (logLine c.setting)) := by
  have hlog := keeps_logLine stable_stopped c.setting
  have hworld := Program.triple_zoom (p := World.envPart) (F := fun _ : World => True) hlog
    fun _ _ hw => hw
  have hstopped := Program.triple_zoom (p := worldPart) (F := fun _ : Exchange => True) hworld
    fun _ _ he => he
  have hfirst : Program.Keeps (First c) (onEnv (logLine c.setting)) :=
    keeps_onEnv fun env _ he => he.env env
  apply (hstopped.and hfirst).conseq
  . exact fun _ he => ⟨⟨⟨he.1, trivial⟩, trivial⟩, he.2⟩
  . exact fun _ _ he => ⟨he.1.1.1, he.2⟩
  . exact fun _ _ he => ⟨he.1.1.1, he.2⟩
  . exact fun _ he => ⟨he.1.1.1, he.2⟩

theorem oneResponse_answerException {e : Exchange} (hfirst : First c e) (h : ¬ Stalled exn e)
    (rest : List Tick) : OneResponse c (answerException c exn e rest).2.1 := by
  have hdone : ∀ {P : Exchange → Prop}, Settles c P (answerException c exn) → P e →
      OneResponse c (answerException c exn e rest).2.1 :=
    fun hm he => Program.Ends.state (hm e rest he)
  by_cases hexn : exn = .clientDisconnected
  . apply hdone (P := First c) _ hfirst
    apply settles_answerException
    . exact fun _ he => he.oneResponse
    . exact keeps_onEnv fun env _ he => he.env env
    . exact fun hne => absurd hexn hne
  by_cases hstarted : e.world.responseStarted = true
  . apply hdone (P := fun e => First c e ∧ e.world.responseStarted = true) _ ⟨hfirst, hstarted⟩
    apply settles_answerException
    . exact fun _ he => he.1.oneResponse
    . exact keeps_onEnv fun env _ he => ⟨he.1.env env, he.2⟩
    . exact fun _ _ => settles_started
  by_cases hwire : e.world.wire = []
  . apply hdone (P := fun e => e.world.wire = [] ∧ First c e) _ ⟨hwire, hfirst⟩
    apply settles_answerException
    . exact fun _ he => he.2.oneResponse
    . exact keeps_onEnv fun env _ he => ⟨he.1, he.2.env env⟩
    . exact fun _ _ => settles_answerOnce (fun _ he => he.2.oneResponse) fun _ => settles_blank
  . have hrunning : e.world.env.running = false := by
      by_contra hrunning
      exact h ⟨hexn, hwire, by simpa using hstarted, by simpa using hrunning⟩
    apply hdone (P := fun e => e.world.env.running = false ∧ First c e) _ ⟨hrunning, hfirst⟩
    apply settles_answerException
    . exact fun _ he => he.2.oneResponse
    . exact keeps_log_stopped
    . exact fun _ _ => settles_answerOnce (fun _ he => he.2.oneResponse) fun _ => settles_stopped

theorem stalled_answerException {exn : Exn} {e : Exchange} (h : Stalled exn e)
    : ¬ NoSecond (answerException c exn e [quiet, quiet, quiet]).2.1 := by
  have hanswer : ∀ answer, ¬ NoSecond (answerOnce c answer e [quiet, quiet]).2.1 := by
    intro answer hsecond
    let text := (answer e.sid).text
    let client := (Client.sendText c.setting text (World.clientPart.get e.world) [quiet, quiet]).2.1
    have hclient : e.world.wire.length < client.wire.length :=
      Client.sendText_quiet (Answer.text_ne_nil _) (World.clientPart.get e.world) h.running
    have hend : (answerOnce c answer e [quiet, quiet]).2.1
        = { e with
            answers := e.answers ++ [(e.world.wire.length, answer e.sid)]
            world := World.clientPart.put client e.world } := by
      show ((if e.world.responseStarted = true then pure () else
        Program.rescue (sendAnswer c (answer e.sid)) fun _ => pure () : Program Exchange Tick Exn Unit)
          e [quiet, quiet]).2.1 = _
      rw [if_neg (by simp [h.responseStarted]), Program.rescue_ignored]
      rfl
    rw [hend] at hsecond
    have hmem := hsecond e.world.wire.length (answer e.sid) (by simp)
    have hwire := List.length_pos_iff.mpr h.wire
    have hle : client.wire.length ≤ e.world.wire.length := by
      rcases hmem with hmem | hmem
      . omega
      . exact hmem
    omega
  have hlog : onEnv (logLine c.setting) e [quiet, quiet, quiet] = (.ok (), e, [quiet, quiet]) := by
    have := logLine_quiet c.setting e.world.env [quiet, quiet]
    exact Program.zoom_ok (p := worldPart) (m := World.onEnv (logLine c.setting))
      (Program.zoom_ok (p := World.envPart) this)
  unfold answerException
  rw [Program.bind_ok hlog]
  cases exn with
  | clientDisconnected => exact absurd rfl h.exn
  | bridge error => exact hanswer _
  | other => exact hanswer _

end Exceptions

variable {ticks : List Tick}

-- `handle_connection`, where the environment answers `rest` once the `try` block has ended.
def handled (c : Server) (request : HttpRequest) (ticks rest : List Tick) : Exchange :=
  (Program.rescue (respond c request) (fun exn e _ => answerException c exn e rest) {} ticks).2.1

def Stalls (c : Server) (request : HttpRequest) (ticks : List Tick) : Prop :=
  ∃ exn, (respond c request {} ticks).1 = .error exn ∧ Stalled exn (respond c request {} ticks).2.1

theorem blank_empty : Blank {} := ⟨World.fresh_empty, World.silent_empty, rfl⟩

theorem oneResponse_handled (h : ¬ Stalls c request ticks) (rest : List Tick)
    : OneResponse c (handled c request ticks rest) := by
  have hrespond : Answers c Blank (respond c request) := answers_respond
  have hends := hrespond {} ticks blank_empty
  unfold Stalls at h
  unfold handled Program.rescue
  rcases hrun : respond c request {} ticks with ⟨_ | exn | _, e, us⟩
  all_goals rw [hrun] at hends h
  . exact First.oneResponse hends
  . exact oneResponse_answerException hends (fun hstalled => h ⟨exn, rfl, hstalled⟩) rest
  . exact First.oneResponse hends

theorem handleConnection_eq_handled
    : (handleConnection c request {} ticks).2.1
        = handled c request ticks (respond c request {} ticks).2.2 := by
  unfold handleConnection handled Program.rescue
  rcases respond c request {} ticks with ⟨_ | exn | _, e, us⟩
  . rfl
  . rfl
  . rfl

theorem not_oneResponse_handled (h : Stalls c request ticks)
    : ¬ OneResponse c (handled c request ticks [quiet, quiet, quiet]) := by
  obtain ⟨exn, hexn, hstalled⟩ := h
  intro hone
  apply stalled_answerException (c := c) hstalled
  unfold handled Program.rescue at hone
  rcases hrun : respond c request {} ticks with ⟨outcome, e, us⟩
  rw [hrun] at hone hexn
  cases hexn
  exact hone.noSecond

end HikBridge.Exchange
