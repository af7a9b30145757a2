import HikBridge.Video.Objects

/-!
This module contains the account that a session keeps of what it has acquired, and that it is right at
every point of its operations: what its user id and its handle say is what its calls of the SDK say.
-/

namespace HikBridge

open SdkCall (Balanced LoggedIn Streaming)

namespace VideoSession

-- There is no stream, and no monitor.
def Unopened (session : VideoSession) : Prop := session.handle < 0 ∧ session.monitor = false

/--
What `stop` relies on, wherever an exception was thrown: a user id and a handle are to be released if
they are not negative.
-/
inductive Accounted (option : StreamOption) (session : VideoSession) (calls : List SdkCall) : Prop where
  | released (huser : session.user < 0) (hunopened : session.Unopened) (hcalls : Balanced calls)
  | loggedIn (huser : 0 ≤ session.user) (hunopened : session.Unopened)
      (hcalls : Balanced (calls ++ [.logout session.user]))
  | streaming (hcalls : Streaming option session.user session.handle calls)

-- What `prepare` and `start_stream_and_wait_for_data` rely on, which no exception has left.
inductive Usable (option : StreamOption) (session : VideoSession) (calls : List SdkCall) : Prop where
  | new (huser : session.user < 0) (hunopened : session.Unopened) (hprepared : session.prepared = false)
      (hstarted : session.streamStarted = false) (hcalls : calls = [])
  | prepared (hunopened : session.Unopened) (hprepared : session.prepared = true)
      (hstarted : session.streamStarted = false) (hcalls : LoggedIn session.user calls)
  | started (hprepared : session.prepared = true) (hstarted : session.streamStarted = true)
      (hcalls : Streaming option session.user session.handle calls)

theorem Usable.accounted {option : StreamOption} {session : VideoSession} {calls : List SdkCall}
    (h : Usable option session calls) : Accounted option session calls := by
  cases h with
  | new huser hunopened _ _ hcalls =>
    apply Accounted.released huser hunopened
    exact .inl (.inl hcalls)
  | prepared hunopened _ _ hcalls => exact .loggedIn hcalls.1 hunopened hcalls.balanced
  | started _ _ hcalls => exact .streaming hcalls

def Monitored (A : VideoSession → List SdkCall → Prop) : Prop :=
  ∀ session calls count, A session calls → session.monitor = true →
    A session (calls ++ List.replicate count (.useHandle session.handle))

theorem streaming_monitor {option : StreamOption} {session : VideoSession} {calls : List SdkCall}
    (h : Streaming option session.user session.handle calls) (count : Nat)
    : Streaming option session.user session.handle
        (calls ++ List.replicate count (.useHandle session.handle)) := by
  apply h.append
  intro call hcall
  exact .inr (List.eq_of_mem_replicate hcall)

theorem monitored_accounted {option : StreamOption} : Monitored (Accounted option) := by
  intro session calls count h hmonitor
  cases h with
  | released _ hunopened _ => simp [hunopened.2] at hmonitor
  | loggedIn _ hunopened _ => simp [hunopened.2] at hmonitor
  | streaming hcalls => exact .streaming (streaming_monitor hcalls count)

theorem monitored_usable {option : StreamOption} : Monitored (Usable option) := by
  intro session calls count h hmonitor
  cases h with
  | new _ hunopened _ _ _ => simp [hunopened.2] at hmonitor
  | prepared hunopened _ _ _ => simp [hunopened.2] at hmonitor
  | started hprepared hstarted hcalls =>
    exact .started hprepared hstarted (streaming_monitor hcalls count)

-- A session without a monitor is not changed by one.
theorem monitored_of_unopened {A : VideoSession → List SdkCall → Prop}
    (hA : ∀ session calls, A session calls → session.monitor = false) : Monitored A := by
  intro session calls count h hmonitor
  rw [hA session calls h] at hmonitor
  contradiction

end VideoSession

namespace Heap

open VideoSession (Monitored)

variable {A B : VideoSession → List SdkCall → Prop} {n id : Nat} {h h' : Heap}

def sessionsOf (n : Nat) (h : Heap) : List VideoSession := h.sessions.filter (·.id = n)

def sdkOf (n : Nat) (h : Heap) : List SdkCall := (h.sdk.filter (·.1 = n)).map (·.2)

structure Gone (n : Nat) (h : Heap) : Prop where
  sessions : h.sessionsOf n = []
  balanced : Balanced (h.sdkOf n)
  unborn : h.fresh ≤ n → h.sdkOf n = []

-- The session `n` is alive, with `A` about it and its calls.
def Alive (A : VideoSession → List SdkCall → Prop) (n : Nat) (h : Heap) : Prop :=
  n < h.fresh ∧ ∃ session, h.sessionsOf n = [session] ∧ A session (h.sdkOf n)

def Books (A : VideoSession → List SdkCall → Prop) (n : Nat) (h : Heap) : Prop :=
  h.Gone n ∨ h.Alive A n

theorem Alive.mono (hh : h.Alive A n) (hA : ∀ session calls, A session calls → B session calls)
    : h.Alive B n := by
  obtain ⟨hlt, session, hsession, hcalls⟩ := hh
  exact ⟨hlt, session, hsession, hA session _ hcalls⟩

theorem Books.mono (hh : h.Books A n) (hA : ∀ session calls, A session calls → B session calls)
    : h.Books B n :=
  hh.imp_right fun hh => hh.mono hA

theorem Books.frame (hh : h.Books A n) (hsessions : h'.sessions = h.sessions) (hsdk : h'.sdk = h.sdk)
    (hfresh : h.fresh ≤ h'.fresh) : h'.Books A n := by
  have hof : h'.sessionsOf n = h.sessionsOf n := by simp only [sessionsOf, hsessions]
  have hcallsOf : h'.sdkOf n = h.sdkOf n := by simp only [sdkOf, hsdk]
  rcases hh with hh | ⟨hlt, session, hsession, hcalls⟩
  . left
    refine ⟨hof.trans hh.sessions, by rw [hcallsOf]; exact hh.balanced, ?_⟩
    intro hle
    rw [hcallsOf]
    exact hh.unborn (by omega)
  . right
    refine ⟨by omega, session, hof.trans hsession, ?_⟩
    rw [hcallsOf]
    exact hcalls

theorem sdkOf_monitorsCall (count : Nat)
    : (h.monitorsCall count).sdkOf n = h.sdkOf n ++
        ((h.sessionsOf n).filter (·.monitor)).flatMap fun session =>
          List.replicate count (.useHandle session.handle) := by
  have hcalls : ∀ sessions : List VideoSession,
      ((((sessions.filter (·.monitor)).flatMap fun session =>
          List.replicate count (session.id, SdkCall.useHandle session.handle)).filter
            (·.1 = n)).map (·.2))
        = ((sessions.filter (·.id = n)).filter (·.monitor)).flatMap fun session =>
            List.replicate count (.useHandle session.handle) := by
    intro sessions
    induction sessions with
    | nil => rfl
    | cons session sessions ih =>
      by_cases hid : session.id = n
      . cases hmonitor : session.monitor <;> simp_all
      . cases hmonitor : session.monitor <;> simp_all
  unfold sdkOf sessionsOf monitorsCall
  rw [List.filter_append, List.map_append, hcalls]

theorem Gone.monitorsCall (hh : h.Gone n) (count : Nat) : (h.monitorsCall count).Gone n := by
  have hcallsOf : (h.monitorsCall count).sdkOf n = h.sdkOf n := by
    rw [sdkOf_monitorsCall, hh.sessions]
    exact List.append_nil _
  constructor
  . exact hh.sessions
  . rw [hcallsOf]
    exact hh.balanced
  . rw [hcallsOf]
    exact hh.unborn

theorem Alive.monitorsCall (hA : Monitored A) (hh : h.Alive A n) (count : Nat)
    : (h.monitorsCall count).Alive A n := by
  obtain ⟨hlt, session, hsession, hcalls⟩ := hh
  refine ⟨hlt, session, hsession, ?_⟩
  rw [sdkOf_monitorsCall, hsession]
  cases hmonitor : session.monitor with
  | false => simpa [hmonitor] using hcalls
  | true => simpa [hmonitor] using hA session _ count hcalls hmonitor

theorem Books.monitorsCall (hA : Monitored A) (hh : h.Books A n) (count : Nat)
    : (h.monitorsCall count).Books A n :=
  hh.imp (fun hh => hh.monitorsCall count) fun hh => hh.monitorsCall hA count

theorem sessionsOf_mapSession (f : VideoSession → VideoSession)
    (hf : ∀ session, (f session).id = session.id)
    : (h.mapSession id f).sessionsOf n
        = if n = id then (h.sessionsOf n).map f else h.sessionsOf n := by
  unfold sessionsOf mapSession
  induction h.sessions with
  | nil => simp
  | cons session sessions ih =>
    by_cases hid : session.id = id <;> by_cases hn : n = id <;> by_cases hsn : session.id = n <;>
      simp_all

theorem sdkOf_recordSdk (call : SdkCall)
    : (h.recordSdk id call).sdkOf n = if n = id then h.sdkOf n ++ [call] else h.sdkOf n := by
  unfold sdkOf recordSdk
  by_cases hn : n = id
  . simp [hn]
  . simp [hn, Ne.symm hn]

theorem Alive.mapSession (hh : h.Alive A n) {f : VideoSession → VideoSession}
    (hf : ∀ session, (f session).id = session.id)
    (hB : ∀ session calls, A session calls → B (f session) calls) : (h.mapSession n f).Alive B n := by
  obtain ⟨hlt, session, hsession, hcalls⟩ := hh
  refine ⟨hlt, f session, ?_, hB session _ hcalls⟩
  rw [sessionsOf_mapSession f hf, if_pos rfl, hsession]
  rfl

theorem Alive.recordSdk (hh : h.Alive A n) {call : SdkCall}
    (hB : ∀ session calls, A session calls → B session (calls ++ [call])) : (h.recordSdk n call).Alive B n := by
  obtain ⟨hlt, session, hsession, hcalls⟩ := hh
  refine ⟨hlt, session, hsession, ?_⟩
  rw [sdkOf_recordSdk, if_pos rfl]
  exact hB session _ hcalls

theorem Books.mapSession (hh : h.Books A n) {f : VideoSession → VideoSession}
    (hf : ∀ session, (f session).id = session.id)
    (hB : ∀ session calls, A session calls → B (f session) calls) : (h.mapSession n f).Books B n := by
  rcases hh with hh | hh
  . left
    refine ⟨?_, hh.balanced, hh.unborn⟩
    rw [sessionsOf_mapSession f hf, if_pos rfl, hh.sessions]
    rfl
  . exact .inr (hh.mapSession hf hB)

theorem Books.recordSdk_ne (hh : h.Books A n) (hn : n ≠ id) (call : SdkCall)
    : (h.recordSdk id call).Books A n := by
  have hcallsOf : (h.recordSdk id call).sdkOf n = h.sdkOf n := by rw [sdkOf_recordSdk, if_neg hn]
  unfold Books Alive
  rw [hcallsOf]
  rcases hh with hh | hh
  . exact .inl ⟨hh.sessions, hcallsOf ▸ hh.balanced, hcallsOf ▸ hh.unborn⟩
  . exact .inr hh

theorem Books.mapSession_ne (hh : h.Books A n) (hn : n ≠ id) {f : VideoSession → VideoSession}
    (hf : ∀ session, (f session).id = session.id) : (h.mapSession id f).Books A n := by
  have hof : (h.mapSession id f).sessionsOf n = h.sessionsOf n := by
    rw [sessionsOf_mapSession f hf, if_neg hn]
  rcases hh with hh | ⟨hlt, session, hsession, hcalls⟩
  . exact .inl ⟨hof.trans hh.sessions, hh.balanced, hh.unborn⟩
  . exact .inr ⟨hlt, session, hof.trans hsession, hcalls⟩

theorem Books.newSession (hh : h.Books A n) (hA : ∀ id, A { id } []) : h.newSession.Books A n := by
  have hof : h.newSession.sessionsOf n
      = h.sessionsOf n ++ if h.fresh = n then [{ id := h.fresh }] else [] := by
    simp [sessionsOf, Heap.newSession, List.filter_cons]
  have hcallsOf : h.newSession.sdkOf n = h.sdkOf n := rfl
  have hfresh : h.newSession.fresh = h.fresh + 1 := rfl
  rcases hh with hh | ⟨hlt, session, hsession, hcalls⟩
  . by_cases hn : h.fresh = n
    . right
      refine ⟨by omega, { id := h.fresh }, ?_, ?_⟩
      . rw [hof, hh.sessions, if_pos hn]
        rfl
      . rw [hcallsOf, hh.unborn (by omega)]
        exact hA h.fresh
    . left
      refine ⟨?_, hh.balanced, fun hle => hh.unborn (by omega)⟩
      rw [hof, hh.sessions, if_neg hn]
      rfl
  . right
    refine ⟨by omega, session, ?_, hcalls⟩
    rw [hof, hsession, if_neg (by omega)]
    rfl

theorem sessionsOf_freeSession
    : (h.freeSession id).sessionsOf n = if n = id then [] else h.sessionsOf n := by
  unfold sessionsOf freeSession
  rw [List.filter_filter]
  split
  . next hn => simp [hn]
  . next hn =>
    apply List.filter_congr
    intro session _
    by_cases hsession : session.id = n <;> simp [hsession, hn]

theorem Books.freeSession (hh : h.Books A n)
    (hA : ∀ session calls, A session calls → Balanced calls) : (h.freeSession n).Gone n := by
  have hof : (h.freeSession n).sessionsOf n = [] := by rw [sessionsOf_freeSession, if_pos rfl]
  have hfresh : (h.freeSession n).fresh = h.fresh := rfl
  rcases hh with hh | ⟨hlt, session, _, hcalls⟩
  . exact ⟨hof, hh.balanced, hh.unborn⟩
  . exact ⟨hof, hA session _ hcalls, fun hle => absurd hlt (by omega)⟩

theorem Books.freeSession_ne (hh : h.Books A n) (hn : n ≠ id) : (h.freeSession id).Books A n := by
  have hof : (h.freeSession id).sessionsOf n = h.sessionsOf n := by
    rw [sessionsOf_freeSession, if_neg hn]
  rcases hh with hh | ⟨hlt, session, hsession, hcalls⟩
  . exact .inl ⟨hof.trans hh.sessions, hh.balanced, hh.unborn⟩
  . exact .inr ⟨hlt, session, hof.trans hsession, hcalls⟩

end Heap

namespace Pipeline

open Heap (Books Alive Gone)
open VideoSession (Accounted Usable Monitored Unopened)

variable {v : Setting} {n id : Nat} {α β : Type} {A B : VideoSession → List SdkCall → Prop}
  {E : Exn → Heap → Prop}

theorem stays_books_sessionAt : Stays (Books A n) (sessionAt id) := by
  apply does_peek
  intro h hh
  cases h.sessions.find? fun session => session.id = id with
  | some session => exact stays_pure
  | none =>
    apply stays_bind
    . apply stays_updateHeap
      exact fun _ hh => hh.frame rfl rfl (Nat.le_refl _)
    . intro _
      exact Program.keeps_terminate

theorem steady_books (hA : Monitored A) (hn : n ≠ id) : Steady id (Books A n) where
  sessionAt := stays_books_sessionAt
  monitorsCall count _ hh := hh.monitorsCall hA count
  recordSdk call _ hh := hh.recordSdk_ne hn call
  mapSession _ hf _ hh := hh.mapSession_ne hn hf

theorem does_sessionAt_alive
    : Does (Books A n) (sessionAt n)
        (fun session => Alive (fun now calls => now = session ∧ A now calls) n) E (Gone n) := by
  apply does_currentHeap
  intro h hh
  have hfind : (h.sessions.find? fun session => session.id = n) = (h.sessionsOf n).head? := by
    unfold Heap.sessionsOf
    rw [List.head?_filter]
  rw [hfind]
  rcases hh with hh | ⟨hlt, session, hsession, hcalls⟩
  . rw [hh.sessions]
    apply does_bind
    . apply does_updateHeap (H := Gone n)
      intro h' heq
      rw [heq]
      exact ⟨hh.sessions, hh.balanced, hh.unborn⟩
    . intro _
      exact Program.triple_terminate fun _ hh => hh
  . rw [hsession]
    apply does_pure
    intro h' heq
    rw [heq]
    exact ⟨hlt, session, hsession, rfl, hcalls⟩

theorem does_sdkCall_books (hA : Monitored A) {B : Tick → VideoSession → List SdkCall → Prop}
    {call : Tick → VideoSession → SdkCall} {keep : Tick → VideoSession → VideoSession}
    (hkeep : ∀ answer session, (keep answer session).id = session.id)
    (hB : ∀ answer session calls, A session calls →
      B answer (keep answer session) (calls ++ [call answer session]))
    : Does (Books A n) (sdkCall n call keep) (fun answer => Books (B answer) n) E (Books A n) := by
  apply does_bind (does_observe fun _ hh => hh)
  intro answer
  apply does_bind
  . exact Does.conseq does_sessionAt_alive (fun _ hh => hh) (fun _ _ hh => hh) (fun _ _ hh => hh)
      fun _ hh => .inl hh
  intro session
  let Now (now : VideoSession) (calls : List SdkCall) : Prop := now = session ∧ A now calls
  apply does_bind (R := fun _ => Alive Now n)
  . apply does_updateHeap
    intro h hh
    apply hh.monitorsCall
    exact fun now calls count hnow hmonitor => ⟨hnow.1, hA now calls count hnow.2 hmonitor⟩
  intro _
  apply does_bind (R := fun _ => Alive (B answer) n)
  . apply does_updateHeap
    intro h hh
    have hcall : (h.recordSdk n (call answer session)).Alive
        (fun now calls => B answer (keep answer now) calls) n := by
      apply hh.recordSdk
      intro now calls ⟨hnow, hcalls⟩
      rw [← hnow]
      exact hB answer now calls hcalls
    exact hcall.mapSession (hkeep answer) fun _ _ hcalls => hcalls
  . intro _
    exact does_pure fun _ hh => .inr hh

-- Calls with the user id between login and logout, and with the handle while the stream is open.
theorem stays_useUser_books (hA : Monitored A)
    (hcall : ∀ session calls, A session calls → A session (calls ++ [.useUser session.user]))
    : Stays (Books A n) (useUser n) :=
  does_sdkCall_books hA (fun _ _ => rfl) fun _ session calls h => hcall session calls h

theorem stays_useHandle_books (hA : Monitored A)
    (hcall : ∀ session calls, A session calls → A session (calls ++ [.useHandle session.handle]))
    : Stays (Books A n) (useHandle n) :=
  does_sdkCall_books hA (fun _ _ => rfl) fun _ session calls h => hcall session calls h

def Accounts (v : Setting) (n : Nat) (A : VideoSession → List SdkCall → Prop)
    (m : Program Pipeline Tick Exn α) (B : α → VideoSession → List SdkCall → Prop) : Prop :=
  Does (Books A n) m (fun a => Books (B a) n) (fun _ => Books (Accounted v.request.option) n)
    (Books (Accounted v.request.option) n)

-- Between its steps the session is accounted for.
structure Bookable (v : Setting) (A : VideoSession → List SdkCall → Prop) : Prop where
  accounted : ∀ session calls, A session calls → Accounted v.request.option session calls
  monitored : Monitored A

theorem bookable_accounted : Bookable v (Accounted v.request.option) where
  accounted _ _ h := h
  monitored := VideoSession.monitored_accounted

theorem bookable_usable : Bookable v (Usable v.request.option) where
  accounted _ _ h := h.accounted
  monitored := VideoSession.monitored_usable

theorem Stays.accounts (hA : Bookable v A) {m : Program Pipeline Tick Exn α}
    (hm : Stays (Books A n) m) : Accounts v n A m (fun _ => A) :=
  Does.conseq hm (fun _ hh => hh) (fun _ _ hh => hh) (fun _ _ hh => hh.mono hA.accounted)
    fun _ hh => hh.mono hA.accounted

theorem accounts_bind {K : β → VideoSession → List SdkCall → Prop}
    {B : α → VideoSession → List SdkCall → Prop} {m : Program Pipeline Tick Exn β}
    {f : β → Program Pipeline Tick Exn α} (hm : Accounts v n A m K)
    (hf : ∀ b, Accounts v n (K b) (f b) B) : Accounts v n A (m >>= f) B :=
  does_bind hm hf

theorem accounts_pure {value : α} {B : α → VideoSession → List SdkCall → Prop}
    (hB : ∀ session calls, A session calls → B value session calls)
    : Accounts v n A (pure value) B :=
  does_pure fun _ hh => hh.mono hB

theorem accounts_raise (hA : Bookable v A) {exn : Exn} {B : α → VideoSession → List SdkCall → Prop}
    : Accounts v n A (Program.raise exn) B :=
  does_raise fun _ hh => hh.mono hA.accounted

theorem accounts_env (hA : Bookable v A) {m : Program Env Tick Exn β}
    {f : β → Program Pipeline Tick Exn α} {B : α → VideoSession → List SdkCall → Prop}
    (hf : ∀ b, Accounts v n A (f b) B) : Accounts v n A (onEnv m >>= f) B :=
  accounts_bind (stays_onEnv.accounts hA) hf

theorem accounts_ite {c : Prop} [Decidable c] {m k : Program Pipeline Tick Exn α}
    {B : α → VideoSession → List SdkCall → Prop} (hthen : c → Accounts v n A m B)
    (helse : ¬ c → Accounts v n A k B) : Accounts v n A (if c then m else k) B :=
  does_ite hthen helse

theorem Accounts.conseq {H : VideoSession → List SdkCall → Prop} {m : Program Pipeline Tick Exn α}
    {B K : α → VideoSession → List SdkCall → Prop} (hm : Accounts v n H m K)
    (hpre : ∀ session calls, A session calls → H session calls)
    (hpost : ∀ a session calls, K a session calls → B a session calls) : Accounts v n A m B :=
  Does.conseq hm (fun _ hh => hh.mono hpre) (fun a _ hh => hh.mono (hpost a)) (fun _ _ hh => hh)
    fun _ hh => hh

theorem accounts_sessionAt {f : VideoSession → Program Pipeline Tick Exn α}
    {B : α → VideoSession → List SdkCall → Prop}
    (hf : ∀ session, Accounts v n (fun now calls => now = session ∧ A now calls) (f session) B)
    : Accounts v n A (sessionAt n >>= f) B := by
  apply does_bind (R := fun session => Books (fun now calls => now = session ∧ A now calls) n) _ hf
  exact Does.conseq does_sessionAt_alive (fun _ hh => hh) (fun _ _ hh => .inr hh) (fun _ _ hh => hh)
    fun _ hh => .inl hh

theorem accounts_mapSession {f : VideoSession → VideoSession}
    (hf : ∀ session, (f session).id = session.id)
    (hB : ∀ session calls, A session calls → B (f session) calls)
    : Accounts v n A (updateHeap fun h => h.mapSession n f) (fun _ => B) :=
  does_updateHeap fun _ hh => hh.mapSession hf hB

theorem accounts_sdkCall (hA : Bookable v A) {B : Tick → VideoSession → List SdkCall → Prop}
    {call : Tick → VideoSession → SdkCall} {keep : Tick → VideoSession → VideoSession}
    (hkeep : ∀ answer session, (keep answer session).id = session.id)
    (hB : ∀ answer session calls, A session calls →
      B answer (keep answer session) (calls ++ [call answer session]))
    : Accounts v n A (sdkCall n call keep) B :=
  Does.conseq (does_sdkCall_books hA.monitored hkeep hB) (fun _ hh => hh) (fun _ _ hh => hh)
    (fun _ _ hh => hh) fun _ hh => hh.mono hA.accounted

section Operations

structure LoginBooked (session : VideoSession) (calls : List SdkCall) : Prop where
  unopened : session.Unopened
  started : session.streamStarted = false
  calls : LoggedIn session.user calls

-- The stream is open. `prepare` was passed before.
structure StreamBooked (option : StreamOption) (session : VideoSession) (calls : List SdkCall) : Prop where
  prepared : session.prepared = true
  calls : Streaming option session.user session.handle calls

theorem monitored_login : Monitored LoginBooked :=
  VideoSession.monitored_of_unopened fun _ _ h => h.unopened.2

theorem bookable_login : Bookable v LoginBooked where
  accounted _ _ h := .loggedIn h.calls.1 h.unopened h.calls.balanced
  monitored := monitored_login

theorem bookable_stream : Bookable v (StreamBooked v.request.option) where
  accounted _ _ h := .streaming h.calls
  monitored _ _ count h _ := ⟨h.prepared, VideoSession.streaming_monitor h.calls count⟩

theorem stays_useUser_login : Stays (Books LoginBooked n) (useUser n) := by
  apply stays_useUser_books monitored_login
  intro session calls h
  exact ⟨h.unopened, h.started, h.calls.append (.inl rfl)⟩

theorem stays_useUser_stream
    : Stays (Books (StreamBooked v.request.option) n) (useUser n) := by
  apply stays_useUser_books bookable_stream.monitored
  intro session calls h
  refine ⟨h.prepared, h.calls.append ?_⟩
  intro call hcall
  exact .inl (List.mem_singleton.mp hcall)

theorem stays_useHandle_stream
    : Stays (Books (StreamBooked v.request.option) n) (useHandle n) := by
  apply stays_useHandle_books bookable_stream.monitored
  intro session calls h
  refine ⟨h.prepared, h.calls.append ?_⟩
  intro call hcall
  exact .inr (List.mem_singleton.mp hcall)

-- What is known of a session between its login and the check of the user id.
structure AnsweredLogin (answer : Tick) (session : VideoSession) (calls : List SdkCall) : Prop where
  user : session.user = answer.sdkId
  unopened : session.Unopened
  started : session.streamStarted = false
  calls : calls = [.login answer.sdkId]

theorem bookable_answeredLogin {answer : Tick} : Bookable v (AnsweredLogin answer) where
  accounted session calls h := by
    by_cases huser : session.user < 0
    . apply Accounted.released huser h.unopened
      rw [h.calls, ← h.user]
      exact .inl (.inr ⟨session.user, huser, rfl⟩)
    . have hlogin : LoggedIn session.user calls := by
        rw [h.calls, ← h.user]
        exact SdkCall.LoggedIn.login (by omega)
      exact .loggedIn hlogin.1 h.unopened hlogin.balanced
  monitored := VideoSession.monitored_of_unopened fun _ _ h => h.unopened.2

theorem AnsweredLogin.login {answer : Tick} {session : VideoSession} {calls : List SdkCall}
    (h : AnsweredLogin answer session calls) (hanswer : ¬ answer.refuses = true)
    : LoginBooked session calls := by
  refine ⟨h.unopened, h.started, ?_⟩
  rw [h.calls, ← h.user]
  apply SdkCall.LoggedIn.login
  rw [h.user]
  simp [Tick.sdkId, hanswer]

def PreparedBooked (option : StreamOption) (session : VideoSession) (calls : List SdkCall) : Prop :=
  session.prepared = true ∧ Usable option session calls

theorem accounts_prepare
    : Accounts v n (Usable v.request.option) (prepare v n)
        (fun _ => PreparedBooked v.request.option) := by
  apply accounts_env bookable_usable
  intro _
  apply accounts_sessionAt
  intro session
  apply accounts_ite
  . intro hprepared
    apply accounts_pure
    intro now calls ⟨hnow, hready⟩
    exact ⟨hnow ▸ hprepared, hready⟩
  intro hunprepared
  let Unprepared (now : VideoSession) (calls : List SdkCall) : Prop :=
    now.prepared = false ∧ Usable v.request.option now calls
  have hbookable : Bookable v Unprepared := by
    refine ⟨fun _ _ h => h.2.accounted, ?_⟩
    intro now calls count h hmonitor
    exact ⟨h.1, bookable_usable.monitored now calls count h.2 hmonitor⟩
  apply Accounts.conseq (H := Unprepared) (K := fun _ => PreparedBooked v.request.option)
  case hpre =>
    intro now calls ⟨hnow, hready⟩
    exact ⟨by simpa [hnow] using hunprepared, hready⟩
  case hpost => exact fun _ _ _ h => h
  iterate 3
    apply accounts_env hbookable
    intro _
  apply accounts_bind (K := AnsweredLogin)
  . apply accounts_sdkCall hbookable (by intros; rfl)
    intro answer now calls ⟨hprepared, hready⟩
    cases hready with
    | new _ hunopened _ hstarted hcalls => exact ⟨rfl, hunopened, hstarted, by rw [hcalls]; rfl⟩
    | prepared _ hnow _ _ => rw [hprepared] at hnow; contradiction
    | started hnow _ _ => rw [hprepared] at hnow; contradiction
  intro login
  apply accounts_env bookable_answeredLogin
  intro _
  apply accounts_ite
  . intro _
    exact accounts_raise bookable_answeredLogin
  intro hanswer
  apply Accounts.conseq (H := LoginBooked) (K := fun _ => PreparedBooked v.request.option)
  case hpre => exact fun _ _ h => h.login hanswer
  case hpost => exact fun _ _ _ h => h
  apply accounts_env bookable_login
  intro _
  apply accounts_bind (stays_useUser_login.accounts bookable_login)
  intro _
  iterate 4
    apply accounts_env bookable_login
    intro _
  apply accounts_bind
  . apply Stays.accounts bookable_login
    apply stays_readVideoStreamConfiguration stays_useUser_login
    intro codec h hh
    exact hh.mapSession (by intros; rfl) fun _ _ h => ⟨h.unopened, h.started, h.calls⟩
  intro _
  apply accounts_env bookable_login
  intro _
  apply accounts_mapSession (by intros; rfl)
  intro now calls h
  exact ⟨rfl, .prepared h.unopened rfl h.started h.calls⟩

-- What is known of a session between the call that opens its stream and the check of the handle.
structure AnsweredOpen (option : StreamOption) (answer : Tick) (session : VideoSession)
    (calls : List SdkCall) : Prop where
  prepared : session.prepared = true
  monitor : session.monitor = false
  handle : session.handle = answer.sdkId
  calls : ∃ before, LoggedIn session.user before ∧
    calls = before ++ [.openStream option session.user answer.sdkId]

theorem AnsweredOpen.stream {option : StreamOption} {answer : Tick} {session : VideoSession}
    {calls : List SdkCall} (h : AnsweredOpen option answer session calls)
    (hanswer : ¬ answer.refuses = true) : StreamBooked option session calls := by
  obtain ⟨before, hbefore, hcalls⟩ := h.calls
  refine ⟨h.prepared, ?_⟩
  rw [hcalls, h.handle]
  apply hbefore.openStream
  simp [Tick.sdkId, hanswer]

theorem bookable_answeredOpen {answer : Tick}
    : Bookable v (AnsweredOpen v.request.option answer) where
  accounted session calls h := by
    by_cases hanswer : answer.refuses = true
    . obtain ⟨before, hbefore, hcalls⟩ := h.calls
      have hhandle : answer.sdkId < 0 := by simp [Tick.sdkId, hanswer]
      have hlogin : LoggedIn session.user calls := by
        rw [hcalls]
        exact hbefore.append (.inr ⟨_, _, hhandle, rfl⟩)
      exact .loggedIn hlogin.1 ⟨h.handle ▸ hhandle, h.monitor⟩ hlogin.balanced
    . exact .streaming (h.stream hanswer).calls
  monitored := VideoSession.monitored_of_unopened fun _ _ h => h.monitor

theorem accounts_openStream
    : Accounts v n (fun session calls => session.prepared = true ∧ LoginBooked session calls)
        (openStream n v.request.option) (AnsweredOpen v.request.option) := by
  apply accounts_sdkCall
  case hA =>
    refine ⟨fun _ _ h => bookable_login.accounted _ _ h.2, ?_⟩
    exact VideoSession.monitored_of_unopened fun _ _ h => h.2.unopened.2
  case hkeep => intros; rfl
  case hB =>
    intro answer session calls h
    exact ⟨h.1, h.2.unopened.2, rfl, calls, h.2.calls, rfl⟩

-- Only a stream that was not refused is used.
theorem accounts_opened {failure : Tick → Exn} {m : Program Pipeline Tick Exn Unit}
    (hm : Accounts v n (StreamBooked v.request.option) m fun _ => StreamBooked v.request.option)
    : Accounts v n (fun session calls => session.prepared = true ∧ LoginBooked session calls)
        (do
          let answer ← openStream n v.request.option
          if answer.refuses then Program.raise (failure answer) else m)
        (fun _ => StreamBooked v.request.option) := by
  apply accounts_bind accounts_openStream
  intro answer
  apply accounts_ite
  . intro _
    exact accounts_raise bookable_answeredOpen
  . intro hanswer
    apply hm.conseq
    . exact fun _ _ h => h.stream hanswer
    . exact fun _ _ _ h => h

theorem accounts_startRealplay (hoption : v.request.option = .RealPlay)
    : Accounts v n (fun session calls => session.prepared = true ∧ LoginBooked session calls)
        (startRealplay v n) (fun _ => StreamBooked v.request.option) := by
  unfold startRealplay
  rw [← hoption]
  apply accounts_opened
  apply accounts_env bookable_stream
  intro _
  exact (stays_requestRealplayKeyframe stays_useUser_stream).accounts bookable_stream

theorem accounts_startPlayback (hoption : v.request.option = .Playback)
    : Accounts v n (fun session calls => session.prepared = true ∧ LoginBooked session calls)
        (startPlayback v n) (fun _ => StreamBooked v.request.option) := by
  unfold startPlayback
  rw [← hoption]
  apply accounts_opened
  apply accounts_bind (stays_useHandle_stream.accounts bookable_stream)
  intro callback
  apply accounts_ite
  . intro _
    exact accounts_raise bookable_stream
  intro _
  apply accounts_bind ((stays_control stays_useHandle_stream).accounts bookable_stream)
  intro _
  apply accounts_bind
    ((stays_controls stays_useHandle_stream v.speedSteps).accounts bookable_stream)
  intro _
  iterate 2
    apply accounts_env bookable_stream
    intro _
  apply accounts_mapSession (by intros; rfl)
  exact fun _ _ h => ⟨h.prepared, h.calls⟩

theorem accounts_startStream
    : Accounts v n (fun session calls => session.prepared = true ∧ LoginBooked session calls)
        (startStream v n) (fun _ => Usable v.request.option) := by
  have hbookable : Bookable v fun session calls =>
      session.prepared = true ∧ LoginBooked session calls := by
    refine ⟨fun _ _ h => bookable_login.accounted _ _ h.2, ?_⟩
    exact VideoSession.monitored_of_unopened fun _ _ h => h.2.unopened.2
  apply accounts_env hbookable
  intro _
  apply accounts_bind (K := fun _ => StreamBooked v.request.option)
  . split
    . next hoption => exact accounts_startRealplay hoption
    . next hoption => exact accounts_startPlayback hoption
  intro _
  apply accounts_bind (K := fun _ => Usable v.request.option)
  . apply accounts_mapSession (by intros; rfl)
    exact fun _ _ h => .started h.prepared rfl h.calls
  . intro _
    exact stays_onEnv.accounts bookable_usable

theorem accounts_startStreamAndWaitForData
    : Accounts v n (Usable v.request.option) (startStreamAndWaitForData v n)
        (fun _ => Usable v.request.option) := by
  have hbookable : Bookable v (PreparedBooked v.request.option) := by
    refine ⟨fun _ _ h => h.2.accounted, ?_⟩
    intro now calls count h hmonitor
    exact ⟨h.1, VideoSession.monitored_usable now calls count h.2 hmonitor⟩
  apply accounts_bind accounts_prepare
  intro _
  apply accounts_env hbookable
  intro _
  apply accounts_sessionAt
  intro session
  apply accounts_bind (K := fun _ => Usable v.request.option)
  . apply accounts_ite
    . intro _
      exact accounts_pure fun _ _ h => h.2.2
    . intro hstopped
      apply accounts_startStream.conseq
      . intro now calls ⟨hnow, hprepared, hready⟩
        cases hready with
        | new _ _ hnever _ _ => rw [hprepared] at hnever; contradiction
        | prepared hunopened _ hstarted hcalls => exact ⟨hprepared, hunopened, hstarted, hcalls⟩
        | started _ hstarted _ => rw [hnow] at hstarted; contradiction
      . exact fun _ _ _ h => h
  intro _
  apply accounts_bind (stays_waitForFirstData.accounts bookable_usable)
  intro _
  iterate 2
    apply accounts_env bookable_usable
    intro _
  apply accounts_ite
  . intro _
    exact accounts_raise bookable_usable
  . intro _
    exact stays_onEnv.accounts bookable_usable

-- The monitor is joined, and the two fields are those that the destructor has read.
structure Joined (option : StreamOption) (session now : VideoSession) (calls : List SdkCall) : Prop where
  user : now.user = session.user
  handle : now.handle = session.handle
  monitor : now.monitor = false
  accounted : Accounted option now calls

-- The stream is stopped, if there was one.
structure Stopped (option : StreamOption) (session now : VideoSession) (calls : List SdkCall) : Prop where
  user : now.user = session.user
  unopened : now.Unopened
  accounted : Accounted option now calls

-- Nothing is held any more.
structure LoggedOut (now : VideoSession) (calls : List SdkCall) : Prop where
  user : now.user < 0
  unopened : now.Unopened
  calls : Balanced calls

variable {session : VideoSession}

theorem does_joinMonitor_books
    : Does (Books (fun now calls => now = session ∧ Accounted v.request.option now calls) n)
        (joinMonitor n) (fun _ => Books (Joined v.request.option session) n) E
        (Books (Accounted v.request.option) n) := by
  apply does_bind (does_observe fun _ hh => hh.mono fun _ _ h => h.2)
  intro answer
  apply does_bind (R := fun _ =>
    Books (fun now calls => now = session ∧ Accounted v.request.option now calls) n)
  . apply does_updateHeap
    intro h hh
    apply hh.monitorsCall
    intro now calls count h hmonitor
    exact ⟨h.1, VideoSession.monitored_accounted now calls count h.2 hmonitor⟩
  intro _
  apply does_updateHeap
  intro h hh
  apply hh.mapSession (by intros; rfl)
  intro now calls ⟨hnow, haccounted⟩
  refine ⟨by rw [← hnow], by rw [← hnow], rfl, ?_⟩
  cases haccounted with
  | released huser hunopened hcalls => exact .released huser ⟨hunopened.1, rfl⟩ hcalls
  | loggedIn huser hunopened hcalls => exact .loggedIn huser ⟨hunopened.1, rfl⟩ hcalls
  | streaming hcalls => exact .streaming hcalls

theorem does_stopStream_books (hhandle : 0 ≤ session.handle)
    : Does (Books (Joined v.request.option session) n) (stopStream v n)
        (fun _ => Books (Stopped v.request.option session) n) E
        (Books (Accounted v.request.option) n) := by
  apply does_bind (R := fun _ => Books (Stopped v.request.option session) n)
  . apply Does.conseq (does_sdkCall_books (A := Joined v.request.option session)
      (B := fun _ => Stopped v.request.option session) (E := E) _ (by intros; rfl) _)
    . exact fun _ hh => hh
    . exact fun _ _ hh => hh
    . exact fun _ _ hh => hh
    . exact fun _ hh => hh.mono fun _ _ h => h.accounted
    . exact VideoSession.monitored_of_unopened fun _ _ h => h.monitor
    . intro _ now calls h
      have hclosed : (-1 : Int) < 0 := by decide
      refine ⟨h.user, ⟨hclosed, h.monitor⟩, ?_⟩
      have hopen : 0 ≤ now.handle := h.handle ▸ hhandle
      cases h.accounted with
      | released _ hunopened _ => exact absurd hunopened.1 (by omega)
      | loggedIn _ hunopened _ => exact absurd hunopened.1 (by omega)
      | streaming hcalls =>
        have hbalanced := hcalls.balanced
        obtain ⟨_, _, _, hlogin, _⟩ := hcalls
        apply Accounted.loggedIn
        . exact hlogin.1
        . exact ⟨hclosed, h.monitor⟩
        . rw [List.append_assoc]
          exact hbalanced
  . intro _
    exact does_pure fun _ hh => hh

theorem does_logout_books (huser : 0 ≤ session.user)
    : Does (Books (Stopped v.request.option session) n) (logout n) (fun _ => Books LoggedOut n) E
        (Books (Accounted v.request.option) n) := by
  apply does_bind (R := fun _ => Books LoggedOut n)
  . apply Does.conseq (does_sdkCall_books (A := Stopped v.request.option session)
      (B := fun _ => LoggedOut) (E := E) _ (by intros; rfl) _)
    . exact fun _ hh => hh
    . exact fun _ _ hh => hh
    . exact fun _ _ hh => hh
    . exact fun _ hh => hh.mono fun _ _ h => h.accounted
    . exact VideoSession.monitored_of_unopened fun _ _ h => h.unopened.2
    . intro _ now calls h
      have hclosed : (-1 : Int) < 0 := by decide
      refine ⟨hclosed, h.unopened, ?_⟩
      have hnow : 0 ≤ now.user := h.user ▸ huser
      cases h.accounted with
      | released hreleased _ _ => omega
      | loggedIn _ _ hcalls => exact hcalls
      | streaming hcalls => exact absurd hcalls.1 (by have := h.unopened.1; omega)
  . intro _
    exact does_pure fun _ hh => hh

theorem does_destroySession_books
    : Does (Books (Accounted v.request.option) n) (destroySession v n) (fun _ => Gone n) E
        (Books (Accounted v.request.option) n) := by
  have hout : ∀ now calls, LoggedOut now calls → Accounted v.request.option now calls :=
    fun _ _ h => .released h.user h.unopened h.calls
  apply does_bind (does_observe fun _ hh => hh)
  intro _
  apply does_bind (R := fun session =>
    Books (fun now calls => now = session ∧ Accounted v.request.option now calls) n)
  . exact Does.conseq does_sessionAt_alive (fun _ hh => hh) (fun _ _ hh => .inr hh)
      (fun _ _ hh => hh) fun _ hh => .inl hh
  intro session
  apply does_bind does_joinMonitor_books
  intro _
  apply does_bind (R := fun _ => Books (Stopped v.request.option session) n)
  . apply does_ite does_stopStream_books
    intro hhandle
    apply does_pure
    intro _ hh
    apply hh.mono
    intro now calls h
    have hunopened : now.Unopened := ⟨by rw [h.handle]; omega, h.monitor⟩
    exact ⟨h.user, hunopened, h.accounted⟩
  intro _
  apply does_bind (R := fun _ => Books LoggedOut n)
  . apply does_ite does_logout_books
    intro huser
    apply does_pure
    intro _ hh
    apply hh.mono
    intro now calls h
    have hnow : now.user < 0 := by rw [h.user]; omega
    refine ⟨hnow, h.unopened, ?_⟩
    cases h.accounted with
    | released _ _ hcalls => exact hcalls
    | loggedIn hlogged _ _ => omega
    | streaming hcalls => exact absurd hcalls.1 (by have := h.unopened.1; omega)
  intro _
  apply does_bind (does_onEnv_noexcept (neverRaises_logLineNoexcept v) fun _ hh => hh.mono hout)
  intro _
  exact does_updateHeap fun _ hh => hh.freeSession fun _ _ h => h.calls

end Operations

end Pipeline
end HikBridge
