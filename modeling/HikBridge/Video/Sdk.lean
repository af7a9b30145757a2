import HikBridge.Video.Basic

/-!
This module contains the calls of HCNetSDK that a session makes, and what a balanced sequence of them
looks like.
-/

namespace HikBridge

/--
A call of the SDK. `openStream` is `NET_DVR_RealPlay_V40` or `NET_DVR_PlayBackByTime_V40`, `stopStream` is
`NET_DVR_StopRealPlay` or `NET_DVR_StopPlayBack`. The other calls are known by what they are given.
-/
inductive SdkCall where
  | login (user : Int)
  | logout (user : Int)
  | openStream (option : StreamOption) (user handle : Int)
  | stopStream (option : StreamOption) (handle : Int)
  | useUser (user : Int)
  | useHandle (handle : Int)
  | getLastError
  deriving DecidableEq, Repr

namespace SdkCall

def handle? : SdkCall → Option Int
  | .stopStream _ handle | .useHandle handle => some handle
  | _ => none

def user? : SdkCall → Option Int
  | .logout user | .openStream _ user _ | .useUser user => some user
  | _ => none

-- A call while the user is logged in and no stream is open.
def WithUser (user : Int) (call : SdkCall) : Prop :=
  call = .useUser user ∨ ∃ option handle, handle < 0 ∧ call = .openStream option user handle

-- A call while the stream is open.
def WithHandle (user handle : Int) (call : SdkCall) : Prop :=
  call = .useUser user ∨ call = .useHandle handle

def LoggedIn (user : Int) (calls : List SdkCall) : Prop :=
  0 ≤ user ∧ ∃ body, (∀ call ∈ body, WithUser user call) ∧ calls = .login user :: body

def Streaming (option : StreamOption) (user handle : Int) (calls : List SdkCall) : Prop :=
  0 ≤ handle ∧ ∃ before body, LoggedIn user before ∧ (∀ call ∈ body, WithHandle user handle call) ∧
    calls = before ++ .openStream option user handle :: body

-- Nothing was acquired.
def Idle (calls : List SdkCall) : Prop := calls = [] ∨ ∃ user, user < 0 ∧ calls = [.login user]

/--
All that was acquired is released: a successful login is followed by one logout at the end, and an open
stream by one stop of its kind before it. Between the two are only calls with this user and, while it is
open, with this stream.
-/
def Balanced (calls : List SdkCall) : Prop :=
  Idle calls ∨
    ∃ user, (∃ before, LoggedIn user before ∧ calls = before ++ [.logout user]) ∨
      ∃ option handle before, Streaming option user handle before ∧
        calls = before ++ [.stopStream option handle, .logout user]

-- What is acquired can still be released, and nothing that was released was used.
def Releasable (calls : List SdkCall) : Prop := ∃ rest, Balanced (calls ++ rest)

theorem Idle.balanced {calls : List SdkCall} (h : Idle calls) : Balanced calls := .inl h

theorem LoggedIn.balanced {user : Int} {calls : List SdkCall} (h : LoggedIn user calls)
    : Balanced (calls ++ [.logout user]) :=
  .inr ⟨user, .inl ⟨calls, h, rfl⟩⟩

theorem Streaming.balanced {option : StreamOption} {user handle : Int} {calls : List SdkCall}
    (h : Streaming option user handle calls)
    : Balanced (calls ++ [.stopStream option handle, .logout user]) :=
  .inr ⟨user, .inr ⟨option, handle, calls, h, rfl⟩⟩

theorem Balanced.releasable {calls : List SdkCall} (h : Balanced calls) : Releasable calls :=
  ⟨[], by rw [List.append_nil]; exact h⟩

theorem LoggedIn.login {user : Int} (h : 0 ≤ user) : LoggedIn user [.login user] :=
  ⟨h, [], by simp, rfl⟩

theorem LoggedIn.append {user : Int} {calls : List SdkCall} {call : SdkCall} (h : LoggedIn user calls)
    (hcall : WithUser user call) : LoggedIn user (calls ++ [call]) := by
  obtain ⟨huser, body, hbody, rfl⟩ := h
  refine ⟨huser, body ++ [call], ?_, rfl⟩
  intro other hmem
  rcases List.mem_append.mp hmem with hmem | hmem
  . exact hbody other hmem
  . rw [List.mem_singleton.mp hmem]
    exact hcall

theorem LoggedIn.openStream {user handle : Int} {option : StreamOption} {calls : List SdkCall}
    (h : LoggedIn user calls) (hhandle : 0 ≤ handle)
    : Streaming option user handle (calls ++ [.openStream option user handle]) :=
  ⟨hhandle, calls, [], h, by simp, rfl⟩

theorem Streaming.append {user handle : Int} {option : StreamOption} {calls more : List SdkCall}
    (h : Streaming option user handle calls) (hmore : ∀ call ∈ more, WithHandle user handle call)
    : Streaming option user handle (calls ++ more) := by
  obtain ⟨hhandle, before, body, hbefore, hbody, rfl⟩ := h
  refine ⟨hhandle, before, body ++ more, hbefore, ?_, by simp⟩
  intro other hmem
  rcases List.mem_append.mp hmem with hmem | hmem
  . exact hbody other hmem
  . exact hmore other hmem

end SdkCall
end HikBridge
