import HikBridge.Handlers.CleanSessions
import HikBridge.Http.ReadHttpRequest

/-!
This module contains the choice of the endpoint for a request, and shows which requests a client has to
send to make the bridge clean its sessions.
-/

namespace HikBridge

inductive Endpoint where
  | cleanSessions
  | preflight (cleanSessions : Bool)
  | refuse (error : BridgeError)
  | health
  | version
  | sessionStatus
  | sessionRendered
  | video
  deriving DecidableEq, Repr

open Exchange in
def HttpRequest.endpoint (request : HttpRequest) : Endpoint :=
  if request.path = Bytes.lit "/cleanSessions" then
    if request.method = Bytes.lit "OPTIONS" then
      .preflight true
    else if request.method ≠ Bytes.lit "POST" then
      .refuse (methodNotAllowed "清理会话仅支持 POST 请求")
    else if request.query (Bytes.lit "apply") ≠ some (Bytes.lit "true") then
      .refuse (invalidParameter "必须明确指定 apply=true")
    else if request.headers (Bytes.lit "x-hik-cleanup") ≠ some (Bytes.lit "true") then
      .refuse (invalidParameter "缺少 X-Hik-Cleanup: true 请求头")
    else
      .cleanSessions
  else if request.method = Bytes.lit "OPTIONS" then
    .preflight false
  else if request.method ≠ Bytes.lit "GET" then
    .refuse (methodNotAllowed "仅支持 GET 请求")
  else if request.path = Bytes.lit "/healthz" ∨ request.path = Bytes.lit "/" then
    .health
  else if request.path = Bytes.lit "/version" then
    .version
  else if request.path = Bytes.lit "/session-status" then
    .sessionStatus
  else if request.path = Bytes.lit "/session-rendered" then
    .sessionRendered
  else if request.path ≠ Bytes.lit "/video" then
    .refuse ⟨404, "NOT_FOUND", "接口不存在"⟩
  else
    .video

namespace Exchange

variable (c : Server) (request : HttpRequest)

def serve : Endpoint → Program Exchange Tick Exn Unit
  | .cleanSessions => cleanSessions c request
  | .preflight cleanSessions => sendAnswer c (.preflight cleanSessions)
  | .refuse error => Program.raise (.bridge error)
  | .health => do
    let _ ← onEnv external
    sendAnswer c (.json 200 (healthBody c))
  | .version => sendAnswer c (.json 200 (versionBody c))
  | .sessionStatus => sessionStatus c request
  | .sessionRendered => sessionRendered c request
  | .video => video c request

theorem serve_of_cleanSessions (hpath : request.path = Bytes.lit "/cleanSessions")
    : serve c request request.endpoint = cleanSessions c request := by
  unfold HttpRequest.endpoint cleanSessions
  rw [if_pos hpath]
  split
  . rfl
  . next hoptions =>
    split
    . rfl
    . next hpost =>
      split
      . rfl
      . next happly =>
        split
        . rfl
        . next hheader =>
          unfold serve cleanSessions
          rw [if_neg hoptions, if_neg hpost, if_neg happly, if_neg hheader]

theorem respond_eq_serve
    : respond c request
        =
      (do
        let _ ← onEnv external
        serve c request request.endpoint) := by
  unfold respond
  congr 1
  funext _
  by_cases hpath : request.path = Bytes.lit "/cleanSessions"
  . rw [if_pos hpath, serve_of_cleanSessions c request hpath]
  . unfold HttpRequest.endpoint
    rw [if_neg hpath, if_neg hpath]
    split
    . rfl
    . split
      . rfl
      . split
        . rfl
        . split
          . rfl
          . split
            . rfl
            . split
              . rfl
              . split
                . rfl
                . rfl

end Exchange

inductive RegistryUse where
  | read
  | reserve (id : Nat) (sid : Bytes) (fd : Int) (generation : Bytes) (fault : Option ReserveFault)
  | release (id : Nat)
  | clean
  | cleanThrows (kept : Nat)

def RegistryUse.apply (use : RegistryUse) (r : SessionRegistry) : SessionRegistry :=
  match use with
  | .read => r
  | .reserve id sid fd generation fault => (r.reserve id sid fd generation fault).2
  | .release id => r.release id
  | .clean => r.clean.1
  | .cleanThrows kept => r.cleanThrows kept

def Endpoint.uses : Endpoint → RegistryUse → Bool
  | _, .read => true
  | .cleanSessions, .clean | .cleanSessions, .cleanThrows _ => true
  | .video, .reserve _ _ _ _ _ | .video, .release _ => true
  | _, _ => false

def Disturbs (r r' : SessionRegistry) : Prop :=
  r'.generation ≠ r.generation
    ∨ ∃ state ∈ r'.states, state.cancelled = true
      ∧ ∀ old ∈ r.states, old.id = state.id → old.cancelled = false

theorem not_disturbs_reserve (r : SessionRegistry) (id : Nat) (sid : Bytes) (fd : Int)
    (generation : Bytes) (fault : Option ReserveFault)
    : ¬ Disturbs r (r.reserve id sid fd generation fault).2 := by
  rcases r.reserve_cases id sid fd generation fault with ⟨hkeep, -⟩ | ⟨-, -, hreg, -⟩
  . rw [hkeep]
    rintro (h | ⟨state, hstate, hcancelled, hold⟩)
    . exact h rfl
    . rw [hold state hstate rfl] at hcancelled
      contradiction
  . rw [hreg]
    rintro (h | ⟨state, hstate, hcancelled, hold⟩)
    . exact h rfl
    . rcases List.mem_append.mp hstate with hstate | hstate
      . rw [hold state hstate rfl] at hcancelled
        contradiction
      . rw [List.mem_singleton.mp hstate] at hcancelled
        contradiction

theorem not_disturbs_release (r : SessionRegistry) (id : Nat) : ¬ Disturbs r (r.release id) := by
  rintro (h | ⟨state, hstate, hcancelled, hold⟩)
  . exact h rfl
  . rw [hold state (List.mem_of_mem_filter hstate) rfl] at hcancelled
    contradiction

theorem cleanSessions_of_disturbs {endpoint : Endpoint} {use : RegistryUse} {r : SessionRegistry}
    (huses : endpoint.uses use = true) (h : Disturbs r (use.apply r))
    : endpoint = .cleanSessions := by
  cases use with
  | read =>
    rcases h with h | ⟨state, hstate, hcancelled, hold⟩
    . exact absurd rfl h
    . rw [hold state hstate rfl] at hcancelled
      contradiction
  | reserve id sid fd generation fault => exact absurd h (not_disturbs_reserve r _ _ _ _ _)
  | release id => exact absurd h (not_disturbs_release r id)
  | clean => cases endpoint <;> first | rfl | contradiction
  | cleanThrows kept => cases endpoint <;> first | rfl | contradiction

theorem disturbs_clean {r : SessionRegistry}
    (h : r.generation = SessionRegistry.token r.epoch r.sequence) : Disturbs r r.clean.1 := by
  left
  rw [SessionRegistry.clean_generation, h]
  intro heq
  have hsequence := (SessionRegistry.token_injective heq).2
  have hone : (1 : UInt64) = 0 := by
    rw [← UInt64.add_right_inj r.sequence, hsequence, UInt64.add_zero]
  exact absurd hone (by decide)

def parameters (target : Bytes) : List (Bytes × Bytes) :=
  if 63 ∈ target then ((splitAtFirst 63 target).2.splitOn 38).map parameter else []

def headerFields (headers : Bytes) : List (Bytes × Bytes) :=
  ((Delimited.lines 10 headers).takeWhile (· != [13])).filterMap headerField

def AsksForCleanup (text : Bytes) : Prop :=
  ∃ line headers target version others,
    Search.cut crlf text = some (line, headers)
      ∧ Search.words Bytes.isSpace line = Bytes.lit "POST" :: target :: version :: others
      ∧ target.takeWhile (· != 63) = Bytes.lit "/cleanSessions"
      ∧ lastValue (Bytes.lit "apply") (parameters target) = some (Bytes.lit "true")
      ∧ lastValue (Bytes.lit "x-hik-cleanup") (headerFields headers) = some (Bytes.lit "true")

def CallsClean (rounds : List ReadRound) : Prop :=
  ∃ request, readHttpRequest rounds = some (.ok request) ∧ request.endpoint = .cleanSessions

section Asks

variable {text : Bytes} {request : HttpRequest}

theorem endpoint_eq_cleanSessions_iff
    : request.endpoint = .cleanSessions
        ↔
      request.path = Bytes.lit "/cleanSessions"
        ∧ request.method = Bytes.lit "POST"
        ∧ request.query (Bytes.lit "apply") = some (Bytes.lit "true")
        ∧ request.headers (Bytes.lit "x-hik-cleanup") = some (Bytes.lit "true") := by
  have hpost : Bytes.lit "POST" ≠ Bytes.lit "OPTIONS" := by decide
  unfold HttpRequest.endpoint
  constructor
  . intro h
    by_cases hpath : request.path = Bytes.lit "/cleanSessions"
    . rw [if_pos hpath] at h
      split at h
      . contradiction
      . split at h
        . contradiction
        . next hmethod =>
          split at h
          . contradiction
          . next hquery =>
            split at h
            . contradiction
            . next hheader =>
              exact ⟨hpath, not_not.mp hmethod, not_not.mp hquery, not_not.mp hheader⟩
    . rw [if_neg hpath] at h
      repeat
        split at h
        . contradiction
      contradiction
  . rintro ⟨hpath, hmethod, hquery, hheader⟩
    rw [if_pos hpath, hmethod, if_neg hpost, if_neg (not_not.mpr rfl), hquery,
      if_neg (not_not.mpr rfl), hheader, if_neg (not_not.mpr rfl)]

theorem parseHttpRequest_eq_ok_iff
    : parseHttpRequest text = .ok request
        ↔
      ∃ line headers method target version others,
        Search.cut crlf text = some (line, headers)
          ∧ Search.words Bytes.isSpace line = method :: target :: version :: others
          ∧ request = .ofTarget method target
            (readHeaders Query.empty (Delimited.lines 10 headers)) := by
  unfold parseHttpRequest
  constructor
  . intro h
    split at h
    . contradiction
    . next line headers hcut =>
      split at h
      . contradiction
      . next method line₁ hmethod =>
        split at h
        . contradiction
        . next target line₂ htarget =>
          split at h
          . contradiction
          . next version hversion =>
            cases h
            refine ⟨line, headers, method, target, version.1,
              Search.words Bytes.isSpace version.2, hcut, ?_, rfl⟩
            apply Search.words_eq_cons_iff.mpr
            refine ⟨line₁, hmethod, Search.words_eq_cons_iff.mpr ⟨line₂, htarget, ?_⟩⟩
            exact Search.words_eq_cons_iff.mpr ⟨version.2, hversion, rfl⟩
  . rintro ⟨line, headers, method, target, version, others, hcut, hwords, rfl⟩
    obtain ⟨line₁, hmethod, hwords⟩ := Search.words_eq_cons_iff.mp hwords
    obtain ⟨line₂, htarget, hwords⟩ := Search.words_eq_cons_iff.mp hwords
    obtain ⟨line₃, hversion, -⟩ := Search.words_eq_cons_iff.mp hwords
    rw [hcut]
    dsimp only
    rw [hmethod]
    dsimp only
    rw [htarget]
    dsimp only
    rw [hversion]

theorem query_ofTarget (method target : Bytes) (headers : Query) (key : Bytes)
    : (HttpRequest.ofTarget method target headers).query key
        =
      lastValue key (parameters target) := by
  unfold HttpRequest.ofTarget parameters
  dsimp only
  split
  . rw [parseQuery_apply]
  . rfl

theorem asksForCleanup_iff
    : (∃ request, parseHttpRequest text = .ok request ∧ request.endpoint = .cleanSessions)
        ↔
      AsksForCleanup text := by
  constructor
  . rintro ⟨request, hparse, hendpoint⟩
    obtain ⟨line, headers, method, target, version, others, hcut, hwords, rfl⟩ :=
      parseHttpRequest_eq_ok_iff.mp hparse
    obtain ⟨hpath, hmethod, hquery, hheader⟩ := endpoint_eq_cleanSessions_iff.mp hendpoint
    rw [query_ofTarget] at hquery
    obtain rfl : method = Bytes.lit "POST" := hmethod
    refine ⟨line, headers, target, version, others, hcut, hwords, hpath, hquery, ?_⟩
    rw [← hheader]
    exact (readHeaders_apply _ _).symm
  . rintro ⟨line, headers, target, version, others, hcut, hwords, hpath, hquery, hheader⟩
    refine ⟨_, parseHttpRequest_eq_ok_iff.mpr ⟨line, headers, _, target, version, others, hcut,
      hwords, rfl⟩, endpoint_eq_cleanSessions_iff.mpr ⟨hpath, rfl, ?_, ?_⟩⟩
    . rw [query_ofTarget]
      exact hquery
    . rw [← hheader]
      exact readHeaders_apply _ _

end Asks

section Delivery

variable {sent head body : Bytes} {rounds : List ReadRound}

theorem asksForCleanup_append {text : Bytes} (h : EndsHead text) (rest : Bytes)
    : AsksForCleanup (text ++ rest) ↔ AsksForCleanup text := by
  rw [← asksForCleanup_iff, ← asksForCleanup_iff, parseHttpRequest_append h]

theorem callsClean_of_receives {raw : Bytes} (hsent : delivered rounds <+: sent)
    (hhead : Search.cut (crlf ++ crlf) sent = some (head, body))
    (hlength : head.length + 4 ≤ 16384) (hreceive : receiveHead [] rounds = some (.ok raw))
    : CallsClean rounds ↔ AsksForCleanup sent := by
  unfold CallsClean
  rw [readHttpRequest_eq hsent hhead hlength hreceive, ← asksForCleanup_iff]
  cases parseHttpRequest sent with
  | ok request => simp [Except.mapError]
  | error error => simp [Except.mapError]

def cleanupHead : Bytes :=
  Bytes.lit ("POST /cleanSessions?apply=false&%61pply=true HTTP/1.1\r\n"
    ++ "X-HIK-CLEANUP:  true \r\n\r\n")

def cleanupBody : Bytes := Bytes.lit "X-Hik-Cleanup: false\r\n"

def cleanupRounds : List ReadRound :=
  [.idle, .received (cleanupHead.take 30), .received (cleanupHead.drop 30 ++ cleanupBody)]

end Delivery

end HikBridge
