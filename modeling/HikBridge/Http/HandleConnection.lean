import HikBridge.Http.Answers
import HikBridge.Video.HandleVideo

/-!
This module contains `handle_connection`: the dispatch of one request to its endpoint, and the answer
to an exception that reaches it.
-/

namespace HikBridge

-- The parts of a `HttpRequest` that decide about the answer, with the lookups in its two maps.
structure HttpRequest where
  method : Bytes
  path : Bytes
  query : Bytes → Option Bytes
  headers : Bytes → Option Bytes

/--
What the server knows: its build and its hardware, what the registries answer while this request is
handled, and what `parse_stream_request` makes of a query.
-/
structure Server where
  setting : Setting
  version : Bytes
  releaseVersion : Bytes
  buildDate : Bytes
  architecture : Bytes
  backendName : Bytes
  affected : Int
  cleaning : Int
  generation : Bytes
  counts : Counts
  status : Bytes → Option SessionStatus
  firstFrame : Bytes → Int → Option (Int × Int)
  parseStreamRequest : (Bytes → Option Bytes) → Except Exn StreamRequest

-- `std::isspace` in the "C" locale
def isSpace (c : UInt8) : Bool := c == 32 || (9 ≤ c && c ≤ 13)

def isDigit (c : UInt8) : Bool := 48 ≤ c && c ≤ 57

-- `std::stoll`, where `none` stands for an exception.
def stoll (text : Bytes) : Option Int :=
  let text := text.dropWhile isSpace
  let (negative, digits) :=
    match text with
    | 45 :: rest => (true, rest.takeWhile isDigit)
    | 43 :: rest => (false, rest.takeWhile isDigit)
    | _ => (false, text.takeWhile isDigit)
  if digits = [] then
    none
  else do
    let magnitude ← Numeral.value 10 0 digits
    let value : Int := if negative then -magnitude else magnitude
    if -9223372036854775808 ≤ value ∧ value ≤ 9223372036854775807 then some value else none

/--
The state of one connection. `answers` holds every answer that was begun, with what was already on the
wire when its status line was offered to the socket.
-/
structure Exchange where
  world : World := {}
  sid : Bytes := []
  answers : List (Nat × Answer) := []

namespace Exchange

variable (c : Server)

def worldPart : Program.Part Exchange World where
  get e := e.world
  put world e := { e with world }
  get_put _ _ := rfl

def onWorld {α : Type} (m : Program World Tick Exn α) : Program Exchange Tick Exn α :=
  Program.zoom worldPart m

def onEnv {α : Type} (m : Program Env Tick Exn α) : Program Exchange Tick Exn α :=
  onWorld (World.onEnv m)

def sendAnswer (answer : Answer) : Program Exchange Tick Exn Unit := do
  Program.update fun e => { e with answers := e.answers ++ [(e.world.wire.length, answer)] }
  onWorld (World.onClient (Client.sendText c.setting answer.text))

def invalidParameter (message : String) : BridgeError := ⟨400, "INVALID_PARAMETER", message⟩

def methodNotAllowed (message : String) : BridgeError := ⟨405, "METHOD_NOT_ALLOWED", message⟩

def cleanSessions (request : HttpRequest) : Program Exchange Tick Exn Unit :=
  if request.method = Bytes.lit "OPTIONS" then
    sendAnswer c (.preflight true)
  else if request.method ≠ Bytes.lit "POST" then
    Program.raise (.bridge (methodNotAllowed "清理会话仅支持 POST 请求"))
  else if request.query (Bytes.lit "apply") ≠ some (Bytes.lit "true") then
    Program.raise (.bridge (invalidParameter "必须明确指定 apply=true"))
  else if request.headers (Bytes.lit "x-hik-cleanup") ≠ some (Bytes.lit "true") then
    Program.raise (.bridge (invalidParameter "缺少 X-Hik-Cleanup: true 请求头"))
  else do
    -- `registry.clean`
    let _ ← onEnv external
    sendAnswer c (.json (if c.cleaning = 0 then 200 else 202)
      (Bytes.lit "\x7b\"applied\":true,\"affectedSessions\":" ++ Bytes.ofInt c.affected
        ++ Bytes.lit ",\"cleaningSessions\":" ++ Bytes.ofInt c.cleaning
        ++ Bytes.lit ",\"generation\":\"" ++ c.generation ++ Bytes.lit "\"\x7d"))

def healthBody : Bytes :=
  Bytes.lit "\x7b\"status\":\"ok\",\"sdk\":\"hcnetsdk\"," ++ sessionCountsJson c.counts
    ++ Bytes.lit ",\"capabilities\":\x7b\"cleanSessions\":true\x7d,\"generation\":\"" ++ c.generation
    ++ Bytes.lit "\",\"cleaningSessions\":" ++ Bytes.ofInt c.cleaning
    ++ Bytes.lit ",\"hardwareAcceleration\":\"" ++ c.backendName ++ Bytes.lit "\"\x7d"

def versionBody : Bytes :=
  Bytes.lit "\x7b\"name\":\"hik-sdk-http-bridge\",\"version\":\"" ++ c.version
    ++ Bytes.lit "\",\"releaseVersion\":\"" ++ c.releaseVersion
    ++ Bytes.lit "\",\"buildDate\":\"" ++ c.buildDate
    ++ Bytes.lit "\",\"framework\":\"C++17\",\"architecture\":\"" ++ c.architecture
    ++ Bytes.lit "\",\"hardwareAcceleration\":\"" ++ c.backendName ++ Bytes.lit "\"\x7d"

-- The parameter `sid` of the two endpoints that ask for a session.
def requiredSid (request : HttpRequest) : Program Exchange Tick Exn Bytes :=
  match request.query (Bytes.lit "sid") with
  | none | some [] => Program.raise (.bridge (invalidParameter "缺少必填参数 sid"))
  | some sid => pure sid

def sessionNotFound (sid : Bytes) : Answer :=
  .json 404 (jsonBody "SESSION_NOT_FOUND" "会话状态不可用" sid)

def sessionStatus (request : HttpRequest) : Program Exchange Tick Exn Unit := do
  let sid ← requiredSid request
  let _ ← onEnv external
  match c.status sid with
  | none => sendAnswer c (sessionNotFound sid)
  | some status => sendAnswer c (.json 200 (sessionStatusBody status))

def elapsedMs (request : HttpRequest) : Program Exchange Tick Exn Int :=
  match request.query (Bytes.lit "elapsedMs") with
  | none => pure 0
  | some text =>
    match stoll text with
    | none => Program.raise (.bridge (invalidParameter "elapsedMs 无效"))
    | some elapsed =>
      if elapsed < 0 ∨ 600000 < elapsed then
        Program.raise (.bridge (invalidParameter "elapsedMs 无效"))
      else
        pure elapsed

def sessionRendered (request : HttpRequest) : Program Exchange Tick Exn Unit := do
  let sid ← requiredSid request
  let elapsed ← elapsedMs request
  let _ ← onEnv external
  match c.firstFrame sid elapsed with
  | none => sendAnswer c (sessionNotFound sid)
  | some _ => do
    onEnv (logLine c.setting)
    sendAnswer c (.json 200 (Bytes.lit "\x7b\"status\":\"ok\"\x7d"))

def video (request : HttpRequest) : Program Exchange Tick Exn Unit :=
  match c.parseStreamRequest request.query with
  | .error exn => Program.raise exn
  | .ok stream => do
    Program.update fun e => { e with sid := stream.sid }
    onEnv (logLine c.setting)
    onWorld (World.handleVideo { c.setting with request := stream })

-- The `try` block of `handle_connection`.
def respond (request : HttpRequest) : Program Exchange Tick Exn Unit := do
  -- `read_http_request`
  let _ ← onEnv external
  if request.path = Bytes.lit "/cleanSessions" then
    cleanSessions c request
  else if request.method = Bytes.lit "OPTIONS" then
    sendAnswer c (.preflight false)
  else if request.method ≠ Bytes.lit "GET" then
    Program.raise (.bridge (methodNotAllowed "仅支持 GET 请求"))
  else if request.path = Bytes.lit "/healthz" ∨ request.path = Bytes.lit "/" then do
    let _ ← onEnv external
    sendAnswer c (.json 200 (healthBody c))
  else if request.path = Bytes.lit "/version" then
    sendAnswer c (.json 200 (versionBody c))
  else if request.path = Bytes.lit "/session-status" then
    sessionStatus c request
  else if request.path = Bytes.lit "/session-rendered" then
    sessionRendered c request
  else if request.path ≠ Bytes.lit "/video" then
    Program.raise (.bridge ⟨404, "NOT_FOUND", "接口不存在"⟩)
  else
    video c request

-- The answer to an exception, unless the video has started.
def answerOnce (answer : Bytes → Answer) : Program Exchange Tick Exn Unit := do
  let e ← Program.inspect
  if e.world.responseStarted then
    pure ()
  else
    Program.rescue (sendAnswer c (answer e.sid)) fun _ => pure ()

def errorAnswer (error : BridgeError) (sid : Bytes) : Answer :=
  if error.code = "SESSION_LIMIT" then
    .json 503 (Bytes.lit "\x7b\"code\":\"SESSION_LIMIT\",\"message\":\"已达到最大并发会话数\",\"requestId\":\""
      ++ jsonEscape sid ++ Bytes.lit "\"," ++ sessionCountsJson c.counts ++ Bytes.lit "\x7d")
  else
    .json error.httpStatus (jsonBody error.code error.message sid)

-- The three `catch` clauses.
def answerException (exn : Exn) : Program Exchange Tick Exn Unit := do
  onEnv (logLine c.setting)
  match exn with
  | .clientDisconnected => pure ()
  | .bridge error => answerOnce c (errorAnswer c error)
  | .other => answerOnce c fun sid => .json 500 (jsonBody "INTERNAL_ERROR" "服务内部错误" sid)

def handleConnection (request : HttpRequest) : Program Exchange Tick Exn Unit :=
  Program.rescue (respond c request) (answerException c)

end Exchange
end HikBridge
