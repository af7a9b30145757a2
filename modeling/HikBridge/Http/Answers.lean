import HikBridge.SessionRegistry.Basic
import HikBridge.SessionStatus.Basic

/-!
This module contains the answers of the bridge that are not video: their status lines, their headers
and the JSON texts that they carry.
-/

namespace HikBridge

-- The bytes `"` and `\` are escaped, all others stand for themselves.
def jsonEscape (value : Bytes) : Bytes :=
  value.flatMap fun c => if c = 34 ∨ c = 92 then [92, c] else [c]

def statusText (status : Int) : String :=
  if status = 200 then "OK"
  else if status = 202 then "Accepted"
  else if status = 403 then "Forbidden"
  else if status = 409 then "Conflict"
  else if status = 204 then "No Content"
  else if status = 400 then "Bad Request"
  else if status = 404 then "Not Found"
  else if status = 405 then "Method Not Allowed"
  else if status = 503 then "Service Unavailable"
  else "Bad Gateway"

inductive Answer where
  | json (status : Int) (body : Bytes)
  | preflight (cleanSessions : Bool)
  deriving DecidableEq, Repr

def Answer.text (answer : Answer) : Bytes :=
  match answer with
  | .json status body =>
    Bytes.lit "HTTP/1.1 " ++ Bytes.ofInt status ++ Bytes.lit " " ++ Bytes.lit (statusText status)
      ++ Bytes.lit "\r\nContent-Type: application/json; charset=utf-8\r\nContent-Length: "
      ++ Bytes.ofNat body.length
      ++ Bytes.lit ("\r\nCache-Control: no-store\r\nAccess-Control-Allow-Origin: *\r\n"
        ++ "Connection: close\r\n\r\n")
      ++ body
  | .preflight true =>
    Bytes.lit ("HTTP/1.1 204 No Content\r\nAccess-Control-Allow-Origin: *"
      ++ "\r\nAccess-Control-Allow-Methods: POST, OPTIONS\r\n"
      ++ "Access-Control-Allow-Headers: X-Hik-Cleanup\r\nCache-Control: no-store\r\n"
      ++ "Content-Length: 0\r\nConnection: close\r\n\r\n")
  | .preflight false =>
    Bytes.lit ("HTTP/1.1 204 No Content\r\nAccess-Control-Allow-Origin: *\r\n"
      ++ "Access-Control-Allow-Methods: GET, OPTIONS\r\nAccess-Control-Allow-Headers: Content-Type\r\n"
      ++ "Content-Length: 0\r\n\r\n")

-- The body that `send_json` builds.
def jsonBody (code message : String) (sid : Bytes) : Bytes :=
  Bytes.lit "\x7b\"code\":\"" ++ jsonEscape (Bytes.lit code)
    ++ Bytes.lit "\",\"message\":\"" ++ jsonEscape (Bytes.lit message) ++ Bytes.lit "\""
    ++ (if sid = [] then [] else Bytes.lit ",\"requestId\":\"" ++ jsonEscape sid ++ Bytes.lit "\"")
    ++ Bytes.lit "\x7d"

def civilFromDays (days : Int) : Int × Int × Int :=
  let z := days + 719468
  let era := z.fdiv 146097
  let doe := z.fmod 146097
  let yoe := (doe - doe / 1460 + doe / 36524 - doe / 146096) / 365
  let doy := doe - (365 * yoe + yoe / 4 - yoe / 100)
  let mp := (5 * doy + 2) / 153
  let month := if mp < 10 then mp + 3 else mp - 9
  let year := yoe + era * 400
  (if month ≤ 2 then year + 1 else year, month, doy - (153 * mp + 2) / 5 + 1)

def twoDigits (n : Int) : Bytes := if n < 10 then 48 :: Bytes.ofInt n else Bytes.ofInt n

-- `"%Y-%m-%dT%H:%M:%SZ"`
def formatUtc (value : Int) : Bytes :=
  let (year, month, day) := civilFromDays (value.fdiv 86400)
  let second := value.fmod 86400
  Bytes.ofInt year ++ Bytes.lit "-" ++ twoDigits month ++ Bytes.lit "-" ++ twoDigits day
    ++ Bytes.lit "T" ++ twoDigits (second / 3600) ++ Bytes.lit ":" ++ twoDigits (second / 60 % 60)
    ++ Bytes.lit ":" ++ twoDigits (second % 60) ++ Bytes.lit "Z"

def utcOrNull (value : Option Int) : Bytes :=
  match value with
  | some value => Bytes.lit "\"" ++ formatUtc value ++ Bytes.lit "\""
  | none => Bytes.lit "null"

-- The body that `send_session_status` builds.
def sessionStatusBody (value : SessionStatus) : Bytes :=
  Bytes.lit "\x7b\"sid\":\"" ++ jsonEscape value.sid
    ++ Bytes.lit "\",\"status\":\"" ++ jsonEscape (Bytes.lit value.status)
    ++ Bytes.lit "\",\"endReason\":\"" ++ jsonEscape (Bytes.lit value.endReason)
    ++ Bytes.lit "\",\"message\":\"" ++ jsonEscape (Bytes.lit value.message)
    ++ Bytes.lit "\",\"queueCurrentBytes\":" ++ Bytes.ofNat value.queueCurrentBytes
    ++ Bytes.lit ",\"queuePeakBytes\":" ++ Bytes.ofNat value.queuePeakBytes
    ++ Bytes.lit ",\"backpressureEvents\":" ++ Bytes.ofNat value.backpressureEvents
    ++ Bytes.lit ",\"outputReadyUtc\":" ++ utcOrNull value.outputReadyUtc
    ++ Bytes.lit ",\"browserFirstFrameUtc\":" ++ utcOrNull value.browserFirstFrameUtc
    ++ Bytes.lit ",\"updatedUtc\":\"" ++ formatUtc value.updatedUtc ++ Bytes.lit "\"\x7d"

def sessionCountsJson (counts : Counts) : Bytes :=
  Bytes.lit "\"activeSessions\":" ++ Bytes.ofInt counts.active
    ++ Bytes.lit ",\"maxSessions\":" ++ Bytes.ofInt counts.maximum
    ++ Bytes.lit ",\"availableSessions\":" ++ Bytes.ofInt counts.available

theorem Answer.text_ne_nil (answer : Answer) : answer.text ≠ [] := by
  have hstart : Bytes.lit "HTTP/1.1 " ≠ [] := by decide
  cases answer with
  | json status body => simp [Answer.text, hstart]
  | preflight cleanSessions => cases cleanSessions <;> decide +kernel

end HikBridge
