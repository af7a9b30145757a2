import HikBridge.Lib.Numeral

/-!
This module contains the data that the components of the bridge share: byte strings, the errors the
C++ code throws and the reasons for which a stream ends.
-/

namespace HikBridge

/--
A `std::string` or `std::vector<uint8_t>`.
-/
abbrev Bytes := List UInt8

namespace Bytes

/--
The bytes of a string literal of the source, which is UTF-8.
-/
def lit (s : String) : Bytes := s.toUTF8.data.toList

def ofNat (n : Nat) : Bytes := Numeral.numeral 10 n

def ofInt (n : Int) : Bytes := if n < 0 then 45 :: ofNat n.natAbs else ofNat n.natAbs

theorem ofNat_injective {m n : Nat} (h : ofNat m = ofNat n) : m = n :=
  Numeral.numeral_injective (by omega) (by omega) h

theorem hyphen_not_mem_ofNat (n : Nat) : (45 : UInt8) ∉ ofNat n :=
  Numeral.not_mem_numeral (by omega) (by omega) n (by decide)

end Bytes

structure BridgeError where
  httpStatus : Int
  code : String
  message : String
  deriving DecidableEq, Repr

/--
What the C++ code throws. The catch clauses tell apart `BridgeError`, `ClientDisconnected` and any
other exception.
-/
inductive Exn where
  | bridge (error : BridgeError)
  | clientDisconnected
  | other
  deriving DecidableEq, Repr

inductive StreamEndReason where
  | Active
  | ManualCleanup
  | PlaybackEnd
  | PlaybackPositionError
  | QueueOverflow
  | SdkDataTimeout
  | SdkKeepAliveFailed
  | FfmpegExit
  | FfmpegOutputTimeout
  | ClientWriteTimeout
  | ClientReplaced
  | ServerStopped
  | StartupFailed
  | StreamEnded
  deriving DecidableEq, Repr

def endReasonName (reason : StreamEndReason) : String :=
  match reason with
  | .ManualCleanup => "manual_cleanup"
  | .PlaybackEnd => "playback_end"
  | .PlaybackPositionError => "playback_position_error"
  | .QueueOverflow => "queue_overflow"
  | .SdkDataTimeout => "sdk_data_timeout"
  | .SdkKeepAliveFailed => "sdk_keepalive_failed"
  | .FfmpegExit => "ffmpeg_exit"
  | .FfmpegOutputTimeout => "ffmpeg_output_timeout"
  | .ClientWriteTimeout => "client_write_timeout"
  | .ClientReplaced => "client_replaced"
  | .ServerStopped => "server_stopped"
  | .StartupFailed => "startup_failed"
  | .StreamEnded => "stream_ended"
  | .Active => "active"

def endReasonMessage (reason : StreamEndReason) : String :=
  match reason with
  | .ManualCleanup => "播放已被清理，请点击播放重新连接。"
  | .PlaybackEnd => "回放已到达请求的结束时间"
  | .PlaybackPositionError => "HCNetSDK 回放位置状态异常"
  | .QueueOverflow => "HCNetSDK 媒体队列在限定背压后仍持续满载"
  | .SdkDataTimeout => "HCNetSDK 未继续输出媒体数据"
  | .SdkKeepAliveFailed => "HCNetSDK 回放保活连续失败"
  | .FfmpegExit => "FFmpeg 在视频结束前退出"
  | .FfmpegOutputTimeout => "FFmpeg 持续无输出，会话已结束"
  | .ClientWriteTimeout => "浏览器持续未接收视频，会话已结束"
  | .ClientReplaced => "浏览器主动停止或替换了视频流"
  | .ServerStopped => "桥接服务正在停止"
  | .StartupFailed => "视频流启动失败"
  | .StreamEnded | .Active => "视频流异常结束"

end HikBridge
