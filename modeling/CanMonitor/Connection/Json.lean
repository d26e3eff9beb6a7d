import CanMonitor.Can.FrameStore
import CanMonitor.Library.Numeral

/-!
# What a connection writes about frames

The JSON and the server-sent events that `Connection.cpp` renders frames and statistics
in. A `double` in the statistics is the text that `<<` prints for it.

An event is complete: it ends with an empty line (`frameToSse_suffix`), and so do the
heartbeat comment and the head of a stream.
-/

namespace CanMonitor.Connection

open CanMonitor.Library CanMonitor.Can

/-- Texts with commas between them. -/
def commaSeparated (texts : List Bytes) : Bytes := (texts.intersperse (bytes ",")).flatten

/-- `frameToJson`. The braces are written by their codes. -/
def frameToJson (frame : CanFrame) : Bytes :=
  123 :: bytes "\"sequence\":" ++ decimal frame.sequence.toNat ++
    bytes ",\"timestamp_ns\":" ++ decimal frame.timestampNs.toNat ++
    bytes ",\"id\":" ++ decimal frame.id.toNat ++
    bytes ",\"id_hex\":\"0x" ++ upperHex frame.id.toNat ++
    bytes "\",\"extended\":" ++ (if frame.isExtended then bytes "true" else bytes "false") ++
    bytes ",\"dlc\":" ++ decimal frame.dlc.toNat ++
    bytes ",\"data\":[" ++
    commaSeparated ((frame.data.toList.take frame.dlc.toNat).map fun byte => decimal byte.toNat) ++
    bytes "]" ++ [125]

/-- `framesToJson`. -/
def framesToJson (frames : List CanFrame) : Bytes :=
  123 :: bytes "\"frames\":[" ++ commaSeparated (frames.map frameToJson) ++ bytes "]" ++ [125]

/-- `frameToSse`. -/
def frameToSse (frame : CanFrame) : Bytes :=
  bytes "event: can_frame\n" ++ bytes "id: " ++ decimal frame.sequence.toNat ++ bytes "\n" ++
    bytes "data: " ++ frameToJson frame ++ bytes "\n\n"

/-- The comment that keeps a stream alive. -/
def heartbeat : Bytes := bytes ": heartbeat\n\n"

/-- The head of a stream, which `startSse` queues. -/
def sseHead : Bytes :=
  bytes "HTTP/1.1 200 OK\r\n" ++ bytes "Content-Type: text/event-stream; charset=utf-8\r\n" ++
    bytes "Cache-Control: no-cache\r\n" ++ bytes "Connection: keep-alive\r\n" ++
    bytes "X-Accel-Buffering: no\r\n" ++ bytes "\r\n" ++ bytes ": connected\n\n"

theorem frameToSse_suffix (frame : CanFrame) : bytes "\n\n" <:+ frameToSse frame := List.suffix_append _ _

/-- `CanIdStatistics`, less the timestamp, which is not written. -/
structure CanIdStatistics where
  id : UInt32
  isExtended : Bool
  frameCount : UInt64
  payloadBytes : UInt64

/-- `CanBusStatisticsSnapshot`. -/
structure CanBusStatisticsSnapshot where
  totalReceivedFrames : UInt64
  totalReceivedPayloadBytes : UInt64
  /-- The text of a `double`. -/
  receiveRateFps : Bytes
  /-- The text of a `double`. -/
  estimatedBusLoadPercent : Bytes
  perId : List CanIdStatistics

/-- An entry of `per_id`. -/
def idStatisticsToJson (item : CanIdStatistics) : Bytes :=
  123 :: bytes "\"id\":" ++ decimal item.id.toNat ++
    bytes ",\"id_hex\":\"0x" ++ upperHex item.id.toNat ++
    bytes "\",\"extended\":" ++ (if item.isExtended then bytes "true" else bytes "false") ++
    bytes ",\"frame_count\":" ++ decimal item.frameCount.toNat ++
    bytes ",\"payload_bytes\":" ++ decimal item.payloadBytes.toNat ++ [125]

/-- `statisticsToJson`. -/
def statisticsToJson (statistics : CanBusStatisticsSnapshot) : Bytes :=
  123 :: bytes "\"total_received_frames\":" ++ decimal statistics.totalReceivedFrames.toNat ++
    bytes ",\"total_received_payload_bytes\":" ++ decimal statistics.totalReceivedPayloadBytes.toNat ++
    bytes ",\"receive_rate_fps\":" ++ statistics.receiveRateFps ++
    bytes ",\"estimated_bus_load_percent\":" ++ statistics.estimatedBusLoadPercent ++
    bytes ",\"per_id\":[" ++ commaSeparated (statistics.perId.map idStatisticsToJson) ++ bytes "]" ++ [125]

end CanMonitor.Connection
