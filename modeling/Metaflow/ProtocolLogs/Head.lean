import Metaflow.AgentCommon.MetaPacket

/-!
# Heads of application protocol logs

The types of `protocol_logs/mod.rs` that the parsers and the session queue
use, and the application protocols of `common/flow.rs`.
-/

namespace Metaflow.ProtocolLogs

inductive L7Protocol where
  | unknown
  | other
  | http1
  | http2
  | http1TLS
  | http2TLS
  | dubbo
  | mysql
  | redis
  | kafka
  | mqtt
  | dns
  | max
  deriving DecidableEq

inductive L7ResponseStatus where
  | ok
  | error
  | notExist
  | serverError
  | clientError
  deriving DecidableEq

inductive LogMessageType where
  | request
  | response
  | session
  | other
  | max
  deriving DecidableEq

structure AppProtoHead where
  proto : L7Protocol := .unknown
  msgType : LogMessageType := .other
  status : L7ResponseStatus := .ok
  code : Nat := 0
  rrt : Nat := 0
  version : Nat := 0
  deriving DecidableEq

end Metaflow.ProtocolLogs
