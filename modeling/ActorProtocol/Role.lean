import ActorProtocol.Fault

/-!
# Message roles

A role says how one side takes part in a message, from the way the message
travels and its semantics. A message that may travel either way has no role
until a side is chosen.
-/

namespace ActorProtocol

set_option autoImplicit false

inductive Role where
  | asyncRecv
  | syncRecv
  | rpcAnswer
  | asyncSend
  | syncSend
  | rpcCall
  deriving DecidableEq

namespace Role

def name : Role → String
  | asyncRecv => "AsyncRecv"
  | syncRecv => "SyncRecv"
  | rpcAnswer => "RpcAnswer"
  | asyncSend => "AsyncSend"
  | syncSend => "SyncSend"
  | rpcCall => "RpcCall"

def derive (semantics : Semantics) : Direction → Except Fault Role
  | .inbound =>
      match semantics with
      | .async => .ok asyncRecv
      | .sync => .ok syncRecv
      | .rpc => .ok rpcAnswer
  | .outbound =>
      match semantics with
      | .async => .ok asyncSend
      | .sync => .ok syncSend
      | .rpc => .ok rpcCall
  | .either => .error (.noRole .either)

end Role

end ActorProtocol
