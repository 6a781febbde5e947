import ActorProtocol.Messaging
import ActorProtocol.Source.Node

/-!
# Faults

A fault is a broken agreement between the producer of a description and the
checks, or between two checks. It is never the doing of the description's
writer, who gets diagnostics instead.
-/

namespace ActorProtocol

set_option autoImplicit false

inductive Fault where
  /-- The description in the named file has no protocol. -/
  | missingProtocol (file : String)
  /-- No declaration is recorded for the node. -/
  | missingDecl (node : NodeId)
  /-- The declaration recorded for the node is not a message. -/
  | notAMessage (node : NodeId)
  /-- A message that may travel either way has no role. -/
  | noRole (direction : Direction)
  deriving DecidableEq

def Fault.text : Fault → String
  | .missingProtocol file =>
      "INTERNAL ERROR: translation unit `" ++ file ++ "` has no protocol"
  | .missingDecl node =>
      "INTERNAL ERROR: node " ++ node.text ++ " has no decl record"
  | .notAMessage node =>
      "INTERNAL ERROR: decl for node " ++ node.text ++ " is not a message"
  | .noRole direction =>
      "INTERNAL ERROR: no message role for direction `" ++ direction.name ++ "`"

end ActorProtocol
