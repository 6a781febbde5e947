import ActorProtocol.Located
import ActorProtocol.Messaging

/-!
# Machine errors

What can be wrong with the state machine of a protocol.
-/

namespace ActorProtocol

set_option autoImplicit false

inductive MachineError where
  | duplicateSourceState (state : String)
  | danglingDestination (source destination : String)
  | deadStateHasTransitions
  | missingReplyTransition (message : String) (semantics : Semantics)
  | unreachableReplyTransition (message : String)
  | triggerDirectionMismatch (trigger : Trigger) (message : String) (declared : Direction)
  | noStartState (protocol : String)
  deriving DecidableEq

def MachineError.message : MachineError → String
  | duplicateSourceState state =>
      "State `" ++ state ++ "` has more than one transition statement"
  | danglingDestination source destination =>
      "Transition from `" ++ source ++ "` leads to undeclared state `" ++ destination ++ "`"
  | deadStateHasTransitions => "Transitions cannot leave the `[dead]` state"
  | missingReplyTransition message semantics =>
      "Message `" ++ message ++ "` is " ++ semantics.name ++
        " but no `call` or `answer` transition references it"
  | unreachableReplyTransition message =>
      "Message `" ++ message ++ "` is only answered from states unreachable from a start state"
  | triggerDirectionMismatch trigger message declared =>
      "Trigger `" ++ trigger.name ++ "` cannot reference message `" ++ message ++
        "` declared with direction `" ++ declared.name ++ "`"
  | noStartState protocol =>
      "Protocol `" ++ protocol ++ "` declares transitions but no start state"

end ActorProtocol
