import ActorProtocol.Machine.Error
import ActorProtocol.Machine.Reachable
import ActorProtocol.Naming.Resolved

/-!
# Checked units

A checked unit carries the state machine of its protocol. The checks report the
rejected statements, destinations that are no states, a machine without a start,
triggers that a message's direction does not admit, and messages that wait for a
reply which no reachable state gives. The transitions of rejected statements are
checked after those of the machine.

The triggers need the declarations of the messages, so a transition whose message
was looked up without success must be poisoned; one that was never looked up is a
fault.
-/

namespace ActorProtocol

set_option autoImplicit false

/-- A unit with its names and its machine. -/
structure Checked where
  unit : SourceUnit
  decls : DeclTable
  actorStates : OrderedMap NodeId State
  machine : StateMachine

def Checked.actorState? (checked : Checked) (node : NodeId) : Option State :=
  checked.actorStates.find? node

namespace RejectedStatement

def error (rejected : RejectedStatement) : Located MachineError :=
  match rejected.reason with
  | .duplicateSource =>
      ⟨.duplicateSourceState rejected.statement.state.name, rejected.statement.loc⟩
  | .deadSource => ⟨.deadStateHasTransitions, rejected.statement.loc⟩

end RejectedStatement

namespace Protocol

variable (protocol : Protocol)

/-- The steps of the machine, then those of the rejected statements. -/
def allSteps : List (State × Transition) :=
  protocol.machine.steps ++ protocol.rejected.flatMap fun rejected => rejected.statement.steps

def danglingErrors : List (Located MachineError) :=
  protocol.allSteps.flatMap fun (source, transition) =>
    (transition.destinations.filter fun destination =>
        !protocol.machine.containsState destination.name).map fun destination =>
      ⟨.danglingDestination source.name destination.name, transition.loc⟩

def startErrors : List (Located MachineError) :=
  if !protocol.machine.statements.isEmpty && protocol.machine.startStates.isEmpty then
    [⟨.noStartState protocol.name, protocol.loc⟩]
  else []

def structureErrors : List (Located MachineError) :=
  protocol.rejected.map RejectedStatement.error ++ protocol.danglingErrors ++
    protocol.startErrors

/-- The names of the states in which a message is answered. -/
def replySources (message : Message) : List String :=
  (protocol.machine.steps.filter fun (_, transition) =>
      transition.action.any fun (trigger, name) =>
        trigger.isReply && name == message.name).map fun (source, _) => source.name

/-- Without a start state nothing is reachable, and that is reported already. -/
def replyError? (message : Message) : Option (Located MachineError) :=
  let sources := protocol.replySources message
  if sources.isEmpty then
    some ⟨.missingReplyTransition message.name message.semantics, message.loc⟩
  else if !protocol.machine.startStates.isEmpty &&
      !sources.any (fun source => protocol.machine.reachable.contains source) then
    some ⟨.unreachableReplyTransition message.name, message.loc⟩
  else none

def replyErrors : List (Located MachineError) :=
  (protocol.messages.filter Message.hasReply).filterMap protocol.replyError?

end Protocol

namespace Resolved

variable (resolved : Resolved)

/-- What is wrong with the trigger of a transition, if anything. -/
def triggerError? (transition : Transition) : Except Fault (Option (Located MachineError)) :=
  match transition.action with
  | none => .ok none
  | some (trigger, message) =>
      if resolved.isPoisoned transition.id then .ok none
      else do
        let decl ← resolved.decls.declOf transition.id
        match decl.kind with
        | .message _ direction =>
            if direction.admits trigger.direction then .ok none
            else
              .ok (some ⟨.triggerDirectionMismatch trigger message direction, transition.loc⟩)
        | _ => .error (.notAMessage transition.id)

/-- The errors of the triggers, or the first fault. -/
def triggerErrors : List (State × Transition) → Except Fault (List (Located MachineError))
  | [] => .ok []
  | (_, transition) :: rest => do
      let error? ← resolved.triggerError? transition
      let later ← triggerErrors rest
      return error?.toList ++ later

/-- The result carries the machine, whatever the errors are. -/
def check : Except Fault (Reported Checked MachineError) := do
  let protocol ← resolved.unit.requireProtocol
  let triggerErrors ← resolved.triggerErrors protocol.allSteps
  return ⟨⟨resolved.unit, resolved.decls, resolved.actorStates, protocol.machine⟩,
    protocol.structureErrors ++ triggerErrors ++ protocol.replyErrors⟩

end Resolved

end ActorProtocol
