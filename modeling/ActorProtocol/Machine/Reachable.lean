import ActorProtocol.Machine.Basic

/-!
# Reachable states

The names reachable from the start states are found level by level: first the
start states, then in every round the successors of the names found in the round
before, each name once and at its first occurrence. The wildcard is reached with
the start states when it has a statement, and from it every state is reached.

There are as many rounds as the machine has names, and after that nothing new
can be found.
-/

namespace ActorProtocol

set_option autoImplicit false

namespace StateMachine

variable (machine : StateMachine)

/-- The names that are known to be reached before any transition is taken. -/
def initialNames : List String :=
  let starts := machine.startStates.map State.name
  if !starts.isEmpty && machine.names.contains State.anyName then starts ++ [State.anyName]
  else starts

/-- The names reached from a name in one step. The wildcard stands for every state. -/
def namesAfter (name : String) : List String :=
  (if name = State.anyName then machine.names else []) ++
    (machine.successors name).map State.name

/-- The first occurrences of the names that are not seen yet. -/
def newNames (seen : List String) : List String → List String
  | [] => []
  | name :: rest =>
      if name ∈ seen then newNames seen rest else name :: newNames (name :: seen) rest

/-- Rounds of the walk from a frontier, when some names are reached already. -/
def walk : Nat → List String → List String → List String
  | 0, reached, _ => reached
  | rounds + 1, reached, frontier =>
      let fresh := newNames reached frontier
      walk rounds (reached ++ fresh) (fresh.flatMap machine.namesAfter)

/-- Every name that stands in the machine. -/
def allNames : List String :=
  machine.names ++ (machine.statements.flatMap Statement.destinations).map State.name

/-- The names reachable from a start state, in the order in which they are reached. -/
def reachable : List String :=
  machine.walk machine.allNames.length [] machine.initialNames

end StateMachine

end ActorProtocol
