import ActorProtocol.Source.Unit

/-!
# State machines

The machine of a protocol holds its transition statements, at most one for a
source name. A statement is rejected when its source name is taken, or when it
lets transitions leave the dead state; rejected statements are kept beside the
machine, with the reason. A kept statement without transitions is padded with a
null transition, and the dead state has a statement when something leads to it.
-/

namespace ActorProtocol

set_option autoImplicit false

structure StateMachine where
  statements : List Statement
  deriving DecidableEq

inductive Rejection where
  /-- An earlier statement of the source name was kept. -/
  | duplicateSource
  /-- Transitions leave the dead state. -/
  | deadSource
  deriving DecidableEq

structure RejectedStatement where
  reason : Rejection
  statement : Statement
  deriving DecidableEq

namespace Statement

/-- Whether transitions leave the dead state. -/
def leavesDead (statement : Statement) : Bool :=
  statement.state.name == State.deadName && !statement.realTransitions.isEmpty

/-- A statement without transitions gets a null one. -/
def padded (statement : Statement) : Statement :=
  if statement.transitions.isEmpty then { statement with transitions := [.null] } else statement

/-- The transitions that are not padding, each with its source. -/
def steps (statement : Statement) : List (State × Transition) :=
  statement.realTransitions.map fun transition => (statement.state, transition)

def destinations (statement : Statement) : List State :=
  statement.transitions.flatMap Transition.destinations

/-- Says of every statement whether it is kept, given the source names kept before. -/
def judge (kept : List String) : List Statement → List (Statement × Option Rejection)
  | [] => []
  | statement :: rest =>
      if statement.leavesDead then (statement, some .deadSource) :: judge kept rest
      else if statement.state.name ∈ kept then
        (statement, some .duplicateSource) :: judge kept rest
      else (statement, none) :: judge (statement.state.name :: kept) rest

end Statement

namespace StateMachine

def names (machine : StateMachine) : List String :=
  machine.statements.map fun statement => statement.state.name

def statement? (machine : StateMachine) (name : String) : Option Statement :=
  machine.statements.find? fun statement => statement.state.name == name

def states (machine : StateMachine) : List State :=
  machine.statements.map Statement.state

/-- Whether a state may be named as a destination. -/
def containsState (machine : StateMachine) (name : String) : Bool :=
  machine.names.contains name || State.isSentinelName name

def startStates (machine : StateMachine) : List State :=
  machine.states.filter State.start

/-- Every transition that is not padding, with its source. -/
def steps (machine : StateMachine) : List (State × Transition) :=
  machine.statements.flatMap Statement.steps

/-- The statements whose transitions may be taken in a state: its own and, in a
state other than the wildcard, that of the wildcard. -/
def statementsFrom (machine : StateMachine) (name : String) : List Statement :=
  (machine.statement? name).toList ++
    if name = State.anyName then [] else (machine.statement? State.anyName).toList

/-- The states that are one transition away, once for every destination. -/
def successors (machine : StateMachine) (name : String) : List State :=
  (machine.statementsFrom name).flatMap Statement.destinations

/-- The statements a machine is made of, before the dead state is added. -/
def keptStatements (statements : List Statement) : List Statement :=
  (Statement.judge [] statements).filterMap fun
    | (statement, none) => some statement.padded
    | (_, some _) => none

/-- The statements left out of the machine, with the reasons. -/
def rejectedStatements (statements : List Statement) : List RejectedStatement :=
  (Statement.judge [] statements).filterMap fun
    | (_, none) => none
    | (statement, some reason) => some ⟨reason, statement⟩

/-- Adds a statement for the dead state if something leads to it and it has none. -/
def withDead (machine : StateMachine) : StateMachine :=
  if (machine.statements.flatMap Statement.destinations).any
        (fun state => state.name == State.deadName) &&
      !machine.names.contains State.deadName then
    ⟨machine.statements ++ [.ofNull .dead]⟩
  else machine

def ofStatements (statements : List Statement) : StateMachine :=
  withDead ⟨keptStatements statements⟩

end StateMachine

namespace Protocol

def machine (protocol : Protocol) : StateMachine :=
  .ofStatements protocol.statements

def rejected (protocol : Protocol) : List RejectedStatement :=
  StateMachine.rejectedStatements protocol.statements

end Protocol

end ActorProtocol
