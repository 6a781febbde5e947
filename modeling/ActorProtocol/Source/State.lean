import ActorProtocol.Messaging
import ActorProtocol.Source.Node

/-!
# States and transitions

A protocol's states are written as statements, each with a source state and the
transitions that leave it. A state counts as the same wherever its name and start
flag agree, and a transition wherever its trigger, message and destinations do;
their ids and locations tell occurrences apart.

Two states need no statement. `any` as a source stands for every state, and
`dead` is the end that nothing leaves. A null transition pads a statement that
accepts nothing.
-/

namespace ActorProtocol

set_option autoImplicit false

structure State where
  id : NodeId
  name : String
  start : Bool
  loc : Location
  deriving DecidableEq

namespace State

def anyName : String := "[any]"

def deadName : String := "[dead]"

def any : State := ⟨.synthetic, anyName, true, .unknown⟩

def dead : State := ⟨.synthetic, deadName, false, .unknown⟩

/-- What two occurrences of one state have in common. -/
def key (state : State) : String × Bool :=
  (state.name, state.start)

def sameAs (left right : State) : Bool :=
  left.key == right.key

def isAny (state : State) : Bool :=
  state.sameAs any

def isDead (state : State) : Bool :=
  state.sameAs dead

def isSentinel (state : State) : Bool :=
  state.isAny || state.isDead

def isSentinelName (name : String) : Bool :=
  name == anyName || name == deadName

def text (state : State) : String :=
  "<State " ++ state.name ++ " start=" ++ (if state.start then "true" else "false") ++ ">"

theorem isSentinelName_of_isSentinel {state : State} (sentinel : state.isSentinel = true) :
    isSentinelName state.name = true := by
  simp only [isSentinel, isAny, isDead, sameAs, key, any, dead, Bool.or_eq_true, beq_iff_eq,
    Prod.mk.injEq] at sentinel
  rw [isSentinelName, Bool.or_eq_true, beq_iff_eq, beq_iff_eq]
  rcases sentinel with ⟨any, _⟩ | ⟨dead, _⟩
  · exact Or.inl any
  · exact Or.inr dead

end State

structure Transition where
  id : NodeId
  trigger : Option Trigger
  message : Option String
  destinations : List State
  loc : Location
  deriving DecidableEq

namespace Transition

def null : Transition := ⟨.synthetic, none, none, [], .unknown⟩

/-- Destinations count by their names and start flags. -/
def sameAs (left right : Transition) : Bool :=
  left.trigger == right.trigger && left.message == right.message &&
    left.destinations.map State.key == right.destinations.map State.key

def isNull (transition : Transition) : Bool :=
  transition.sameAs null

/-- The trigger and the message of a transition that has both. -/
def action (transition : Transition) : Option (Trigger × String) :=
  match transition.trigger, transition.message with
  | some trigger, some message => some (trigger, message)
  | _, _ => none

def text (transition : Transition) : String :=
  match transition.action with
  | some (trigger, message) => trigger.name ++ " " ++ message
  | none => "<null transition>"

theorem isNull_iff (transition : Transition) :
    transition.isNull = true ↔
      transition.trigger = none ∧ transition.message = none ∧ transition.destinations = [] := by
  simp [isNull, sameAs, null, and_assoc]

end Transition

structure Statement where
  id : NodeId
  state : State
  transitions : List Transition
  loc : Location
  deriving DecidableEq

namespace Statement

/-- The statement of a state that accepts nothing. -/
def ofNull (state : State) : Statement :=
  ⟨.synthetic, state, [.null], .unknown⟩

def isNull (statement : Statement) : Bool :=
  !statement.transitions.isEmpty && statement.transitions.all Transition.isNull

/-- The transitions that are not padding. -/
def realTransitions (statement : Statement) : List Transition :=
  statement.transitions.filter fun transition => !transition.isNull

end Statement

end ActorProtocol
