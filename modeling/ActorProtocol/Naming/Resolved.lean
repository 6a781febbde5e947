import ActorProtocol.Naming.Bindings

/-!
# Resolved units

A resolved unit has its uses linked to declarations. A use that cannot be linked,
or whose state annotation makes no sense, is reported and poisoned, so that no
later check reports it again. A member whose type is not known is poisoned with
it and gets no declaration.

The state annotation of an actor is checked here for the protocol of the unit
only. Destinations that name no state are left to the checks of the machine.
-/

namespace ActorProtocol

set_option autoImplicit false

inductive Use where
  /-- The fields that follow belong to the structure. -/
  | openStruct (struct : NodeId)
  /-- The parameters that follow belong to the message. -/
  | openMessage (message : Message)
  | field (member : Member)
  | component (type : TypeRef)
  | param (member : Member)
  | protocolName (name : Ident)
  | transition (transition : Transition)

def TypeDecl.uses (decl : TypeDecl) : List Use :=
  match decl.body with
  | .struct fields => .openStruct decl.id :: fields.map Use.field
  | .union components => components.map Use.component

namespace Protocol

/-- The names of other protocols, each with the node that uses it. -/
def protocolNames (protocol : Protocol) : List Ident :=
  (protocol.spawns.map fun spawns => ⟨spawns.id, spawns.protocol, spawns.loc⟩) ++
    (protocol.bridges.flatMap fun bridges => [bridges.parent, bridges.child]) ++
    protocol.managers ++ protocol.manages

def uses (protocol : Protocol) : List Use :=
  protocol.protocolNames.map Use.protocolName ++
    (protocol.messages.flatMap fun message =>
      .openMessage message :: message.params.map Use.param) ++
    (protocol.statements.flatMap fun statement => statement.transitions.map Use.transition)

end Protocol

/-- What the names in a unit are used for, in reading order. -/
def SourceUnit.uses (unit : SourceUnit) (protocol : Protocol) : List Use :=
  unit.types.flatMap TypeDecl.uses ++ protocol.uses

structure Resolution where
  table : DeclTable
  /-- Where a member is declared. -/
  scope : DeclScope
  actorStates : OrderedMap NodeId State
  poisoned : List NodeId
  errors : List (Located NamingError)

namespace Resolution

def ofBindings (bindings : Bindings) : Resolution :=
  ⟨bindings.table, .unit, .empty, [], bindings.errors⟩

variable (resolution : Resolution)

def report (error : NamingError) (loc : Location) : Resolution :=
  { resolution with errors := resolution.errors ++ [⟨error, loc⟩] }

def poison (node : NodeId) : Resolution :=
  { resolution with poisoned := resolution.poisoned.insert node }

def link (node : NodeId) (decl : DeclId) : Resolution :=
  { resolution with table := resolution.table.link node decl }

def record (decl : Decl) (node : NodeId) : Resolution :=
  { resolution with table := resolution.table.record decl node }

def setActorState (node : NodeId) (state : State) : Resolution :=
  { resolution with actorStates := resolution.actorStates.insert node state }

def isProtocol (decl : DeclId) : Bool :=
  (resolution.table.decl? decl).any fun decl => decl.kind.isProtocol

/-- The full name of a member of what is open. -/
def memberFullName (name : String) : String :=
  match resolution.scope.owner?.bind resolution.table.decl? with
  | some owner => owner.fullName ++ "::" ++ name
  | none => name

/-- The parameters whose name an earlier one has. -/
def repeatedParams (seen : List String) : List Member → List Member
  | [] => []
  | param :: rest =>
      if param.name ∈ seen then param :: repeatedParams seen rest
      else repeatedParams (param.name :: seen) rest

variable (names : Names) (home : Home)

/-- Gives the type of an actor its state, which the protocol of the unit must have. -/
def useActorState (type : TypeRef) (decl : DeclId) (state : State) : Resolution :=
  if names.own = some decl then
    match names.states.find? state.name with
    | some declared =>
        let linked :=
          if state.id.isSynthetic then resolution else resolution.link state.id declared
        linked.setActorState type.id state
    | none =>
        (resolution.report (.unknownState type.name.text state.name) type.loc).poison type.id
  else resolution.setActorState type.id state

/-- The state that a type asks for. An actor without one may be in any state. -/
def useRequestedState (type : TypeRef) (decl : DeclId) : Resolution :=
  match type.state, resolution.isProtocol decl with
  | some state, true => resolution.useActorState names type decl state
  | some state, false =>
      (resolution.report (.notAnActorType type.name.text state.name) type.loc).poison type.id
  | none, true => resolution.setActorState type.id .any
  | none, false => resolution

def useType (type : TypeRef) : Resolution :=
  match names.type? home type.name with
  | some decl => (resolution.link type.id decl).useRequestedState names type decl
  | none => (resolution.report (.unknownType type.name.text) type.loc).poison type.id

/-- A member is declared in what is open, if its type is known. -/
def useMember (kind : DeclId → DeclKind) (member : Member) : Resolution :=
  let typed := resolution.useType names home member.type
  match names.type? home member.type.name with
  | some type =>
      typed.record
        (home.decl typed.table.nextId member.name (typed.memberFullName member.name) (kind type)
          typed.scope member.loc)
        member.id
  | none => typed.poison member.id

def useProtocolName (name : Ident) : Resolution :=
  match names.protocols.find? name.name with
  | some decl => resolution.link name.id decl
  | none => (resolution.report (.unknownProtocol name.name) name.loc).poison name.id

def useDestination (state : State) : Resolution :=
  if state.id.isSynthetic then resolution
  else
    match names.states.find? state.name with
    | some decl => resolution.link state.id decl
    | none => resolution

/-- Padding, and anything else without a trigger and a message, uses no names. -/
def useTransition (transition : Transition) : Resolution :=
  match transition.action with
  | none => resolution
  | some (_, message) =>
      let named :=
        match names.messages.find? message with
        | some decl => resolution.link transition.id decl
        | none =>
            (resolution.report (.unknownMessage message) transition.loc).poison transition.id
      transition.destinations.foldl (fun named state => named.useDestination names state) named

def openScope (node : NodeId) (scope : DeclId → DeclScope) : Resolution :=
  { resolution with
    scope :=
      match resolution.table.linkOf? node with
      | some owner => scope owner
      | none => .unit }

def openMessage (message : Message) : Resolution :=
  let reported :=
    (repeatedParams [] message.params).foldl
      (fun reported param =>
        reported.report (.duplicateParam message.name param.name) param.loc)
      resolution
  reported.openScope message.id .message

def use : Use → Resolution
  | .openStruct struct => resolution.openScope struct .struct
  | .openMessage message => resolution.openMessage message
  | .field member => resolution.useMember names home .field member
  | .component type => resolution.useType names home type
  | .param member => resolution.useMember names home .param member
  | .protocolName name => resolution.useProtocolName names name
  | .transition transition => resolution.useTransition names transition

def useAll (uses : List Use) : Resolution :=
  uses.foldl (fun resolution use => resolution.use names home use) resolution

end Resolution

/-- A unit with what is known of its names. -/
structure Resolved where
  unit : SourceUnit
  decls : DeclTable
  /-- The states of the types of actors. -/
  actorStates : OrderedMap NodeId State
  poisoned : List NodeId

namespace Resolved

def actorState? (resolved : Resolved) (node : NodeId) : Option State :=
  resolved.actorStates.find? node

def isPoisoned (resolved : Resolved) (node : NodeId) : Bool :=
  resolved.poisoned.contains node

end Resolved

namespace SourceUnit

/-- Links the names of a unit, whose protocol is given. -/
def resolution (unit : SourceUnit) (protocol : Protocol) (extra : List String) : Resolution :=
  let home := Home.ofProtocol protocol
  let bindings := Bindings.ofBinders home (unit.binders protocol extra)
  (Resolution.ofBindings bindings).useAll bindings.names home (unit.uses protocol)

def resolve (unit : SourceUnit) (extra : List String) :
    Except Fault (Reported Resolved NamingError) := do
  let protocol ← unit.requireProtocol
  let resolution := unit.resolution protocol extra
  return ⟨⟨unit, resolution.table, resolution.actorStates, resolution.poisoned⟩,
    resolution.errors⟩

end SourceUnit

end ActorProtocol
