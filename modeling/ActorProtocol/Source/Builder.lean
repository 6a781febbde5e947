import ActorProtocol.Source.Unit

/-!
# Building descriptions

A builder belongs to one file. It hands out ids from 1 upwards and stamps every
node with the line it is at. A node that is built together with nodes of its own
takes its id after theirs. The sentinel states take no id.

Ids are words of 32 bits. After the last of them the count starts over, so a builder
tells its nodes apart only as long as the count does not run out.
-/

namespace ActorProtocol

set_option autoImplicit false

structure Builder where
  file : String
  line : Nat
  nextId : UInt32
  deriving DecidableEq

def Builder.ofFile (file : String) : Builder := ⟨file, 1, 1⟩

abbrev Build := StateM Builder

namespace Build

/-- Sets the line that is stamped on the nodes built from here on. -/
def atLine (line : Nat) : Build Unit :=
  modify fun builder => { builder with line }

def location : Build Location := do
  let builder ← get
  return .ofLine builder.file builder.line

def freshId : Build NodeId := do
  let builder ← get
  set { builder with nextId := builder.nextId + 1 }
  return ⟨builder.nextId.toNat⟩

def sourceUnit : Build SourceUnit := do
  let builder ← get
  return .ofFile (← freshId) builder.file

def headerInclude (file : String) : Build HeaderInclude := do
  return ⟨← freshId, file, ← location⟩

def protocolInclude (protocol : String) : Build ProtocolInclude := do
  return ⟨← freshId, protocol, ProtocolInclude.defaultFile protocol, ← location⟩

/-- A namespace, a manager, a managed protocol or one end of a bridge. -/
def ident (name : String) : Build Ident := do
  return ⟨← freshId, name, ← location⟩

def state (name : String) (start : Bool) : Build State := do
  return ⟨← freshId, name, start, ← location⟩

/-- A state as it is named by a destination or by the type of an actor. The
spellings of the sentinels give the sentinels. -/
def stateRef (name : String) : Build State :=
  if name = State.anyName then return .any
  else if name = State.deadName then return .dead
  else state name false

def stateRefs : List String → Build (List State)
  | [] => return []
  | name :: rest => return (← stateRef name) :: (← stateRefs rest)

def typeRef (spelling : String) : Build TypeRef := do
  return ⟨← freshId, .parse spelling, none, false, false, none, none, ← location⟩

/-- The type of the actors of a protocol that are in a state. -/
def actorType (protocol state : String) : Build TypeRef := do
  let state ← stateRef state
  let type ← typeRef protocol
  return { type with state := some state }

/-- Brings in a type that is built already. -/
def usingOf (type : TypeRef) : Build UsingType := do
  return ⟨← freshId, type, ← location⟩

def usingType (spelling : String) : Build UsingType := do
  usingOf (← typeRef spelling)

def member (type : TypeRef) (name : String) : Build Member := do
  return ⟨← freshId, name, type, ← location⟩

def typeDecl (name : String) (body : TypeBody) : Build TypeDecl := do
  return ⟨← freshId, name, [], body, ← location⟩

def protocol (name : String) : Build Protocol := do
  return ⟨← freshId, name, [], .async, [], [], [], [], [], [], ← location⟩

def spawns (side : Side) (protocol : String) (spawnedAs : Side) : Build Spawns := do
  return ⟨← freshId, side, protocol, spawnedAs, ← location⟩

def bridges (parent child : String) : Build Bridges := do
  let parent ← ident parent
  let child ← ident child
  return ⟨← freshId, parent, child, ← location⟩

def message (name : String) (semantics : Semantics) (direction : Direction) :
    Build Message := do
  return ⟨← freshId, name, semantics, direction, [], [], ← location⟩

/-- A transition to states that are built already, with or without an action. -/
def transitionTo (trigger : Option Trigger) (message : Option String)
    (destinations : List State) : Build Transition := do
  return ⟨← freshId, trigger, message, destinations, ← location⟩

def transition (trigger : Trigger) (message : String) (destinations : List String) :
    Build Transition := do
  transitionTo (some trigger) (some message) (← stateRefs destinations)

def statement (state : State) (transitions : List Transition) : Build Statement := do
  return ⟨← freshId, state, transitions, ← location⟩

end Build

end ActorProtocol
