import ActorProtocol.QualifiedName
import ActorProtocol.Role
import ActorProtocol.Source.State

/-!
# Source units

A source unit is what one file holds: the headers and protocols it includes, the
types it brings in or declares, and the protocol it describes. The nodes hold
only what is written; what their names mean is kept elsewhere, by node id.
-/

namespace ActorProtocol

set_option autoImplicit false

/-- An include of a header of the implementation. -/
structure HeaderInclude where
  id : NodeId
  file : String
  loc : Location
  deriving DecidableEq

structure ProtocolInclude where
  id : NodeId
  protocol : String
  file : String
  loc : Location
  deriving DecidableEq

/-- The file that describes a protocol when none is given. -/
def ProtocolInclude.defaultFile (protocol : String) : String :=
  protocol ++ ".ipdl"

/-- A use of a type. A state annotation belongs to the types of actors, which
are named by their protocols. -/
structure TypeRef where
  id : NodeId
  name : QualifiedName
  state : Option State
  array : Bool
  nullable : Bool
  myChmod : Option String
  otherChmod : Option String
  loc : Location
  deriving DecidableEq

namespace TypeRef

def baseName (type : TypeRef) : String :=
  type.name.base

def isActor (type : TypeRef) : Bool :=
  type.state.isSome

end TypeRef

structure UsingType where
  id : NodeId
  type : TypeRef
  loc : Location
  deriving DecidableEq

/-- A field of a structure or a parameter of a message. -/
structure Member where
  id : NodeId
  name : String
  type : TypeRef
  loc : Location
  deriving DecidableEq

inductive TypeBody where
  | struct (fields : List Member)
  | union (components : List TypeRef)
  deriving DecidableEq

/-- A declaration of a structure or a union. Namespaces run from the outermost
to the innermost. -/
structure TypeDecl where
  id : NodeId
  name : String
  namespaces : List Ident
  body : TypeBody
  loc : Location
  deriving DecidableEq

namespace TypeDecl

def qualifiedName (decl : TypeDecl) : QualifiedName :=
  ⟨decl.namespaces.map Ident.name, decl.name⟩

/-- Puts the declaration into one more namespace, around those it is in. -/
def addOuterNamespace (decl : TypeDecl) (scope : Ident) : TypeDecl :=
  { decl with namespaces := scope :: decl.namespaces }

def typeRefs (decl : TypeDecl) : List TypeRef :=
  match decl.body with
  | .struct fields => fields.map Member.type
  | .union components => components

end TypeDecl

inductive Side where
  | parent
  | child
  deriving DecidableEq

def Side.name : Side → String
  | .parent => "parent"
  | .child => "child"

/-- One side spawns an actor of a protocol, which takes a side of its own. -/
structure Spawns where
  id : NodeId
  side : Side
  protocol : String
  spawnedAs : Side
  loc : Location
  deriving DecidableEq

structure Bridges where
  id : NodeId
  parent : Ident
  child : Ident
  loc : Location
  deriving DecidableEq

structure Message where
  id : NodeId
  name : String
  semantics : Semantics
  direction : Direction
  inParams : List Member
  outParams : List Member
  loc : Location
  deriving DecidableEq

namespace Message

def params (message : Message) : List Member :=
  message.inParams ++ message.outParams

def hasReply (message : Message) : Bool :=
  message.semantics.hasReply

def role (message : Message) : Except Fault Role :=
  Role.derive message.semantics message.direction

end Message

structure Protocol where
  id : NodeId
  name : String
  namespaces : List Ident
  semantics : Semantics
  spawns : List Spawns
  bridges : List Bridges
  managers : List Ident
  manages : List Ident
  messages : List Message
  statements : List Statement
  loc : Location
  deriving DecidableEq

namespace Protocol

def qualifiedName (protocol : Protocol) : QualifiedName :=
  ⟨protocol.namespaces.map Ident.name, protocol.name⟩

/-- Puts the protocol into one more namespace, around those it is in. -/
def addOuterNamespace (protocol : Protocol) (scope : Ident) : Protocol :=
  { protocol with namespaces := scope :: protocol.namespaces }

def typeRefs (protocol : Protocol) : List TypeRef :=
  protocol.messages.flatMap fun message => message.params.map Member.type

/-- The source states flagged as a start, one for every statement. -/
def startStates (protocol : Protocol) : List State :=
  (protocol.statements.map Statement.state).filter State.start

/-- The first message of a name. -/
def message? (protocol : Protocol) (name : String) : Option Message :=
  protocol.messages.find? fun message => message.name == name

def isManagerOf (protocol : Protocol) (name : String) : Bool :=
  protocol.manages.any fun managed => managed.name == name

def isManagedBy (protocol : Protocol) (name : String) : Bool :=
  protocol.managers.any fun manager => manager.name == name

end Protocol

structure SourceUnit where
  id : NodeId
  file : String
  headers : List HeaderInclude
  includes : List ProtocolInclude
  usings : List UsingType
  types : List TypeDecl
  protocol : Option Protocol
  loc : Location
  deriving DecidableEq

namespace SourceUnit

/-- The unit of a file that holds nothing yet. -/
def ofFile (id : NodeId) (file : String) : SourceUnit :=
  ⟨id, file, [], [], [], [], none, .ofLine file 0⟩

/-- The types used by fields, components and parameters, in reading order. -/
def typeRefs (unit : SourceUnit) : List TypeRef :=
  unit.types.flatMap TypeDecl.typeRefs ++ unit.protocol.toList.flatMap Protocol.typeRefs

/-- The protocol of a unit, which every check needs. -/
def requireProtocol (unit : SourceUnit) : Except Fault Protocol :=
  match unit.protocol with
  | some protocol => .ok protocol
  | none => .error (.missingProtocol unit.file)

/-- Changes the protocol, if there is one. -/
def modifyProtocol (unit : SourceUnit) (change : Protocol → Protocol) : SourceUnit :=
  { unit with protocol := unit.protocol.map change }

end SourceUnit

end ActorProtocol
