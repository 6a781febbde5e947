import ActorProtocol.Source.Unit

/-!
# Walking a unit

A visitor has a method for every kind of node. The method for a node with others
in it is handed the walk through those, and decides whether to take it and what to
do besides. The walk follows the order in which a unit is read: headers, includes,
types, types brought in, then the protocol with its namespaces, its relations to
other protocols, its messages and its statements.

Not visited are the types inside the types brought in, the namespaces of
structures and unions, the two ends of a bridge and the state annotations of
types.
-/

namespace ActorProtocol

set_option autoImplicit false

inductive Node where
  | unit (unit : SourceUnit)
  | headerInclude (header : HeaderInclude)
  | protocolInclude (included : ProtocolInclude)
  | usingType (brought : UsingType)
  | struct (decl : TypeDecl)
  | field (member : Member)
  | union (decl : TypeDecl)
  | protocol (protocol : Protocol)
  | scopeName (name : Ident)
  | spawns (spawns : Spawns)
  | bridges (bridges : Bridges)
  | manager (manager : Ident)
  | managed (managed : Ident)
  | message (message : Message)
  | param (member : Member)
  | typeRef (type : TypeRef)
  | statement (statement : Statement)
  | transition (transition : Transition)
  | state (state : State)

inductive NodeKind where
  | unit | headerInclude | protocolInclude | usingType | struct | field | union | protocol
  | scopeName | spawns | bridges | manager | managed | message | param | typeRef
  | statement | transition | state
  deriving DecidableEq

namespace Node

def kind : Node → NodeKind
  | unit _ => .unit
  | headerInclude _ => .headerInclude
  | protocolInclude _ => .protocolInclude
  | usingType _ => .usingType
  | struct _ => .struct
  | field _ => .field
  | union _ => .union
  | protocol _ => .protocol
  | scopeName _ => .scopeName
  | spawns _ => .spawns
  | bridges _ => .bridges
  | manager _ => .manager
  | managed _ => .managed
  | message _ => .message
  | param _ => .param
  | typeRef _ => .typeRef
  | statement _ => .statement
  | transition _ => .transition
  | state _ => .state

def id : Node → NodeId
  | unit node => node.id
  | headerInclude node => node.id
  | protocolInclude node => node.id
  | usingType node => node.id
  | struct node | union node => node.id
  | field node | param node => node.id
  | protocol node => node.id
  | scopeName node | manager node | managed node => node.id
  | spawns node => node.id
  | bridges node => node.id
  | message node => node.id
  | typeRef node => node.id
  | statement node => node.id
  | transition node => node.id
  | state node => node.id

def loc : Node → Location
  | unit node => node.loc
  | headerInclude node => node.loc
  | protocolInclude node => node.loc
  | usingType node => node.loc
  | struct node | union node => node.loc
  | field node | param node => node.loc
  | protocol node => node.loc
  | scopeName node | manager node | managed node => node.loc
  | spawns node => node.loc
  | bridges node => node.loc
  | message node => node.loc
  | typeRef node => node.loc
  | statement node => node.loc
  | transition node => node.loc
  | state node => node.loc

end Node

/-- What is done at the nodes of each kind. By default a method takes the walk that it is
handed, or does nothing if no nodes are visited inside. -/
structure Visitor (Seen : Type) where
  unit : SourceUnit → (Seen → Seen) → Seen → Seen := fun _ walk => walk
  headerInclude : HeaderInclude → Seen → Seen := fun _ seen => seen
  protocolInclude : ProtocolInclude → Seen → Seen := fun _ seen => seen
  usingType : UsingType → Seen → Seen := fun _ seen => seen
  struct : TypeDecl → (Seen → Seen) → Seen → Seen := fun _ walk => walk
  field : Member → (Seen → Seen) → Seen → Seen := fun _ walk => walk
  union : TypeDecl → (Seen → Seen) → Seen → Seen := fun _ walk => walk
  protocol : Protocol → (Seen → Seen) → Seen → Seen := fun _ walk => walk
  scopeName : Ident → Seen → Seen := fun _ seen => seen
  spawns : Spawns → Seen → Seen := fun _ seen => seen
  bridges : Bridges → Seen → Seen := fun _ seen => seen
  manager : Ident → Seen → Seen := fun _ seen => seen
  managed : Ident → Seen → Seen := fun _ seen => seen
  message : Message → (Seen → Seen) → Seen → Seen := fun _ walk => walk
  param : Member → (Seen → Seen) → Seen → Seen := fun _ walk => walk
  typeRef : TypeRef → Seen → Seen := fun _ seen => seen
  statement : Statement → (Seen → Seen) → Seen → Seen := fun _ walk => walk
  transition : Transition → (Seen → Seen) → Seen → Seen := fun _ walk => walk
  state : State → Seen → Seen := fun _ seen => seen

namespace Visitor

variable {Seen : Type}

/-- Visits the items of a list one after the other. -/
def each {Item : Type} (visit : Item → Seen → Seen) (items : List Item) (seen : Seen) : Seen :=
  items.foldl (fun seen item => visit item seen) seen

variable (visitor : Visitor Seen)

def visitField (member : Member) : Seen → Seen :=
  visitor.field member (visitor.typeRef member.type)

def visitParam (member : Member) : Seen → Seen :=
  visitor.param member (visitor.typeRef member.type)

def visitTypeDecl (decl : TypeDecl) : Seen → Seen :=
  match decl.body with
  | .struct fields => visitor.struct decl (each visitor.visitField fields)
  | .union components => visitor.union decl (each visitor.typeRef components)

def visitMessage (message : Message) : Seen → Seen :=
  visitor.message message fun seen =>
    each visitor.visitParam message.outParams (each visitor.visitParam message.inParams seen)

def visitTransition (transition : Transition) : Seen → Seen :=
  visitor.transition transition (each visitor.state transition.destinations)

def visitStatement (statement : Statement) : Seen → Seen :=
  visitor.statement statement fun seen =>
    each visitor.visitTransition statement.transitions (visitor.state statement.state seen)

def walkProtocol (protocol : Protocol) (seen : Seen) : Seen :=
  let seen := each visitor.scopeName protocol.namespaces seen
  let seen := each visitor.spawns protocol.spawns seen
  let seen := each visitor.bridges protocol.bridges seen
  let seen := each visitor.manager protocol.managers seen
  let seen := each visitor.managed protocol.manages seen
  let seen := each visitor.visitMessage protocol.messages seen
  each visitor.visitStatement protocol.statements seen

def visitProtocol (protocol : Protocol) : Seen → Seen :=
  visitor.protocol protocol (visitor.walkProtocol protocol)

def walkUnit (unit : SourceUnit) (seen : Seen) : Seen :=
  let seen := each visitor.headerInclude unit.headers seen
  let seen := each visitor.protocolInclude unit.includes seen
  let seen := each visitor.visitTypeDecl unit.types seen
  let seen := each visitor.usingType unit.usings seen
  each visitor.visitProtocol unit.protocol.toList seen

def visitUnit (unit : SourceUnit) : Seen → Seen :=
  visitor.unit unit (visitor.walkUnit unit)

/-- Notes a node, and takes the walk unless the node is of one of some kinds. -/
def note (stops : List NodeKind) (node : Node) (walk : List Node → List Node)
    (seen : List Node) : List Node :=
  if node.kind ∈ stops then seen ++ [node] else walk (seen ++ [node])

/-- Notes every node, and does not walk on at nodes of some kinds. -/
def recording (stops : List NodeKind) : Visitor (List Node) where
  unit unit := note stops (.unit unit)
  headerInclude header seen := seen ++ [.headerInclude header]
  protocolInclude included seen := seen ++ [.protocolInclude included]
  usingType brought seen := seen ++ [.usingType brought]
  struct decl := note stops (.struct decl)
  field member := note stops (.field member)
  union decl := note stops (.union decl)
  protocol protocol := note stops (.protocol protocol)
  scopeName name seen := seen ++ [.scopeName name]
  spawns spawns seen := seen ++ [.spawns spawns]
  bridges bridges seen := seen ++ [.bridges bridges]
  manager manager seen := seen ++ [.manager manager]
  managed managed seen := seen ++ [.managed managed]
  message message := note stops (.message message)
  param member := note stops (.param member)
  typeRef type seen := seen ++ [.typeRef type]
  statement statement := note stops (.statement statement)
  transition transition := note stops (.transition transition)
  state state seen := seen ++ [.state state]

/-- Notes types and states, and leaves all else to the defaults. -/
def ofLeaves : Visitor (List Node) where
  typeRef type seen := seen ++ [.typeRef type]
  state state seen := seen ++ [.state state]

end Visitor

namespace SourceUnit

/-- Every node visited, when the walk does not go on at nodes of the given kinds. -/
def trace (unit : SourceUnit) (stops : List NodeKind) : List Node :=
  (Visitor.recording stops).visitUnit unit []

/-- The types and states visited. -/
def leaves (unit : SourceUnit) : List Node :=
  Visitor.ofLeaves.visitUnit unit []

end SourceUnit

end ActorProtocol
