import ActorProtocol.Source.Unit

/-!
# Outlines

The outline of a unit is what its text is meant to tell: every name in its place, and
neither ids and locations nor transitions that have no trigger or no message. A unit is
well named when its names hold no letter of the layout. Nothing is asked of how a
name begins, and a keyword is a name like any other.
-/

namespace ActorProtocol

set_option autoImplicit false

/-- The letters of the layout, other than those of its keywords. -/
def layoutLetters : List Char :=
  [' ', '\n', '"', ',', ';', ':', '(', ')', '[', ']', '{', '}', '/']

def IsName (name : String) : Prop :=
  name ≠ "" ∧ ∀ letter ∈ name.toList, letter ∉ layoutLetters

def IsStateName (name : String) : Prop :=
  IsName name ∨ name = State.anyName ∨ name = State.deadName

theorem isName_iff (name : String) :
    (name ≠ "" ∧ name.toList.all fun letter => !layoutLetters.contains letter) ↔ IsName name := by
  simp [IsName]

instance (name : String) : Decidable (IsName name) :=
  decidable_of_decidable_of_iff (isName_iff name)

instance (name : String) : Decidable (IsStateName name) :=
  inferInstanceAs (Decidable (_ ∨ _))

/-- Identifiers are names. -/
theorem isName_of_identifier {name : String} (some_letter : name ≠ "")
    (identifier : ∀ letter ∈ name.toList, letter.isAlphanum ∨ letter = '_') : IsName name := by
  have apart : layoutLetters.all fun letter => !(letter.isAlphanum || letter == '_') := by decide
  constructor
  · exact some_letter
  · intro letter member layout
    have other := List.all_eq_true.mp apart letter layout
    rcases identifier letter member with alphanumeric | underscore
    · simp [alphanumeric] at other
    · simp [underscore] at other

structure TypeOutline where
  spelling : String
  state : Option String
  array : Bool
  nullable : Bool
  deriving DecidableEq

structure MemberOutline where
  name : String
  type : TypeOutline
  deriving DecidableEq

inductive BodyOutline where
  | struct (fields : List MemberOutline)
  | union (components : List TypeOutline)
  deriving DecidableEq

structure TypeDeclOutline where
  name : String
  namespaces : List String
  body : BodyOutline
  deriving DecidableEq

structure SpawnsOutline where
  side : Side
  protocol : String
  spawnedAs : Side
  deriving DecidableEq

structure BridgesOutline where
  parent : String
  child : String
  deriving DecidableEq

structure MessageOutline where
  name : String
  semantics : Semantics
  direction : Direction
  inParams : List MemberOutline
  outParams : List MemberOutline
  deriving DecidableEq

/-- A transition that has a trigger and a message. -/
structure ActionOutline where
  trigger : Trigger
  message : String
  destinations : List String
  deriving DecidableEq

structure StatementOutline where
  source : String
  start : Bool
  actions : List ActionOutline
  deriving DecidableEq

structure ProtocolOutline where
  name : String
  namespaces : List String
  semantics : Semantics
  spawns : List SpawnsOutline
  bridges : List BridgesOutline
  managers : List String
  manages : List String
  messages : List MessageOutline
  statements : List StatementOutline
  deriving DecidableEq

structure UnitOutline where
  headers : List String
  includes : List String
  types : List TypeDeclOutline
  usings : List TypeOutline
  protocol : Option ProtocolOutline
  deriving DecidableEq

/-- Types are told apart by how they are spelled, not by how the spelling is cut. -/
def TypeRef.outline (type : TypeRef) : TypeOutline :=
  ⟨type.name.text, type.state.map State.name, type.array, type.nullable⟩

def Member.outline (member : Member) : MemberOutline :=
  ⟨member.name, member.type.outline⟩

def TypeBody.outline : TypeBody → BodyOutline
  | .struct fields => .struct (fields.map Member.outline)
  | .union components => .union (components.map TypeRef.outline)

def TypeDecl.outline (decl : TypeDecl) : TypeDeclOutline :=
  ⟨decl.name, decl.namespaces.map Ident.name, decl.body.outline⟩

def Spawns.outline (spawns : Spawns) : SpawnsOutline :=
  ⟨spawns.side, spawns.protocol, spawns.spawnedAs⟩

def Bridges.outline (bridges : Bridges) : BridgesOutline :=
  ⟨bridges.parent.name, bridges.child.name⟩

def Message.outline (message : Message) : MessageOutline where
  name := message.name
  semantics := message.semantics
  direction := message.direction
  inParams := message.inParams.map Member.outline
  outParams := message.outParams.map Member.outline

def Transition.outline? (transition : Transition) : Option ActionOutline :=
  transition.action.map fun (trigger, message) =>
    ⟨trigger, message, transition.destinations.map State.name⟩

def Statement.outline (statement : Statement) : StatementOutline where
  source := statement.state.name
  start := statement.state.start
  actions := statement.transitions.filterMap Transition.outline?

def Protocol.outline (protocol : Protocol) : ProtocolOutline where
  name := protocol.name
  namespaces := protocol.namespaces.map Ident.name
  semantics := protocol.semantics
  spawns := protocol.spawns.map Spawns.outline
  bridges := protocol.bridges.map Bridges.outline
  managers := protocol.managers.map Ident.name
  manages := protocol.manages.map Ident.name
  messages := protocol.messages.map Message.outline
  statements := protocol.statements.map Statement.outline

def SourceUnit.outline (unit : SourceUnit) : UnitOutline where
  headers := unit.headers.map HeaderInclude.file
  includes := unit.includes.map ProtocolInclude.protocol
  types := unit.types.map TypeDecl.outline
  usings := unit.usings.map fun brought => brought.type.outline
  protocol := unit.protocol.map Protocol.outline

/-- The segments of the spelling are names. -/
structure TypeOutline.WellNamed (type : TypeOutline) : Prop where
  segments : ∃ name : QualifiedName, name.text = type.spelling ∧
    (∀ qualifier ∈ name.qualifiers, IsName qualifier) ∧ IsName name.base
  state : ∀ state ∈ type.state, IsStateName state

structure MemberOutline.WellNamed (member : MemberOutline) : Prop where
  name : IsName member.name
  type : member.type.WellNamed

def BodyOutline.WellNamed : BodyOutline → Prop
  | .struct fields => ∀ field ∈ fields, field.WellNamed
  | .union components => ∀ component ∈ components, component.WellNamed

structure TypeDeclOutline.WellNamed (decl : TypeDeclOutline) : Prop where
  name : IsName decl.name
  namespaces : ∀ scope ∈ decl.namespaces, IsName scope
  body : decl.body.WellNamed

structure MessageOutline.WellNamed (message : MessageOutline) : Prop where
  name : IsName message.name
  inParams : ∀ param ∈ message.inParams, param.WellNamed
  outParams : ∀ param ∈ message.outParams, param.WellNamed

structure ActionOutline.WellNamed (action : ActionOutline) : Prop where
  message : IsName action.message
  destinations : ∀ destination ∈ action.destinations, IsStateName destination

structure StatementOutline.WellNamed (statement : StatementOutline) : Prop where
  source : IsStateName statement.source
  actions : ∀ action ∈ statement.actions, action.WellNamed

structure ProtocolOutline.WellNamed (protocol : ProtocolOutline) : Prop where
  name : IsName protocol.name
  namespaces : ∀ scope ∈ protocol.namespaces, IsName scope
  spawns : ∀ spawns ∈ protocol.spawns, IsName spawns.protocol
  bridges : ∀ bridges ∈ protocol.bridges, IsName bridges.parent ∧ IsName bridges.child
  managers : ∀ manager ∈ protocol.managers, IsName manager
  manages : ∀ managed ∈ protocol.manages, IsName managed
  messages : ∀ message ∈ protocol.messages, message.WellNamed
  statements : ∀ statement ∈ protocol.statements, statement.WellNamed

/-- The file of a header may hold anything that stands on one line. -/
structure UnitOutline.WellNamed (unit : UnitOutline) : Prop where
  headers : ∀ header ∈ unit.headers, '\n' ∉ header.toList
  includes : ∀ included ∈ unit.includes, IsName included
  types : ∀ decl ∈ unit.types, decl.WellNamed
  usings : ∀ brought ∈ unit.usings, brought.WellNamed
  protocol : ∀ protocol ∈ unit.protocol, protocol.WellNamed

end ActorProtocol
