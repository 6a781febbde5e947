import ActorProtocol.Declaration.Table
import ActorProtocol.Naming.Error
import ActorProtocol.Naming.Names

/-!
# Bindings of a unit

Everything that a unit declares is bound before any name in it is looked up, so
a use may stand before its declaration. The binders of a unit come in a fixed
order: the builtin types and sentinel states, the types brought in, structures
and unions, the protocol, the protocols included, messages and source states.

A name keeps its first meaning. A later declaration of it is recorded and
reported, except that a type brought in twice, or a source state named twice, is
only linked to the first declaration. Protocols stand above other types: the
protocol of the unit takes its names in any case, and so does an included one
unless another protocol has its name.
-/

namespace ActorProtocol

set_option autoImplicit false

inductive Binder where
  | builtinType (name : String)
  | sentinel (state : State)
  | usingType (brought : UsingType)
  | typeDecl (decl : TypeDecl)
  | ownProtocol (protocol : Protocol)
  | included (included : ProtocolInclude)
  | message (message : Message)
  | sourceState (state : State)

/-- The binders of a unit with a protocol, when some types are builtin besides
the usual ones. -/
def SourceUnit.binders (unit : SourceUnit) (protocol : Protocol) (extra : List String) :
    List Binder :=
  (builtinTypes ++ extra).map Binder.builtinType ++
    [.sentinel .any, .sentinel .dead] ++
    unit.usings.map Binder.usingType ++
    unit.types.map Binder.typeDecl ++
    [.ownProtocol protocol] ++
    unit.includes.map Binder.included ++
    protocol.messages.map Binder.message ++
    protocol.statements.map fun statement => .sourceState statement.state

structure Bindings where
  table : DeclTable
  names : Names
  errors : List (Located NamingError)

namespace Bindings

def empty : Bindings := ⟨.empty, .empty, []⟩

def report (bindings : Bindings) (error : NamingError) (loc : Location) : Bindings :=
  { bindings with errors := bindings.errors ++ [⟨error, loc⟩] }

/-- Adds a declaration that no node makes. -/
def add (bindings : Bindings) (decl : Decl) : Bindings :=
  { bindings with table := bindings.table.add decl }

def record (bindings : Bindings) (decl : Decl) (node : NodeId) : Bindings :=
  { bindings with table := bindings.table.record decl node }

def link (bindings : Bindings) (node : NodeId) (decl : DeclId) : Bindings :=
  { bindings with table := bindings.table.link node decl }

def nameType (bindings : Bindings) (name : String) (decl : DeclId) : Bindings :=
  { bindings with
    names := { bindings.names with types := bindings.names.types.insert name decl } }

/-- Names a type unless the name is taken. -/
def nameTypeIfNew (bindings : Bindings) (name : String) (decl : DeclId) : Bindings :=
  { bindings with
    names := { bindings.names with types := bindings.names.types.insertIfNew name decl } }

def nameProtocol (bindings : Bindings) (name : String) (decl : DeclId) : Bindings :=
  { bindings with
    names := { bindings.names with protocols := bindings.names.protocols.insert name decl } }

def nameMessage (bindings : Bindings) (name : String) (decl : DeclId) : Bindings :=
  { bindings with
    names := { bindings.names with messages := bindings.names.messages.insert name decl } }

def nameState (bindings : Bindings) (name : String) (decl : DeclId) : Bindings :=
  { bindings with
    names := { bindings.names with states := bindings.names.states.insert name decl } }

def nameOwn (bindings : Bindings) (decl : DeclId) : Bindings :=
  { bindings with names := { bindings.names with own := some decl } }

variable (home : Home) (bindings : Bindings)

def bindBuiltinType (name : String) : Bindings :=
  if bindings.names.types.contains name then bindings
  else
    let decl := home.decl bindings.table.nextId name name .builtinType .builtin .unknown
    (bindings.nameType name decl.id).add decl

def bindSentinel (state : State) : Bindings :=
  let decl :=
    home.decl bindings.table.nextId state.name state.name (.state state.start) .builtin .unknown
  (bindings.nameState state.name decl.id).add decl

/-- A type that is brought in is known by its full and by its base name. -/
def bindUsingType (brought : UsingType) : Bindings :=
  let fullName := brought.type.name.text
  match bindings.names.types.find? fullName with
  | some existing => bindings.link brought.type.id existing
  | none =>
      let decl :=
        home.decl bindings.table.nextId brought.type.baseName fullName .importedType .unit
          brought.loc
      ((bindings.nameType fullName decl.id).nameTypeIfNew brought.type.baseName decl.id).record
        decl brought.type.id

def bindTypeDecl (type : TypeDecl) : Bindings :=
  let fullName := type.qualifiedName.text
  let kind :=
    match type.body with
    | .struct _ => .struct
    | .union _ => .union
  let decl := home.decl bindings.table.nextId type.name fullName kind .unit type.loc
  let named :=
    if bindings.names.types.contains fullName then
      bindings.report (.duplicateDecl fullName) type.loc
    else bindings.nameType fullName decl.id
  named.record decl type.id

def bindOwnProtocol (protocol : Protocol) : Bindings :=
  let fullName := protocol.qualifiedName.text
  let decl :=
    home.decl bindings.table.nextId protocol.name fullName (.protocol protocol.semantics) .unit
      protocol.loc
  ((((bindings.nameType fullName decl.id).nameType protocol.name decl.id).nameProtocol
    protocol.name decl.id).nameOwn decl.id).record decl protocol.id

def bindIncluded (included : ProtocolInclude) : Bindings :=
  let name := included.protocol
  let decl :=
    home.decl bindings.table.nextId name name (.includedProtocol included.file) .unit included.loc
  let named :=
    if bindings.names.protocols.contains name then
      bindings.report (.duplicateDecl name) included.loc
    else (bindings.nameType name decl.id).nameProtocol name decl.id
  named.record decl included.id

def bindMessage (message : Message) : Bindings :=
  let fullName := home.qualify message.name
  let decl :=
    home.decl bindings.table.nextId message.name fullName
      (.message message.semantics message.direction) .protocol message.loc
  let named :=
    if bindings.names.messages.contains message.name then
      bindings.report (.duplicateDecl fullName) message.loc
    else bindings.nameMessage message.name decl.id
  named.record decl message.id

/-- A second statement for a state is an error of the machine, not of its name. -/
def bindSourceState (state : State) : Bindings :=
  match bindings.names.states.find? state.name with
  | some existing => bindings.link state.id existing
  | none =>
      let decl :=
        home.decl bindings.table.nextId state.name (home.qualify state.name) (.state state.start)
          .protocol state.loc
      (bindings.nameState state.name decl.id).record decl state.id

def bind : Binder → Bindings
  | .builtinType name => bindings.bindBuiltinType home name
  | .sentinel state => bindings.bindSentinel home state
  | .usingType brought => bindings.bindUsingType home brought
  | .typeDecl decl => bindings.bindTypeDecl home decl
  | .ownProtocol protocol => bindings.bindOwnProtocol home protocol
  | .included included => bindings.bindIncluded home included
  | .message message => bindings.bindMessage home message
  | .sourceState state => bindings.bindSourceState home state

def ofBinders (binders : List Binder) : Bindings :=
  binders.foldl (fun bindings binder => bindings.bind home binder) empty

end Bindings

end ActorProtocol
