import ActorProtocol.Source.Unit

/-!
# The text of a unit

A unit is written out in one fixed layout, as a list of lines. Its sections are
the includes, the types, the types brought in and the protocol, and a blank line
separates those that are not empty. Comments and spacing of any earlier text are
not kept. Messages stand under labels that name their direction, a label being
written where the direction changes, and namespaces are opened and closed around
every declaration inside them. Padding transitions are not written.
-/

namespace ActorProtocol

set_option autoImplicit false

/-- The mark { that begins a block. -/
def openBrace : String :=
  String.singleton '{'

/-- The mark } that ends a block. -/
def closeBrace : String :=
  String.singleton '}'

namespace TypeRef

/-- The type with its annotations, as it stands in the source. -/
def source (type : TypeRef) : String :=
  (if type.nullable then "nullable " else "") ++ type.name.text ++
    (match type.state with
      | some state => ":" ++ state.name
      | none => "") ++
    (if type.array then "[]" else "")

end TypeRef

namespace Member

def source (member : Member) : String :=
  member.type.source ++ " " ++ member.name

def sourceList (members : List Member) : String :=
  ", ".intercalate (members.map source)

end Member

def indented (text : String) : String :=
  "    " ++ text

namespace Message

/-- Results are written when a reply is waited for or when there are any. -/
def source (message : Message) : String :=
  message.semantics.name ++ " " ++ message.name ++
    "(" ++ Member.sourceList message.inParams ++ ")" ++
    (if message.hasReply || !message.outParams.isEmpty then
      " returns (" ++ Member.sourceList message.outParams ++ ")"
    else "") ++ ";"

end Message

namespace Transition

def source? (transition : Transition) : Option String :=
  transition.action.map fun (trigger, message) =>
    trigger.name ++ " " ++ message ++ " goto " ++
      " or ".intercalate (transition.destinations.map State.name) ++ ";"

end Transition

namespace Direction

/-- The label above the messages of a direction, naming the side they go to. -/
def label : Direction → String
  | inbound => "parent:"
  | outbound => "child:"
  | either => "both:"

end Direction

/-- Opens namespaces before some lines and closes them after, innermost first. -/
def withinNamespaces : List Ident → List String → List String
  | [], lines => lines
  | scope :: rest, lines =>
      ("namespace " ++ scope.name ++ " " ++ openBrace) ::
        (withinNamespaces rest lines ++ [closeBrace ++ " // namespace " ++ scope.name])

/-- Puts a blank line between the sections that have lines. -/
def sections : List (List String) → List String
  | [] => []
  | lines :: rest =>
      let later := sections rest
      if lines.isEmpty then later
      else if later.isEmpty then lines
      else lines ++ [""] ++ later

namespace TypeDecl

def sourceLines (decl : TypeDecl) : List String :=
  withinNamespaces decl.namespaces <|
    match decl.body with
    | .struct fields =>
        ("struct " ++ decl.name ++ " " ++ openBrace) ::
          (fields.map fun field => indented (field.source ++ ";")) ++ [closeBrace ++ ";"]
    | .union components =>
        ("union " ++ decl.name ++ " " ++ openBrace) ::
          (components.map fun component => indented (component.source ++ ";")) ++
            [closeBrace ++ ";"]

end TypeDecl

namespace Protocol

def relationLines (protocol : Protocol) : List String :=
  (protocol.spawns.map fun spawns =>
      indented (spawns.side.name ++ " spawns " ++ spawns.protocol ++ " as " ++
        spawns.spawnedAs.name ++ ";")) ++
    (protocol.bridges.map fun bridges =>
      indented ("bridges " ++ bridges.parent.name ++ ", " ++ bridges.child.name ++ ";")) ++
    (protocol.managers.map fun manager => indented ("manager " ++ manager.name ++ ";")) ++
    (protocol.manages.map fun managed => indented ("manages " ++ managed.name ++ ";"))

/-- Messages after one of the given direction, if any came before. -/
def messageLines (previous : Option Direction) : List Message → List String
  | [] => []
  | message :: rest =>
      (if previous = some message.direction then [] else [message.direction.label]) ++
        indented message.source :: messageLines (some message.direction) rest

def statementLines (statement : Statement) : List String :=
  ((if statement.state.start then "start state " else "state ") ++
      statement.state.name ++ ":") ::
    (statement.transitions.filterMap Transition.source?).map indented

def sourceLines (protocol : Protocol) : List String :=
  withinNamespaces protocol.namespaces <|
    [(match protocol.semantics with
      | .async => "protocol "
      | semantics => semantics.name ++ " protocol ") ++ protocol.name,
      openBrace] ++
    sections
      [protocol.relationLines,
        messageLines none protocol.messages,
        protocol.statements.flatMap statementLines] ++
    [closeBrace ++ ";"]

end Protocol

namespace SourceUnit

def includeLines (unit : SourceUnit) : List String :=
  (unit.headers.map fun header => "include \"" ++ header.file ++ "\";") ++
    (unit.includes.map fun included => "include protocol " ++ included.protocol ++ ";")

def sourceLines (unit : SourceUnit) : List String :=
  sections
    [unit.includeLines,
      unit.types.flatMap TypeDecl.sourceLines,
      unit.usings.map fun brought => "using " ++ brought.type.source ++ ";",
      unit.protocol.toList.flatMap Protocol.sourceLines]

/-- The text of a unit. Every line is ended by a line feed. -/
def text (unit : SourceUnit) : String :=
  String.join (unit.sourceLines.map fun line => line ++ "\n")

end SourceUnit

end ActorProtocol
