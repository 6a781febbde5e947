import ActorProtocol.Location
import ActorProtocol.Messaging

/-!
# Declarations

A declaration records what a name stands for. It keeps names and kinds only; the
node that declares it stays in its unit.
-/

namespace ActorProtocol

set_option autoImplicit false

/-- A position in a table of declarations. -/
structure DeclId where
  position : Nat
  deriving DecidableEq

def DeclId.text (id : DeclId) : String :=
  toString id.position

inductive DeclKind where
  | builtinType
  /-- A type of the implementation that the unit brings in. -/
  | importedType
  | struct
  | union
  | field (type : DeclId)
  | protocol (semantics : Semantics)
  /-- A protocol that is described in another file. -/
  | includedProtocol (file : String)
  | message (semantics : Semantics) (direction : Direction)
  | param (type : DeclId)
  | state (start : Bool)
  deriving DecidableEq

namespace DeclKind

def isType : DeclKind → Bool
  | builtinType | importedType | struct | union | protocol _ | includedProtocol _ => true
  | field _ | message _ _ | param _ | state _ => false

def isProtocol : DeclKind → Bool
  | protocol _ | includedProtocol _ => true
  | builtinType | importedType | struct | union | field _ | message _ _ | param _ | state _ =>
      false

def text : DeclKind → String
  | builtinType => "BuiltinType"
  | importedType => "ImportedType"
  | struct => "Struct"
  | union => "Union"
  | field type => "Field[ty=" ++ type.text ++ "]"
  | protocol semantics => "Protocol (" ++ semantics.name ++ ")"
  | includedProtocol file => "IncludedProtocol (" ++ file ++ ")"
  | message semantics direction =>
      "Message (" ++ semantics.name ++ ", " ++ direction.name ++ ")"
  | param type => "Param[ty=" ++ type.text ++ "]"
  | state true => "State (start)"
  | state false => "State"

end DeclKind

/-- Where a declaration stands. -/
inductive DeclScope where
  | builtin
  | unit
  | protocol
  | struct (owner : DeclId)
  | message (owner : DeclId)
  deriving DecidableEq

/-- The declaration that a member belongs to. -/
def DeclScope.owner? : DeclScope → Option DeclId
  | struct owner | message owner => some owner
  | builtin | unit | protocol => none

structure Decl where
  id : DeclId
  /-- The name as it is written. -/
  name : String
  /-- The spelling that is left inside the protocol of the unit. -/
  shortName : String
  fullName : String
  kind : DeclKind
  scope : DeclScope
  loc : Location
  deriving DecidableEq

namespace Decl

/-- Declarations count by their ids. -/
def sameAs (left right : Decl) : Bool :=
  left.id == right.id

def text (decl : Decl) : String :=
  "Decl [" ++ decl.id.text ++ "] " ++ decl.fullName ++ ": " ++ decl.kind.text

end Decl

end ActorProtocol
