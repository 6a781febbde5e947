import ActorProtocol.Data.OrderedMap
import ActorProtocol.Declaration.Basic
import ActorProtocol.Source.Unit

/-!
# Names in scope

Names are read from a home, the place of the protocol of a unit: the namespaces
around it, outermost first, and its own name. A type may be spelled relative to
any of the namespaces around the protocol, and the innermost that fits is meant.
-/

namespace ActorProtocol

set_option autoImplicit false

structure Home where
  namespaces : List String
  protocol : String
  deriving DecidableEq

namespace Home

def ofProtocol (protocol : Protocol) : Home :=
  ⟨protocol.namespaces.map Ident.name, protocol.name⟩

/-- The qualifiers of what the protocol itself declares. -/
def context (home : Home) : List String :=
  home.namespaces ++ [home.protocol]

/-- The full name of something that the protocol declares. -/
def qualify (home : Home) (name : String) : String :=
  QualifiedName.join home.context name

/-- The full names that a spelling may stand for, the innermost first. -/
def candidates (home : Home) (spelling : String) : List String :=
  (List.range (home.namespaces.length + 1)).reverse.map fun depth =>
    QualifiedName.join (home.namespaces.take depth) spelling

/-- A declaration as it is seen from the home. -/
def decl (home : Home) (id : DeclId) (name fullName : String) (kind : DeclKind)
    (scope : DeclScope) (loc : Location) : Decl :=
  { id, name, shortName := QualifiedName.shortName fullName home.context, fullName, kind, scope,
    loc }

end Home

/-- The declarations that spellings stand for. -/
structure Names where
  types : OrderedMap String DeclId
  protocols : OrderedMap String DeclId
  messages : OrderedMap String DeclId
  states : OrderedMap String DeclId
  /-- The declaration of the protocol of the unit. -/
  own : Option DeclId

namespace Names

def empty : Names := ⟨.empty, .empty, .empty, .empty, none⟩

def type? (names : Names) (home : Home) (name : QualifiedName) : Option DeclId :=
  (home.candidates name.text).findSome? names.types.find?

end Names

/-- The types that every unit can name. -/
def builtinTypes : List String :=
  ["bool", "char", "short", "int", "long", "float", "double",
    "int8_t", "uint8_t", "int16_t", "uint16_t", "int32_t", "uint32_t", "int64_t", "uint64_t",
    "intptr_t", "uintptr_t", "size_t", "ssize_t",
    "nsresult", "nsString", "nsCString", "mozilla::ipc::Shmem"]

end ActorProtocol
