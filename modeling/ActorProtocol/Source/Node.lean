import ActorProtocol.Location

/-!
# Node handles

Every node of a description has an id, by which later results refer to it. The
id 0 is shared by the nodes that are written down nowhere.
-/

namespace ActorProtocol

set_option autoImplicit false

structure NodeId where
  value : Nat
  deriving DecidableEq

namespace NodeId

def synthetic : NodeId := ⟨0⟩

def isSynthetic (id : NodeId) : Bool :=
  id == synthetic

def text (id : NodeId) : String :=
  toString id.value

end NodeId

/-- A name that stands in the source as a node of its own. -/
structure Ident where
  id : NodeId
  name : String
  loc : Location
  deriving DecidableEq

end ActorProtocol
