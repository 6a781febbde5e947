import ActorProtocol.Location

/-!
# Errors at locations

A check does not stop at the first error. It gives its result together with the
errors it found, in the order in which it found them.
-/

namespace ActorProtocol

set_option autoImplicit false

structure Located (Error : Type) where
  error : Error
  loc : Location
  deriving DecidableEq

structure Reported (Value Error : Type) where
  value : Value
  errors : List (Located Error)

end ActorProtocol
