import ActorProtocol.Located

/-!
# Naming errors

What can be wrong with the names of a unit: a use that no declaration answers,
or a declaration that is not the only one of its name.
-/

namespace ActorProtocol

set_option autoImplicit false

inductive NamingError where
  | unknownType (type : String)
  | unknownMessage (message : String)
  | unknownProtocol (protocol : String)
  /-- The protocol of the unit has no state of the name. -/
  | unknownState (type state : String)
  /-- A state is asked of a type that is no actor. -/
  | notAnActorType (type state : String)
  | duplicateDecl (fullName : String)
  | duplicateParam (message param : String)
  deriving DecidableEq

def NamingError.message : NamingError → String
  | unknownType type => "Unknown type `" ++ type ++ "`"
  | unknownMessage message => "Unknown message `" ++ message ++ "` in transition"
  | unknownProtocol protocol => "Unknown protocol `" ++ protocol ++ "`"
  | unknownState type state => "Actor type `" ++ type ++ "` has no state `" ++ state ++ "`"
  | notAnActorType type state =>
      "Type `" ++ type ++ "` is not a protocol but carries actor state `" ++ state ++ "`"
  | duplicateDecl fullName => "Multiple declarations of `" ++ fullName ++ "`"
  | duplicateParam message param =>
      "Message `" ++ message ++ "` declares parameter `" ++ param ++ "` more than once"

end ActorProtocol
