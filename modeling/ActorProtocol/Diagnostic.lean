import ActorProtocol.Program

/-!
# Diagnostics

A diagnostic is an error of one of the checks, at its location, or a fault,
which has none.
-/

namespace ActorProtocol

set_option autoImplicit false

inductive Diagnostic where
  | naming (error : Located NamingError)
  | machine (error : Located MachineError)
  | program (error : Located ProgramError)
  | fault (cause : Fault)

namespace Diagnostic

def loc? : Diagnostic → Option Location
  | naming error => some error.loc
  | machine error => some error.loc
  | program error => some error.loc
  | fault _ => none

/-- What is wrong, without the place. -/
def message : Diagnostic → String
  | naming error => error.error.message
  | machine error => error.error.message
  | program error => error.error.message
  | fault cause => cause.text

def text (diagnostic : Diagnostic) : String :=
  match diagnostic.loc? with
  | some loc => loc.text ++ ": error: " ++ diagnostic.message
  | none => diagnostic.message

end Diagnostic

end ActorProtocol
