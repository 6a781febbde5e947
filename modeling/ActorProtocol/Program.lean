import ActorProtocol.Machine.Checked

/-!
# Programs

A program is a map of checked units by file. Its check ties the units together:
an include names a unit of the program, a protocol and its manager name each
other, and the states asked of the actors of an included protocol are states of
it. A protocol is looked up in the last unit that describes it. Relations to a
protocol outside the program are left to the check of the includes.
-/

namespace ActorProtocol

set_option autoImplicit false

inductive ProgramError where
  | missingInclude (protocol file : String)
  | includeProtocolMismatch (file expected found : String)
  | managerMismatch (protocol manager : String)
  | managesMismatch (protocol managed : String)
  | unknownActorState (protocol state : String)
  deriving DecidableEq

def ProgramError.message : ProgramError → String
  | missingInclude protocol file =>
      "Included protocol `" ++ protocol ++ "` has no translation unit `" ++ file ++ "`"
  | includeProtocolMismatch file expected found =>
      "Translation unit `" ++ file ++ "` declares protocol `" ++ found ++ "`, expected `" ++
        expected ++ "`"
  | managerMismatch protocol manager =>
      "Protocol `" ++ protocol ++ "` names `" ++ manager ++ "` as manager, but `" ++ manager ++
        "` does not manage it"
  | managesMismatch protocol managed =>
      "Protocol `" ++ protocol ++ "` manages `" ++ managed ++ "`, but `" ++ managed ++
        "` does not name it as manager"
  | unknownActorState protocol state =>
      "Protocol `" ++ protocol ++ "` has no state `" ++ state ++ "`"

/-- A unit of a program with its file and its protocol. -/
structure ProgramUnit where
  file : String
  protocol : Protocol
  checked : Checked

/-- The units of a program, in the order of the map. -/
structure Program where
  units : List ProgramUnit

namespace Program

/-- The units of a list of entries, which must all have a protocol. -/
def unitsOf : List (String × Checked) → Except Fault (List ProgramUnit)
  | [] => .ok []
  | (file, checked) :: rest => do
      let protocol ← checked.unit.requireProtocol
      let later ← unitsOf rest
      return ⟨file, protocol, checked⟩ :: later

def ofMap (map : OrderedMap String Checked) : Except Fault Program := do
  return ⟨← unitsOf map.entries⟩

variable (program : Program)

def unitOfFile? (file : String) : Option ProgramUnit :=
  program.units.find? fun unit => unit.file == file

/-- The last unit that describes the protocol. -/
def unitOfProtocol? (name : String) : Option ProgramUnit :=
  program.units.reverse.find? fun unit => unit.protocol.name == name

def includeError? (included : ProtocolInclude) : Option (Located ProgramError) :=
  match program.unitOfFile? included.file with
  | none => some ⟨.missingInclude included.protocol included.file, included.loc⟩
  | some target =>
      if target.protocol.name = included.protocol then none
      else
        some
          ⟨.includeProtocolMismatch included.file included.protocol target.protocol.name,
            included.loc⟩

def managerError? (protocol : Protocol) (manager : Ident) : Option (Located ProgramError) :=
  match program.unitOfProtocol? manager.name with
  | none => none
  | some other =>
      if other.protocol.isManagerOf protocol.name then none
      else some ⟨.managerMismatch protocol.name manager.name, manager.loc⟩

def managesError? (protocol : Protocol) (managed : Ident) : Option (Located ProgramError) :=
  match program.unitOfProtocol? managed.name with
  | none => none
  | some other =>
      if other.protocol.isManagedBy protocol.name then none
      else some ⟨.managesMismatch protocol.name managed.name, managed.loc⟩

/-- The states of the unit's own protocol were checked with its names, so only
those of included protocols are looked at. -/
def actorStateError? (checked : Checked) (type : TypeRef) :
    Except Fault (Option (Located ProgramError)) :=
  match checked.actorState? type.id with
  | none => .ok none
  | some state =>
      if state.isSentinel then .ok none
      else do
        let decl ← checked.decls.declOf type.id
        match decl.kind with
        | .includedProtocol _ =>
            match program.unitOfProtocol? decl.fullName with
            | none => .ok none
            | some target =>
                if target.checked.machine.containsState state.name then .ok none
                else .ok (some ⟨.unknownActorState decl.fullName state.name, type.loc⟩)
        | _ => .ok none

def actorStateErrors (checked : Checked) :
    List TypeRef → Except Fault (List (Located ProgramError))
  | [] => .ok []
  | type :: rest => do
      let error? ← program.actorStateError? checked type
      let later ← actorStateErrors checked rest
      return error?.toList ++ later

def unitErrors (unit : ProgramUnit) : Except Fault (List (Located ProgramError)) := do
  let actorErrors ←
    program.actorStateErrors unit.checked (unit.checked.unit.typeRefs.filter TypeRef.isActor)
  return unit.checked.unit.includes.filterMap program.includeError? ++
    unit.protocol.managers.filterMap (program.managerError? unit.protocol) ++
    unit.protocol.manages.filterMap (program.managesError? unit.protocol) ++ actorErrors

def errorsOf : List ProgramUnit → Except Fault (List (Located ProgramError))
  | [] => .ok []
  | unit :: rest => do
      let errors ← program.unitErrors unit
      let later ← errorsOf rest
      return errors ++ later

def errors : Except Fault (List (Located ProgramError)) :=
  program.errorsOf program.units

end Program

/-- Checks the units of a map against each other. -/
def checkProgram (map : OrderedMap String Checked) :
    Except Fault (List (Located ProgramError)) := do
  (← Program.ofMap map).errors

end ActorProtocol
