import ActorProtocol.Diagnostic

/-!
# Checking units

A unit is checked in two stages, its names and then its machine. The strict
policy stops after the first stage if that found errors; the partial policy goes
on, and passes over what could not be named. Only a unit without errors gives a
checked unit.

The units of a program are checked each on its own, and against each other when
none has errors.
-/

namespace ActorProtocol

set_option autoImplicit false

inductive Policy where
  | strict
  | keepGoing
  deriving DecidableEq

structure CheckOptions where
  policy : Policy
  /-- Types that count as builtin besides the usual ones. -/
  extraTypes : List String
  deriving DecidableEq

def CheckOptions.standard : CheckOptions := ⟨.strict, []⟩

structure UnitCheck where
  /-- Present exactly when there are no errors. -/
  checked : Option Checked
  errors : List Diagnostic

structure ProgramCheck where
  /-- The units without errors by file, in the order in which they came in. -/
  units : OrderedMap String Checked
  errors : List Diagnostic

namespace SourceUnit

def check (unit : SourceUnit) (options : CheckOptions) : Except Fault UnitCheck := do
  let resolved ← unit.resolve options.extraTypes
  let namingErrors := resolved.errors.map Diagnostic.naming
  if options.policy = .strict ∧ namingErrors ≠ [] then
    return ⟨none, namingErrors⟩
  else
    let checked ← resolved.value.check
    let errors := namingErrors ++ checked.errors.map Diagnostic.machine
    return ⟨if errors.isEmpty then some checked.value else none, errors⟩

/-- Checks a unit strictly and takes a fault as an error. -/
def checkStrictly (unit : SourceUnit) : Except (List Diagnostic) Checked :=
  match unit.check .standard with
  | .error fault => .error [.fault fault]
  | .ok ⟨some checked, []⟩ => .ok checked
  | .ok ⟨_, errors⟩ => .error errors

end SourceUnit

/-- Checks units one by one, in order, up to the first fault. -/
def checkEach (options : CheckOptions) :
    List SourceUnit → Except Fault (List (SourceUnit × UnitCheck))
  | [] => .ok []
  | unit :: rest => do
      let outcome ← unit.check options
      let later ← checkEach options rest
      return (unit, outcome) :: later

/-- The checked units by file. A later unit of a file replaces the earlier one. -/
def collectChecked (outcomes : List (SourceUnit × UnitCheck)) : OrderedMap String Checked :=
  outcomes.foldl
    (fun map (unit, outcome) =>
      match outcome.checked with
      | some checked => map.insert unit.file checked
      | none => map)
    .empty

def checkUnits (units : List SourceUnit) (options : CheckOptions) :
    Except Fault ProgramCheck := do
  let outcomes ← checkEach options units
  let map := collectChecked outcomes
  let errors := outcomes.flatMap fun (_, outcome) => outcome.errors
  if errors.isEmpty then
    return ⟨map, (← checkProgram map).map Diagnostic.program⟩
  else
    return ⟨map, errors⟩

end ActorProtocol
