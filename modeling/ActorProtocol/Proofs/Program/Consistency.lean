import ActorProtocol.Program

/-!
# Consistent programs

The check of a program reports nothing exactly when its includes lead to units of the
right protocols, protocols and their managers name each other, and no actor is asked for
a state that its protocol does not have. The first three are read off the units as they
are. The last needs the declarations and states that resolution left for their types, so
its two directions are stated with what they need of these.
-/

namespace ActorProtocol

set_option autoImplicit false

theorem StateMachine.containsState_iff {machine : StateMachine} {name : String} :
    machine.containsState name = true ↔
      State.isSentinelName name = true ∨ name ∈ machine.names := by
  rw [containsState, Bool.or_eq_true, List.contains_iff_mem, or_comm]

namespace Program

/-- A run that puts errors in front of later ones gives none when neither part does. -/
theorem append_eq_nil_iff {Found : Type} (errors : Found → List (Located ProgramError))
    {first : Except Fault Found} {later : Except Fault (List (Located ProgramError))} :
    (do
      let found ← first
      let others ← later
      return errors found ++ others : Except Fault (List (Located ProgramError))) = .ok [] ↔
        (∃ found, first = .ok found ∧ errors found = []) ∧ later = .ok [] := by
  cases first with
  | error fault =>
      constructor
      · intro ok
        cases ok
      · rintro ⟨⟨found, ok, _⟩, _⟩
        cases ok
  | ok found =>
      cases later with
      | error fault =>
          constructor
          · intro ok
            cases ok
          · rintro ⟨_, ok⟩
            cases ok
      | ok others =>
          change Except.ok (errors found ++ others) = .ok [] ↔ _
          simp only [Except.ok.injEq, List.append_eq_nil_iff, exists_eq_left']

/-- The actor of the type may be in the state that is asked of it, if its protocol is
included and a unit of the program describes it. -/
def StateKnown (program : Program) (checked : Checked) (type : TypeRef) : Prop :=
  ∀ state, type.state = some state → ∀ decl, checked.decls.declOf? type.id = some decl →
    ∀ file, decl.kind = .includedProtocol file →
      ∀ target, program.unitOfProtocol? decl.fullName = some target →
        State.isSentinelName state.name = true ∨ state.name ∈ target.checked.machine.names

/-- The includes, managers and states of actors of all units fit the units they name. A
relation to a protocol outside the program is left to the includes. -/
structure Consistent (program : Program) : Prop where
  includes : ∀ unit ∈ program.units, ∀ included ∈ unit.checked.unit.includes,
    ∃ target, program.unitOfFile? included.file = some target ∧
      target.protocol.name = included.protocol
  managers : ∀ unit ∈ program.units, ∀ manager ∈ unit.protocol.managers,
    ∀ other, program.unitOfProtocol? manager.name = some other →
      ∃ managed ∈ other.protocol.manages, managed.name = unit.protocol.name
  manages : ∀ unit ∈ program.units, ∀ managed ∈ unit.protocol.manages,
    ∀ other, program.unitOfProtocol? managed.name = some other →
      ∃ manager ∈ other.protocol.managers, manager.name = unit.protocol.name
  actorStates : ∀ unit ∈ program.units,
    ∀ type ∈ unit.checked.unit.typeRefs ++ unit.checked.unit.usings.map UsingType.type,
      program.StateKnown unit.checked type

variable {program : Program}

theorem includeError?_eq_none_iff {included : ProtocolInclude} :
    program.includeError? included = none ↔
      ∃ target, program.unitOfFile? included.file = some target ∧
        target.protocol.name = included.protocol := by
  unfold includeError?
  cases program.unitOfFile? included.file with
  | none => simp
  | some target => simp

theorem managerError?_eq_none_iff {protocol : Protocol} {manager : Ident} :
    program.managerError? protocol manager = none ↔
      ∀ other, program.unitOfProtocol? manager.name = some other →
        ∃ managed ∈ other.protocol.manages, managed.name = protocol.name := by
  unfold managerError?
  cases program.unitOfProtocol? manager.name with
  | none => simp
  | some other => simp [Protocol.isManagerOf]

theorem managesError?_eq_none_iff {protocol : Protocol} {managed : Ident} :
    program.managesError? protocol managed = none ↔
      ∀ other, program.unitOfProtocol? managed.name = some other →
        ∃ manager ∈ other.protocol.managers, manager.name = protocol.name := by
  unfold managesError?
  cases program.unitOfProtocol? managed.name with
  | none => simp
  | some other => simp [Protocol.isManagedBy]

theorem actorStateErrors_eq_nil_iff {checked : Checked} {types : List TypeRef} :
    program.actorStateErrors checked types = .ok [] ↔
      ∀ type ∈ types, program.actorStateError? checked type = .ok none := by
  induction types with
  | nil => simp [actorStateErrors]
  | cons type types ih =>
      unfold actorStateErrors
      rw [append_eq_nil_iff Option.toList, ih, List.forall_mem_cons]
      simp only [Option.toList_eq_nil_iff, exists_eq_right]

theorem unitErrors_eq_nil_iff {unit : ProgramUnit} :
    program.unitErrors unit = .ok [] ↔
      (∀ included ∈ unit.checked.unit.includes, program.includeError? included = none) ∧
      (∀ manager ∈ unit.protocol.managers, program.managerError? unit.protocol manager = none) ∧
      (∀ managed ∈ unit.protocol.manages, program.managesError? unit.protocol managed = none) ∧
      ∀ type ∈ unit.checked.unit.typeRefs, type.isActor = true →
        program.actorStateError? unit.checked type = .ok none := by
  have actors : program.actorStateErrors unit.checked
      (unit.checked.unit.typeRefs.filter TypeRef.isActor) = .ok [] ↔
        ∀ type ∈ unit.checked.unit.typeRefs, type.isActor = true →
          program.actorStateError? unit.checked type = .ok none := by
    rw [actorStateErrors_eq_nil_iff]
    simp only [List.mem_filter, and_imp]
  rw [← actors]
  unfold unitErrors
  cases program.actorStateErrors unit.checked
      (unit.checked.unit.typeRefs.filter TypeRef.isActor) with
  | error fault =>
      constructor
      · intro ok
        cases ok
      · rintro ⟨_, _, _, ok⟩
        cases ok
  | ok errors =>
      change Except.ok (_ ++ _ ++ _ ++ errors) = .ok [] ↔ _
      simp only [Except.ok.injEq, List.append_eq_nil_iff, List.filterMap_eq_nil_iff, and_assoc]

theorem errorsOf_eq_nil_iff {units : List ProgramUnit} :
    program.errorsOf units = .ok [] ↔ ∀ unit ∈ units, program.unitErrors unit = .ok [] := by
  induction units with
  | nil => simp [errorsOf]
  | cons unit units ih =>
      unfold errorsOf
      rw [append_eq_nil_iff fun errors => errors, ih, List.forall_mem_cons]
      simp only [exists_eq_right]

/-- A state that is known is not reported, if it is one that the type asks for and the
type is linked. -/
theorem actorStateError?_eq_none {checked : Checked} {type : TypeRef}
    (asked : ∀ state, checked.actorState? type.id = some state → type.state = some state)
    (linked : ∀ state, checked.actorState? type.id = some state →
      ∃ decl, checked.decls.declOf? type.id = some decl)
    (known : program.StateKnown checked type) :
    program.actorStateError? checked type = .ok none := by
  unfold actorStateError?
  cases found : checked.actorState? type.id with
  | none => rfl
  | some state =>
      dsimp only
      split
      · rfl
      · rcases linked state found with ⟨decl, declared⟩
        have looked : checked.decls.declOf type.id = .ok decl := by
          unfold DeclTable.declOf
          rw [declared]
        rw [looked]
        simp only [bind, Except.bind]
        split
        · rename_i file kind
          cases described : program.unitOfProtocol? decl.fullName with
          | none => rfl
          | some target =>
              have contained : target.checked.machine.containsState state.name = true :=
                StateMachine.containsState_iff.mpr
                  (known state (asked state found) decl declared file kind target described)
              exact if_pos contained
        · rfl

/-- A state that is not reported is known, if resolution kept it for the type. -/
theorem stateKnown_of_actorStateError? {checked : Checked} {type : TypeRef}
    (kept : ∀ state, type.state = some state → ∀ decl, checked.decls.declOf? type.id = some decl →
      ∀ file, decl.kind = .includedProtocol file → checked.actorState? type.id = some state)
    (silent : program.actorStateError? checked type = .ok none) :
    program.StateKnown checked type := by
  intro state asked decl declared file kind target found
  unfold actorStateError? at silent
  rw [kept state asked decl declared file kind] at silent
  dsimp only at silent
  split at silent
  · rename_i sentinel
    exact Or.inl (State.isSentinelName_of_isSentinel sentinel)
  · have looked : checked.decls.declOf type.id = .ok decl := by
      unfold DeclTable.declOf
      rw [declared]
    rw [looked] at silent
    simp only [bind, Except.bind, kind, found] at silent
    split at silent
    · rename_i contained
      exact StateMachine.containsState_iff.mp contained
    · cases silent

theorem exists_unitOfProtocol? {unit : ProgramUnit} (member : unit ∈ program.units) :
    ∃ last, program.unitOfProtocol? unit.protocol.name = some last := by
  unfold unitOfProtocol?
  rw [← Option.isSome_iff_exists, List.find?_isSome]
  exact ⟨unit, List.mem_reverse.mpr member, beq_self_eq_true _⟩

end Program

end ActorProtocol
