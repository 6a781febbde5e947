import ActorProtocol.Source.Text
import ActorProtocol.Proofs.Naming.Protocols
import ActorProtocol.Proofs.Policies

/-!
# Padding

A null transition uses no names, is no step, leads nowhere and is not written out. What
is read off a unit is therefore the same after its padding is taken away, and two units
that differ in nothing but padding cannot be told apart. Which transitions count as
padding is decided by their parts, not by their ids. Statements whose transitions are
all padding stay where they are.
-/

namespace ActorProtocol

set_option autoImplicit false

theorem Transition.source?_of_isNull {transition : Transition} (null : transition.isNull = true) :
    transition.source? = none := by
  simp only [source?, action_of_isNull null, Option.map_none]

namespace Statement

/-- The statement without its padding. -/
def bare (statement : Statement) : Statement :=
  { statement with transitions := statement.realTransitions }

@[simp] theorem state_bare (statement : Statement) : statement.bare.state = statement.state := rfl

@[simp] theorem realTransitions_bare (statement : Statement) :
    statement.bare.realTransitions = statement.realTransitions := by
  simp [bare, realTransitions, List.filter_filter]

@[simp] theorem bare_bare (statement : Statement) : statement.bare.bare = statement.bare := by
  simp [bare, realTransitions, List.filter_filter]

@[simp] theorem leavesDead_bare (statement : Statement) :
    statement.bare.leavesDead = statement.leavesDead := by
  simp [leavesDead]

@[simp] theorem steps_bare (statement : Statement) : statement.bare.steps = statement.steps := by
  simp [steps]

@[simp] theorem destinations_bare (statement : Statement) :
    statement.bare.destinations = statement.destinations := by
  apply statement.flatMap_realTransitions
  intro transition null
  exact Transition.destinations_of_isNull null

@[simp] theorem bare_padded (statement : Statement) : statement.padded.bare = statement.bare := by
  simp only [bare, realTransitions_padded]
  unfold padded
  split <;> rfl

/-- Null transitions may be put in anywhere. -/
theorem bare_insertNull (statement : Statement) (before after : List Transition) (count : Nat) :
    bare { statement with transitions := before ++ List.replicate count Transition.null ++ after } =
      bare { statement with transitions := before ++ after } := by
  have padding : (List.replicate count Transition.null).filter
      (fun transition => !transition.isNull) = [] := by
    rw [List.filter_eq_nil_iff]
    intro transition member
    rw [List.eq_of_mem_replicate member]
    decide
  simp only [bare, realTransitions, List.filter_append, padding, List.append_nil]

theorem judge_bare (kept : List String) (statements : List Statement) :
    judge kept (statements.map bare) =
      (judge kept statements).map fun judged => (judged.1.bare, judged.2) := by
  induction statements generalizing kept with
  | nil => rfl
  | cons statement rest ih =>
      simp only [List.map_cons, judge, leavesDead_bare, state_bare, ih]
      split
      · rfl
      · split <;> rfl

theorem statementLines_bare (statement : Statement) :
    Protocol.statementLines statement.bare = Protocol.statementLines statement := by
  have written : statement.realTransitions.filterMap Transition.source? =
      statement.transitions.filterMap Transition.source? := by
    rw [List.filterMap_eq_flatMap_toList, List.filterMap_eq_flatMap_toList]
    apply statement.flatMap_realTransitions
    intro transition null
    rw [Transition.source?_of_isNull null]
    rfl
  unfold Protocol.statementLines
  rw [← written]
  rfl

end Statement

def RejectedStatement.bare (rejected : RejectedStatement) : RejectedStatement :=
  ⟨rejected.reason, rejected.statement.bare⟩

namespace StateMachine

variable (machine : StateMachine)

def bare : StateMachine :=
  ⟨machine.statements.map Statement.bare⟩

@[simp] theorem states_bare : machine.bare.states = machine.states := by
  simp [states, bare]

@[simp] theorem names_bare : machine.bare.names = machine.names := by
  simp [names, bare]

@[simp] theorem startStates_bare : machine.bare.startStates = machine.startStates := by
  simp [startStates]

@[simp] theorem steps_bare : machine.bare.steps = machine.steps := by
  simp [steps, bare, List.flatMap_map]

theorem statement?_bare (name : String) :
    machine.bare.statement? name = (machine.statement? name).map Statement.bare :=
  List.find?_map ..

@[simp] theorem successors_bare (name : String) :
    machine.bare.successors name = machine.successors name := by
  have sources : machine.bare.statementsFrom name =
      (machine.statementsFrom name).map Statement.bare := by
    simp only [statementsFrom, statement?_bare, Option.toList_map, List.map_append]
    split <;> rfl
  simp [successors, sources, List.flatMap_map]

theorem destinations_bare : machine.bare.statements.flatMap Statement.destinations =
    machine.statements.flatMap Statement.destinations := by
  simp [bare, List.flatMap_map]

@[simp] theorem reachable_bare : machine.bare.reachable = machine.reachable := by
  have starts := machine.startStates_bare
  have destinations := machine.destinations_bare
  apply reachable_congr machine.names_bare
  · rw [starts]
  · rw [destinations]
  · intro name
    rw [successors_bare]

theorem withDead_bare : machine.bare.withDead.bare = machine.withDead.bare := by
  simp only [withDead, names_bare, destinations_bare]
  split
  · simp [bare]
  · simp [bare]

theorem keptStatements_bare (statements : List Statement) :
    (keptStatements (statements.map Statement.bare)).map Statement.bare =
      (keptStatements statements).map Statement.bare := by
  unfold keptStatements
  rw [Statement.judge_bare, List.filterMap_map, List.map_filterMap, List.map_filterMap]
  apply List.filterMap_congr
  intro judged _
  rcases judged with ⟨statement, judgement⟩
  cases judgement with
  | none =>
      simp only [Function.comp_apply, Option.map_some, Statement.bare_padded, Statement.bare_bare]
  | some reason => rfl

theorem rejectedStatements_bare (statements : List Statement) :
    rejectedStatements (statements.map Statement.bare) =
      (rejectedStatements statements).map RejectedStatement.bare := by
  unfold rejectedStatements
  rw [Statement.judge_bare, List.filterMap_map, List.map_filterMap]
  apply List.filterMap_congr
  intro judged _
  rcases judged with ⟨statement, judgement⟩
  cases judgement with
  | none => rfl
  | some reason => rfl

end StateMachine

theorem RejectedStatement.error_bare (rejected : RejectedStatement) :
    rejected.bare.error = rejected.error := by
  rcases rejected with ⟨reason, statement⟩
  cases reason <;> rfl

namespace Protocol

variable (protocol : Protocol)

def bare : Protocol :=
  { protocol with statements := protocol.statements.map Statement.bare }

theorem machine_bare : protocol.bare.machine.bare = protocol.machine.bare := by
  have kept : (⟨StateMachine.keptStatements protocol.bare.statements⟩ : StateMachine).bare =
      (⟨StateMachine.keptStatements protocol.statements⟩ : StateMachine).bare :=
    congrArg StateMachine.mk (StateMachine.keptStatements_bare protocol.statements)
  unfold machine StateMachine.ofStatements
  rw [← StateMachine.withDead_bare, kept, StateMachine.withDead_bare]

/-- What is read off a machine without its padding is read off the machine. -/
theorem read_machine_bare {Result : Type} (reads : StateMachine → Result)
    (padded : ∀ machine, reads machine.bare = reads machine) :
    reads protocol.bare.machine = reads protocol.machine := by
  rw [← padded protocol.bare.machine, protocol.machine_bare, padded]

theorem rejected_bare : protocol.bare.rejected = protocol.rejected.map RejectedStatement.bare :=
  StateMachine.rejectedStatements_bare protocol.statements

@[simp] theorem allSteps_bare : protocol.bare.allSteps = protocol.allSteps := by
  have kept := protocol.read_machine_bare StateMachine.steps StateMachine.steps_bare
  simp [allSteps, kept, rejected_bare, List.flatMap_map, RejectedStatement.bare]

theorem structureErrors_bare : protocol.bare.structureErrors = protocol.structureErrors := by
  have rejected : protocol.bare.rejected.map RejectedStatement.error =
      protocol.rejected.map RejectedStatement.error := by
    simp [rejected_bare, RejectedStatement.error_bare]
  have names := protocol.read_machine_bare StateMachine.names StateMachine.names_bare
  have dangling : protocol.bare.danglingErrors = protocol.danglingErrors := by
    simp only [danglingErrors, allSteps_bare, StateMachine.containsState, names]
  have states := protocol.read_machine_bare StateMachine.states StateMachine.states_bare
  have starts := protocol.read_machine_bare StateMachine.startStates StateMachine.startStates_bare
  have empty : protocol.bare.machine.statements.isEmpty = protocol.machine.statements.isEmpty := by
    have counted := congrArg List.isEmpty states
    simpa [StateMachine.states] using counted
  have started : protocol.bare.startErrors = protocol.startErrors := by
    simp only [startErrors, empty, starts]
    rfl
  rw [structureErrors, structureErrors, rejected, dangling, started]

theorem replyErrors_bare : protocol.bare.replyErrors = protocol.replyErrors := by
  have steps := protocol.read_machine_bare StateMachine.steps StateMachine.steps_bare
  have starts := protocol.read_machine_bare StateMachine.startStates StateMachine.startStates_bare
  have reachable := protocol.read_machine_bare StateMachine.reachable StateMachine.reachable_bare
  have same : protocol.bare.replyError? = protocol.replyError? := by
    funext message
    have sources : protocol.bare.replySources message = protocol.replySources message := by
      rw [replySources, replySources, steps]
    unfold replyError?
    rw [sources, starts, reachable]
  rw [replyErrors, replyErrors, same]
  rfl

theorem sourceLines_bare : protocol.bare.sourceLines = protocol.sourceLines := by
  have written : protocol.bare.statements.flatMap statementLines =
      protocol.statements.flatMap statementLines := by
    simp [bare, List.flatMap_map, Statement.statementLines_bare]
  unfold sourceLines
  rw [written]
  rfl

end Protocol

namespace Resolution

variable (names : Names) (home : Home)

theorem useTransition_of_isNull {transition : Transition} (null : transition.isNull = true)
    (resolution : Resolution) : resolution.useTransition names transition = resolution := by
  unfold useTransition
  rw [Transition.action_of_isNull null]

theorem useAll_realTransitions (statement : Statement) (resolution : Resolution) :
    resolution.useAll names home (statement.realTransitions.map Use.transition) =
      resolution.useAll names home (statement.transitions.map Use.transition) := by
  unfold Statement.realTransitions
  induction statement.transitions generalizing resolution with
  | nil => rfl
  | cons transition rest ih =>
      rw [List.filter_cons]
      cases padding : transition.isNull with
      | true =>
          have idle : resolution.use names home (.transition transition) = resolution :=
            resolution.useTransition_of_isNull names padding
          change resolution.useAll names home _ =
            (resolution.use names home (.transition transition)).useAll names home _
          rw [idle]
          exact ih resolution
      | false => exact ih (resolution.use names home (.transition transition))

theorem useAll_bare (statements : List Statement) (resolution : Resolution) :
    resolution.useAll names home ((statements.map Statement.bare).flatMap fun statement =>
        statement.transitions.map Use.transition) =
      resolution.useAll names home (statements.flatMap fun statement =>
        statement.transitions.map Use.transition) := by
  induction statements generalizing resolution with
  | nil => rfl
  | cons statement rest ih =>
      have first := useAll_realTransitions names home statement resolution
      simp only [List.map_cons, List.flatMap_cons, useAll, List.foldl_append] at ih first ⊢
      rw [ih, ← first]
      rfl

end Resolution

/-- The declarations and poisoned nodes decide about triggers, whatever the unit is. -/
theorem Resolved.triggerErrors_of_unit (resolved : Resolved) (unit : SourceUnit)
    (steps : List (State × Transition)) :
    { resolved with unit }.triggerErrors steps = resolved.triggerErrors steps := by
  induction steps with
  | nil => rfl
  | cons step rest ih =>
      simp only [triggerErrors, ih]
      rfl

theorem Resolved.map_errors_check {resolved : Resolved} {protocol : Protocol}
    (described : resolved.unit.protocol = some protocol) :
    resolved.check.map Reported.errors =
      (resolved.triggerErrors protocol.allSteps).map fun errors =>
        protocol.structureErrors ++ errors ++ protocol.replyErrors := by
  simp only [check, SourceUnit.requireProtocol, described, bind, Except.bind]
  cases resolved.triggerErrors protocol.allSteps <;> rfl

namespace SourceUnit

variable (unit : SourceUnit)

def bare : SourceUnit :=
  unit.modifyProtocol Protocol.bare

theorem text_bare : unit.bare.text = unit.text := by
  have described : unit.bare.protocol.toList.flatMap Protocol.sourceLines =
      unit.protocol.toList.flatMap Protocol.sourceLines := by
    simp [bare, modifyProtocol, Option.toList_map, List.flatMap_map, Protocol.sourceLines_bare]
  unfold text sourceLines
  rw [described]
  rfl

/-- Padding is not looked at when names are resolved. -/
theorem resolution_bare (protocol : Protocol) (extra : List String) :
    unit.bare.resolution protocol.bare extra = unit.resolution protocol extra := by
  have bound : Bindings.ofBinders (.ofProtocol protocol) (unit.bare.binders protocol.bare extra) =
      .ofBinders (.ofProtocol protocol) (unit.binders protocol extra) := by
    have later : unit.bare.laterBinders protocol.bare = unit.laterBinders protocol := by
      simp [laterBinders, bare, modifyProtocol, Protocol.bare]
    rw [binders_eq, binders_eq, later]
    simp only [Bindings.ofBinders, List.foldl_append, List.foldl_cons]
    rfl
  have home : Home.ofProtocol protocol.bare = .ofProtocol protocol := rfl
  have used : ∀ (names : Names) (start : Resolution),
      start.useAll names (.ofProtocol protocol) (unit.bare.uses protocol.bare) =
        start.useAll names (.ofProtocol protocol) (unit.uses protocol) := by
    intro names start
    have padded := Resolution.useAll_bare names (.ofProtocol protocol) protocol.statements
    simp only [uses, Protocol.uses, Resolution.useAll, List.foldl_append] at padded ⊢
    exact padded _
  simp only [resolution, home, bound, used]

theorem errors_check_bare (options : CheckOptions) :
    (unit.bare.check options).map UnitCheck.errors =
      (unit.check options).map UnitCheck.errors := by
  cases described : unit.protocol with
  | none =>
      have same : unit.bare = unit := by
        simp only [bare, modifyProtocol, described, Option.map_none]
        rw [← described]
      rw [same]
  | some protocol =>
      have bareDescribed : unit.bare.protocol = some protocol.bare := by
        simp [bare, modifyProtocol, described]
      have resolved : unit.bare.resolved protocol.bare options.extraTypes =
          { unit.resolved protocol options.extraTypes with unit := unit.bare } := by
        simp only [SourceUnit.resolved, resolution_bare]
      have machine : (unit.bare.resolved protocol.bare options.extraTypes).check.map
            Reported.errors =
          (unit.resolved protocol options.extraTypes).check.map Reported.errors := by
        rw [Resolved.map_errors_check bareDescribed, Resolved.map_errors_check described, resolved,
          Resolved.triggerErrors_of_unit, Protocol.allSteps_bare, Protocol.structureErrors_bare,
          Protocol.replyErrors_bare]
      rw [errors_check described, errors_check bareDescribed, machine, resolution_bare]

end SourceUnit

/-! ## Protocols that differ in padding -/

/-- What a machine is asked for, and how the statements were judged. -/
structure Protocol.RunsAlike (protocol other : Protocol) : Prop where
  judged : ((Statement.judge [] other.statements).map fun judged => (judged.1.bare, judged.2)) =
    (Statement.judge [] protocol.statements).map fun judged => (judged.1.bare, judged.2)
  kept : other.machine.bare = protocol.machine.bare
  rejected : other.rejected.map RejectedStatement.bare =
    protocol.rejected.map RejectedStatement.bare
  steps : other.machine.steps = protocol.machine.steps
  rejectedSteps : (other.rejected.map fun rejected => rejected.statement.steps) =
    protocol.rejected.map fun rejected => rejected.statement.steps
  successors : ∀ name, other.machine.successors name = protocol.machine.successors name
  reachable : other.machine.reachable = protocol.machine.reachable

theorem Protocol.runsAlike_bare (protocol : Protocol) : protocol.RunsAlike protocol.bare where
  judged := by
    simp [bare, Statement.judge_bare, Function.comp_def]
  kept := protocol.machine_bare
  rejected := by
    simp [rejected_bare, RejectedStatement.bare, Function.comp_def]
  steps := protocol.read_machine_bare StateMachine.steps StateMachine.steps_bare
  rejectedSteps := by
    simp [rejected_bare, RejectedStatement.bare, Function.comp_def]
  successors := fun name =>
    protocol.read_machine_bare (StateMachine.successors · name)
      (StateMachine.successors_bare · name)
  reachable := protocol.read_machine_bare StateMachine.reachable StateMachine.reachable_bare

/-- Protocols that run like a third run alike. -/
theorem Protocol.RunsAlike.of_common {protocol other third : Protocol}
    (first : protocol.RunsAlike third) (second : other.RunsAlike third) :
    protocol.RunsAlike other where
  judged := second.judged.symm.trans first.judged
  kept := second.kept.symm.trans first.kept
  rejected := second.rejected.symm.trans first.rejected
  steps := second.steps.symm.trans first.steps
  rejectedSteps := second.rejectedSteps.symm.trans first.rejectedSteps
  successors := fun name => (second.successors name).symm.trans (first.successors name)
  reachable := second.reachable.symm.trans first.reachable

namespace SourceUnit

/-- Everything that is read off a unit, whatever its padding. -/
structure ReadAlike (unit other : SourceUnit) : Prop where
  errors : ∀ options, (other.check options).map UnitCheck.errors =
    (unit.check options).map UnitCheck.errors
  text : other.text = unit.text
  runs : Option.Rel Protocol.RunsAlike unit.protocol other.protocol

theorem read_alike_of_padding {unit other : SourceUnit} (same : unit.bare = other.bare) :
    unit.ReadAlike other where
  errors := by
    intro options
    rw [← errors_check_bare, ← errors_check_bare unit, same]
  text := by
    rw [← text_bare, ← text_bare unit, same]
  runs := by
    have protocols : unit.protocol.map Protocol.bare = other.protocol.map Protocol.bare :=
      congrArg SourceUnit.protocol same
    cases described : unit.protocol with
    | none =>
        rw [described] at protocols
        rw [Option.map_eq_none_iff.mp protocols.symm]
        exact .none
    | some protocol =>
        rw [described] at protocols
        rcases Option.map_eq_some_iff.mp protocols.symm with ⟨protocol', described', equal⟩
        rw [described']
        have second := protocol'.runsAlike_bare
        rw [equal] at second
        exact .some (protocol.runsAlike_bare.of_common second)

/-- A channel with a last state that nothing leaves. The transitions around the one of the
first state, and those of the last state, are given. -/
def quietProtocol (before after last : List Transition) : Protocol :=
  { channelProtocol "Header" with
    statements := [
      ⟨⟨19⟩, ⟨⟨20⟩, "Idle", true, channelLine 10⟩,
        before ++ [⟨⟨21⟩, some .answer, some "Open", [⟨⟨22⟩, "Busy", false, channelLine 11⟩],
          channelLine 11⟩] ++ after, channelLine 10⟩,
      ⟨⟨23⟩, ⟨⟨24⟩, "Busy", false, channelLine 12⟩, last, channelLine 12⟩] }

def quietUnit (before after last : List Transition) : SourceUnit :=
  { channelUnit "Header" with protocol := some (quietProtocol before after last) }

/-- An empty statement may as well be a null one. -/
theorem quietUnit_read_alike :
    (quietUnit [] [] []).bare = (quietUnit [.null] [.null, .null] [.null]).bare ∧
      quietUnit [] [] [] ≠ quietUnit [.null] [.null, .null] [.null] ∧
      (quietUnit [] [] []).ReadAlike (quietUnit [.null] [.null, .null] [.null]) := by
  have same : (quietUnit [] [] []).bare = (quietUnit [.null] [.null, .null] [.null]).bare := by
    decide +kernel
  exact ⟨same, by decide +kernel, read_alike_of_padding same⟩

end SourceUnit

end ActorProtocol
