import ActorProtocol.Proofs.Machine.Acceptance
import ActorProtocol.Proofs.Naming.Relabeling

/-!
# Machines under new ids

A machine is made of statements by the names of their states, and runs by names, so new
ids on a protocol are new ids on its machine and on what is rejected. The errors of the
machine name no ids. Only the triggers are looked up by node, in tables that have the new
ids as well.
-/

namespace ActorProtocol

set_option autoImplicit false

variable (labels : Relabeling)

def Relabeling.step : State × Transition → State × Transition :=
  Prod.map (State.relabel labels) (Transition.relabel labels)

namespace Statement

variable (statement : Statement)

theorem realTransitions_relabel : (statement.relabel labels).realTransitions =
    statement.realTransitions.map (Transition.relabel labels) := by
  simp [realTransitions, relabel, List.filter_map, Function.comp_def]

@[simp] theorem leavesDead_relabel :
    (statement.relabel labels).leavesDead = statement.leavesDead := by
  have name : (statement.relabel labels).state.name = statement.state.name := rfl
  simp [leavesDead, name, realTransitions_relabel]

theorem padded_relabel :
    (statement.relabel labels).padded = statement.padded.relabel labels := by
  have empty : (statement.relabel labels).transitions.isEmpty =
      statement.transitions.isEmpty := List.isEmpty_map ..
  unfold padded
  rw [empty]
  split
  · simp [relabel]
  · rfl

@[simp] theorem steps_relabel :
    (statement.relabel labels).steps = statement.steps.map labels.step := by
  have source : (statement.relabel labels).state = statement.state.relabel labels := rfl
  simp [steps, realTransitions_relabel, source, Relabeling.step, Function.comp_def]

@[simp] theorem destinations_relabel : (statement.relabel labels).destinations =
    statement.destinations.map (State.relabel labels) := by
  simp [destinations, relabel, Transition.relabel, List.flatMap_map, List.map_flatMap]

theorem judge_relabel (kept : List String) (statements : List Statement) :
    judge kept (statements.map (relabel labels)) =
      (judge kept statements).map fun judged => (judged.1.relabel labels, judged.2) := by
  induction statements generalizing kept with
  | nil => rfl
  | cons statement rest ih =>
      have name : (statement.relabel labels).state.name = statement.state.name := rfl
      simp only [List.map_cons, judge, leavesDead_relabel, name, ih]
      split
      · rfl
      · split <;> rfl

end Statement

def RejectedStatement.relabel (rejected : RejectedStatement) : RejectedStatement :=
  ⟨rejected.reason, rejected.statement.relabel labels⟩

theorem RejectedStatement.error_relabel (rejected : RejectedStatement) :
    (rejected.relabel labels).error = rejected.error := by
  rcases rejected with ⟨reason, statement⟩
  cases reason <;> rfl

namespace StateMachine

variable (machine : StateMachine)

def relabel : StateMachine :=
  ⟨machine.statements.map (Statement.relabel labels)⟩

@[simp] theorem names_relabel : (machine.relabel labels).names = machine.names := by
  simp [names, relabel, Statement.relabel, State.relabel]

@[simp] theorem containsState_relabel (name : String) :
    (machine.relabel labels).containsState name = machine.containsState name := by
  rw [containsState, containsState, names_relabel]

theorem startStates_relabel : (machine.relabel labels).startStates =
    machine.startStates.map (State.relabel labels) := by
  simp [startStates, states, relabel, Statement.relabel, State.relabel, List.filter_map,
    Function.comp_def]

theorem steps_relabel : (machine.relabel labels).steps = machine.steps.map labels.step := by
  simp [steps, relabel, List.flatMap_map, List.map_flatMap]

theorem destinations_relabel :
    (machine.relabel labels).statements.flatMap Statement.destinations =
      (machine.statements.flatMap Statement.destinations).map (State.relabel labels) := by
  simp [relabel, List.flatMap_map, List.map_flatMap]

theorem statement?_relabel (name : String) : (machine.relabel labels).statement? name =
    (machine.statement? name).map (Statement.relabel labels) :=
  List.find?_map ..

theorem successors_relabel (name : String) : (machine.relabel labels).successors name =
    (machine.successors name).map (State.relabel labels) := by
  have sources : (machine.relabel labels).statementsFrom name =
      (machine.statementsFrom name).map (Statement.relabel labels) := by
    simp only [statementsFrom, statement?_relabel, Option.toList_map, List.map_append]
    split <;> rfl
  simp [successors, sources, List.flatMap_map, List.map_flatMap]

@[simp] theorem reachable_relabel : (machine.relabel labels).reachable = machine.reachable := by
  have named : ∀ states : List State,
      (states.map (State.relabel labels)).map State.name = states.map State.name :=
    fun _ => List.map_map ..
  apply reachable_congr (machine.names_relabel labels)
  · rw [startStates_relabel, named]
  · rw [destinations_relabel, named]
  · intro name
    rw [successors_relabel, named]

theorem withDead_relabel :
    (machine.relabel labels).withDead = machine.withDead.relabel labels := by
  have leads : ((machine.statements.flatMap Statement.destinations).map
        (State.relabel labels)).any (fun state => state.name == State.deadName) =
      (machine.statements.flatMap Statement.destinations).any
        (fun state => state.name == State.deadName) := List.any_map ..
  have dead : (Statement.ofNull .dead).relabel labels = .ofNull .dead := by
    simp [Statement.relabel, Statement.ofNull, labels.synthetic]
  unfold withDead
  rw [destinations_relabel, leads, names_relabel]
  split
  · simp [relabel, dead]
  · rfl

theorem keptStatements_relabel (statements : List Statement) :
    keptStatements (statements.map (Statement.relabel labels)) =
      (keptStatements statements).map (Statement.relabel labels) := by
  unfold keptStatements
  rw [Statement.judge_relabel, List.filterMap_map, List.map_filterMap]
  apply List.filterMap_congr
  intro judged _
  rcases judged with ⟨statement, judgement⟩
  cases judgement with
  | none => exact congrArg some (statement.padded_relabel labels)
  | some reason => rfl

theorem rejectedStatements_relabel (statements : List Statement) :
    rejectedStatements (statements.map (Statement.relabel labels)) =
      (rejectedStatements statements).map (RejectedStatement.relabel labels) := by
  unfold rejectedStatements
  rw [Statement.judge_relabel, List.filterMap_map, List.map_filterMap]
  apply List.filterMap_congr
  intro judged _
  rcases judged with ⟨statement, judgement⟩
  cases judgement <;> rfl

end StateMachine

namespace Protocol

variable (protocol : Protocol)

theorem machine_relabel : (protocol.relabel labels).machine = protocol.machine.relabel labels := by
  have kept := StateMachine.keptStatements_relabel labels protocol.statements
  have dead := StateMachine.withDead_relabel labels
    ⟨StateMachine.keptStatements protocol.statements⟩
  apply Eq.trans _ dead
  exact congrArg (fun statements => StateMachine.withDead ⟨statements⟩) kept

theorem rejected_relabel : (protocol.relabel labels).rejected =
    protocol.rejected.map (RejectedStatement.relabel labels) :=
  StateMachine.rejectedStatements_relabel labels protocol.statements

theorem allSteps_relabel :
    (protocol.relabel labels).allSteps = protocol.allSteps.map labels.step := by
  simp [allSteps, machine_relabel, rejected_relabel, StateMachine.steps_relabel,
    RejectedStatement.relabel, List.flatMap_map, List.map_flatMap]

theorem danglingErrors_relabel :
    (protocol.relabel labels).danglingErrors = protocol.danglingErrors := by
  unfold danglingErrors
  rw [allSteps_relabel, List.flatMap_map, machine_relabel]
  apply List.flatMap_congr
  intro step _
  simp [Relabeling.step, Transition.relabel, State.relabel, List.filter_map, Function.comp_def]

theorem structureErrors_relabel :
    (protocol.relabel labels).structureErrors = protocol.structureErrors := by
  have rejected : (protocol.relabel labels).rejected.map RejectedStatement.error =
      protocol.rejected.map RejectedStatement.error := by
    simp [rejected_relabel, RejectedStatement.error_relabel]
  have start : (protocol.relabel labels).startErrors = protocol.startErrors := by
    unfold startErrors
    rw [machine_relabel, StateMachine.startStates_relabel]
    simp [StateMachine.relabel, relabel]
  rw [structureErrors, structureErrors, rejected, danglingErrors_relabel, start]

theorem replySources_relabel (message : Message) :
    (protocol.relabel labels).replySources (message.relabel labels) =
      protocol.replySources message := by
  unfold replySources
  rw [machine_relabel, StateMachine.steps_relabel, List.filter_map, List.map_map]
  rfl

theorem replyErrors_relabel :
    (protocol.relabel labels).replyErrors = protocol.replyErrors := by
  have messages : (protocol.relabel labels).messages =
      protocol.messages.map (Message.relabel labels) := rfl
  unfold replyErrors
  rw [messages, List.filter_map, List.filterMap_map]
  apply List.filterMap_congr
  intro message _
  simp only [Function.comp_apply, replyError?, replySources_relabel, machine_relabel,
    StateMachine.startStates_relabel, StateMachine.reachable_relabel, List.isEmpty_map]
  rfl

end Protocol

namespace Resolved

variable (resolved : Resolved)

theorem isPoisoned_relabel (node : NodeId) :
    (resolved.relabel labels).isPoisoned (labels.node node) = resolved.isPoisoned node := by
  rw [Bool.eq_iff_iff]
  simp only [isPoisoned, relabel, List.contains_iff_mem]
  exact List.mem_map_of_injective labels.injective

theorem triggerError?_relabel (transition : Transition) :
    (resolved.relabel labels).triggerError? (transition.relabel labels) =
      labels.outcome id (resolved.triggerError? transition) := by
  have node : (transition.relabel labels).id = labels.node transition.id := rfl
  unfold triggerError?
  rw [labels.action_relabel, node, isPoisoned_relabel]
  cases transition.action with
  | none => rfl
  | some named =>
      rcases named with ⟨trigger, message⟩
      cases resolved.isPoisoned transition.id with
      | true => rfl
      | false =>
          have found := resolved.decls.declOf_relabel labels transition.id
          simp only [Bool.false_eq_true, if_false]
          change ((resolved.decls.relabel labels).declOf (labels.node transition.id) >>= _) = _
          rw [found]
          apply labels.outcome_bind
          intro decl
          rw [id_eq]
          cases kind : decl.kind with
          | message semantics direction =>
              simp only
              split <;> rfl
          | _ => rfl

theorem triggerErrors_relabel (steps : List (State × Transition)) :
    (resolved.relabel labels).triggerErrors (steps.map labels.step) =
      labels.outcome id (resolved.triggerErrors steps) := by
  induction steps with
  | nil => rfl
  | cons step rest ih =>
      rcases step with ⟨source, transition⟩
      have first := resolved.triggerError?_relabel labels transition
      simp only [List.map_cons, Relabeling.step, Prod.map_apply, triggerErrors] at ih ⊢
      rw [first]
      apply labels.outcome_bind
      intro error?
      rw [ih]
      apply labels.outcome_bind
      intro later
      rfl

end Resolved

end ActorProtocol
