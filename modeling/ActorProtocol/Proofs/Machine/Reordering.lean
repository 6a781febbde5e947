import ActorProtocol.Proofs.Data.Search
import ActorProtocol.Proofs.Machine.Reachability
import ActorProtocol.Proofs.Machine.Triggers
import ActorProtocol.Proofs.Naming.Reordering

/-!
# Machines in another order

With distinct sources no statement is rejected because of another one, so the machine and
what is rejected are the same up to their order. A statement is found by its name wherever
it stands, so the same names are reached, in another order perhaps, and every error is
found again.
-/

namespace ActorProtocol

set_option autoImplicit false

namespace Statement

/-- Each statement is judged on its own when the sources are distinct. -/
theorem judge_of_distinct {kept : List String} {statements : List Statement}
    (distinct : (statements.map fun statement => statement.state.name).Nodup)
    (new : ∀ statement ∈ statements, statement.state.name ∉ kept) :
    judge kept statements = statements.map fun statement =>
      (statement, if statement.leavesDead then some .deadSource else none) := by
  induction statements generalizing kept with
  | nil => rfl
  | cons statement rest ih =>
      rw [List.map_cons, List.nodup_cons] at distinct
      have later : ∀ other ∈ rest, other.state.name ∉ statement.state.name :: kept := by
        intro other member
        rw [List.mem_cons, not_or]
        constructor
        · intro repeated
          exact distinct.1 (List.mem_map.mpr ⟨other, member, repeated⟩)
        · exact new other (List.mem_cons_of_mem _ member)
      have earlier : ∀ other ∈ rest, other.state.name ∉ kept := fun other member =>
        new other (List.mem_cons_of_mem _ member)
      rw [List.map_cons, judge, if_neg (new statement List.mem_cons_self), ih distinct.2 later,
        ih distinct.2 earlier]
      split <;> rfl

theorem judge_perm {statements others : List Statement}
    (distinct : (statements.map fun statement => statement.state.name).Nodup)
    (same : statements.Perm others) : (judge [] statements).Perm (judge [] others) := by
  have distinct' := (same.map fun statement => statement.state.name).nodup_iff.mp distinct
  rw [judge_of_distinct distinct fun _ _ => List.not_mem_nil,
    judge_of_distinct distinct' fun _ _ => List.not_mem_nil]
  exact same.map _

end Statement

namespace StateMachine

variable {machine other : StateMachine} (same : machine.statements.Perm other.statements)

include same

theorem names_perm : machine.names.Perm other.names :=
  same.map _

theorem startStates_perm : machine.startStates.Perm other.startStates :=
  (same.map _).filter _

theorem withDead_perm : machine.withDead.statements.Perm other.withDead.statements := by
  unfold withDead
  rw [(same.flatMap_right Statement.destinations).any_eq, (names_perm same).contains_eq]
  split
  · exact same.append_right _
  · exact same

variable (distinct : machine.names.Nodup)

include distinct

theorem successors_eq_of_perm (name : String) :
    machine.successors name = other.successors name := by
  have found : ∀ name, machine.statement? name = other.statement? name :=
    find?_eq_of_perm_of_nodup same (fun statement => statement.state.name) distinct
  rw [successors, successors, statementsFrom, statementsFrom, found, found]

theorem Reach.of_perm {name : String} (reached : machine.Reach name) : other.Reach name := by
  have names := names_perm same
  have starts := startStates_perm same
  induction reached with
  | initial initially =>
      apply Reach.initial
      rw [initialNames, ← (starts.map State.name).isEmpty_eq, ← names.contains_eq]
      rw [initialNames] at initially
      split at initially
      · rename_i wildcard
        rw [if_pos wildcard]
        exact ((starts.map State.name).append_right _).mem_iff.mp initially
      · rename_i plain
        rw [if_neg plain]
        exact (starts.map State.name).mem_iff.mp initially
  | step _ leads ih =>
      apply Reach.step ih
      rw [mem_namesAfter_iff] at leads ⊢
      rw [← names.mem_iff, ← successors_eq_of_perm same distinct]
      exact leads

theorem contains_reachable_eq_of_perm :
    machine.reachable.contains = other.reachable.contains := by
  have distinct' := (names_perm same).nodup_iff.mp distinct
  funext name
  rw [Bool.eq_iff_iff, List.contains_iff_mem, List.contains_iff_mem, mem_reachable_iff,
    mem_reachable_iff]
  exact ⟨Reach.of_perm same distinct, Reach.of_perm same.symm distinct'⟩

end StateMachine

namespace Protocol.Reordered

variable {protocol other : Protocol} (reordered : protocol.Reordered other)
  (apart : protocol.NamedApart)

include reordered

theorem message?_eq (apart : protocol.NamedApart) (name : String) :
    protocol.message? name = other.message? name :=
  find?_eq_of_perm_of_nodup reordered.messages Message.name apart.messages name

include apart

theorem machine_perm : protocol.machine.statements.Perm other.machine.statements :=
  StateMachine.withDead_perm ((Statement.judge_perm apart.sources reordered.statements).filterMap _)

theorem rejected_perm : protocol.rejected.Perm other.rejected :=
  (Statement.judge_perm apart.sources reordered.statements).filterMap _

theorem allSteps_perm : protocol.allSteps.Perm other.allSteps :=
  ((reordered.machine_perm apart).flatMap_right _).append
    ((reordered.rejected_perm apart).flatMap_right _)

theorem danglingErrors_perm : protocol.danglingErrors.Perm other.danglingErrors := by
  have names := StateMachine.names_perm (reordered.machine_perm apart)
  have known : other.machine.containsState = protocol.machine.containsState := by
    funext name
    rw [StateMachine.containsState, StateMachine.containsState, names.contains_eq]
  unfold danglingErrors
  rw [known]
  exact (reordered.allSteps_perm apart).flatMap_right _

theorem startErrors_eq : other.startErrors = protocol.startErrors := by
  have machine := reordered.machine_perm apart
  have starts := StateMachine.startStates_perm machine
  have name : other.name = protocol.name := (congrArg Protocol.name reordered.rest :)
  have loc : other.loc = protocol.loc := (congrArg Protocol.loc reordered.rest :)
  unfold startErrors
  rw [machine.isEmpty_eq, starts.isEmpty_eq, name, loc]

theorem triggerErrors_perm : protocol.triggerErrors.Perm other.triggerErrors := by
  have same : protocol.triggerError? = other.triggerError? := by
    funext transition
    unfold triggerError?
    simp only [reordered.message?_eq apart]
  unfold triggerErrors
  rw [same]
  exact (reordered.allSteps_perm apart).filterMap _

theorem replyErrors_perm : protocol.replyErrors.Perm other.replyErrors := by
  have machine := reordered.machine_perm apart
  have starts := (StateMachine.startStates_perm machine).isEmpty_eq
  have reachable := StateMachine.contains_reachable_eq_of_perm machine protocol.nodup_names_machine
  have same : protocol.replyError? = other.replyError? := by
    funext message
    have sources : (protocol.replySources message).Perm (other.replySources message) :=
      ((machine.flatMap_right _).filter _).map _
    unfold replyError?
    dsimp only
    rw [sources.isEmpty_eq, sources.any_eq, starts, reachable]
  unfold replyErrors
  rw [same]
  exact (reordered.messages.filter _).filterMap _

theorem errors_perm :
    (protocol.structureErrors ++ protocol.triggerErrors ++ protocol.replyErrors).Perm
      (other.structureErrors ++ other.triggerErrors ++ other.replyErrors) := by
  have rejected := (reordered.rejected_perm apart).map RejectedStatement.error
  have structural : protocol.structureErrors.Perm other.structureErrors := by
    unfold structureErrors
    rw [reordered.startErrors_eq apart]
    exact (rejected.append (reordered.danglingErrors_perm apart)).append_right _
  exact (structural.append (reordered.triggerErrors_perm apart)).append
    (reordered.replyErrors_perm apart)

end Protocol.Reordered

end ActorProtocol
