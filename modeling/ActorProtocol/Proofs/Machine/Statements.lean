import ActorProtocol.Machine.Checked
import ActorProtocol.Proofs.Data.Search
import Mathlib.Data.List.Basic

/-!
# Statements of a machine

The statements of a protocol are split into those that its machine keeps and those
that are rejected, and padding adds no step, so the steps that the checks see are
those of the protocol. When nothing is rejected, the machine is the protocol's own
list of statements, padded, and perhaps a statement for the dead state.
-/

namespace ActorProtocol

set_option autoImplicit false

namespace Statement

@[simp] theorem state_padded (statement : Statement) :
    statement.padded.state = statement.state := by
  unfold padded
  split <;> rfl

@[simp] theorem realTransitions_padded (statement : Statement) :
    statement.padded.realTransitions = statement.realTransitions := by
  unfold padded
  split
  · rename_i empty
    have none : statement.transitions = [] := List.isEmpty_iff.mp empty
    unfold realTransitions
    rw [none]
    rfl
  · rfl

@[simp] theorem steps_padded (statement : Statement) :
    statement.padded.steps = statement.steps := by
  simp [steps]

@[simp] theorem destinations_padded (statement : Statement) :
    statement.padded.destinations = statement.destinations := by
  unfold padded
  split
  · rename_i empty
    have none : statement.transitions = [] := List.isEmpty_iff.mp empty
    unfold destinations
    rw [none]
    rfl
  · rfl

/-- Padding that gives nothing may be passed over. -/
theorem flatMap_realTransitions (statement : Statement) {Result : Type}
    {gives : Transition → List Result}
    (null : ∀ transition, transition.isNull = true → gives transition = []) :
    statement.realTransitions.flatMap gives = statement.transitions.flatMap gives := by
  unfold realTransitions
  induction statement.transitions with
  | nil => rfl
  | cons transition rest ih =>
      rw [List.flatMap_cons, List.filter_cons, ← ih]
      cases padding : transition.isNull with
      | true => simp [null transition padding]
      | false => simp

theorem steps_ofNull (state : State) : (ofNull state).steps = [] := rfl

theorem destinations_ofNull (state : State) : (ofNull state).destinations = [] := rfl

theorem mem_steps_iff {statement : Statement} {source : State} {transition : Transition} :
    (source, transition) ∈ statement.steps ↔
      statement.state = source ∧ transition ∈ statement.realTransitions := by
  unfold steps
  rw [List.mem_map]
  constructor
  · rintro ⟨other, member, same⟩
    cases same
    exact ⟨rfl, member⟩
  · rintro ⟨same, member⟩
    exact ⟨transition, member, by rw [same]⟩

/-- Every statement is judged, in its place. -/
theorem map_fst_judge (kept : List String) (statements : List Statement) :
    (judge kept statements).map Prod.fst = statements := by
  induction statements generalizing kept with
  | nil => rfl
  | cons statement rest ih =>
      unfold judge
      split
      · simp [ih]
      · split <;> simp [ih]

/-- Nothing is rejected when nothing leaves the dead state and the source names are
distinct, also from those that were kept before. -/
theorem judge_all_kept_iff (kept : List String) (statements : List Statement) :
    (∀ judged ∈ judge kept statements, judged.2 = none) ↔
      (∀ statement ∈ statements, statement.leavesDead = false) ∧
        (statements.map fun statement => statement.state.name).Nodup ∧
        ∀ statement ∈ statements, statement.state.name ∉ kept := by
  induction statements generalizing kept with
  | nil => simp [judge]
  | cons statement rest ih =>
      unfold judge
      by_cases dead : statement.leavesDead = true
      · simp [dead]
      · rw [if_neg dead]
        by_cases taken : statement.state.name ∈ kept
        · simp [taken]
        · have alive : statement.leavesDead = false := by simpa using dead
          rw [if_neg taken, List.forall_mem_cons, List.forall_mem_cons, List.forall_mem_cons, ih,
            List.map_cons, List.nodup_cons]
          constructor
          · rintro ⟨_, alives, distinct, apart⟩
            refine ⟨⟨alive, alives⟩, ⟨?_, distinct⟩, taken, ?_⟩
            · intro repeated
              obtain ⟨other, member, same⟩ := List.mem_map.mp repeated
              exact apart other member (by simp [same])
            · intro other member inside
              exact apart other member (List.mem_cons_of_mem _ inside)
          · rintro ⟨⟨_, alives⟩, ⟨new, distinct⟩, _, apart⟩
            refine ⟨rfl, alives, distinct, ?_⟩
            intro other member inside
            rcases List.mem_cons.mp inside with same | earlier
            · exact new (List.mem_map.mpr ⟨other, member, same⟩)
            · exact apart other member earlier

theorem mem_of_judged {kept : List String} {statements : List Statement} {statement : Statement}
    {judgement : Option Rejection} (judged : (statement, judgement) ∈ judge kept statements) :
    statement ∈ statements := by
  rw [← map_fst_judge kept statements]
  exact List.mem_map.mpr ⟨_, judged, rfl⟩

theorem alive_of_kept {kept : List String} {statements : List Statement} {statement : Statement}
    (judged : (statement, none) ∈ judge kept statements) : statement.leavesDead = false := by
  induction statements generalizing kept with
  | nil => cases judged
  | cons first rest ih =>
      unfold judge at judged
      split at judged
      · rcases List.mem_cons.mp judged with same | later
        · cases same
        · exact ih later
      · rename_i alive
        split at judged
        · rcases List.mem_cons.mp judged with same | later
          · cases same
          · exact ih later
        · rcases List.mem_cons.mp judged with same | later
          · cases same
            simpa using alive
          · exact ih later

/-- A statement that is not kept leaves the dead state, or another of its source is kept. -/
theorem source_kept (kept : List String) {statements : List Statement} {statement : Statement}
    (member : statement ∈ statements) (alive : statement.leavesDead = false) :
    statement.state.name ∈ kept ∨ ∃ other, (other, none) ∈ judge kept statements ∧
      other.state.name = statement.state.name := by
  induction statements generalizing kept with
  | nil => cases member
  | cons first rest ih =>
      unfold judge
      rcases List.mem_cons.mp member with same | later
      · subst same
        rw [if_neg (by simp [alive])]
        by_cases old : statement.state.name ∈ kept
        · exact Or.inl old
        · rw [if_neg old]
          exact Or.inr ⟨statement, List.mem_cons_self, rfl⟩
      · have onward : ∀ {names judgement}, (statement.state.name ∈ names ∨
            ∃ other, (other, none) ∈ judge names rest ∧
              other.state.name = statement.state.name) →
            statement.state.name ∈ names ∨
              ∃ other, (other, none) ∈ (first, judgement) :: judge names rest ∧
                other.state.name = statement.state.name := by
          intro names judgement known
          rcases known with old | ⟨other, judged, source⟩
          · exact Or.inl old
          · exact Or.inr ⟨other, List.mem_cons_of_mem _ judged, source⟩
        split
        · exact onward (ih kept later)
        · split
          · exact onward (ih kept later)
          · rcases onward (ih (first.state.name :: kept) later) with old | found
            · rcases List.mem_cons.mp old with same | earlier
              · exact Or.inr ⟨first, List.mem_cons_self, same.symm⟩
              · exact Or.inl earlier
            · exact Or.inr found

/-- The sources of the statements that are kept. -/
def keptSources (judged : List (Statement × Option Rejection)) : List String :=
  (judged.filter fun judged => judged.2.isNone).map fun judged => judged.1.state.name

theorem nodup_keptSources (kept : List String) (statements : List Statement) :
    (keptSources (judge kept statements)).Nodup ∧
      ∀ name ∈ keptSources (judge kept statements), name ∉ kept := by
  induction statements generalizing kept with
  | nil => exact ⟨List.nodup_nil, fun name none => by cases none⟩
  | cons statement rest ih =>
      unfold judge
      split
      · exact ih kept
      · split
        · exact ih kept
        · rename_i new
          obtain ⟨distinct, apart⟩ := ih (statement.state.name :: kept)
          change (statement.state.name :: keptSources _).Nodup ∧
            ∀ name ∈ statement.state.name :: keptSources _, name ∉ kept
          rw [List.nodup_cons, List.forall_mem_cons]
          refine ⟨⟨?_, distinct⟩, new, ?_⟩
          · intro again
            exact apart _ again List.mem_cons_self
          · intro name source old
            exact apart name source (List.mem_cons_of_mem _ old)

end Statement

namespace StateMachine

open Statement

theorem mem_keptStatements_iff {statements : List Statement} {kept : Statement} :
    kept ∈ keptStatements statements ↔
      ∃ statement, (statement, none) ∈ judge [] statements ∧ statement.padded = kept := by
  unfold keptStatements
  rw [List.mem_filterMap]
  constructor
  · rintro ⟨⟨statement, judgement⟩, member, selected⟩
    cases judgement with
    | none => exact ⟨statement, member, Option.some.inj selected⟩
    | some reason => cases selected
  · rintro ⟨statement, member, rfl⟩
    exact ⟨(statement, none), member, rfl⟩

theorem mem_rejectedStatements_iff {statements : List Statement} {rejected : RejectedStatement} :
    rejected ∈ rejectedStatements statements ↔
      (rejected.statement, some rejected.reason) ∈ judge [] statements := by
  unfold rejectedStatements
  rw [List.mem_filterMap]
  constructor
  · rintro ⟨⟨statement, judgement⟩, member, selected⟩
    cases judgement with
    | none => cases selected
    | some reason =>
        cases selected
        exact member
  · intro member
    exact ⟨(rejected.statement, some rejected.reason), member, rfl⟩

theorem rejectedStatements_eq_nil_iff (statements : List Statement) :
    rejectedStatements statements = [] ↔
      (∀ statement ∈ statements, statement.leavesDead = false) ∧
        (statements.map fun statement => statement.state.name).Nodup := by
  have all := judge_all_kept_iff [] statements
  simp only [List.not_mem_nil, not_false_iff, implies_true, and_true] at all
  rw [← all]
  unfold rejectedStatements
  rw [List.filterMap_eq_nil_iff]
  constructor
  · intro none judged member
    obtain ⟨statement, judgement⟩ := judged
    cases judgement with
    | none => rfl
    | some reason => cases none _ member
  · intro kept judged member
    obtain ⟨statement, judgement⟩ := judged
    cases judgement with
    | none => rfl
    | some reason => cases kept _ member

theorem keptStatements_of_rejected_eq_nil {statements : List Statement}
    (clean : rejectedStatements statements = []) :
    keptStatements statements = statements.map padded := by
  have kept : ∀ judged ∈ judge [] statements, judged.2 = none := by
    intro judged member
    obtain ⟨statement, judgement⟩ := judged
    cases judgement with
    | none => rfl
    | some reason =>
        have rejected := mem_rejectedStatements_iff.mpr
          (show ((⟨reason, statement⟩ : RejectedStatement).statement, some reason) ∈ _ from member)
        rw [clean] at rejected
        cases rejected
  have listed : keptStatements statements = (judge [] statements).map fun judged =>
      judged.1.padded := by
    unfold keptStatements
    rw [← List.filterMap_eq_map]
    apply List.filterMap_congr
    intro judged member
    obtain ⟨statement, judgement⟩ := judged
    cases kept _ member
    rfl
  rw [listed]
  conv_rhs => rw [← map_fst_judge [] statements, List.map_map]
  rfl

/-- Names of sources are distinct, so a statement is found by its name. -/
theorem statement?_eq_some_iff {machine : StateMachine} (distinct : machine.names.Nodup)
    (name : String) (statement : Statement) :
    machine.statement? name = some statement ↔
      statement ∈ machine.statements ∧ statement.state.name = name :=
  find?_eq_some_iff_of_nodup (fun statement : Statement => statement.state.name) distinct

theorem statement?_of_mem {machine : StateMachine} (distinct : machine.names.Nodup)
    {statement : Statement} (member : statement ∈ machine.statements) :
    machine.statement? statement.state.name = some statement :=
  (statement?_eq_some_iff distinct _ _).mpr ⟨member, rfl⟩

/-- The statement for the dead state adds no steps. -/
theorem steps_withDead (machine : StateMachine) : machine.withDead.steps = machine.steps := by
  unfold withDead
  split
  · simp [steps, steps_ofNull]
  · rfl

theorem names_withDead (machine : StateMachine) :
    machine.withDead.names = machine.names ∨
      machine.withDead.names = machine.names ++ [State.deadName] := by
  unfold withDead
  split
  · exact Or.inr (List.map_append ..)
  · exact Or.inl rfl

theorem names_keptStatements (statements : List Statement) :
    (⟨keptStatements statements⟩ : StateMachine).names = keptSources (judge [] statements) := by
  unfold names keptStatements keptSources
  generalize judge [] statements = judged
  induction judged with
  | nil => rfl
  | cons first rest ih =>
      obtain ⟨statement, judgement⟩ := first
      cases judgement with
      | none => simpa using ih
      | some reason => simpa using ih

theorem mem_names_keptStatements_iff {statements : List Statement} {name : String} :
    name ∈ (⟨keptStatements statements⟩ : StateMachine).names ↔
      ∃ statement ∈ statements, statement.leavesDead = false ∧ statement.state.name = name := by
  unfold names
  simp only [List.mem_map, mem_keptStatements_iff]
  constructor
  · rintro ⟨_, ⟨statement, judged, rfl⟩, rfl⟩
    exact ⟨statement, mem_of_judged judged, alive_of_kept judged, by rw [state_padded]⟩
  · rintro ⟨statement, member, alive, rfl⟩
    rcases source_kept [] member alive with none | ⟨other, judged, same⟩
    · cases none
    · exact ⟨_, ⟨other, judged, rfl⟩, by rw [state_padded, same]⟩

theorem nodup_names_withDead {machine : StateMachine} (distinct : machine.names.Nodup) :
    machine.withDead.names.Nodup := by
  unfold withDead
  split
  · rename_i missing
    have absent : State.deadName ∉ machine.names := by
      simp only [Bool.and_eq_true, Bool.not_eq_true', List.contains_eq_mem,
        decide_eq_false_iff_not] at missing
      exact missing.2
    have listed : (⟨machine.statements ++ [.ofNull .dead]⟩ : StateMachine).names =
        machine.names ++ [State.deadName] := List.map_append ..
    rw [listed]
    exact (List.perm_append_singleton _ _).nodup_iff.mpr (List.nodup_cons.mpr ⟨absent, distinct⟩)
  · exact distinct

end StateMachine

namespace Protocol

/-- A machine has at most one statement for a source. -/
theorem nodup_names_machine (protocol : Protocol) : protocol.machine.names.Nodup := by
  apply StateMachine.nodup_names_withDead
  rw [StateMachine.names_keptStatements]
  exact (Statement.nodup_keptSources [] protocol.statements).1

/-- Every step of a statement is checked once, whether the statement is kept or rejected. -/
theorem allSteps_perm (protocol : Protocol) :
    protocol.allSteps.Perm (protocol.statements.flatMap Statement.steps) := by
  unfold allSteps machine StateMachine.ofStatements
  rw [StateMachine.steps_withDead]
  unfold StateMachine.steps rejected StateMachine.keptStatements StateMachine.rejectedStatements
  conv_rhs => rw [← Statement.map_fst_judge [] protocol.statements]
  generalize Statement.judge [] protocol.statements = judged
  induction judged with
  | nil => exact List.Perm.refl _
  | cons first rest ih =>
      obtain ⟨statement, judgement⟩ := first
      cases judgement with
      | none =>
          simp only [List.map_cons, List.filterMap_cons, List.flatMap_cons,
            Statement.steps_padded, List.append_assoc]
          exact ih.append_left _
      | some reason =>
          simp only [List.map_cons, List.filterMap_cons, List.flatMap_cons]
          -- the steps of a rejected statement come after those of all that are kept
          exact (List.perm_append_comm_assoc _ _ _).trans (ih.append_left _)

theorem mem_allSteps_iff {protocol : Protocol} {source : State} {transition : Transition} :
    (source, transition) ∈ protocol.allSteps ↔
      ∃ statement ∈ protocol.statements, statement.state = source ∧
        transition ∈ statement.realTransitions := by
  rw [protocol.allSteps_perm.mem_iff, List.mem_flatMap]
  simp only [Statement.mem_steps_iff]

end Protocol

end ActorProtocol
