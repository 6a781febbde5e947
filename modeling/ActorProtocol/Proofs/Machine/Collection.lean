import ActorProtocol.Proofs.Machine.Statements

/-!
# Collecting the statements of a machine

Every statement of a protocol is either kept or rejected, with a reason that depends on
the statements kept before it. The machine consists of those that are kept, in their
order and padded, and of a statement for the dead state behind them when they lead there
and none of them is for it. Whether destinations are states is not looked at.
-/

namespace ActorProtocol

set_option autoImplicit false

namespace Statement

/-- The statement is for the dead state and has a transition that is not padding. -/
def LeavesDead (statement : Statement) : Prop :=
  statement.state.name = State.deadName ∧
    ∃ transition ∈ statement.transitions, transition.isNull = false

theorem leavesDead_iff (statement : Statement) :
    statement.leavesDead = true ↔ statement.LeavesDead := by
  simp [leavesDead, realTransitions, LeavesDead]

/-- What becomes of a statement when some source names are taken. -/
def verdict (statement : Statement) (taken : List String) : Option Rejection :=
  if statement.leavesDead then some .deadSource
  else if statement.state.name ∈ taken then some .duplicateSource
  else none

theorem verdict_eq_deadSource_iff (statement : Statement) (taken : List String) :
    statement.verdict taken = some .deadSource ↔ statement.LeavesDead := by
  rw [← leavesDead_iff]
  unfold verdict
  by_cases dead : statement.leavesDead = true
  · simp [dead]
  · by_cases old : statement.state.name ∈ taken <;> simp [dead, old]

theorem verdict_eq_duplicateSource_iff (statement : Statement) (taken : List String) :
    statement.verdict taken = some .duplicateSource ↔
      ¬ statement.LeavesDead ∧ statement.state.name ∈ taken := by
  rw [← leavesDead_iff]
  unfold verdict
  by_cases dead : statement.leavesDead = true
  · simp [dead]
  · by_cases old : statement.state.name ∈ taken <;> simp [dead, old]

theorem verdict_congr {statement : Statement} {taken others : List String}
    (same : statement.state.name ∈ taken ↔ statement.state.name ∈ others) :
    statement.verdict taken = statement.verdict others := by
  simp only [verdict, same]

/-- The statements that are kept, of some that are judged. -/
def keptOf (judged : List (Statement × Option Rejection)) : List Statement :=
  judged.filterMap fun
    | (statement, none) => some statement
    | (_, some _) => none

/-- The statements that are rejected, with the reasons. -/
def rejectedOf (judged : List (Statement × Option Rejection)) : List RejectedStatement :=
  judged.filterMap fun
    | (_, none) => none
    | (statement, some reason) => some ⟨reason, statement⟩

def sources (statements : List Statement) : List String :=
  statements.map fun statement => statement.state.name

theorem keptOf_append (first second : List (Statement × Option Rejection)) :
    keptOf (first ++ second) = keptOf first ++ keptOf second :=
  List.filterMap_append ..

theorem mem_keptOf_iff {judged : List (Statement × Option Rejection)} {statement : Statement} :
    statement ∈ keptOf judged ↔ (statement, none) ∈ judged := by
  unfold keptOf
  rw [List.mem_filterMap]
  constructor
  · rintro ⟨⟨other, verdict⟩, member, selected⟩
    cases verdict with
    | none =>
        cases selected
        exact member
    | some reason => cases selected
  · intro member
    exact ⟨(statement, none), member, rfl⟩

theorem judge_cons (taken : List String) (first : Statement) (rest : List Statement) :
    judge taken (first :: rest) = (first, first.verdict taken) ::
      judge (sources (keptOf [(first, first.verdict taken)]) ++ taken) rest := by
  rw [judge]
  unfold verdict
  by_cases dead : first.leavesDead = true
  · simp only [if_pos dead]
    rfl
  · by_cases old : first.state.name ∈ taken
    · simp only [if_neg dead, if_pos old]
      rfl
    · simp only [if_neg dead, if_neg old]
      rfl

/-- A statement is judged by the sources that are taken before all statements, and those
of the statements that are kept before it. -/
theorem verdict_of_split {taken : List String} {statements : List Statement}
    {earlier later : List (Statement × Option Rejection)} {statement : Statement}
    {rejection : Option Rejection}
    (split : judge taken statements = earlier ++ (statement, rejection) :: later) :
    rejection = statement.verdict (sources (keptOf earlier) ++ taken) := by
  induction statements generalizing taken earlier with
  | nil => simp [judge] at split
  | cons first rest ih =>
      rw [judge_cons] at split
      cases earlier with
      | nil =>
          rcases List.cons.inj split with ⟨same, _⟩
          cases same
          rfl
      | cons head earlier =>
          rcases List.cons.inj split with ⟨rfl, further⟩
          rw [ih further]
          apply verdict_congr
          have together : keptOf ((first, first.verdict taken) :: earlier) =
              keptOf [(first, first.verdict taken)] ++ keptOf earlier := keptOf_append [_] earlier
          rw [together]
          simp only [sources, List.map_append, List.mem_append, or_assoc, or_left_comm]

/-- Every verdict is what the statements that are kept before leave to the statement. -/
structure Judged (judged : List (Statement × Option Rejection)) : Prop where
  deadSource_iff : ∀ earlier statement verdict later,
    judged = earlier ++ (statement, verdict) :: later →
      (verdict = some .deadSource ↔ statement.LeavesDead)
  duplicateSource_iff : ∀ earlier statement verdict later,
    judged = earlier ++ (statement, verdict) :: later →
      (verdict = some .duplicateSource ↔ ¬ statement.LeavesDead ∧
        ∃ other ∈ keptOf earlier, other.state.name = statement.state.name)

theorem judged_judge (statements : List Statement) : Judged (judge [] statements) where
  deadSource_iff := by
    intro earlier statement verdict later split
    rw [verdict_of_split split]
    exact statement.verdict_eq_deadSource_iff _
  duplicateSource_iff := by
    intro earlier statement verdict later split
    rw [verdict_of_split split, verdict_eq_duplicateSource_iff, List.append_nil]
    unfold sources
    rw [List.mem_map]

/-- Some transition leads to the dead state, but no statement is for it. -/
def LacksDead (statements : List Statement) : Prop :=
  (∃ statement ∈ statements, ∃ destination ∈ statement.destinations,
    destination.name = State.deadName) ∧
    ∀ statement ∈ statements, statement.state.name ≠ State.deadName

instance (statements : List Statement) : Decidable (LacksDead statements) :=
  inferInstanceAs (Decidable (_ ∧ _))

theorem transitions_padded_ne_nil (statement : Statement) :
    statement.padded.transitions ≠ [] := by
  unfold padded
  split
  · exact List.cons_ne_nil _ _
  · rename_i filled
    simpa using filled

/-- Padding changes neither the name of a statement nor where it leads. -/
theorem lacksDead_map_padded (statements : List Statement) :
    LacksDead (statements.map padded) ↔ LacksDead statements := by
  unfold LacksDead
  simp only [List.mem_map, exists_exists_and_eq_and, forall_exists_index, and_imp,
    forall_apply_eq_imp_iff₂, destinations_padded, state_padded]

theorem not_leavesDead_padded {statement : Statement} (alive : ¬ statement.LeavesDead) :
    ¬ statement.padded.LeavesDead := by
  rw [← leavesDead_iff] at alive ⊢
  unfold leavesDead at alive ⊢
  rw [state_padded, realTransitions_padded]
  exact alive

end Statement

namespace StateMachine

open Statement

theorem keptStatements_eq (statements : List Statement) :
    keptStatements statements = (keptOf (judge [] statements)).map padded := by
  unfold keptStatements keptOf
  rw [List.map_filterMap]
  apply List.filterMap_congr
  rintro ⟨statement, verdict⟩ _
  cases verdict <;> rfl

theorem statements_withDead (machine : StateMachine) :
    machine.withDead.statements =
      machine.statements ++ if LacksDead machine.statements then [.ofNull .dead] else [] := by
  have lacks : ((machine.statements.flatMap Statement.destinations).any
      (fun state => state.name == State.deadName) && !machine.names.contains State.deadName) =
        true ↔ LacksDead machine.statements := by
    unfold LacksDead names
    rw [Bool.and_eq_true, List.any_eq_true, Bool.not_eq_true', List.contains_eq_mem,
      decide_eq_false_iff_not, List.mem_map]
    simp only [List.mem_flatMap, beq_iff_eq, not_exists, not_and]
    constructor
    · rintro ⟨⟨destination, ⟨statement, member, leads⟩, dead⟩, absent⟩
      exact ⟨⟨statement, member, destination, leads, dead⟩, absent⟩
    · rintro ⟨⟨statement, member, destination, leads, dead⟩, absent⟩
      exact ⟨⟨destination, ⟨statement, member, leads⟩, dead⟩, absent⟩
  unfold withDead
  by_cases lacking : LacksDead machine.statements
  · rw [if_pos (lacks.mpr lacking), if_pos lacking]
  · rw [if_neg fun added => lacking (lacks.mp added), if_neg lacking, List.append_nil]

/-- What leads to the dead state finds a statement for it. -/
theorem dead_mem_names_withDead {machine : StateMachine} {statement : Statement}
    {destination : State} (inside : statement ∈ machine.withDead.statements)
    (leads : destination ∈ statement.destinations) (dead : destination.name = State.deadName) :
    State.deadName ∈ machine.withDead.names := by
  unfold names
  rw [statements_withDead] at inside ⊢
  by_cases lacking : LacksDead machine.statements
  · rw [if_pos lacking, List.map_append]
    exact List.mem_append_right _ List.mem_cons_self
  · rw [if_neg lacking, List.append_nil] at inside ⊢
    by_contra absent
    apply lacking
    refine ⟨⟨statement, inside, destination, leads, dead⟩, ?_⟩
    intro other member named
    exact absent (List.mem_map.mpr ⟨other, member, named⟩)

/-- A machine as it is collected from any statements. -/
structure WellFormed (machine : StateMachine) : Prop where
  distinct : machine.names.Nodup
  found_iff : ∀ name statement, machine.statement? name = some statement ↔
    statement ∈ machine.statements ∧ statement.state.name = name
  filled : ∀ statement ∈ machine.statements, statement.transitions ≠ []
  ended : ∀ statement ∈ machine.statements, ¬ statement.LeavesDead
  dead : ∀ statement ∈ machine.statements, ∀ destination ∈ statement.destinations,
    destination.name = State.deadName → State.deadName ∈ machine.names

end StateMachine

namespace Protocol

open Statement

/-- What the verdicts on the statements of a protocol make of them. -/
structure Collected (protocol : Protocol) (verdicts : List (Statement × Option Rejection)) :
    Prop where
  complete : verdicts.map Prod.fst = protocol.statements
  judged : Judged verdicts
  rejected : protocol.rejected = rejectedOf verdicts
  statements : protocol.machine.statements = (keptOf verdicts).map padded ++
    if LacksDead (keptOf verdicts) then [.ofNull .dead] else []

theorem collected (protocol : Protocol) :
    protocol.Collected (judge [] protocol.statements) where
  complete := map_fst_judge [] protocol.statements
  judged := judged_judge protocol.statements
  rejected := rfl
  statements := by
    unfold machine StateMachine.ofStatements
    rw [StateMachine.statements_withDead]
    simp only [StateMachine.keptStatements_eq, lacksDead_map_padded]

/-- A statement of the machine is padded from one that is kept, or added for the dead state. -/
theorem mem_machine_cases {protocol : Protocol} {statement : Statement}
    (inside : statement ∈ protocol.machine.statements) :
    (∃ kept ∈ keptOf (judge [] protocol.statements), kept.padded = statement) ∨
      statement = .ofNull .dead := by
  rw [protocol.collected.statements, List.mem_append] at inside
  rcases inside with padded | added
  · exact Or.inl (List.mem_map.mp padded)
  · split at added
    · exact Or.inr (List.mem_singleton.mp added)
    · cases added

theorem wellFormed_machine (protocol : Protocol) : protocol.machine.WellFormed where
  distinct := protocol.nodup_names_machine
  found_iff := StateMachine.statement?_eq_some_iff protocol.nodup_names_machine
  filled := by
    intro statement inside
    rcases mem_machine_cases inside with ⟨kept, _, rfl⟩ | rfl
    · exact kept.transitions_padded_ne_nil
    · exact List.cons_ne_nil _ _
  ended := by
    intro statement inside
    rcases mem_machine_cases inside with ⟨kept, member, rfl⟩ | rfl
    · apply not_leavesDead_padded
      rw [← leavesDead_iff, Bool.not_eq_true]
      exact alive_of_kept (mem_keptOf_iff.mp member)
    · rw [← leavesDead_iff]
      decide
  dead := by
    intro statement inside destination leads dead
    exact StateMachine.dead_mem_names_withDead inside leads dead

theorem machine_collects (protocol : Protocol) :
    protocol.machine.WellFormed ∧ ∃ verdicts, protocol.Collected verdicts :=
  ⟨protocol.wellFormed_machine, _, protocol.collected⟩

end Protocol

end ActorProtocol
