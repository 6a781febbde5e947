import ActorProtocol.Proofs.Machine.Collection
import ActorProtocol.Proofs.Source.Numbering

/-!
# Faults of the machine check

The check of the triggers looks up the declaration of every transition that has a trigger
and a message and is not poisoned. It faults exactly if one of these look-ups fails, and
the fault is that of the first that does, where the statements that are kept come before
those that are rejected. Nothing is assumed of the tables: the unit may have been changed
after its resolution, and ids may be shared.
-/

namespace ActorProtocol

set_option autoImplicit false

namespace Statement

theorem map_snd_steps (statement : Statement) :
    statement.steps.map Prod.snd = statement.realTransitions := by
  unfold steps
  rw [List.map_map]
  exact List.map_id _

/-- A judged list falls apart into what is kept and what is rejected. -/
theorem keptOf_append_rejectedOf_perm (judged : List (Statement × Option Rejection)) :
    (keptOf judged ++ (rejectedOf judged).map RejectedStatement.statement).Perm
      (judged.map Prod.fst) := by
  induction judged with
  | nil => exact List.Perm.refl _
  | cons first rest ih =>
      obtain ⟨statement, verdict⟩ := first
      cases verdict with
      | none => exact ih.cons statement
      | some reason => exact List.perm_middle.trans (ih.cons statement)

end Statement

namespace Protocol

open Statement

/-- The statements that are kept, and then those that are rejected. -/
def keptFirst (protocol : Protocol) : List Statement :=
  keptOf (judge [] protocol.statements) ++ protocol.rejected.map RejectedStatement.statement

theorem keptFirst_perm (protocol : Protocol) : protocol.keptFirst.Perm protocol.statements := by
  have whole := keptOf_append_rejectedOf_perm (judge [] protocol.statements)
  rw [map_fst_judge] at whole
  exact whole

/-- Neither padding nor the statement for the dead state is looked at. -/
theorem allSteps_eq (protocol : Protocol) :
    protocol.allSteps = protocol.keptFirst.flatMap Statement.steps := by
  unfold allSteps machine StateMachine.ofStatements keptFirst
  rw [StateMachine.steps_withDead, List.flatMap_append, List.flatMap_map]
  unfold StateMachine.steps
  rw [StateMachine.keptStatements_eq, List.flatMap_map]
  simp only [steps_padded]

/-- The transitions in the order in which their triggers are checked. -/
theorem map_snd_allSteps (protocol : Protocol) :
    protocol.allSteps.map Prod.snd = protocol.keptFirst.flatMap Statement.realTransitions := by
  rw [allSteps_eq, List.map_flatMap]
  simp only [map_snd_steps]

end Protocol

namespace Resolved

variable {resolved : Resolved}

/-- A look-up that fails, with the fault that it is. -/
inductive Unresolved (resolved : Resolved) (transition : Transition) : Fault → Prop
  | missing (acts : transition.action.isSome = true)
      (healthy : resolved.isPoisoned transition.id = false)
      (absent : resolved.decls.declOf? transition.id = none) :
      Unresolved resolved transition (.missingDecl transition.id)
  | notAMessage {decl : Decl} (acts : transition.action.isSome = true)
      (healthy : resolved.isPoisoned transition.id = false)
      (declared : resolved.decls.declOf? transition.id = some decl)
      (other : ∀ semantics direction, decl.kind ≠ .message semantics direction) :
      Unresolved resolved transition (.notAMessage transition.id)

theorem Unresolved.acts {transition : Transition} {fault : Fault}
    (unresolved : resolved.Unresolved transition fault) : transition.action.isSome = true := by
  cases unresolved with
  | missing acts => exact acts
  | notAMessage acts => exact acts

theorem triggerError?_eq_error_iff (transition : Transition) (fault : Fault) :
    resolved.triggerError? transition = .error fault ↔
      resolved.Unresolved transition fault := by
  unfold triggerError?
  cases action : transition.action with
  | none =>
      constructor
      · exact nofun
      · intro unresolved
        have acts := unresolved.acts
        rw [action] at acts
        cases acts
  | some named =>
      obtain ⟨trigger, name⟩ := named
      have acts : transition.action.isSome = true := by rw [action]; rfl
      dsimp only
      cases poison : resolved.isPoisoned transition.id with
      | true =>
          rw [if_pos rfl]
          constructor
          · exact nofun
          · intro unresolved
            cases unresolved with
            | missing _ healthy => cases poison.symm.trans healthy
            | notAMessage _ healthy => cases poison.symm.trans healthy
      | false =>
          rw [if_neg Bool.false_ne_true]
          unfold DeclTable.declOf
          cases declared : resolved.decls.declOf? transition.id with
          | none =>
              simp only [bind, Except.bind, Except.error.injEq]
              constructor
              · rintro rfl
                exact .missing acts poison declared
              · intro unresolved
                cases unresolved with
                | missing => rfl
                | notAMessage _ _ found => cases declared.symm.trans found
          | some decl =>
              simp only [bind, Except.bind]
              constructor
              · intro faults
                split at faults
                · split at faults <;> cases faults
                · rename_i other
                  cases faults
                  exact .notAMessage acts poison declared other
              · intro unresolved
                cases unresolved with
                | missing _ _ absent => cases declared.symm.trans absent
                | notAMessage _ _ found other =>
                    cases declared.symm.trans found
                    split
                    · rename_i kind
                      exact absurd kind (other _ _)
                    · rfl

/-- The fault of the first look-up that fails. -/
def FirstFault (resolved : Resolved) (transitions : List Transition) (fault : Fault) : Prop :=
  ∃ before transition after, transitions = before ++ transition :: after ∧
    (∀ earlier ∈ before, ∀ other, ¬ resolved.Unresolved earlier other) ∧
    resolved.Unresolved transition fault

theorem not_firstFault_nil (fault : Fault) : ¬ resolved.FirstFault [] fault := by
  rintro ⟨before, transition, after, split, _⟩
  exact absurd split.symm (List.append_ne_nil_of_right_ne_nil _ (List.cons_ne_nil _ _))

theorem firstFault_cons_iff (first : Transition) (rest : List Transition) (fault : Fault) :
    resolved.FirstFault (first :: rest) fault ↔
      resolved.Unresolved first fault ∨
        (∀ other, ¬ resolved.Unresolved first other) ∧ resolved.FirstFault rest fault := by
  constructor
  · rintro ⟨before, transition, after, split, sound, unresolved⟩
    cases before with
    | nil =>
        cases split
        exact Or.inl unresolved
    | cons head before =>
        cases split
        rw [List.forall_mem_cons] at sound
        exact Or.inr ⟨sound.1, before, transition, after, rfl, sound.2, unresolved⟩
  · rintro (unresolved | ⟨sound, before, transition, after, rfl, later, unresolved⟩)
    · exact ⟨[], first, rest, rfl, nofun, unresolved⟩
    · exact ⟨first :: before, transition, after, rfl, List.forall_mem_cons.mpr ⟨sound, later⟩,
        unresolved⟩

theorem exists_firstFault_iff (transitions : List Transition) :
    (∃ fault, resolved.FirstFault transitions fault) ↔
      ∃ transition ∈ transitions, ∃ fault, resolved.Unresolved transition fault := by
  constructor
  · rintro ⟨fault, before, transition, after, rfl, _, unresolved⟩
    exact ⟨transition, List.mem_append_right _ List.mem_cons_self, fault, unresolved⟩
  · rintro ⟨transition, member, unresolved⟩
    induction transitions with
    | nil => cases member
    | cons first rest ih =>
        simp only [firstFault_cons_iff]
        by_cases early : ∃ fault, resolved.Unresolved first fault
        · obtain ⟨fault, faulty⟩ := early
          exact ⟨fault, Or.inl faulty⟩
        · rcases List.mem_cons.mp member with rfl | later
          · exact absurd unresolved early
          · obtain ⟨fault, found⟩ := ih later
            exact ⟨fault, Or.inr ⟨not_exists.mp early, found⟩⟩

/-- A run over the steps ends at the first look-up that fails. -/
theorem triggerErrors_eq_error_iff (steps : List (State × Transition)) (fault : Fault) :
    resolved.triggerErrors steps = .error fault ↔
      resolved.FirstFault (steps.map Prod.snd) fault := by
  induction steps with
  | nil => exact ⟨nofun, fun found => absurd found (not_firstFault_nil fault)⟩
  | cons step steps ih =>
      obtain ⟨source, transition⟩ := step
      have run : resolved.triggerErrors ((source, transition) :: steps) = (do
          let error? ← resolved.triggerError? transition
          let later ← resolved.triggerErrors steps
          return error?.toList ++ later) := rfl
      rw [run, List.map_cons, firstFault_cons_iff, ← ih]
      simp only [← triggerError?_eq_error_iff]
      cases resolved.triggerError? transition with
      | error other => simp [bind, Except.bind]
      | ok error? =>
          cases resolved.triggerErrors steps with
          | error other => simp [bind, Except.bind]
          | ok errors => simp [bind, Except.bind, pure, Except.pure]

/-- The check faults at the first look-up that fails, and nowhere else. -/
structure FaultsAtFirst (resolved : Resolved) (protocol : Protocol) : Prop where
  complete : protocol.keptFirst.Perm protocol.statements
  faults_iff : (∃ fault, resolved.check = .error fault) ↔
    ∃ statement ∈ protocol.statements, ∃ transition ∈ statement.transitions,
      transition.isNull = false ∧ ∃ fault, resolved.Unresolved transition fault
  fault_iff : ∀ fault, resolved.check = .error fault ↔
    resolved.FirstFault (protocol.keptFirst.flatMap Statement.realTransitions) fault
  passes_iff : (∃ checked, resolved.check = .ok checked) ↔
    ∀ statement ∈ protocol.statements, ∀ transition ∈ statement.transitions,
      transition.isNull = false → ∀ fault, ¬ resolved.Unresolved transition fault

theorem check_eq_error_iff {protocol : Protocol}
    (described : resolved.unit.protocol = some protocol) (fault : Fault) :
    resolved.check = .error fault ↔
      resolved.FirstFault (protocol.keptFirst.flatMap Statement.realTransitions) fault := by
  rw [← Protocol.map_snd_allSteps, ← triggerErrors_eq_error_iff]
  unfold check SourceUnit.requireProtocol
  rw [described]
  simp only [bind, Except.bind]
  cases resolved.triggerErrors protocol.allSteps <;> simp [pure, Except.pure]

theorem check_undescribed (undescribed : resolved.unit.protocol = none) :
    resolved.check = .error (.missingProtocol resolved.unit.file) := by
  unfold check SourceUnit.requireProtocol
  rw [undescribed]
  rfl

theorem faultsAtFirst {protocol : Protocol}
    (described : resolved.unit.protocol = some protocol) : resolved.FaultsAtFirst protocol := by
  have faults : (∃ fault, resolved.check = .error fault) ↔
      ∃ statement ∈ protocol.statements, ∃ transition ∈ statement.transitions,
        transition.isNull = false ∧ ∃ fault, resolved.Unresolved transition fault := by
    simp only [check_eq_error_iff described, exists_firstFault_iff, List.mem_flatMap,
      protocol.keptFirst_perm.mem_iff, Statement.realTransitions, List.mem_filter,
      Bool.not_eq_true']
    constructor
    · rintro ⟨transition, ⟨statement, member, written, real⟩, unresolved⟩
      exact ⟨statement, member, transition, written, real, unresolved⟩
    · rintro ⟨statement, member, transition, written, real, unresolved⟩
      exact ⟨transition, ⟨statement, member, written, real⟩, unresolved⟩
  refine ⟨protocol.keptFirst_perm, faults, check_eq_error_iff described, ?_⟩
  have passes : (∃ checked, resolved.check = .ok checked) ↔
      ¬ ∃ fault, resolved.check = .error fault := by
    cases resolved.check <;> simp
  rw [passes, faults]
  simp only [not_exists, not_and]

/-- The check needs a protocol. If there is one, it faults at the first look-up that fails. -/
theorem check_faults_at_first (resolved : Resolved) :
    ((∃ file, resolved.check = .error (.missingProtocol file)) ↔
        resolved.unit.protocol = none) ∧
      (resolved.unit.protocol = none →
        resolved.check = .error (.missingProtocol resolved.unit.file)) ∧
      ∀ protocol, resolved.unit.protocol = some protocol → resolved.FaultsAtFirst protocol := by
  refine ⟨⟨?_, fun undescribed => ⟨_, check_undescribed undescribed⟩⟩, check_undescribed,
    fun protocol described => faultsAtFirst described⟩
  rintro ⟨file, faults⟩
  cases described : resolved.unit.protocol with
  | none => rfl
  | some protocol =>
      obtain ⟨_, transition, _, _, _, unresolved⟩ := (check_eq_error_iff described _).mp faults
      cases unresolved

/-- A statement for the dead state is rejected, so it comes last even if it is written first.
Nothing is declared here. -/
example :
    (Resolved.mk
      { channelUnit "Header" with
        protocol := some { channelProtocol "Header" with
          statements :=
            ⟨⟨26⟩, .dead, [⟨⟨27⟩, some .send, some "Close", [], channelLine 14⟩], channelLine 14⟩ ::
              (channelProtocol "Header").statements } }
      .empty .empty []).check = .error (.missingDecl ⟨21⟩) := by
  rfl

end Resolved

end ActorProtocol
