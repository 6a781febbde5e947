import ActorProtocol.Proofs.Machine.Acceptance
import Mathlib.Data.List.Infix

/-!
# Rejected statements hide nothing

A statement that is rejected keeps its other faults. The check is held against lists
that are read off the statements as they are written, rejected or not: which of them
are rejected, which destinations are no states, and which triggers do not fit the
message that their transition is linked to. The errors of each of these kinds are
exactly those of its list, each as often as it occurs there. The units need not come
from resolution; a check that ends in a fault reports nothing and is not looked at.
-/

namespace ActorProtocol

set_option autoImplicit false

/-- What an error of a machine is about. -/
inductive MachineRule where
  | source
  | destination
  | start
  | trigger
  | reply
  deriving DecidableEq

namespace MachineError

def rule : MachineError → MachineRule
  | duplicateSourceState _ | deadStateHasTransitions => .source
  | danglingDestination _ _ => .destination
  | noStartState _ => .start
  | triggerDirectionMismatch _ _ _ => .trigger
  | missingReplyTransition _ _ | unreachableReplyTransition _ => .reply

end MachineError

/-- The errors about one rule, in their order. -/
def errorsAbout (rule : MachineRule) (errors : List (Located MachineError)) :
    List (Located MachineError) :=
  errors.filter fun error => error.error.rule = rule

theorem errorsAbout_append (rule : MachineRule) (first second : List (Located MachineError)) :
    errorsAbout rule (first ++ second) = errorsAbout rule first ++ errorsAbout rule second :=
  List.filter_append _ _

theorem mem_iff_mem_errorsAbout {errors : List (Located MachineError)}
    {error : Located MachineError} :
    error ∈ errors ↔ error ∈ errorsAbout error.error.rule errors := by
  simp [errorsAbout]

/-- Errors that are all about one rule are all or none of those about another. -/
theorem errorsAbout_of_uniform {own : MachineRule} {errors : List (Located MachineError)}
    (uniform : ∀ error ∈ errors, error.error.rule = own) (rule : MachineRule) :
    errorsAbout rule errors = if own = rule then errors else [] := by
  unfold errorsAbout
  split
  · rename_i same
    rw [List.filter_eq_self]
    intro error member
    simp [uniform error member, same]
  · rename_i differs
    rw [List.filter_eq_nil_iff]
    intro error member
    simp [uniform error member, differs]

namespace Statement

/-- Why a statement is rejected after the statements before it. One of those counts as
taking the source unless it leaves the dead state itself. -/
def rejection? (earlier : List Statement) (statement : Statement) : Option Rejection :=
  if statement.leavesDead then some .deadSource
  else if earlier.any fun other =>
      !other.leavesDead && other.state.name == statement.state.name then
    some .duplicateSource
  else none

/-- The names are the sources of the statements that leave no dead state. -/
def Sources (statements : List Statement) (names : List String) : Prop :=
  ∀ name, name ∈ names ↔
    ∃ statement ∈ statements, statement.leavesDead = false ∧ statement.state.name = name

namespace Sources

variable {prior : List Statement} {names : List String} {statement : Statement}

theorem concat_of_leavesDead (sources : Sources prior names)
    (dead : statement.leavesDead = true) : Sources (prior ++ [statement]) names := by
  intro name
  rw [sources name]
  simp [dead, or_and_right, exists_or]

theorem concat_of_mem (sources : Sources prior names) (old : statement.state.name ∈ names) :
    Sources (prior ++ [statement]) names := by
  intro name
  constructor
  · intro taken
    obtain ⟨other, member, source⟩ := (sources name).mp taken
    exact ⟨other, List.mem_append_left _ member, source⟩
  · rintro ⟨other, member, alive, rfl⟩
    rcases List.mem_append.mp member with earlier | last
    · exact (sources _).mpr ⟨other, earlier, alive, rfl⟩
    · exact List.mem_singleton.mp last ▸ old

theorem concat_of_alive (sources : Sources prior names) (alive : statement.leavesDead = false) :
    Sources (prior ++ [statement]) (statement.state.name :: names) := by
  intro name
  rw [List.mem_cons, sources name]
  constructor
  · rintro (rfl | ⟨other, member, source⟩)
    · exact ⟨statement, List.mem_append_right _ List.mem_cons_self, alive, rfl⟩
    · exact ⟨other, List.mem_append_left _ member, source⟩
  · rintro ⟨other, member, source⟩
    rcases List.mem_append.mp member with earlier | last
    · exact Or.inr ⟨other, earlier, source⟩
    · exact Or.inl (List.mem_singleton.mp last ▸ source.2.symm)

end Sources

/-- A source is taken by the first statement that does not leave the dead state, so it
does not matter which of the later ones of that name were kept. -/
theorem judge_eq_map {names : List String} {prior : List Statement}
    (sources : Sources prior names) (statements : List Statement) :
    judge names statements = (statements.inits.zip statements).map fun (earlier, statement) =>
      (statement, statement.rejection? (prior ++ earlier)) := by
  induction statements generalizing names prior with
  | nil => rfl
  | cons statement rest ih =>
      have repeated : (prior.any fun other =>
          !other.leavesDead && other.state.name == statement.state.name) =
            decide (statement.state.name ∈ names) := by
        rw [Bool.eq_iff_iff, decide_eq_true_iff, sources, List.any_eq_true]
        simp only [Bool.and_eq_true, Bool.not_eq_true', beq_iff_eq]
      have onward : ∀ {taken}, Sources (prior ++ [statement]) taken →
          judge taken rest = (rest.inits.zip rest).map fun (earlier, later) =>
            (later, later.rejection? (prior ++ statement :: earlier)) := by
        intro taken sources
        rw [ih sources]
        simp only [List.append_assoc, List.singleton_append]
      rw [List.inits_cons, List.zip_cons_cons, List.map_cons, List.zip_map_left, List.map_map]
      unfold judge rejection?
      dsimp only
      rw [List.append_nil, repeated]
      by_cases dead : statement.leavesDead = true
      · rw [if_pos dead, if_pos dead, onward (sources.concat_of_leavesDead dead)]
        rfl
      · have alive : statement.leavesDead = false := by simpa using dead
        rw [if_neg dead, if_neg dead]
        by_cases old : statement.state.name ∈ names
        · rw [if_pos old, if_pos (decide_eq_true old), onward (sources.concat_of_mem old)]
          rfl
        · rw [if_neg old, if_neg (by simpa using old), onward (sources.concat_of_alive alive)]
          rfl

/-- Every statement is listed with those before it. -/
theorem mem_zip_inits_iff {statements before : List Statement} {statement : Statement} :
    (before, statement) ∈ statements.inits.zip statements ↔
      ∃ after, statements = before ++ statement :: after := by
  induction statements generalizing before with
  | nil => simp
  | cons first rest ih =>
      rw [List.inits_cons, List.zip_cons_cons, List.mem_cons, List.zip_map_left, List.mem_map]
      constructor
      · rintro (same | ⟨⟨earlier, other⟩, listed, same⟩)
        · cases same
          exact ⟨rest, rfl⟩
        · cases same
          obtain ⟨after, rfl⟩ := ih.mp listed
          exact ⟨after, rfl⟩
      · rintro ⟨after, split⟩
        cases before with
        | nil =>
            cases split
            exact Or.inl rfl
        | cons head earlier =>
            cases split
            exact Or.inr ⟨(earlier, statement), ih.mpr ⟨after, rfl⟩, rfl⟩

end Statement

namespace Protocol

variable (protocol : Protocol)

instance (name : String) : Decidable (protocol.HasState name) :=
  inferInstanceAs (Decidable (_ ∨ _ ∨ _))

/-- The statements that are rejected, each judged by those written before it. -/
def rejections : List RejectedStatement :=
  (protocol.statements.inits.zip protocol.statements).filterMap fun (earlier, statement) =>
    (statement.rejection? earlier).map fun reason => ⟨reason, statement⟩

/-- An error for every destination that is no state, wherever it is written. -/
def strayErrors : List (Located MachineError) :=
  protocol.statements.flatMap fun statement => statement.transitions.flatMap fun transition =>
    (transition.destinations.filter fun destination =>
        !protocol.HasState destination.name).map fun destination =>
      ⟨.danglingDestination statement.state.name destination.name, transition.loc⟩

theorem rejected_eq_rejections : protocol.rejected = protocol.rejections := by
  have none : Statement.Sources [] [] := by
    intro name
    simp
  unfold rejected StateMachine.rejectedStatements rejections
  rw [Statement.judge_eq_map none, List.filterMap_map]
  apply List.filterMap_congr
  rintro ⟨earlier, statement⟩ _
  dsimp only [Function.comp_apply, List.nil_append]
  cases statement.rejection? earlier <;> rfl

/-- A statement is rejected by those that are written before it. -/
theorem mem_rejected_iff {protocol : Protocol} {reason : Rejection} {statement : Statement} :
    ⟨reason, statement⟩ ∈ protocol.rejected ↔
      ∃ before after, protocol.statements = before ++ statement :: after ∧
        statement.rejection? before = some reason := by
  rw [rejected_eq_rejections, rejections, List.mem_filterMap]
  constructor
  · rintro ⟨⟨before, other⟩, listed, selected⟩
    obtain ⟨after, split⟩ := Statement.mem_zip_inits_iff.mp listed
    obtain ⟨verdict, rejects, same⟩ := Option.map_eq_some_iff.mp selected
    cases same
    exact ⟨before, after, split, rejects⟩
  · rintro ⟨before, after, split, rejects⟩
    exact ⟨(before, statement), Statement.mem_zip_inits_iff.mpr ⟨after, split⟩,
      Option.map_eq_some_iff.mpr ⟨reason, rejects, rfl⟩⟩

/-- What the transitions that are checked give is what all written ones give, if padding
gives nothing. -/
theorem flatMap_allSteps_perm {Result : Type} (gives : State × Transition → List Result)
    (null : ∀ source transition, transition.isNull = true → gives (source, transition) = []) :
    (protocol.allSteps.flatMap gives).Perm
      (protocol.statements.flatMap fun statement => statement.transitions.flatMap fun transition =>
        gives (statement.state, transition)) := by
  have written : (protocol.statements.flatMap Statement.steps).flatMap gives =
      protocol.statements.flatMap fun statement => statement.transitions.flatMap fun transition =>
        gives (statement.state, transition) := by
    rw [List.flatMap_assoc]
    apply List.flatMap_congr
    intro statement _
    unfold Statement.steps
    rw [List.flatMap_map]
    exact statement.flatMap_realTransitions (null statement.state)
  rw [← written]
  exact protocol.allSteps_perm.flatMap_right gives

theorem danglingErrors_perm : protocol.danglingErrors.Perm protocol.strayErrors := by
  have known : ∀ name, protocol.machine.containsState name = decide (protocol.HasState name) := by
    intro name
    rw [Bool.eq_iff_iff, decide_eq_true_iff, containsState_machine_iff]
  unfold danglingErrors strayErrors
  simp only [known]
  apply protocol.flatMap_allSteps_perm
  intro source transition padding
  rw [Transition.destinations_of_isNull padding]
  rfl

end Protocol

namespace Resolved

variable (resolved : Resolved)

/-- What is wrong with the trigger of a transition that is not poisoned, by the message
that it is linked to. -/
def mismatch? (transition : Transition) : Option (Located MachineError) :=
  transition.action.bind fun (trigger, name) =>
    if resolved.isPoisoned transition.id then none
    else (resolved.decls.declOf? transition.id).bind fun decl =>
      match decl.kind with
      | .message _ declared =>
          if declared.admits trigger.direction then none
          else some ⟨.triggerDirectionMismatch trigger name declared, transition.loc⟩
      | _ => none

/-- An error for every trigger that does not fit, wherever it is written. -/
def mismatchErrors (protocol : Protocol) : List (Located MachineError) :=
  (protocol.statements.flatMap Statement.transitions).filterMap resolved.mismatch?

variable {resolved}

theorem eq_mismatch?_of_triggerError? {transition : Transition}
    {error? : Option (Located MachineError)}
    (ok : resolved.triggerError? transition = .ok error?) :
    error? = resolved.mismatch? transition := by
  unfold triggerError? at ok
  unfold mismatch?
  cases action : transition.action with
  | none =>
      rw [action] at ok
      exact (Except.ok.inj ok).symm
  | some named =>
      obtain ⟨trigger, name⟩ := named
      rw [action] at ok
      rw [Option.bind_some]
      dsimp only at ok ⊢
      split at ok
      · rename_i poisoned
        rw [if_pos poisoned]
        exact (Except.ok.inj ok).symm
      · rename_i healthy
        rw [if_neg healthy]
        cases declared : resolved.decls.declOf? transition.id with
        | none =>
            simp only [DeclTable.declOf, declared] at ok
            cases ok
        | some decl =>
            simp only [DeclTable.declOf, declared, bind, Except.bind] at ok
            rw [Option.bind_some]
            cases kind : decl.kind with
            | message semantics direction =>
                rw [kind] at ok
                dsimp only at ok ⊢
                split at ok
                · rename_i admits
                  rw [if_pos admits]
                  exact (Except.ok.inj ok).symm
                · rename_i refuses
                  rw [if_neg refuses]
                  exact (Except.ok.inj ok).symm
            | _ =>
                rw [kind] at ok
                cases ok

theorem eq_mismatches_of_triggerErrors {steps : List (State × Transition)}
    {errors : List (Located MachineError)} (ok : resolved.triggerErrors steps = .ok errors) :
    errors = steps.filterMap fun step => resolved.mismatch? step.2 := by
  induction steps generalizing errors with
  | nil => exact (Except.ok.inj ok).symm
  | cons step steps ih =>
      obtain ⟨source, transition⟩ := step
      unfold triggerErrors at ok
      cases first : resolved.triggerError? transition with
      | error fault =>
          rw [first] at ok
          cases ok
      | ok error? =>
          cases later : resolved.triggerErrors steps with
          | error fault =>
              rw [first, later] at ok
              cases ok
          | ok rest =>
              rw [first, later] at ok
              rw [← Except.ok.inj ok, List.filterMap_cons, ← ih later,
                eq_mismatch?_of_triggerError? first]
              cases resolved.mismatch? transition <;> rfl

theorem mismatchErrors_perm (protocol : Protocol) :
    (protocol.allSteps.filterMap fun step => resolved.mismatch? step.2).Perm
      (resolved.mismatchErrors protocol) := by
  unfold mismatchErrors
  rw [List.filterMap_eq_flatMap_toList, List.filterMap_eq_flatMap_toList, List.flatMap_assoc]
  apply protocol.flatMap_allSteps_perm
  intro source transition padding
  unfold mismatch?
  rw [Transition.action_of_isNull padding]
  rfl

/-- A check that ends without a fault has looked at every step. -/
theorem errors_of_check {checked : Reported Checked MachineError}
    (ok : resolved.check = .ok checked) :
    ∃ protocol, resolved.unit.protocol = some protocol ∧
      checked.value.machine = protocol.machine ∧
      checked.errors = protocol.structureErrors ++
        (protocol.allSteps.filterMap fun step => resolved.mismatch? step.2) ++
        protocol.replyErrors := by
  unfold check at ok
  cases described : resolved.unit.protocol with
  | none =>
      simp only [SourceUnit.requireProtocol, described] at ok
      cases ok
  | some protocol =>
      simp only [SourceUnit.requireProtocol, described, bind, Except.bind] at ok
      cases triggers : resolved.triggerErrors protocol.allSteps with
      | error fault =>
          rw [triggers] at ok
          cases ok
      | ok errors =>
          rw [triggers] at ok
          refine ⟨protocol, rfl, ?_, ?_⟩
          · rw [← Except.ok.inj ok]
          · rw [← Except.ok.inj ok, ← eq_mismatches_of_triggerErrors triggers]

end Resolved

namespace Protocol

variable {protocol : Protocol}

theorem rule_of_rejected : ∀ error ∈ protocol.rejected.map RejectedStatement.error,
    error.error.rule = .source := by
  intro error member
  obtain ⟨⟨reason, statement⟩, _, rfl⟩ := List.mem_map.mp member
  cases reason <;> rfl

theorem rule_of_dangling : ∀ error ∈ protocol.danglingErrors,
    error.error.rule = .destination := by
  intro error member
  obtain ⟨_, _, found⟩ := List.mem_flatMap.mp member
  obtain ⟨_, _, rfl⟩ := List.mem_map.mp found
  rfl

theorem rule_of_start : ∀ error ∈ protocol.startErrors, error.error.rule = .start := by
  intro error member
  unfold startErrors at member
  split at member
  · rw [List.mem_singleton.mp member]
    rfl
  · cases member

/-- A message without an answer is reported at its own place. -/
theorem about_replyError? {message : Message} {error : Located MachineError}
    (found : protocol.replyError? message = some error) :
    error.error.rule = .reply ∧ error.loc = message.loc := by
  unfold replyError? at found
  dsimp only at found
  split at found
  · cases found
    exact ⟨rfl, rfl⟩
  · split at found
    · cases found
      exact ⟨rfl, rfl⟩
    · cases found

theorem rule_of_reply : ∀ error ∈ protocol.replyErrors, error.error.rule = .reply := by
  intro error member
  obtain ⟨message, _, found⟩ := List.mem_filterMap.mp member
  exact (about_replyError? found).1

end Protocol

namespace Resolved

/-- A trigger that does not fit is reported at its transition. -/
theorem about_mismatch? {resolved : Resolved} {transition : Transition}
    {error : Located MachineError} (found : resolved.mismatch? transition = some error) :
    error.error.rule = .trigger ∧ error.loc = transition.loc := by
  unfold mismatch? at found
  obtain ⟨⟨trigger, name⟩, _, found⟩ := Option.bind_eq_some_iff.mp found
  dsimp only at found
  split at found
  · cases found
  · obtain ⟨decl, _, found⟩ := Option.bind_eq_some_iff.mp found
    split at found
    · split at found
      · cases found
      · cases found
        exact ⟨rfl, rfl⟩
    · cases found

/-- The errors that the check collects about a rule. -/
def collected (resolved : Resolved) (protocol : Protocol) :
    MachineRule → List (Located MachineError)
  | .source => protocol.rejected.map RejectedStatement.error
  | .destination => protocol.danglingErrors
  | .start => protocol.startErrors
  | .trigger => protocol.allSteps.filterMap fun step => resolved.mismatch? step.2
  | .reply => protocol.replyErrors

theorem errorsAbout_of_check {resolved : Resolved} {checked : Reported Checked MachineError}
    (ok : resolved.check = .ok checked) :
    ∃ protocol, resolved.unit.protocol = some protocol ∧
      checked.value.machine = protocol.machine ∧
      ∀ rule, errorsAbout rule checked.errors = resolved.collected protocol rule := by
  obtain ⟨protocol, described, machine, errors⟩ := errors_of_check ok
  refine ⟨protocol, described, machine, ?_⟩
  have mismatches : ∀ error ∈ protocol.allSteps.filterMap fun step => resolved.mismatch? step.2,
      error.error.rule = .trigger := by
    intro error member
    obtain ⟨_, _, found⟩ := List.mem_filterMap.mp member
    exact (about_mismatch? found).1
  intro rule
  rw [errors, Protocol.structureErrors]
  simp only [errorsAbout_append, errorsAbout_of_uniform Protocol.rule_of_rejected,
    errorsAbout_of_uniform Protocol.rule_of_dangling,
    errorsAbout_of_uniform Protocol.rule_of_start, errorsAbout_of_uniform mismatches,
    errorsAbout_of_uniform Protocol.rule_of_reply]
  cases rule <;> simp [collected]

/-- The errors about sources, destinations and triggers are those of all statements. -/
structure HidesNothing (resolved : Resolved) (protocol : Protocol)
    (errors : List (Located MachineError)) : Prop where
  steps : protocol.allSteps.Perm (protocol.statements.flatMap Statement.steps)
  rejected : protocol.rejected = protocol.rejections
  sources : errorsAbout .source errors = protocol.rejections.map RejectedStatement.error
  destinations : (errorsAbout .destination errors).Perm protocol.strayErrors
  triggers : (errorsAbout .trigger errors).Perm (resolved.mismatchErrors protocol)

theorem check_hides_nothing {resolved : Resolved} {checked : Reported Checked MachineError}
    (ok : resolved.check = .ok checked) :
    ∃ protocol, resolved.unit.protocol = some protocol ∧
      resolved.HidesNothing protocol checked.errors := by
  obtain ⟨protocol, described, _, about⟩ := errorsAbout_of_check ok
  refine ⟨protocol, described, protocol.allSteps_perm, protocol.rejected_eq_rejections, ?_, ?_, ?_⟩
  · rw [about, ← protocol.rejected_eq_rejections]
    rfl
  · rw [about]
    exact protocol.danglingErrors_perm
  · rw [about]
    exact mismatchErrors_perm protocol

/-- The channel with another statement for its idle state and one that leaves the dead state. -/
def strayProtocol : Protocol :=
  { channelProtocol "Header" with
    statements := (channelProtocol "Header").statements ++ [
      ⟨⟨26⟩, ⟨⟨27⟩, "Idle", false, channelLine 14⟩,
        [⟨⟨28⟩, some .answer, some "Close", [⟨⟨29⟩, "Lost", false, channelLine 15⟩],
          channelLine 15⟩], channelLine 14⟩,
      ⟨⟨30⟩, ⟨⟨31⟩, "[dead]", false, channelLine 16⟩,
        [⟨⟨32⟩, some .send, some "Close", [⟨⟨33⟩, "Idle", false, channelLine 17⟩],
          channelLine 17⟩], channelLine 16⟩] }

def strayUnit : SourceUnit :=
  { channelUnit "Header" with protocol := some strayProtocol }

/-- The repeated statement is reported with what is wrong inside it. -/
theorem strayUnit_hides_nothing :
    ∃ reported checked, strayUnit.resolve [] = .ok reported ∧
      reported.value.check = .ok checked ∧
      (∃ protocol, reported.value.unit.protocol = some protocol ∧
        reported.value.HidesNothing protocol checked.errors) ∧
      checked.errors.map Located.error =
        [.duplicateSourceState "Idle", .deadStateHasTransitions,
          .danglingDestination "Idle" "Lost",
          .triggerDirectionMismatch .answer "Close" .outbound] := by
  have described : strayUnit.protocol = some strayProtocol := rfl
  have errors : ((strayUnit.resolved strayProtocol []).check.toOption.map fun checked =>
      checked.errors.map Located.error) =
        some [.duplicateSourceState "Idle", .deadStateHasTransitions,
          .danglingDestination "Idle" "Lost",
          .triggerDirectionMismatch .answer "Close" .outbound] := by decide +kernel
  cases ok : (strayUnit.resolved strayProtocol []).check with
  | error fault =>
      rw [ok] at errors
      cases errors
  | ok checked =>
      rw [ok] at errors
      exact ⟨_, checked, SourceUnit.resolve_eq_ok described [], ok, check_hides_nothing ok,
        Option.some.inj errors⟩

end Resolved

end ActorProtocol
