import ActorProtocol.Proofs.Machine.Reached
import ActorProtocol.Proofs.Machine.Triggers
import ActorProtocol.Proofs.Naming.Coverage

/-!
# Accepted protocols

The rules for a protocol are stated on its statements as they are written. A unit
whose names are in order passes the check of its machine exactly when its protocol
keeps all of them. Each kind of error answers to one rule, and the rules for
destinations, starts and replies are read off the machine only when no statement is
rejected.
-/

namespace ActorProtocol

set_option autoImplicit false

theorem Transition.destinations_of_isNull {transition : Transition}
    (null : transition.isNull = true) : transition.destinations = [] :=
  (transition.isNull_iff.mp null).2.2

theorem Transition.action_of_isNull {transition : Transition} (null : transition.isNull = true) :
    transition.action = none := by
  unfold action
  rw [(transition.isNull_iff.mp null).1]

theorem Statement.leavesDead_eq_false_iff (statement : Statement) :
    statement.leavesDead = false ↔ (statement.state.name = State.deadName →
      ∀ transition ∈ statement.transitions, transition.isNull = true) := by
  simp [leavesDead, realTransitions, List.filter_eq_nil_iff, imp_iff_not_or]

namespace Protocol

/-- The names that destinations may have. -/
def HasState (protocol : Protocol) (name : String) : Prop :=
  name = State.anyName ∨ name = State.deadName ∨
    ∃ source ∈ protocol.statements, source.state.name = name

/-- The rules that a protocol must keep. -/
structure Accepted (protocol : Protocol) : Prop where
  distinct : (protocol.statements.map fun statement => statement.state.name).Nodup
  deadEnds : ∀ statement ∈ protocol.statements, statement.state.name = State.deadName →
    ∀ transition ∈ statement.transitions, transition.isNull = true
  destined : ∀ statement ∈ protocol.statements, ∀ transition ∈ statement.transitions,
    ∀ destination ∈ transition.destinations, protocol.HasState destination.name
  started : protocol.statements ≠ [] →
    ∃ statement ∈ protocol.statements, statement.state.start = true
  admitted : ∀ statement ∈ protocol.statements, ∀ transition ∈ statement.transitions,
    ∀ trigger name, transition.action = some (trigger, name) →
      ∃ message, protocol.message? name = some message ∧
        message.direction.admits trigger.direction = true
  answered : ∀ message ∈ protocol.messages, message.hasReply = true →
    ∃ statement ∈ protocol.statements, ∃ transition ∈ statement.transitions, ∃ trigger,
      transition.action = some (trigger, message.name) ∧ trigger.isReply = true ∧
        protocol.Reached statement.state.name

variable {protocol : Protocol}

theorem rejected_eq_nil_iff : protocol.rejected = [] ↔
    (protocol.statements.map fun statement => statement.state.name).Nodup ∧
      ∀ statement ∈ protocol.statements, statement.state.name = State.deadName →
        ∀ transition ∈ statement.transitions, transition.isNull = true := by
  unfold rejected
  rw [StateMachine.rejectedStatements_eq_nil_iff, and_comm]
  simp only [Statement.leavesDead_eq_false_iff]

/-- The checks look at real transitions only. What holds of null ones anyway may be asked
of all that are written. -/
theorem forall_allSteps_iff (holds : Transition → Prop)
    (null : ∀ transition, transition.isNull = true → holds transition) :
    (∀ step ∈ protocol.allSteps, holds step.2) ↔
      ∀ statement ∈ protocol.statements, ∀ transition ∈ statement.transitions,
        holds transition := by
  constructor
  · intro steps statement member transition written
    by_cases padding : transition.isNull = true
    · exact null transition padding
    · refine steps (statement.state, transition) (mem_allSteps_iff.mpr ⟨statement, member, rfl, ?_⟩)
      exact List.mem_filter.mpr ⟨written, by simpa using padding⟩
  · rintro all ⟨source, transition⟩ step
    obtain ⟨statement, member, _, real⟩ := mem_allSteps_iff.mp step
    exact all statement member transition (List.mem_filter.mp real).1

/-- The source of a rejected statement is a state as well: that of the statement it
repeats, or the dead state. -/
theorem containsState_machine_iff (name : String) :
    protocol.machine.containsState name = true ↔ protocol.HasState name := by
  have kept : name ∈ (⟨StateMachine.keptStatements protocol.statements⟩ : StateMachine).names ↔
      ∃ statement ∈ protocol.statements,
        statement.leavesDead = false ∧ statement.state.name = name :=
    StateMachine.mem_names_keptStatements_iff
  unfold StateMachine.containsState State.isSentinelName HasState machine
    StateMachine.ofStatements
  rw [Bool.or_eq_true, Bool.or_eq_true, beq_iff_eq, beq_iff_eq, List.contains_iff_mem]
  constructor
  · rintro (inside | any | dead)
    · have listed : name ∈ (⟨StateMachine.keptStatements protocol.statements⟩ :
          StateMachine).names ∨ name = State.deadName := by
        rcases StateMachine.names_withDead _ with same | added
        · exact Or.inl (same ▸ inside)
        · rw [added, List.mem_append, List.mem_singleton] at inside
          exact inside
      rcases listed with source | dead
      · obtain ⟨statement, member, _, same⟩ := kept.mp source
        exact Or.inr (Or.inr ⟨statement, member, same⟩)
      · exact Or.inr (Or.inl dead)
    · exact Or.inl any
    · exact Or.inr (Or.inl dead)
  · rintro (any | dead | ⟨statement, member, rfl⟩)
    · exact Or.inr (Or.inl any)
    · exact Or.inr (Or.inr dead)
    · cases leaves : statement.leavesDead with
      | false =>
          have source := kept.mpr ⟨statement, member, leaves, rfl⟩
          rcases StateMachine.names_withDead
            ⟨StateMachine.keptStatements protocol.statements⟩ with same | added
          · exact Or.inl (same ▸ source)
          · rw [added]
            exact Or.inl (List.mem_append_left _ source)
      | true =>
          rw [Statement.leavesDead, Bool.and_eq_true, beq_iff_eq] at leaves
          exact Or.inr (Or.inr leaves.1)

theorem danglingErrors_eq_nil_iff :
    protocol.danglingErrors = [] ↔
      ∀ statement ∈ protocol.statements, ∀ transition ∈ statement.transitions,
        ∀ destination ∈ transition.destinations, protocol.HasState destination.name := by
  have known : protocol.danglingErrors = [] ↔ ∀ step ∈ protocol.allSteps,
      ∀ destination ∈ step.2.destinations,
        protocol.machine.containsState destination.name = true := by
    unfold danglingErrors
    rw [List.flatMap_eq_nil_iff]
    simp only [List.map_eq_nil_iff, List.filter_eq_nil_iff, Bool.not_eq_true', Bool.not_eq_false]
  rw [known]
  simp only [containsState_machine_iff]
  apply forall_allSteps_iff fun transition =>
    ∀ destination ∈ transition.destinations, protocol.HasState destination.name
  intro transition null destination leads
  rw [Transition.destinations_of_isNull null] at leads
  cases leads

theorem startStates_machine_eq_nil_iff (clean : protocol.rejected = []) :
    protocol.machine.startStates = [] ↔
      ∀ statement ∈ protocol.statements, statement.state.start ≠ true := by
  rw [List.eq_nil_iff_forall_not_mem]
  simp only [mem_machine_startStates_iff clean]
  constructor
  · intro none statement member flagged
    exact none statement.state ⟨statement, member, rfl, flagged⟩
  · rintro none state ⟨statement, member, rfl, flagged⟩
    exact none statement member flagged

theorem statements_machine_eq_nil_iff (clean : protocol.rejected = []) :
    protocol.machine.statements = [] ↔ protocol.statements = [] := by
  constructor
  · intro empty
    rw [List.eq_nil_iff_forall_not_mem]
    intro statement member
    have inside := padded_mem_machine clean member
    rw [empty] at inside
    cases inside
  · intro empty
    rw [List.eq_nil_iff_forall_not_mem]
    intro kept inside
    rcases padded_or_dead_of_mem_machine clean inside with ⟨_, member, _⟩ | ⟨_, _, member, _⟩
    · rw [empty] at member
      cases member
    · rw [empty] at member
      cases member

theorem startErrors_eq_nil_iff (clean : protocol.rejected = []) :
    protocol.startErrors = [] ↔ (protocol.statements ≠ [] →
      ∃ statement ∈ protocol.statements, statement.state.start = true) := by
  have silent : protocol.startErrors = [] ↔
      (protocol.machine.statements ≠ [] → protocol.machine.startStates ≠ []) := by
    unfold startErrors
    cases protocol.machine.statements <;> cases protocol.machine.startStates <;> simp
  rw [silent, ne_eq, ne_eq, statements_machine_eq_nil_iff clean,
    startStates_machine_eq_nil_iff clean]
  simp only [ne_eq, not_forall, not_not, exists_prop]

/-- When all messages are known, the triggers are right exactly when they are admitted. -/
theorem triggerErrors_eq_nil_iff
    (known : ∀ statement ∈ protocol.statements, ∀ transition ∈ statement.transitions,
      ∀ trigger name, transition.action = some (trigger, name) →
        (protocol.message? name).isSome = true) :
    protocol.triggerErrors = [] ↔
      ∀ statement ∈ protocol.statements, ∀ transition ∈ statement.transitions,
        ∀ trigger name, transition.action = some (trigger, name) →
          ∃ message, protocol.message? name = some message ∧
            message.direction.admits trigger.direction = true := by
  unfold triggerErrors
  rw [List.filterMap_eq_nil_iff,
    forall_allSteps_iff fun transition => protocol.triggerError? transition = none]
  · constructor
    · intro silent statement member transition written trigger name action
      obtain ⟨message, found⟩ :=
        Option.isSome_iff_exists.mp (known statement member transition written trigger name action)
      refine ⟨message, found, ?_⟩
      have none := silent statement member transition written
      simpa [triggerError?, action, found] using none
    · intro admitted statement member transition written
      unfold triggerError?
      cases action : transition.action with
      | none => rfl
      | some named =>
          obtain ⟨trigger, name⟩ := named
          obtain ⟨message, found, admits⟩ :=
            admitted statement member transition written trigger name action
          simp [found, admits]
  · intro transition null
    unfold triggerError?
    rw [Transition.action_of_isNull null]
    rfl

theorem mem_replySources_iff (clean : protocol.rejected = []) {message : Message} {name : String} :
    name ∈ protocol.replySources message ↔
      ∃ statement ∈ protocol.statements, ∃ transition ∈ statement.transitions, ∃ trigger,
        transition.action = some (trigger, message.name) ∧ trigger.isReply = true ∧
          statement.state.name = name := by
  have steps : protocol.machine.steps = protocol.allSteps := by
    unfold allSteps
    rw [clean, List.flatMap_nil, List.append_nil]
  unfold replySources
  rw [List.mem_map, steps]
  constructor
  · rintro ⟨⟨source, transition⟩, answers, rfl⟩
    obtain ⟨step, named⟩ := List.mem_filter.mp answers
    obtain ⟨statement, member, rfl, real⟩ := mem_allSteps_iff.mp step
    obtain ⟨⟨trigger, name⟩, action, fits⟩ := (Option.any_eq_true _ _).mp named
    rw [Bool.and_eq_true, beq_iff_eq] at fits
    obtain ⟨reply, same⟩ := fits
    exact ⟨statement, member, transition, (List.mem_filter.mp real).1, trigger,
      by rw [action, same], reply, rfl⟩
  · rintro ⟨statement, member, transition, written, trigger, action, reply, rfl⟩
    refine ⟨(statement.state, transition), List.mem_filter.mpr ⟨?_, by simp [action, reply]⟩, rfl⟩
    refine mem_allSteps_iff.mpr ⟨statement, member, rfl, List.mem_filter.mpr ⟨written, ?_⟩⟩
    rw [Bool.not_eq_true']
    by_contra null
    rw [Bool.not_eq_false] at null
    rw [Transition.action_of_isNull null] at action
    cases action

/-- A source of replies is a source, so with it there is a start from which it must be reached. -/
theorem replyError?_eq_none_iff (clean : protocol.rejected = [])
    (started : protocol.statements ≠ [] →
      ∃ statement ∈ protocol.statements, statement.state.start = true) (message : Message) :
    protocol.replyError? message = none ↔
      ∃ name ∈ protocol.replySources message, protocol.Reached name := by
  simp only [← mem_machine_reachable_iff clean]
  unfold replyError?
  dsimp only
  cases sources : protocol.replySources message with
  | nil => simp
  | cons first rest =>
      have source : first ∈ protocol.replySources message := by
        rw [sources]
        exact List.mem_cons_self
      obtain ⟨statement, member, _⟩ := (mem_replySources_iff clean).mp source
      obtain ⟨start, startMember, flagged⟩ := started (List.ne_nil_of_mem member)
      have starts : protocol.machine.startStates.isEmpty = false := by
        rw [List.isEmpty_eq_false_iff]
        intro none
        exact (startStates_machine_eq_nil_iff clean).mp none start startMember flagged
      rw [List.isEmpty_cons, starts, ← sources]
      simp only [Bool.false_eq_true, if_false, Bool.not_false, Bool.true_and]
      cases answered : (protocol.replySources message).any
          (fun source => protocol.machine.reachable.contains source) with
      | true =>
          obtain ⟨name, member, reached⟩ := List.any_eq_true.mp answered
          simp only [Bool.not_true, Bool.false_eq_true, if_false, true_iff]
          exact ⟨name, member, List.contains_iff_mem.mp reached⟩
      | false =>
          simp only [Bool.not_false, if_true, reduceCtorEq, false_iff]
          rintro ⟨name, member, reached⟩
          rw [List.any_eq_false] at answered
          exact answered name member (List.contains_iff_mem.mpr reached)

theorem replyErrors_eq_nil_iff (clean : protocol.rejected = [])
    (started : protocol.statements ≠ [] →
      ∃ statement ∈ protocol.statements, statement.state.start = true) :
    protocol.replyErrors = [] ↔ ∀ message ∈ protocol.messages, message.hasReply = true →
      ∃ statement ∈ protocol.statements, ∃ transition ∈ statement.transitions, ∃ trigger,
        transition.action = some (trigger, message.name) ∧ trigger.isReply = true ∧
          protocol.Reached statement.state.name := by
  have answered : ∀ message, protocol.replyError? message = none ↔
      ∃ statement ∈ protocol.statements, ∃ transition ∈ statement.transitions, ∃ trigger,
        transition.action = some (trigger, message.name) ∧ trigger.isReply = true ∧
          protocol.Reached statement.state.name := by
    intro message
    rw [replyError?_eq_none_iff clean started]
    constructor
    · rintro ⟨name, source, reached⟩
      obtain ⟨statement, member, transition, written, trigger, action, reply, rfl⟩ :=
        (mem_replySources_iff clean).mp source
      exact ⟨statement, member, transition, written, trigger, action, reply, reached⟩
    · rintro ⟨statement, member, transition, written, trigger, action, reply, reached⟩
      exact ⟨_, (mem_replySources_iff clean).mpr
        ⟨statement, member, transition, written, trigger, action, reply, rfl⟩, reached⟩
  unfold replyErrors
  rw [List.filterMap_eq_nil_iff]
  simp only [List.mem_filter, answered, and_imp]

/-- Each kind of error answers to one rule. -/
theorem errors_eq_nil_iff
    (known : ∀ statement ∈ protocol.statements, ∀ transition ∈ statement.transitions,
      ∀ trigger name, transition.action = some (trigger, name) →
        (protocol.message? name).isSome = true) :
    protocol.structureErrors ++ protocol.triggerErrors ++ protocol.replyErrors = [] ↔
      protocol.Accepted := by
  unfold structureErrors
  simp only [List.append_eq_nil_iff, List.map_eq_nil_iff]
  constructor
  · rintro ⟨⟨⟨⟨clean, dangling⟩, starts⟩, triggers⟩, replies⟩
    obtain ⟨distinct, deadEnds⟩ := rejected_eq_nil_iff.mp clean
    have started := (startErrors_eq_nil_iff clean).mp starts
    exact ⟨distinct, deadEnds, danglingErrors_eq_nil_iff.mp dangling, started,
      (triggerErrors_eq_nil_iff known).mp triggers,
      (replyErrors_eq_nil_iff clean started).mp replies⟩
  · intro accepted
    have clean : protocol.rejected = [] :=
      rejected_eq_nil_iff.mpr ⟨accepted.distinct, accepted.deadEnds⟩
    exact ⟨⟨⟨⟨clean, danglingErrors_eq_nil_iff.mpr accepted.destined⟩,
      (startErrors_eq_nil_iff clean).mpr accepted.started⟩,
      (triggerErrors_eq_nil_iff known).mpr accepted.admitted⟩,
      (replyErrors_eq_nil_iff clean accepted.started).mpr accepted.answered⟩

end Protocol

namespace SourceUnit

variable {unit : SourceUnit} {protocol : Protocol} {extra : List String}

/-- Without errors of names nothing is poisoned, so every message that is named is there. -/
theorem Numbered.messages_known (numbered : unit.Numbered)
    (described : unit.protocol = some protocol)
    (silent : (unit.resolution protocol extra).errors = []) :
    ∀ statement ∈ protocol.statements, ∀ transition ∈ statement.transitions,
      ∀ trigger name, transition.action = some (trigger, name) →
        (protocol.message? name).isSome = true := by
  intro statement member transition written trigger name action
  have settled := numbered.settled_transition described extra
    (List.mem_flatMap.mpr ⟨statement, member, written⟩) action
  cases found : protocol.message? name with
  | some message => rfl
  | none =>
      rw [found] at settled
      have healthy := numbered.poisoned_eq_nil described silent
      simp [Resolved.isPoisoned, resolved, healthy] at settled

theorem check_accepts_iff (numbered : unit.Numbered) (described : unit.protocol = some protocol)
    {reported : Reported Resolved NamingError} (resolves : unit.resolve extra = .ok reported)
    (silent : reported.errors = []) :
    ∃ checked, reported.value.check = .ok checked ∧
      (checked.errors = [] ↔ protocol.Accepted) := by
  rw [eq_resolved_of_resolve described resolves] at silent ⊢
  exact ⟨_, numbered.check_resolved described extra,
    Protocol.errors_eq_nil_iff (numbered.messages_known described silent)⟩

/-- The check of the channel finds nothing wrong, so the channel keeps the rules. -/
theorem channel_accepted :
    (channelUnit "Header").Numbered ∧
      (channelUnit "Header").protocol = some (channelProtocol "Header") ∧
      (∃ reported, (channelUnit "Header").resolve [] = .ok reported ∧ reported.errors = [] ∧
        ∃ checked, reported.value.check = .ok checked ∧ checked.errors = []) ∧
      (channelProtocol "Header").Accepted := by
  have numbered := channelUnit_numbered "Header"
  have described : (channelUnit "Header").protocol = some (channelProtocol "Header") := rfl
  obtain ⟨reported, resolves⟩ : ∃ reported, (channelUnit "Header").resolve [] = .ok reported :=
    ⟨_, resolve_eq_ok described []⟩
  have named := eq_resolved_of_resolve described resolves
  have silent : reported.errors = [] := by
    rw [named]
    decide +kernel
  obtain ⟨checked, ok, accepts⟩ := check_accepts_iff numbered described resolves silent
  have faultless : checked.errors = [] := by
    rw [named] at ok
    rw [← Except.ok.inj ((numbered.check_resolved described []).symm.trans ok)]
    decide +kernel
  exact ⟨numbered, described, ⟨reported, resolves, silent, checked, ok, faultless⟩,
    accepts.mp faultless⟩

end SourceUnit

end ActorProtocol
