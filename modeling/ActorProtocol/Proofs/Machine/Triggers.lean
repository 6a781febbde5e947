import ActorProtocol.Proofs.Machine.Statements
import ActorProtocol.Proofs.Naming.Settled

/-!
# Triggers of transitions

Resolution leaves every transition with a trigger and a message either poisoned
or linked to the first message of its name, so the check of the triggers finds
what it needs. It never faults, and its errors are those that the messages of the
protocol itself decide; a transition whose message is not known has none.
-/

namespace ActorProtocol

set_option autoImplicit false

namespace Protocol

/-- What is wrong with the trigger of a transition, by the first message of the name. -/
def triggerError? (protocol : Protocol) (transition : Transition) :
    Option (Located MachineError) :=
  transition.action.bind fun (trigger, name) =>
    (protocol.message? name).bind fun message =>
      if message.direction.admits trigger.direction then none
      else some ⟨.triggerDirectionMismatch trigger name message.direction, transition.loc⟩

def triggerErrors (protocol : Protocol) : List (Located MachineError) :=
  protocol.allSteps.filterMap fun step => protocol.triggerError? step.2

end Protocol

namespace SourceUnit

variable {unit : SourceUnit} {protocol : Protocol} {extra : List String}

/-- The messages that are bound are those of the protocol, in their order. -/
theorem firstMessage?_binders (unit : SourceUnit) (protocol : Protocol) (extra : List String)
    (name : String) :
    firstMessage? (unit.binders protocol extra) name = protocol.message? name := by
  have none : ∀ {Item : Type} (wrap : Item → Binder) (items : List Item),
      (∀ item, (wrap item).message? = none) → (items.map wrap).filterMap Binder.message? = [] := by
    intro Item wrap items other
    rw [List.filterMap_map, List.filterMap_eq_nil_iff]
    intro item _
    exact other item
  have messages : (protocol.messages.map Binder.message).filterMap Binder.message? =
      protocol.messages := by
    rw [List.filterMap_map]
    exact List.filterMap_some
  have sentinels : [Binder.sentinel .any, .sentinel .dead].filterMap Binder.message? = [] := rfl
  have own : [Binder.ownProtocol protocol].filterMap Binder.message? = [] := rfl
  have states : (protocol.statements.map fun statement =>
      Binder.sourceState statement.state).filterMap Binder.message? = [] :=
    none _ _ fun _ => rfl
  unfold firstMessage? binders Protocol.message?
  simp only [List.filterMap_append, none Binder.builtinType _ (fun _ => rfl), sentinels,
    none Binder.usingType _ (fun _ => rfl), none Binder.typeDecl _ (fun _ => rfl), own,
    none Binder.included _ (fun _ => rfl), messages, states, List.nil_append, List.append_nil]

/-- A message that is bound is the first of its name, and all names of messages are bound. -/
theorem find?_messages (unit : SourceUnit) (protocol : Protocol) (extra : List String)
    (name : String) :
    match protocol.message? name with
    | none => (unit.bindings protocol extra).names.messages.find? name = none
    | some message => ∃ id decl,
        (unit.bindings protocol extra).names.messages.find? name = some id ∧
        (unit.bindings protocol extra).table.decl? id = some decl ∧
        decl.kind = .message message.semantics message.direction := by
  have explained := (unit.explained_bindings protocol extra).messages name
  have kept := (unit.kept_bindings protocol extra).messages name
  simp only [firstMessage?_binders] at explained kept
  cases found : (unit.bindings protocol extra).names.messages.find? name with
  | none =>
      cases first : protocol.message? name with
      | none => rfl
      | some message =>
          have taken := kept (by rw [first]; rfl)
          rw [(OrderedMap.find?_eq_none_iff _ _).mp found] at taken
          cases taken
  | some id =>
      obtain ⟨decl, known, message, first, kind⟩ := explained id found
      rw [first]
      exact ⟨id, decl, rfl, known, kind⟩

namespace Numbered

theorem settled_transition (numbered : unit.Numbered) (described : unit.protocol = some protocol)
    (extra : List String) {transition : Transition}
    (written : transition ∈ protocol.statements.flatMap Statement.transitions)
    {trigger : Trigger} {name : String} (action : transition.action = some (trigger, name)) :
    match protocol.message? name with
    | none => (unit.resolved protocol extra).isPoisoned transition.id = true
    | some message => (unit.resolved protocol extra).isPoisoned transition.id = false ∧
        ∃ decl, (unit.resolved protocol extra).decls.declOf? transition.id = some decl ∧
          decl.kind = .message message.semantics message.direction := by
  have used : .transition transition ∈ unit.useNodes protocol := by
    have chosen : transition ∈ (protocol.statements.flatMap Statement.transitions).filter
        fun transition => transition.action.isSome := by
      rw [List.mem_filter]
      exact ⟨written, by rw [action]; rfl⟩
    exact List.mem_append_right _ (List.mem_append_right _ (List.mem_map.mpr ⟨_, chosen, rfl⟩))
  have record : (unit.resolution protocol extra).recordOf transition.id = _ :=
    numbered.recordOf_useNode described extra used
  have bound := unit.find?_messages protocol extra name
  rw [isPoisoned_resolved, record]
  simp only [Bindings.useRecord, Bindings.transitionError?, action, Option.bind_some]
  cases first : protocol.message? name with
  | none =>
      rw [first] at bound
      dsimp only at bound ⊢
      rw [(OrderedMap.find?_eq_none_iff _ _).mp bound]
      rfl
  | some message =>
      rw [first] at bound
      obtain ⟨id, decl, found, known, kind⟩ := bound
      dsimp only
      rw [OrderedMap.contains_of_find? found]
      refine ⟨rfl, ?_⟩
      have linked : ((unit.resolution protocol extra).recordOf transition.id).link = some id := by
        rw [record]
        simp only [Bindings.useRecord, Bindings.transitionLink?, action, Option.bind_some, found]
      obtain ⟨target, declared, again⟩ := declOf?_resolved linked
      have grown := (unit.continues_resolution protocol extra).grows id decl known
      cases grown.symm.trans again
      exact ⟨decl, declared, kind⟩

/-- The check of one transition looks up nothing that resolution has not settled. -/
theorem triggerError?_resolved (numbered : unit.Numbered)
    (described : unit.protocol = some protocol) (extra : List String) {transition : Transition}
    (written : transition ∈ protocol.statements.flatMap Statement.transitions) :
    (unit.resolved protocol extra).triggerError? transition =
      .ok (protocol.triggerError? transition) := by
  unfold Resolved.triggerError? Protocol.triggerError?
  cases action : transition.action with
  | none => rfl
  | some named =>
      obtain ⟨trigger, name⟩ := named
      have settled := numbered.settled_transition described extra written action
      rw [Option.bind_some]
      dsimp only
      cases first : protocol.message? name with
      | none =>
          rw [first] at settled
          dsimp only at settled
          rw [if_pos settled]
          rfl
      | some message =>
          rw [first] at settled
          obtain ⟨healthy, decl, declared, kind⟩ := settled
          have looked : (unit.resolved protocol extra).decls.declOf transition.id = .ok decl := by
            unfold DeclTable.declOf
            rw [declared]
          rw [healthy, looked, Option.bind_some]
          simp only [Bool.false_eq_true, if_false, bind, Except.bind, kind]
          split <;> rfl

theorem triggerErrors_resolved (numbered : unit.Numbered)
    (described : unit.protocol = some protocol) (extra : List String)
    {steps : List (State × Transition)}
    (written : ∀ step ∈ steps, step.2 ∈ protocol.statements.flatMap Statement.transitions) :
    (unit.resolved protocol extra).triggerErrors steps =
      .ok (steps.filterMap fun step => protocol.triggerError? step.2) := by
  induction steps with
  | nil => rfl
  | cons step steps ih =>
      obtain ⟨source, transition⟩ := step
      have first := numbered.triggerError?_resolved described extra
        (written _ List.mem_cons_self)
      have later := ih fun other member => written other (List.mem_cons_of_mem _ member)
      unfold Resolved.triggerErrors
      rw [first, later, List.filterMap_cons]
      cases protocol.triggerError? transition <;> rfl

end Numbered

/-- What the machine check makes of a unit that resolution has gone through. -/
def checked (unit : SourceUnit) (protocol : Protocol) (extra : List String) : Checked :=
  ⟨unit, (unit.resolved protocol extra).decls, (unit.resolved protocol extra).actorStates,
    protocol.machine⟩

theorem Numbered.check_resolved (numbered : unit.Numbered)
    (described : unit.protocol = some protocol) (extra : List String) :
    (unit.resolved protocol extra).check =
      .ok ⟨unit.checked protocol extra,
        protocol.structureErrors ++ protocol.triggerErrors ++ protocol.replyErrors⟩ := by
  have written : ∀ step ∈ protocol.allSteps,
      step.2 ∈ protocol.statements.flatMap Statement.transitions := by
    rintro ⟨source, transition⟩ step
    obtain ⟨statement, member, _, real⟩ := Protocol.mem_allSteps_iff.mp step
    exact List.mem_flatMap.mpr ⟨statement, member, (List.mem_filter.mp real).1⟩
  have triggers := numbered.triggerErrors_resolved described extra written
  have own : (unit.resolved protocol extra).unit.requireProtocol = .ok protocol := by
    simp only [resolved, requireProtocol, described]
  unfold Resolved.check
  rw [own]
  change ((unit.resolved protocol extra).triggerErrors protocol.allSteps).bind _ = _
  rw [triggers]
  rfl

end SourceUnit

end ActorProtocol
