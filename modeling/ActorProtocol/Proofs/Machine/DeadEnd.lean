import ActorProtocol.Proofs.Machine.Collection
import ActorProtocol.Proofs.Machine.Wildcard

/-!
# Leaving the dead state

No statement of a machine lets a transition leave the dead state, but the transitions of
the wildcard may be taken in every state, and the dead state is one of them. So it is
left exactly where the wildcard leads, and a machine stays in it for good exactly if the
wildcard has no statement, or one that leads nowhere but to the dead state.
-/

namespace ActorProtocol

set_option autoImplicit false

/-- The statement that is written first for a source. -/
def Protocol.firstStatement? (protocol : Protocol) (name : String) : Option Statement :=
  protocol.statements.find? fun statement => statement.state.name == name

namespace Statement

/-- The first statement for a source other than the dead state is the one that is kept. -/
theorem find?_keptOf_judge {name : String} (alive : name ≠ State.deadName) {taken : List String}
    (new : name ∉ taken) (statements : List Statement) :
    ((keptOf (judge taken statements)).find? fun statement => statement.state.name == name) =
      statements.find? fun statement => statement.state.name == name := by
  induction statements generalizing taken with
  | nil => rfl
  | cons first rest ih =>
      have together : ∀ later, keptOf ((first, first.verdict taken) :: later) =
          keptOf [(first, first.verdict taken)] ++ keptOf later := keptOf_append [_]
      rw [judge_cons, together, List.find?_append, List.find?_cons]
      by_cases named : first.state.name = name
      · have kept : first.verdict taken = none := by
          have ends : ¬ first.leavesDead = true := by
            rw [leavesDead_iff]
            rintro ⟨dead, _⟩
            exact alive (named.symm.trans dead)
          rw [verdict, if_neg ends, if_neg (named ▸ new)]
        rw [kept]
        simp [keptOf, named]
      · have only : ∀ other ∈ keptOf [(first, first.verdict taken)], other = first := by
          intro other member
          exact congrArg Prod.fst (List.mem_singleton.mp (mem_keptOf_iff.mp member))
        have skipped : (keptOf [(first, first.verdict taken)]).find?
            (fun statement => statement.state.name == name) = none := by
          rw [List.find?_eq_none]
          intro other member
          rw [only other member]
          simpa using named
        have apart : name ∉ sources (keptOf [(first, first.verdict taken)]) ++ taken := by
          rw [List.mem_append]
          rintro (now | before)
          · rcases List.mem_map.mp now with ⟨other, member, same⟩
            exact named (only other member ▸ same)
          · exact new before
        rw [skipped, Option.none_or, ih apart, beq_false_of_ne named]

end Statement

namespace Protocol

variable {protocol : Protocol}

theorem statement?_machine_eq_first {name : String} (alive : name ≠ State.deadName) :
    protocol.machine.statement? name = (protocol.firstStatement? name).map Statement.padded := by
  have added : (if Statement.LacksDead (Statement.keptOf (Statement.judge [] protocol.statements))
      then [Statement.ofNull .dead] else []).find?
        (fun statement => statement.state.name == name) = none := by
    rw [List.find?_eq_none]
    intro statement member
    split at member
    · rw [List.mem_singleton.mp member, beq_iff_eq]
      exact alive.symm
    · cases member
  unfold StateMachine.statement? firstStatement?
  rw [protocol.collected.statements, List.find?_append, added, Option.or_none, List.find?_map,
    ← Statement.find?_keptOf_judge alive List.not_mem_nil protocol.statements]
  simp only [Function.comp_def, Statement.state_padded]

theorem destinations_of_dead {statement : Statement}
    (inside : statement ∈ protocol.machine.statements)
    (dead : statement.state.name = State.deadName) : statement.destinations = [] := by
  unfold Statement.destinations
  rw [List.flatMap_eq_nil_iff]
  intro transition member
  have null : transition.isNull = true := by
    by_contra real
    exact protocol.wellFormed_machine.ended statement inside
      ⟨dead, transition, member, by simpa using real⟩
  exact (transition.isNull_iff.mp null).2.2

theorem successors_dead :
    protocol.machine.successors State.deadName =
      (protocol.firstStatement? State.anyName).toList.flatMap Statement.destinations := by
  have own : (protocol.machine.statement? State.deadName).toList.flatMap
      Statement.destinations = [] := by
    rw [List.flatMap_eq_nil_iff]
    intro statement found
    rcases (protocol.wellFormed_machine.found_iff _ _).mp (Option.mem_toList.mp found) with
      ⟨inside, dead⟩
    exact destinations_of_dead inside dead
  unfold StateMachine.successors StateMachine.statementsFrom
  rw [if_neg (by decide), List.flatMap_append, own, List.nil_append,
    statement?_machine_eq_first (by decide)]
  cases protocol.firstStatement? State.anyName with
  | none => rfl
  | some wildcard => simp

/-- Only the wildcard has transitions that may be taken in the dead state. -/
theorem exists_wildcard_of_step {name : String}
    (step : protocol.machine.Step State.deadName name) :
    ∃ wildcard, protocol.firstStatement? State.anyName = some wildcard ∧
      ∃ destination ∈ wildcard.destinations,
        destination.name = name ∨ destination.name = State.anyName := by
  have lent : ∀ {statement : Statement} {destination : State},
      statement ∈ protocol.machine.statements →
      statement.state.name = State.deadName ∨ statement.state.name = State.anyName →
      destination ∈ statement.destinations →
      ∃ wildcard, protocol.firstStatement? State.anyName = some wildcard ∧
        destination ∈ wildcard.destinations := by
    intro statement destination inside declared leads
    rcases declared with dead | named
    · rw [destinations_of_dead inside dead] at leads
      cases leads
    · have found := (protocol.wellFormed_machine.found_iff _ _).mpr ⟨inside, named⟩
      rw [statement?_machine_eq_first (by decide), Option.map_eq_some_iff] at found
      rcases found with ⟨wildcard, first, rfl⟩
      rw [Statement.destinations_padded] at leads
      exact ⟨wildcard, first, leads⟩
  cases step with
  | along inside declared leads =>
      rcases lent inside declared leads with ⟨wildcard, first, onward⟩
      exact ⟨wildcard, first, _, onward, Or.inl rfl⟩
  | anywhere inside declared leads wild _ =>
      rcases lent inside declared leads with ⟨wildcard, first, onward⟩
      exact ⟨wildcard, first, _, onward, Or.inr wild⟩

theorem step_of_wildcard {name : String} {wildcard : Statement} {destination : State}
    (first : protocol.firstStatement? State.anyName = some wildcard)
    (leads : destination ∈ wildcard.destinations) :
    protocol.machine.Step name destination.name := by
  have found : protocol.machine.statement? State.anyName = some wildcard.padded := by
    rw [statement?_machine_eq_first (by decide), first]
    rfl
  rcases (protocol.wellFormed_machine.found_iff _ _).mp found with ⟨inside, named⟩
  rw [← Statement.destinations_padded] at leads
  exact .along inside (Or.inr named) leads

/-- The dead state is left by the wildcard only. -/
structure LeavesDeadByWildcard (protocol : Protocol) : Prop where
  own : ∀ statement, protocol.machine.statement? State.deadName = some statement →
    statement.destinations = []
  successors : protocol.machine.successors State.deadName =
    (protocol.firstStatement? State.anyName).toList.flatMap Statement.destinations
  ends_iff : protocol.machine.successors State.deadName = [] ↔
    ∀ wildcard, protocol.firstStatement? State.anyName = some wildcard →
      wildcard.destinations = []
  stays_iff : (∀ name, Relation.ReflTransGen protocol.machine.Step State.deadName name →
      name = State.deadName) ↔
    ∀ wildcard, protocol.firstStatement? State.anyName = some wildcard →
      ∀ destination ∈ wildcard.destinations, destination.name = State.deadName

theorem leaves_dead_by_wildcard (protocol : Protocol) : protocol.LeavesDeadByWildcard where
  own := by
    intro statement found
    rcases (protocol.wellFormed_machine.found_iff _ _).mp found with ⟨inside, dead⟩
    exact destinations_of_dead inside dead
  successors := successors_dead
  ends_iff := by
    rw [successors_dead, List.flatMap_eq_nil_iff]
    simp only [Option.mem_toList]
  stays_iff := by
    constructor
    · intro stays wildcard first destination leads
      exact stays _ (.single (step_of_wildcard first leads))
    · intro ends name chain
      induction chain with
      | refl => rfl
      | tail _ step ih =>
          rw [ih] at step
          rcases exists_wildcard_of_step step with ⟨wildcard, first, destination, leads, same⟩
          have dead := ends wildcard first destination leads
          rcases same with named | wild
          · exact named.symm.trans dead
          · exact absurd (wild.symm.trans dead) (by decide)

/-! ## A timer that comes back

A timer is stopped for good, and the wildcard lets it be reset in any state. -/

def timerLine (line : Nat) : Location := ⟨"PTimer.ipdl", line⟩

def timerRunning : Statement :=
  ⟨⟨7⟩, ⟨⟨5⟩, "Running", true, timerLine 4⟩,
    [⟨⟨6⟩, some .send, some "Stop", [.dead], timerLine 5⟩], timerLine 4⟩

def timerReset : Statement :=
  ⟨⟨11⟩, ⟨⟨8⟩, "[any]", false, timerLine 6⟩,
    [⟨⟨10⟩, some .recv, some "Reset", [⟨⟨9⟩, "Running", false, timerLine 7⟩], timerLine 7⟩],
    timerLine 6⟩

def timerProtocol : Protocol where
  id := ⟨2⟩
  name := "PTimer"
  namespaces := []
  semantics := .async
  spawns := []
  bridges := []
  managers := []
  manages := []
  messages := [⟨⟨3⟩, "Stop", .async, .outbound, [], [], timerLine 2⟩,
    ⟨⟨4⟩, "Reset", .async, .inbound, [], [], timerLine 3⟩]
  statements := [timerRunning, timerReset]
  loc := timerLine 1

/-- The timer gets into the dead state and out of it again. -/
theorem timer_leaves_dead :
    (timerProtocol.machine.successors State.deadName).map State.name = ["Running"] ∧
      timerProtocol.machine.Travels State.deadName ∧
      timerProtocol.machine.Step State.deadName "Running" := by
  have stopped : State.dead ∈ timerRunning.destinations := by decide
  refine ⟨by decide, ⟨timerRunning.state, by decide, ?_⟩, ?_⟩
  · have stop : timerRunning ∈ timerProtocol.machine.statements := by decide
    exact .single (.along stop (Or.inl rfl) stopped)
  · have reset : timerReset ∈ timerProtocol.machine.statements := by decide
    exact .along reset (Or.inr rfl)
      (show (⟨⟨9⟩, "Running", false, timerLine 7⟩ : State) ∈ timerReset.destinations by decide)

end Protocol

end ActorProtocol
