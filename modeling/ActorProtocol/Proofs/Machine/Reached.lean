import ActorProtocol.Proofs.Machine.Reachability
import ActorProtocol.Proofs.Machine.Statements

/-!
# Reached states of a protocol

`Reached` reads off the statements of a protocol, as they are written, which names
are reached. When no statement is rejected, the machine of the protocol reaches the
same names: padding leads nowhere, and the statement that is added for the dead
state is for a name that some destination has already.
-/

namespace ActorProtocol

set_option autoImplicit false

namespace Protocol

/-- The names that are reached from the start states. The wildcard is reached with the
first start if it is a source. Its transitions may be taken in every state, and from it
every source is reached. -/
inductive Reached (protocol : Protocol) : String → Prop
  | start {statement : Statement} (member : statement ∈ protocol.statements)
      (flagged : statement.state.start = true) : Reached protocol statement.state.name
  | wildcard {statement any : Statement} (member : statement ∈ protocol.statements)
      (flagged : statement.state.start = true) (source : any ∈ protocol.statements)
      (named : any.state.name = State.anyName) : Reached protocol State.anyName
  | own {statement : Statement} {destination : State}
      (reached : Reached protocol statement.state.name) (member : statement ∈ protocol.statements)
      (leads : destination ∈ statement.destinations) : Reached protocol destination.name
  | shared {name : String} {any : Statement} {destination : State}
      (reached : Reached protocol name) (source : any ∈ protocol.statements)
      (named : any.state.name = State.anyName) (leads : destination ∈ any.destinations) :
      Reached protocol destination.name
  | every {statement : Statement} (reached : Reached protocol State.anyName)
      (member : statement ∈ protocol.statements) : Reached protocol statement.state.name

def LeadsToDead (protocol : Protocol) : Prop :=
  ∃ statement ∈ protocol.statements, ∃ destination ∈ statement.destinations,
    destination.name = State.deadName

variable {protocol : Protocol}

/-- The statements of the machine are those that are written and, if something leads to
the dead state, perhaps one for that state. -/
theorem machine_statements (clean : protocol.rejected = []) :
    ∃ added, protocol.machine.statements = protocol.statements.map Statement.padded ++ added ∧
      ∀ statement ∈ added, statement = .ofNull .dead ∧ protocol.LeadsToDead := by
  have listed := StateMachine.keptStatements_of_rejected_eq_nil clean
  unfold machine StateMachine.ofStatements StateMachine.withDead
  rw [listed]
  split
  · rename_i missing
    rw [Bool.and_eq_true, List.any_eq_true] at missing
    obtain ⟨⟨destination, leads, dead⟩, _⟩ := missing
    obtain ⟨_, kept, leads⟩ := List.mem_flatMap.mp leads
    obtain ⟨statement, member, rfl⟩ := List.mem_map.mp kept
    rw [Statement.destinations_padded] at leads
    refine ⟨[.ofNull .dead], rfl, ?_⟩
    intro other last
    exact ⟨List.mem_singleton.mp last, statement, member, destination, leads, by simpa using dead⟩
  · refine ⟨[], (List.append_nil _).symm, ?_⟩
    intro other none
    cases none

theorem padded_mem_machine (clean : protocol.rejected = []) {statement : Statement}
    (member : statement ∈ protocol.statements) :
    statement.padded ∈ protocol.machine.statements := by
  obtain ⟨added, listed, _⟩ := machine_statements clean
  rw [listed]
  exact List.mem_append_left _ (List.mem_map.mpr ⟨statement, member, rfl⟩)

theorem padded_or_dead_of_mem_machine (clean : protocol.rejected = []) {kept : Statement}
    (inside : kept ∈ protocol.machine.statements) :
    (∃ statement ∈ protocol.statements, statement.padded = kept) ∨
      kept = .ofNull .dead ∧ protocol.LeadsToDead := by
  obtain ⟨added, listed, dead⟩ := machine_statements clean
  rw [listed] at inside
  rcases List.mem_append.mp inside with written | last
  · exact Or.inl (List.mem_map.mp written)
  · exact Or.inr (dead kept last)

theorem mem_machine_names_iff (clean : protocol.rejected = []) {name : String} :
    name ∈ protocol.machine.names ↔
      (∃ statement ∈ protocol.statements, statement.state.name = name) ∨
        name = State.deadName ∧ State.deadName ∈ protocol.machine.names ∧
          protocol.LeadsToDead := by
  constructor
  · intro source
    obtain ⟨kept, inside, rfl⟩ := List.mem_map.mp source
    rcases padded_or_dead_of_mem_machine clean inside with ⟨statement, member, rfl⟩ | ⟨rfl, leads⟩
    · exact Or.inl ⟨statement, member, by rw [Statement.state_padded]⟩
    · exact Or.inr ⟨rfl, source, leads⟩
  · rintro (⟨statement, member, rfl⟩ | ⟨rfl, source, _⟩)
    · exact List.mem_map.mpr ⟨_, padded_mem_machine clean member, by rw [Statement.state_padded]⟩
    · exact source

/-- The statement that is added for the dead state is no start. -/
theorem mem_machine_startStates_iff (clean : protocol.rejected = []) {state : State} :
    state ∈ protocol.machine.startStates ↔
      ∃ statement ∈ protocol.statements, statement.state = state ∧ state.start = true := by
  unfold StateMachine.startStates StateMachine.states
  rw [List.mem_filter, List.mem_map]
  constructor
  · rintro ⟨⟨kept, inside, rfl⟩, flagged⟩
    rcases padded_or_dead_of_mem_machine clean inside with ⟨statement, member, rfl⟩ | ⟨rfl, _⟩
    · exact ⟨statement, member, by rw [Statement.state_padded], flagged⟩
    · cases flagged
  · rintro ⟨statement, member, rfl, flagged⟩
    exact ⟨⟨_, padded_mem_machine clean member, by rw [Statement.state_padded]⟩, flagged⟩

theorem statement?_machine (clean : protocol.rejected = []) {statement : Statement}
    (member : statement ∈ protocol.statements) :
    protocol.machine.statement? statement.state.name = some statement.padded := by
  have found := StateMachine.statement?_of_mem protocol.nodup_names_machine
    (padded_mem_machine clean member)
  rwa [Statement.state_padded] at found

theorem destinations_of_statement? (clean : protocol.rejected = []) {name : String}
    {kept : Statement} (found : protocol.machine.statement? name = some kept) {destination : State}
    (leads : destination ∈ kept.destinations) :
    ∃ statement ∈ protocol.statements, statement.state.name = name ∧
      destination ∈ statement.destinations := by
  have same : kept.state.name = name := by
    simpa using List.find?_some found
  have inside : kept ∈ protocol.machine.statements := List.mem_of_find?_eq_some found
  rcases padded_or_dead_of_mem_machine clean inside with ⟨statement, member, rfl⟩ | ⟨rfl, _⟩
  · rw [Statement.state_padded] at same
    rw [Statement.destinations_padded] at leads
    exact ⟨statement, member, same, leads⟩
  · rw [Statement.destinations_ofNull] at leads
    cases leads

theorem reach_machine_iff (clean : protocol.rejected = []) (name : String) :
    protocol.machine.Reach name ↔ protocol.Reached name := by
  constructor
  · intro known
    induction known with
    | @initial name starts =>
        rcases StateMachine.mem_initialNames_iff.mp starts with
          ⟨state, start, rfl⟩ | ⟨rfl, started, wildcard⟩
        · obtain ⟨statement, member, rfl, flagged⟩ := (mem_machine_startStates_iff clean).mp start
          exact .start member flagged
        · obtain ⟨state, start⟩ := List.exists_mem_of_ne_nil _ started
          obtain ⟨statement, member, rfl, flagged⟩ := (mem_machine_startStates_iff clean).mp start
          rcases (mem_machine_names_iff clean).mp wildcard with ⟨any, source, named⟩ | ⟨dead, _⟩
          · exact .wildcard member flagged source named
          · exact absurd dead (by decide)
    | @step name after _ leads ih =>
        rcases StateMachine.mem_namesAfter_iff.mp leads with ⟨rfl, source⟩ | ⟨state, next, rfl⟩
        · rcases (mem_machine_names_iff clean).mp source with
            ⟨statement, member, rfl⟩ | ⟨rfl, _, statement, member, destination, leads, dead⟩
          · exact .every ih member
          · rw [← dead]
            exact .own (.every ih member) member leads
        · obtain ⟨kept, own | wildcard, onward⟩ := StateMachine.mem_successors_iff.mp next
          · obtain ⟨statement, member, rfl, target⟩ := destinations_of_statement? clean own onward
            exact .own ih member target
          · obtain ⟨any, source, named, target⟩ := destinations_of_statement? clean wildcard onward
            exact .shared ih source named target
  · intro known
    have starts : ∀ {statement}, statement ∈ protocol.statements →
        statement.state.start = true → statement.state ∈ protocol.machine.startStates :=
      fun member flagged => (mem_machine_startStates_iff clean).mpr ⟨_, member, rfl, flagged⟩
    have sources : ∀ {statement}, statement ∈ protocol.statements →
        statement.state.name ∈ protocol.machine.names :=
      fun member => (mem_machine_names_iff clean).mpr (Or.inl ⟨_, member, rfl⟩)
    induction known with
    | start member flagged =>
        exact .initial (StateMachine.mem_initialNames_iff.mpr (Or.inl
          ⟨_, starts member flagged, rfl⟩))
    | wildcard member flagged source named =>
        refine .initial (StateMachine.mem_initialNames_iff.mpr (Or.inr ⟨rfl, ?_, ?_⟩))
        · exact List.ne_nil_of_mem (starts member flagged)
        · rw [← named]
          exact sources source
    | @own statement destination _ member leads ih =>
        refine .step ih (StateMachine.mem_namesAfter_iff.mpr (Or.inr ⟨destination, ?_, rfl⟩))
        refine StateMachine.mem_successors_iff.mpr
          ⟨_, Or.inl (statement?_machine clean member), ?_⟩
        rw [Statement.destinations_padded]
        exact leads
    | @shared name any destination _ source named leads ih =>
        refine .step ih (StateMachine.mem_namesAfter_iff.mpr (Or.inr ⟨destination, ?_, rfl⟩))
        have found := statement?_machine clean source
        rw [named] at found
        refine StateMachine.mem_successors_iff.mpr ⟨_, Or.inr found, ?_⟩
        rw [Statement.destinations_padded]
        exact leads
    | every _ member ih =>
        exact .step ih (StateMachine.mem_namesAfter_iff.mpr (Or.inl ⟨rfl, sources member⟩))

theorem mem_machine_reachable_iff (clean : protocol.rejected = []) (name : String) :
    name ∈ protocol.machine.reachable ↔ protocol.Reached name :=
  (StateMachine.mem_reachable_iff _ _).trans (reach_machine_iff clean name)

end Protocol

end ActorProtocol
