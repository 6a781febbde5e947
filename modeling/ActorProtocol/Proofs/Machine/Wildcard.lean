import ActorProtocol.Proofs.Machine.Reachability
import ActorProtocol.Proofs.Machine.Rejection
import Mathlib.Logic.Relation

/-!
# Two roles of the wildcard

As a source the wildcard lends its transitions to every state, and as a destination it
stands for every state. `Travels` keeps the roles apart: a name is travelled to by
steps that transitions allow. The walk does not. With a start state and a statement
for the wildcard it reaches every state, as if a transition had led to the wildcard,
so it is sound exactly when every state is travelled to or there is no such statement.
A message that is answered only where no steps lead is then not reported.
-/

namespace ActorProtocol

set_option autoImplicit false

namespace StateMachine

/-- One step between states, by a transition of the state itself or of the wildcard. -/
inductive Step (machine : StateMachine) : String → String → Prop
  | along {name : String} {statement : Statement} {destination : State}
      (member : statement ∈ machine.statements)
      (declared : statement.state.name = name ∨ statement.state.name = State.anyName)
      (leads : destination ∈ statement.destinations) : Step machine name destination.name
  | anywhere {name : String} {statement : Statement} {destination state : State}
      (member : statement ∈ machine.statements)
      (declared : statement.state.name = name ∨ statement.state.name = State.anyName)
      (leads : destination ∈ statement.destinations) (wild : destination.name = State.anyName)
      (inside : state ∈ machine.states) : Step machine name state.name

/-- Finitely many steps lead to the name from a start state. -/
def Travels (machine : StateMachine) (name : String) : Prop :=
  ∃ start ∈ machine.startStates, Relation.ReflTransGen machine.Step start.name name

/-- What the walk reaches is travelled to. -/
def WalksSoundly (machine : StateMachine) : Prop :=
  ∀ name ∈ machine.reachable, name ≠ State.anyName → machine.Travels name

variable {machine : StateMachine} {name after : String}

theorem mem_names_iff : name ∈ machine.names ↔ ∃ state ∈ machine.states, state.name = name := by
  unfold names states
  rw [← List.mem_map, List.map_map]
  rfl

theorem Travels.step (travels : machine.Travels name) (step : machine.Step name after) :
    machine.Travels after := by
  obtain ⟨start, starts, chain⟩ := travels
  exact ⟨start, starts, chain.tail step⟩

theorem travels_start {start : State} (starts : start ∈ machine.startStates) :
    machine.Travels start.name :=
  ⟨start, starts, .refl⟩

theorem declared_of_mem_successors {destination : State}
    (leads : destination ∈ machine.successors name) : ∃ statement ∈ machine.statements,
      (statement.state.name = name ∨ statement.state.name = State.anyName) ∧
        destination ∈ statement.destinations := by
  obtain ⟨statement, found, onward⟩ := mem_successors_iff.mp leads
  rcases found with own | wildcard
  · exact ⟨statement, List.mem_of_find?_eq_some own,
      Or.inl (by simpa using List.find?_some own), onward⟩
  · exact ⟨statement, List.mem_of_find?_eq_some wildcard,
      Or.inr (by simpa using List.find?_some wildcard), onward⟩

/-- Whether the wildcard is walked from although no step may lead to it. -/
def WildStart (machine : StateMachine) : Prop :=
  machine.startStates ≠ [] ∧ State.anyName ∈ machine.names

/-- A chain ends at the wildcard because a transition leads there, which allows all states
in its place, or because the wildcard is a state itself. -/
theorem Travels.every (travels : machine.Travels State.anyName) {state : State}
    (inside : state ∈ machine.states) : machine.Travels state.name ∨ machine.WildStart := by
  obtain ⟨start, starts, chain⟩ := travels
  have started : machine.startStates ≠ [] := List.ne_nil_of_mem starts
  rcases chain.cases_tail with same | ⟨before, earlier, last⟩
  · right
    exact ⟨started, mem_names_iff.mpr ⟨start, (List.mem_filter.mp starts).1, same.symm⟩⟩
  · generalize wild : State.anyName = target at last
    cases last with
    | along member declared leads =>
        left
        exact ⟨start, starts, earlier.tail (.anywhere member declared leads wild.symm inside)⟩
    | anywhere _ _ _ _ other =>
        right
        exact ⟨started, mem_names_iff.mpr ⟨_, other, wild.symm⟩⟩

/-- When all states are travelled to if the wildcard is walked from, the walk only goes
where steps lead, the wildcard itself apart. -/
theorem travels_of_reach
    (everywhere : machine.WildStart → ∀ state ∈ machine.states, state.name ≠ State.anyName →
      machine.Travels state.name) (known : machine.Reach name) :
    machine.Travels name ∨ name = State.anyName ∧ machine.WildStart := by
  have state : machine.WildStart → ∀ state ∈ machine.states,
      machine.Travels state.name ∨ state.name = State.anyName ∧ machine.WildStart := by
    intro wild state inside
    by_cases plain : state.name = State.anyName
    · exact Or.inr ⟨plain, wild⟩
    · exact Or.inl (everywhere wild state inside plain)
  induction known with
  | initial starts =>
      rcases mem_initialNames_iff.mp starts with ⟨start, member, rfl⟩ | ⟨same, started, source⟩
      · exact Or.inl (travels_start member)
      · exact Or.inr ⟨same, started, source⟩
  | @step before after _ leads ih =>
      rcases mem_namesAfter_iff.mp leads with ⟨rfl, source⟩ | ⟨destination, next, rfl⟩
      · obtain ⟨other, inside, rfl⟩ := mem_names_iff.mp source
        rcases ih with travels | ⟨_, wild⟩
        · rcases travels.every inside with reached | wild
          · exact Or.inl reached
          · exact state wild other inside
        · exact state wild other inside
      · obtain ⟨statement, member, declared, onward⟩ := declared_of_mem_successors next
        left
        rcases ih with travels | ⟨rfl, started, _⟩
        · exact travels.step (.along member declared onward)
        · -- what the wildcard itself declares may be taken in a start state
          obtain ⟨start, starts⟩ := List.exists_mem_of_ne_nil _ started
          have wildcard : statement.state.name = State.anyName := by
            rcases declared with own | shared
            · exact own
            · exact shared
          exact (travels_start starts).step (.along member (Or.inr wildcard) onward)

/-- With distinct sources a declared transition is one that the walk takes. -/
theorem mem_successors_of_declared (distinct : machine.names.Nodup) {statement : Statement}
    {destination : State} (member : statement ∈ machine.statements)
    (declared : statement.state.name = name ∨ statement.state.name = State.anyName)
    (leads : destination ∈ statement.destinations) : destination ∈ machine.successors name := by
  have found := statement?_of_mem distinct member
  refine mem_successors_iff.mpr ⟨statement, ?_, leads⟩
  rcases declared with own | wildcard
  · exact Or.inl (own ▸ found)
  · exact Or.inr (wildcard ▸ found)

theorem reach_of_travels (distinct : machine.names.Nodup) (travels : machine.Travels name) :
    machine.Reach name := by
  obtain ⟨start, starts, chain⟩ := travels
  induction chain with
  | refl => exact .initial (mem_initialNames_iff.mpr (Or.inl ⟨start, starts, rfl⟩))
  | tail _ last ih =>
      cases last with
      | along member declared leads =>
          have next := mem_successors_of_declared distinct member declared leads
          exact .step ih (mem_namesAfter_iff.mpr (Or.inr ⟨_, next, rfl⟩))
      | anywhere member declared leads wild inside =>
          have next := mem_successors_of_declared distinct member declared leads
          have wildcard : machine.Reach State.anyName :=
            .step ih (mem_namesAfter_iff.mpr (Or.inr ⟨_, next, wild⟩))
          exact .step wildcard (mem_namesAfter_iff.mpr
            (Or.inl ⟨rfl, mem_names_iff.mpr ⟨_, inside, rfl⟩⟩))

/-- Walking from the wildcard reaches every state. -/
theorem WildStart.reach (wild : machine.WildStart) (source : name ∈ machine.names) :
    machine.Reach name := by
  have wildcard : machine.Reach State.anyName :=
    .initial (mem_initialNames_iff.mpr (Or.inr ⟨rfl, wild.1, wild.2⟩))
  exact .step wildcard (mem_namesAfter_iff.mpr (Or.inl ⟨rfl, source⟩))

theorem walksSoundly_iff : machine.WalksSoundly ↔
    (machine.WildStart → ∀ state ∈ machine.states, state.name ≠ State.anyName →
      machine.Travels state.name) := by
  constructor
  · intro sound wild state inside plain
    have reached := wild.reach (mem_names_iff.mpr ⟨state, inside, rfl⟩)
    exact sound _ ((mem_reachable_iff machine _).mpr reached) plain
  · intro everywhere name reached plain
    rcases travels_of_reach everywhere ((mem_reachable_iff machine name).mp reached) with
      travels | ⟨wildcard, _⟩
    · exact travels
    · exact absurd wildcard plain

end StateMachine

namespace Protocol

variable {protocol : Protocol} {message : Message}

/-- A message waits for a reply and is answered, but not where steps lead. -/
structure Stranded (protocol : Protocol) (message : Message) : Prop where
  waits : message.hasReply = true
  started : protocol.machine.startStates ≠ []
  answered : protocol.replySources message ≠ []
  plain : ∀ source ∈ protocol.replySources message, source ≠ State.anyName
  away : ∀ source ∈ protocol.replySources message, ¬ protocol.machine.Travels source

theorem mem_names_of_replySources {source : String}
    (answers : source ∈ protocol.replySources message) : source ∈ protocol.machine.names := by
  obtain ⟨⟨state, transition⟩, chosen, rfl⟩ := List.mem_map.mp answers
  obtain ⟨statement, member, step⟩ := List.mem_flatMap.mp (List.mem_filter.mp chosen).1
  obtain ⟨rfl, _⟩ := Statement.mem_steps_iff.mp step
  exact List.mem_map.mpr ⟨statement, member, rfl⟩

/-- What is said about a message that is answered, when there is a start. -/
theorem replyError?_of_answered (answered : protocol.replySources message ≠ [])
    (started : protocol.machine.startStates ≠ []) :
    protocol.replyError? message =
      if ∀ source ∈ protocol.replySources message, source ∉ protocol.machine.reachable then
        some ⟨.unreachableReplyTransition message.name, message.loc⟩
      else none := by
  have unreached : ((!(protocol.replySources message).any fun source =>
      protocol.machine.reachable.contains source) = true) ↔
        ∀ source ∈ protocol.replySources message, source ∉ protocol.machine.reachable := by
    simp only [Bool.not_eq_true', List.any_eq_false, List.contains_iff_mem]
  unfold replyError?
  dsimp only
  rw [List.isEmpty_eq_false_iff.mpr answered, List.isEmpty_eq_false_iff.mpr started]
  simp only [Bool.false_eq_true, if_false, Bool.not_false, Bool.true_and, unreached]

theorem name_of_replyError? {name : String} {loc : Location}
    (found : protocol.replyError? message = some ⟨.unreachableReplyTransition name, loc⟩) :
    message.name = name := by
  unfold replyError? at found
  dsimp only at found
  split at found
  · cases found
  · split at found
    · cases found
      rfl
    · cases found

theorem unreachable_reported_iff (member : message ∈ protocol.messages)
    (waits : message.hasReply = true) (answered : protocol.replySources message ≠ [])
    (started : protocol.machine.startStates ≠ []) :
    ⟨.unreachableReplyTransition message.name, message.loc⟩ ∈ protocol.replyErrors ↔
      ∀ source ∈ protocol.replySources message, source ∉ protocol.machine.reachable := by
  constructor
  · intro reported
    obtain ⟨other, _, found⟩ := List.mem_filterMap.mp reported
    -- the error may be that of another message, which is answered in the same states
    have sources : protocol.replySources other = protocol.replySources message := by
      unfold replySources
      rw [name_of_replyError? found]
    rw [replyError?_of_answered (sources ▸ answered) started, sources] at found
    split at found
    · rename_i unreached
      exact unreached
    · cases found
  · intro unreached
    refine List.mem_filterMap.mpr ⟨message, List.mem_filter.mpr ⟨member, waits⟩, ?_⟩
    rw [replyError?_of_answered answered started, if_pos unreached]

/-- A message that is answered only away from all steps is reported unless the wildcard
has a statement. -/
theorem Stranded.reported_iff (stranded : protocol.Stranded message)
    (member : message ∈ protocol.messages) :
    ⟨.unreachableReplyTransition message.name, message.loc⟩ ∈ protocol.replyErrors ↔
      State.anyName ∉ protocol.machine.names := by
  obtain ⟨waits, started, answered, plain, away⟩ := stranded
  rw [unreachable_reported_iff member waits answered started]
  constructor
  · intro unreached wildcard
    have wild : protocol.machine.WildStart := ⟨started, wildcard⟩
    obtain ⟨source, answers⟩ := List.exists_mem_of_ne_nil _ answered
    apply unreached source answers
    rw [StateMachine.mem_reachable_iff]
    exact wild.reach (mem_names_of_replySources answers)
  · intro absent source answers reached
    have everywhere : protocol.machine.WildStart →
        ∀ state ∈ protocol.machine.states, state.name ≠ State.anyName →
          protocol.machine.Travels state.name := fun wild => absurd wild.2 absent
    rw [StateMachine.mem_reachable_iff] at reached
    rcases StateMachine.travels_of_reach everywhere reached with travels | ⟨wildcard, _⟩
    · exact away source answers travels
    · exact plain source answers wildcard

/-- What the wildcard does to the machine of a protocol and to the messages answered in it. -/
structure WildcardReach (protocol : Protocol) : Prop where
  complete : ∀ name, protocol.machine.Travels name → name ∈ protocol.machine.reachable
  sound_iff : protocol.machine.WalksSoundly ↔
    (protocol.machine.WildStart → ∀ state ∈ protocol.machine.states,
      state.name ≠ State.anyName → protocol.machine.Travels state.name)
  reported_iff : ∀ (resolved : Resolved) checked, resolved.unit.protocol = some protocol →
    resolved.check = .ok checked → ∀ message ∈ protocol.messages, protocol.Stranded message →
      (⟨.unreachableReplyTransition message.name, message.loc⟩ ∈ checked.errors ↔
        State.anyName ∉ protocol.machine.names)

theorem wildcard_reach (protocol : Protocol) : protocol.WildcardReach where
  complete name travels := by
    rw [StateMachine.mem_reachable_iff]
    exact StateMachine.reach_of_travels protocol.nodup_names_machine travels
  sound_iff := StateMachine.walksSoundly_iff
  reported_iff resolved checked described ok message member stranded := by
    obtain ⟨same, known, _, about⟩ := Resolved.errorsAbout_of_check ok
    obtain rfl : same = protocol := Option.some.inj (known.symm.trans described)
    rw [mem_iff_mem_errorsAbout, about, ← stranded.reported_iff member]
    rfl

/-! ## A stranded reply

A link that stays in its start state, with a lost state that answers a message. -/

def linkLine (line : Nat) : Location := ⟨"PLink.ipdl", line⟩

def linkFetch : Message := ⟨⟨5⟩, "Fetch", .sync, .inbound, [], [], linkLine 3⟩

/-- A statement whose transitions lead to the start. -/
def linkStatement (id line : Nat) (name : String) (start : Bool) (trigger : Trigger)
    (message : String) : Statement :=
  ⟨⟨id⟩, ⟨⟨id + 1⟩, name, start, linkLine line⟩,
    [⟨⟨id + 2⟩, some trigger, some message, [⟨⟨id + 3⟩, "Linked", false, linkLine line⟩],
      linkLine line⟩], linkLine line⟩

def linkProtocol (others : List Statement) : Protocol where
  id := ⟨3⟩
  name := "PLink"
  namespaces := []
  semantics := .sync
  spawns := []
  bridges := []
  managers := []
  manages := []
  messages := [⟨⟨4⟩, "Ping", .async, .outbound, [], [], linkLine 2⟩, linkFetch]
  statements := [linkStatement 6 4 "Linked" true .send "Ping",
    linkStatement 10 6 "Lost" false .answer "Fetch"] ++ others
  loc := linkLine 1

def linkUnit (others : List Statement) : SourceUnit :=
  { SourceUnit.ofFile ⟨1⟩ "PLink.ipdl" with protocol := some (linkProtocol others) }

/-- The wildcard declares nothing that leads to the lost state. -/
def linkWildcard : Statement := linkStatement 14 8 "[any]" false .send "Ping"

theorem linked_of_travels {others : List Statement} {name : String}
    (home : ∀ statement ∈ (linkProtocol others).machine.statements,
      ∀ destination ∈ statement.destinations, destination.name = "Linked")
    (starts : ∀ start ∈ (linkProtocol others).machine.startStates, start.name = "Linked")
    (travels : (linkProtocol others).machine.Travels name) : name = "Linked" := by
  obtain ⟨start, member, chain⟩ := travels
  rcases chain.cases_tail with same | ⟨before, _, last⟩
  · rw [same]
    exact starts start member
  · cases last with
    | along member _ leads => exact home _ member _ leads
    | anywhere member _ leads wild _ =>
        have linked := home _ member _ leads
        rw [wild] at linked
        exact absurd linked (by decide)

/-- With a statement of the wildcard or without, the message is answered in the lost state
only, and no step leads there. -/
theorem fetch_stranded (others : List Statement) (few : others = [] ∨ others = [linkWildcard]) :
    (linkProtocol others).Stranded linkFetch := by
  have sources : (linkProtocol others).replySources linkFetch = ["Lost"] := by
    rcases few with rfl | rfl <;> decide
  refine ⟨rfl, ?_, ?_, ?_, ?_⟩
  · rcases few with rfl | rfl <;> decide
  · rw [sources]
    exact List.cons_ne_nil _ _
  · rw [sources]
    decide
  · rw [sources]
    intro source only travels
    have linked := linked_of_travels (by rcases few with rfl | rfl <;> decide)
      (by rcases few with rfl | rfl <;> decide) travels
    rw [linked] at only
    exact absurd only (by decide)

/-- Without the wildcard the message is reported. -/
theorem link_reported : ∃ reported checked, (linkUnit []).resolve [] = .ok reported ∧
    reported.value.check = .ok checked ∧ (linkProtocol []).Stranded linkFetch ∧
    ⟨.unreachableReplyTransition "Fetch", linkLine 3⟩ ∈ checked.errors := by
  have described : (linkUnit []).protocol = some (linkProtocol []) := rfl
  have stranded := fetch_stranded [] (Or.inl rfl)
  have numbered : (linkUnit []).Numbered := by
    constructor <;> decide
  have ok := numbered.check_resolved described []
  refine ⟨_, _, SourceUnit.resolve_eq_ok described [], ok, stranded, ?_⟩
  exact ((wildcard_reach _).reported_iff _ _ described ok linkFetch
    (by decide) stranded).mpr (by decide)

/-- With the wildcard the lost state is reached although no steps lead there, and nothing
is reported. -/
theorem link_walk_unsound : "Lost" ∈ (linkProtocol [linkWildcard]).machine.reachable ∧
    ¬ (linkProtocol [linkWildcard]).machine.WalksSoundly ∧
    (linkProtocol [linkWildcard]).Stranded linkFetch ∧
    ∃ reported checked, (linkUnit [linkWildcard]).resolve [] = .ok reported ∧
      reported.errors = [] ∧ reported.value.check = .ok checked ∧ checked.errors = [] := by
  have described : (linkUnit [linkWildcard]).protocol = some (linkProtocol [linkWildcard]) := rfl
  have stranded := fetch_stranded [linkWildcard] (Or.inr rfl)
  have reached : "Lost" ∈ (linkProtocol [linkWildcard]).machine.reachable := by decide
  have numbered : (linkUnit [linkWildcard]).Numbered := by
    constructor <;> decide
  have ok := numbered.check_resolved described []
  refine ⟨reached, ?_, stranded, _, _, SourceUnit.resolve_eq_ok described [], by decide +kernel,
    ok, by decide +kernel⟩
  intro sound
  exact stranded.away "Lost" (by decide) (sound "Lost" reached (by decide))

end Protocol

end ActorProtocol
