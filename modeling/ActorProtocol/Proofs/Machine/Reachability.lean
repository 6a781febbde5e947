import ActorProtocol.Machine.Reachable
import Mathlib.Data.List.Perm.Subperm

/-!
# The walk reaches what is reachable

`Reach` is the least set of names that holds the initial ones and is closed under
single steps. The walk computes it. What it has reached never repeats a name, so
it runs out of names in as many rounds as the machine has, and with nothing left
over it is closed. This says nothing of the order in which names are reached.
-/

namespace ActorProtocol

set_option autoImplicit false

namespace StateMachine

variable {machine : StateMachine}

inductive Reach (machine : StateMachine) : String → Prop
  | initial {name : String} (starts : name ∈ machine.initialNames) : Reach machine name
  | step {name after : String} (reached : Reach machine name)
      (leads : after ∈ machine.namesAfter name) : Reach machine after

theorem mem_newNames_iff {name : String} (seen names : List String) :
    name ∈ newNames seen names ↔ name ∈ names ∧ name ∉ seen := by
  induction names generalizing seen with
  | nil => simp [newNames]
  | cons first rest ih =>
      unfold newNames
      split
      · rename_i old
        rw [ih, List.mem_cons]
        constructor
        · rintro ⟨later, new⟩
          exact ⟨Or.inr later, new⟩
        · rintro ⟨same | later, new⟩
          · exact absurd (same ▸ old) new
          · exact ⟨later, new⟩
      · rename_i fresh
        rw [List.mem_cons, List.mem_cons, ih, List.mem_cons, not_or]
        constructor
        · rintro (same | ⟨later, _, new⟩)
          · exact ⟨Or.inl same, same ▸ fresh⟩
          · exact ⟨Or.inr later, new⟩
        · rintro ⟨same | later, new⟩
          · exact Or.inl same
          · by_cases again : name = first
            · exact Or.inl again
            · exact Or.inr ⟨later, again, new⟩

theorem nodup_newNames (seen names : List String) : (newNames seen names).Nodup := by
  induction names generalizing seen with
  | nil => exact List.nodup_nil
  | cons first rest ih =>
      unfold newNames
      split
      · exact ih seen
      · rw [List.nodup_cons, mem_newNames_iff]
        refine ⟨?_, ih _⟩
        rintro ⟨_, new⟩
        exact new List.mem_cons_self

theorem mem_initialNames_iff {name : String} :
    name ∈ machine.initialNames ↔ (∃ state ∈ machine.startStates, state.name = name) ∨
      (name = State.anyName ∧ machine.startStates ≠ [] ∧ State.anyName ∈ machine.names) := by
  unfold initialNames
  dsimp only
  rw [← List.mem_map]
  cases starts : machine.startStates with
  | nil => simp
  | cons first rest =>
      by_cases wildcard : State.anyName ∈ machine.names
      · simp [wildcard, or_assoc]
      · simp [wildcard]

theorem mem_namesAfter_iff {name after : String} :
    after ∈ machine.namesAfter name ↔ (name = State.anyName ∧ after ∈ machine.names) ∨
      ∃ state ∈ machine.successors name, state.name = after := by
  unfold namesAfter
  rw [List.mem_append, List.mem_map]
  by_cases wildcard : name = State.anyName <;> simp [wildcard]

/-- The wildcard's own statement counts once for the wildcard itself. -/
theorem mem_successors_iff {name : String} {state : State} :
    state ∈ machine.successors name ↔ ∃ statement,
      (machine.statement? name = some statement ∨
        machine.statement? State.anyName = some statement) ∧ state ∈ statement.destinations := by
  have sources : ∀ statement, statement ∈ machine.statementsFrom name ↔
      machine.statement? name = some statement ∨
        machine.statement? State.anyName = some statement := by
    intro statement
    unfold statementsFrom
    by_cases wildcard : name = State.anyName <;> simp [wildcard]
  unfold successors
  rw [List.mem_flatMap]
  simp only [sources]

theorem mem_names_of_initial {name : String} (starts : name ∈ machine.initialNames) :
    name ∈ machine.names := by
  rcases mem_initialNames_iff.mp starts with ⟨state, start, rfl⟩ | ⟨rfl, _, wildcard⟩
  · obtain ⟨statement, inside, rfl⟩ := List.mem_map.mp (List.mem_filter.mp start).1
    exact List.mem_map.mpr ⟨statement, inside, rfl⟩
  · exact wildcard

theorem mem_allNames_of_after {name after : String} (leads : after ∈ machine.namesAfter name) :
    after ∈ machine.allNames := by
  rcases mem_namesAfter_iff.mp leads with ⟨_, every⟩ | ⟨state, successor, rfl⟩
  · exact List.mem_append_left _ every
  · obtain ⟨statement, source, destination⟩ := mem_successors_iff.mp successor
    have member : statement ∈ machine.statements := by
      rcases source with own | wildcard
      · exact List.mem_of_find?_eq_some own
      · exact List.mem_of_find?_eq_some wildcard
    exact List.mem_append_right _ (List.mem_map.mpr
      ⟨state, List.mem_flatMap.mpr ⟨statement, member, destination⟩, rfl⟩)

/-- The walk reads names only: those of the statements, of the start states and of the
destinations. -/
theorem reachable_congr {machine other : StateMachine} (names : other.names = machine.names)
    (starts : other.startStates.map State.name = machine.startStates.map State.name)
    (destinations : (other.statements.flatMap Statement.destinations).map State.name =
      (machine.statements.flatMap Statement.destinations).map State.name)
    (successors : ∀ name, (other.successors name).map State.name =
      (machine.successors name).map State.name) :
    other.reachable = machine.reachable := by
  have after : other.namesAfter = machine.namesAfter := by
    funext name
    rw [namesAfter, namesAfter, names, successors]
  have walks : ∀ rounds reached frontier,
      other.walk rounds reached frontier = machine.walk rounds reached frontier := by
    intro rounds
    induction rounds with
    | zero => exact fun _ _ => rfl
    | succ rounds ih =>
        intro reached frontier
        rw [walk, walk, ih, after]
  have initial : other.initialNames = machine.initialNames := by
    rw [initialNames, initialNames, names, starts]
  have named : other.allNames = machine.allNames := by
    rw [allNames, allNames, names, destinations]
  rw [reachable, reachable, initial, named, walks]

/-- The state of a walk between two rounds. -/
structure Walking (machine : StateMachine) (reached frontier : List String) : Prop where
  distinct : reached.Nodup
  named : ∀ name, name ∈ reached ∨ name ∈ frontier → name ∈ machine.allNames
  sound : ∀ name, name ∈ reached ∨ name ∈ frontier → machine.Reach name
  initial : ∀ name ∈ machine.initialNames, name ∈ reached ∨ name ∈ frontier
  pending : ∀ name ∈ reached, ∀ after ∈ machine.namesAfter name,
    after ∈ reached ∨ after ∈ frontier

theorem walking_start (machine : StateMachine) : machine.Walking [] machine.initialNames where
  distinct := List.nodup_nil
  named := by
    rintro name (none | starts)
    · cases none
    · exact List.mem_append_left _ (mem_names_of_initial starts)
  sound := by
    rintro name (none | starts)
    · cases none
    · exact .initial starts
  initial := fun name starts => Or.inr starts
  pending := by
    intro name none
    cases none

namespace Walking

variable {reached frontier : List String}

theorem mem_after_round {name : String} (known : name ∈ reached ∨ name ∈ frontier) :
    name ∈ reached ++ newNames reached frontier := by
  by_cases old : name ∈ reached
  · exact List.mem_append_left _ old
  · refine List.mem_append_right _ ((mem_newNames_iff _ _).mpr ⟨?_, old⟩)
    rcases known with before | now
    · exact absurd before old
    · exact now

theorem known_of_mem {name : String} (member : name ∈ reached ++ newNames reached frontier) :
    name ∈ reached ∨ name ∈ frontier := by
  rcases List.mem_append.mp member with before | fresh
  · exact Or.inl before
  · exact Or.inr ((mem_newNames_iff _ _).mp fresh).1

theorem round (walking : machine.Walking reached frontier) :
    machine.Walking (reached ++ newNames reached frontier)
      ((newNames reached frontier).flatMap machine.namesAfter) where
  distinct := by
    rw [List.nodup_append]
    refine ⟨walking.distinct, nodup_newNames _ _, ?_⟩
    intro left old right fresh same
    exact ((mem_newNames_iff _ _).mp fresh).2 (same ▸ old)
  named := by
    rintro name (member | after)
    · exact walking.named name (known_of_mem member)
    · obtain ⟨_, _, leads⟩ := List.mem_flatMap.mp after
      exact mem_allNames_of_after leads
  sound := by
    rintro name (member | after)
    · exact walking.sound name (known_of_mem member)
    · obtain ⟨before, fresh, leads⟩ := List.mem_flatMap.mp after
      exact .step (walking.sound before (known_of_mem (List.mem_append_right _ fresh))) leads
  initial := fun name starts => Or.inl (mem_after_round (walking.initial name starts))
  pending := by
    intro name member after leads
    rcases List.mem_append.mp member with before | fresh
    · exact Or.inl (mem_after_round (walking.pending name before after leads))
    · exact Or.inr (List.mem_flatMap.mpr ⟨name, fresh, leads⟩)

/-- With as many names reached as there are, nothing on the frontier is new. -/
theorem frontier_subset (walking : machine.Walking reached frontier)
    (enough : machine.allNames.length ≤ reached.length) : frontier ⊆ reached := by
  intro name now
  have inside : reached ⊆ machine.allNames := by
    intro other member
    exact walking.named other (Or.inl member)
  have same : reached.Perm machine.allNames :=
    (walking.distinct.subperm inside).perm_of_length_le enough
  exact same.symm.subset (walking.named name (Or.inr now))

theorem closed (walking : machine.Walking reached frontier) (done : frontier ⊆ reached)
    {name : String} (known : machine.Reach name) : name ∈ reached := by
  induction known with
  | initial starts =>
      rcases walking.initial _ starts with before | now
      · exact before
      · exact done now
  | step _ leads ih =>
      rcases walking.pending _ ih _ leads with before | now
      · exact before
      · exact done now

/-- Each round that finds something uses up a name, and one that finds nothing ends the walk. -/
theorem enough_round {rounds : Nat}
    (enough : frontier ⊆ reached ∨ machine.allNames.length ≤ rounds + 1 + reached.length) :
    (newNames reached frontier).flatMap machine.namesAfter ⊆ reached ++ newNames reached frontier ∨
      machine.allNames.length ≤ rounds + (reached ++ newNames reached frontier).length := by
  cases fresh : newNames reached frontier with
  | nil => exact Or.inl (List.nil_subset _)
  | cons first rest =>
      have found : first ∈ newNames reached frontier := by
        rw [fresh]
        exact List.mem_cons_self
      obtain ⟨now, new⟩ := (mem_newNames_iff _ _).mp found
      right
      rcases enough with done | full
      · exact absurd (done now) new
      · rw [List.length_append, List.length_cons]
        omega

theorem walk (walking : machine.Walking reached frontier) (rounds : Nat)
    (enough : frontier ⊆ reached ∨ machine.allNames.length ≤ rounds + reached.length)
    (name : String) :
    name ∈ machine.walk rounds reached frontier ↔ machine.Reach name := by
  induction rounds generalizing reached frontier with
  | zero =>
      have done : frontier ⊆ reached := by
        rcases enough with done | full
        · exact done
        · exact walking.frontier_subset (by omega)
      constructor
      · intro member
        exact walking.sound name (Or.inl member)
      · intro known
        exact walking.closed done known
  | succ rounds ih => exact ih walking.round (enough_round enough)

end Walking

theorem mem_reachable_iff (machine : StateMachine) (name : String) :
    name ∈ machine.reachable ↔ machine.Reach name := by
  apply machine.walking_start.walk
  right
  rw [List.length_nil]
  omega

end StateMachine

end ActorProtocol
