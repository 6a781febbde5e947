import ActorProtocol.Proofs.Machine.Reachability
import Mathlib.Data.List.Forall2
import Mathlib.Logic.Relation

/-!
# Distances of reachable names

The distance of a name is the least number of edges along which it is reached from the
names that are known at the start. An edge leads to every successor of a name, and from
the wildcard to every state. The walk lists the names in the order of their distances,
since a round finds exactly the names that are one edge further away than those of the
round before.

The rounds only group what a queue does name by name. Such a queue may hold a name many
times, and names that have no statement; it is shown to run empty, with the names that
the rounds reach, in their order.
-/

namespace ActorProtocol

set_option autoImplicit false

namespace StateMachine

/-- Some path with this number of edges leads to the name from an initial one. -/
inductive ReachedIn (machine : StateMachine) : Nat → String → Prop
  | start {state : State} (starts : state ∈ machine.startStates) : ReachedIn machine 0 state.name
  | wildcard (started : machine.startStates ≠ []) (source : State.anyName ∈ machine.names) :
      ReachedIn machine 0 State.anyName
  | along {edges : Nat} {name : String} {state : State} (reached : ReachedIn machine edges name)
      (next : state ∈ machine.successors name) : ReachedIn machine (edges + 1) state.name
  | every {edges : Nat} {name : String} (reached : ReachedIn machine edges State.anyName)
      (source : name ∈ machine.names) : ReachedIn machine (edges + 1) name

/-- The least number of edges on a path to the name. -/
def Distance (machine : StateMachine) (name : String) (edges : Nat) : Prop :=
  machine.ReachedIn edges name ∧ ∀ fewer < edges, ¬ machine.ReachedIn fewer name

variable {machine : StateMachine} {name : String} {edges : Nat}

theorem reachedIn_zero_iff : machine.ReachedIn 0 name ↔ name ∈ machine.initialNames := by
  rw [mem_initialNames_iff]
  constructor
  · intro reached
    cases reached with
    | start starts => exact Or.inl ⟨_, starts, rfl⟩
    | wildcard started source => exact Or.inr ⟨rfl, started, source⟩
  · rintro (⟨state, starts, rfl⟩ | ⟨rfl, started, source⟩)
    · exact .start starts
    · exact .wildcard started source

theorem reachedIn_succ_iff :
    machine.ReachedIn (edges + 1) name ↔
      ∃ before, machine.ReachedIn edges before ∧ name ∈ machine.namesAfter before := by
  constructor
  · intro reached
    cases reached with
    | along reached next => exact ⟨_, reached, mem_namesAfter_iff.mpr (Or.inr ⟨_, next, rfl⟩)⟩
    | every reached source => exact ⟨_, reached, mem_namesAfter_iff.mpr (Or.inl ⟨rfl, source⟩)⟩
  · rintro ⟨before, reached, leads⟩
    rcases mem_namesAfter_iff.mp leads with ⟨rfl, source⟩ | ⟨state, next, rfl⟩
    · exact .every reached source
    · exact .along reached next

theorem reach_iff_reachedIn : machine.Reach name ↔ ∃ edges, machine.ReachedIn edges name := by
  constructor
  · intro known
    induction known with
    | initial starts => exact ⟨0, reachedIn_zero_iff.mpr starts⟩
    | step _ leads ih =>
        rcases ih with ⟨edges, reached⟩
        exact ⟨edges + 1, reachedIn_succ_iff.mpr ⟨_, reached, leads⟩⟩
  · rintro ⟨edges, reached⟩
    induction edges generalizing name with
    | zero => exact .initial (reachedIn_zero_iff.mp reached)
    | succ edges ih =>
        rcases reachedIn_succ_iff.mp reached with ⟨before, earlier, leads⟩
        exact .step (ih earlier) leads

/-- The last edge of a shortest path leaves a name that is one edge closer. -/
theorem Distance.exists_before (distance : machine.Distance name (edges + 1)) :
    ∃ before, machine.Distance before edges ∧ name ∈ machine.namesAfter before := by
  rcases distance with ⟨reached, least⟩
  rcases reachedIn_succ_iff.mp reached with ⟨before, earlier, leads⟩
  refine ⟨before, ⟨earlier, ?_⟩, leads⟩
  intro fewer less closer
  apply least (fewer + 1) (by omega)
  exact reachedIn_succ_iff.mpr ⟨before, closer, leads⟩

/-! ## The rounds -/

/-- A walk before the round that finds the names at a distance. All nearer names are
reached, in the order of their distances, and on the frontier stand the names at this
distance, perhaps among nearer ones. -/
structure Leveled (machine : StateMachine) (edges : Nat) (reached frontier : List String) :
    Prop where
  nearer : ∀ name, name ∈ reached ↔ ∃ fewer < edges, machine.ReachedIn fewer name
  led : ∀ name ∈ frontier, machine.ReachedIn edges name
  complete : ∀ name, machine.Distance name edges → name ∈ frontier
  ordered : ∃ distances, List.Forall₂ machine.Distance reached distances ∧
    distances.Pairwise (· ≤ ·) ∧ ∀ distance ∈ distances, distance < edges

theorem leveled_start (machine : StateMachine) :
    machine.Leveled 0 [] machine.initialNames where
  nearer := by simp
  led := fun name starts => reachedIn_zero_iff.mpr starts
  complete := fun name distance => reachedIn_zero_iff.mp distance.1
  ordered := ⟨[], List.Forall₂.nil, List.Pairwise.nil, by simp⟩

namespace Leveled

variable {reached frontier : List String}

theorem mem_fresh_iff (leveled : machine.Leveled edges reached frontier) :
    name ∈ newNames reached frontier ↔ machine.Distance name edges := by
  rw [mem_newNames_iff, leveled.nearer]
  constructor
  · rintro ⟨now, new⟩
    refine ⟨leveled.led name now, ?_⟩
    intro fewer less closer
    exact new ⟨fewer, less, closer⟩
  · intro distance
    refine ⟨leveled.complete name distance, ?_⟩
    rintro ⟨fewer, less, closer⟩
    exact distance.2 fewer less closer

theorem round (leveled : machine.Leveled edges reached frontier) :
    machine.Leveled (edges + 1) (reached ++ newNames reached frontier)
      ((newNames reached frontier).flatMap machine.namesAfter) where
  nearer := by
    intro name
    rw [List.mem_append, leveled.nearer, leveled.mem_fresh_iff]
    constructor
    · rintro (⟨fewer, less, closer⟩ | distance)
      · exact ⟨fewer, by omega, closer⟩
      · exact ⟨edges, by omega, distance.1⟩
    · rintro ⟨fewer, less, closer⟩
      by_cases known : ∃ least < edges, machine.ReachedIn least name
      · exact Or.inl known
      · right
        have last : fewer = edges := by
          by_contra other
          exact known ⟨fewer, by omega, closer⟩
        refine ⟨last ▸ closer, ?_⟩
        intro least less closer
        exact known ⟨least, less, closer⟩
  led := by
    intro name after
    rcases List.mem_flatMap.mp after with ⟨before, fresh, leads⟩
    exact reachedIn_succ_iff.mpr ⟨before, (leveled.mem_fresh_iff.mp fresh).1, leads⟩
  complete := by
    intro name distance
    rcases distance.exists_before with ⟨before, nearer, leads⟩
    exact List.mem_flatMap.mpr ⟨before, leveled.mem_fresh_iff.mpr nearer, leads⟩
  ordered := by
    rcases leveled.ordered with ⟨distances, listed, sorted, below⟩
    -- every name that the round finds has the same distance
    refine ⟨distances ++ (newNames reached frontier).map fun _ => edges, ?_, ?_, ?_⟩
    · apply List.rel_append listed
      rw [List.forall₂_map_right_iff, List.forall₂_same]
      intro name fresh
      exact leveled.mem_fresh_iff.mp fresh
    · rw [List.pairwise_append]
      refine ⟨sorted, ?_, ?_⟩
      · rw [List.pairwise_map]
        exact List.pairwise_of_forall fun _ _ => Nat.le_refl edges
      · intro earlier known later last
        rcases List.mem_map.mp last with ⟨_, _, rfl⟩
        exact Nat.le_of_lt (below earlier known)
    · intro distance known
      rcases List.mem_append.mp known with earlier | last
      · exact Nat.lt_succ_of_lt (below distance earlier)
      · rcases List.mem_map.mp last with ⟨_, _, rfl⟩
        exact Nat.lt_succ_self edges

theorem walk (leveled : machine.Leveled edges reached frontier) (rounds : Nat) :
    ∃ distances, List.Forall₂ machine.Distance (machine.walk rounds reached frontier) distances ∧
      distances.Pairwise (· ≤ ·) := by
  induction rounds generalizing edges reached frontier with
  | zero =>
      rcases leveled.ordered with ⟨distances, listed, sorted, _⟩
      exact ⟨distances, listed, sorted⟩
  | succ rounds ih => exact ih leveled.round

end Leveled

/-! ## The queue -/

/-- The names that are reached so far, and those that wait to be looked at. -/
structure Queue where
  reached : List String
  waiting : List String

/-- Looks at the name that waits longest. One that is reached already is dropped, and
behind a new one its successors come to wait. -/
def dequeue (machine : StateMachine) (queue : Queue) : Option Queue :=
  match queue.waiting with
  | [] => none
  | name :: waiting =>
      if name ∈ queue.reached then some ⟨queue.reached, waiting⟩
      else some ⟨queue.reached ++ [name], waiting ++ machine.namesAfter name⟩

/-- After finitely many steps. -/
def Dequeues (machine : StateMachine) : Queue → Queue → Prop :=
  Relation.ReflTransGen fun queue next => machine.dequeue queue = some next

theorem newNames_congr {seen others : List String}
    (same : ∀ name, name ∈ seen ↔ name ∈ others) (names : List String) :
    newNames seen names = newNames others names := by
  induction names generalizing seen others with
  | nil => rfl
  | cons first rest ih =>
      have onward : newNames (first :: seen) rest = newNames (first :: others) rest := by
        apply ih
        intro name
        rw [List.mem_cons, List.mem_cons, same]
      by_cases old : first ∈ seen
      · rw [newNames, newNames, if_pos old, if_pos ((same first).mp old)]
        exact ih same
      · rw [newNames, newNames, if_neg old, if_neg fun known => old ((same first).mpr known),
          onward]

/-- Looking at the names of a frontier one by one comes to a round: the new ones are reached,
and what they lead to waits behind the rest. -/
theorem dequeues_frontier (reached frontier behind : List String) :
    machine.Dequeues ⟨reached, frontier ++ behind⟩
      ⟨reached ++ newNames reached frontier,
        behind ++ (newNames reached frontier).flatMap machine.namesAfter⟩ := by
  induction frontier generalizing reached behind with
  | nil =>
      simp only [newNames, List.nil_append, List.append_nil, List.flatMap_nil]
      exact .refl
  | cons name frontier ih =>
      by_cases old : name ∈ reached
      · have step : machine.dequeue ⟨reached, name :: frontier ++ behind⟩ =
            some ⟨reached, frontier ++ behind⟩ := if_pos old
        rw [newNames, if_pos old]
        exact .head step (ih reached behind)
      · have step : machine.dequeue ⟨reached, name :: frontier ++ behind⟩ =
            some ⟨reached ++ [name], frontier ++ (behind ++ machine.namesAfter name)⟩ := by
          rw [← List.append_assoc]
          exact if_neg old
        have seen : newNames (reached ++ [name]) frontier =
            newNames (name :: reached) frontier := by
          apply newNames_congr
          intro other
          rw [List.mem_append, List.mem_singleton, List.mem_cons, or_comm]
        have rest := ih (reached ++ [name]) (behind ++ machine.namesAfter name)
        rw [seen, List.append_assoc, List.append_assoc] at rest
        rw [newNames, if_neg old, List.flatMap_cons]
        exact .head step rest

theorem newNames_eq_nil {seen names : List String} (known : names ⊆ seen) :
    newNames seen names = [] := by
  rw [List.eq_nil_iff_forall_not_mem]
  intro name fresh
  rcases (mem_newNames_iff seen names).mp fresh with ⟨now, new⟩
  exact new (known now)

namespace Walking

variable {reached frontier : List String}

theorem nodup_walk (walking : machine.Walking reached frontier) (rounds : Nat) :
    (machine.walk rounds reached frontier).Nodup := by
  induction rounds generalizing reached frontier with
  | zero => exact walking.distinct
  | succ rounds ih => exact ih walking.round

/-- The queue runs empty when there are rounds enough. -/
theorem dequeues_walk (walking : machine.Walking reached frontier) (rounds : Nat)
    (enough : frontier ⊆ reached ∨ machine.allNames.length ≤ rounds + reached.length) :
    machine.Dequeues ⟨reached, frontier⟩ ⟨machine.walk rounds reached frontier, []⟩ := by
  have round := machine.dequeues_frontier reached frontier []
  rw [List.append_nil, List.nil_append] at round
  induction rounds generalizing reached frontier with
  | zero =>
      have done : frontier ⊆ reached := by
        rcases enough with done | full
        · exact done
        · exact walking.frontier_subset (by omega)
      rw [newNames_eq_nil done, List.append_nil] at round
      exact round
  | succ rounds ih =>
      apply round.trans
      apply ih walking.round (enough_round enough)
      have next := machine.dequeues_frontier (reached ++ newNames reached frontier)
        ((newNames reached frontier).flatMap machine.namesAfter) []
      rwa [List.append_nil, List.nil_append] at next

end Walking

/-- What the walk from the start states comes to. -/
structure WalksInOrder (machine : StateMachine) : Prop where
  ends : machine.Dequeues ⟨[], machine.initialNames⟩ ⟨machine.reachable, []⟩
  distinct : machine.reachable.Nodup
  exact : ∀ name, name ∈ machine.reachable ↔ ∃ edges, machine.ReachedIn edges name
  ordered : ∃ distances, List.Forall₂ machine.Distance machine.reachable distances ∧
    distances.Pairwise (· ≤ ·)
  empty_iff : machine.reachable = [] ↔ ∀ state ∈ machine.states, state.start = false

theorem not_reachedIn_of_idle (idle : machine.startStates = []) :
    ¬ machine.ReachedIn edges name := by
  intro reached
  induction reached with
  | start starts =>
      rw [idle] at starts
      cases starts
  | wildcard started => exact started idle
  | along _ _ ih | every _ _ ih => exact ih

theorem reachable_eq_nil_iff :
    machine.reachable = [] ↔ ∀ state ∈ machine.states, state.start = false := by
  have idle_iff : machine.startStates = [] ↔ ∀ state ∈ machine.states, state.start = false := by
    unfold startStates
    simp only [List.filter_eq_nil_iff, Bool.not_eq_true]
  rw [← idle_iff, List.eq_nil_iff_forall_not_mem]
  constructor
  · intro unreached
    rw [List.eq_nil_iff_forall_not_mem]
    intro state starts
    apply unreached state.name
    exact (mem_reachable_iff machine _).mpr (reach_iff_reachedIn.mpr ⟨0, .start starts⟩)
  · intro idle name member
    rcases reach_iff_reachedIn.mp ((mem_reachable_iff machine name).mp member) with
      ⟨edges, reached⟩
    exact not_reachedIn_of_idle idle reached

theorem reachable_in_order (machine : StateMachine) : machine.WalksInOrder where
  ends := machine.walking_start.dequeues_walk _ (Or.inr (Nat.le_add_right _ _))
  distinct := machine.walking_start.nodup_walk _
  exact := fun name => (mem_reachable_iff machine name).trans reach_iff_reachedIn
  ordered := machine.leveled_start.walk _
  empty_iff := reachable_eq_nil_iff

end StateMachine

end ActorProtocol
