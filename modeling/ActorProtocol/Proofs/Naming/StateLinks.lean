import ActorProtocol.Proofs.Naming.ActorStates

/-!
# Links of states

The name of a state stands for one declaration: that of a sentinel, or what the first
statement of the name declares. Every source of the name is linked to it, and so is every
destination of the name whose transition has a trigger and a message. The destinations of
other transitions are linked to nothing, though the machine takes such a transition for a
real one: it leads to its destinations, and those that are no states are reported.
-/

namespace ActorProtocol

set_option autoImplicit false

/-- What declares the state of a name: a sentinel, or else the first statement of the name. -/
inductive Protocol.StateBinder (protocol : Protocol) (name : String) : Binder → Prop
  | sentinel {state : State} (which : state = .any ∨ state = .dead) (named : state.name = name) :
      StateBinder protocol name (.sentinel state)
  | source {first : Statement} (ordinary : State.isSentinelName name = false)
      (found : protocol.statements.find? (fun statement => statement.state.name == name) =
        some first) :
      StateBinder protocol name (.sourceState first.state)

theorem Protocol.StateBinder.stateName? {protocol : Protocol} {name : String} {binder : Binder}
    (declares : protocol.StateBinder name binder) : binder.stateName? = some name := by
  cases declares with
  | sentinel _ named => exact congrArg some named
  | source _ found => exact congrArg some (by simpa using List.find?_some found)

/-! ## Names of states -/

namespace Bindings

variable {home : Home} {bindings : Bindings} {binder : Binder} {name : String} {id : DeclId}

/-- A name that is new stands for what is declared under it. -/
theorem find?_states_bind_of_new (home : Home) (named : binder.stateName? = some name)
    (absent : bindings.names.states.contains name = false) :
    (bindings.bind home binder).names.states.find? name = some bindings.table.nextId ∧
      (bindings.bind home binder).table.decl? bindings.table.nextId =
        some (home.declared bindings.table.nextId binder) := by
  have outcome := bind_cases home bindings binder
  generalize bindings.bind home binder = after at outcome ⊢
  cases outcome with
  | @sentinel state =>
      cases named
      exact ⟨(OrderedMap.find?_insert _ _ _ _).trans (if_pos rfl),
        Explained.decl?_next_add home bindings (.sentinel state)⟩
  | @sourceState state =>
      cases named
      exact ⟨(OrderedMap.find?_insert _ _ _ _).trans (if_pos rfl),
        Explained.decl?_next_record home bindings (.sourceState state) state.id⟩
  | sourceStateAgain taken =>
      cases named
      rw [(OrderedMap.find?_eq_none_iff _ _).mpr absent] at taken
      cases taken
  | _ => cases named

/-- A name that is known keeps its meaning, unless a sentinel takes it. -/
theorem find?_states_bind_of_known (kept : ∀ state, binder = .sentinel state → state.name ≠ name)
    (known : bindings.names.states.find? name = some id) :
    (bindings.bind home binder).names.states.find? name = some id := by
  have outcome := bind_cases home bindings binder
  generalize bindings.bind home binder = after at outcome ⊢
  cases outcome with
  | @sentinel state =>
      refine (OrderedMap.find?_insert _ _ _ _).trans ?_
      rw [if_neg (kept state rfl)]
      exact known
  | @sourceState state absent =>
      have differs : state.name ≠ name := by
        rintro rfl
        rw [(OrderedMap.find?_eq_none_iff _ _).mpr absent] at known
        cases known
      refine (OrderedMap.find?_insert _ _ _ _).trans ?_
      rw [if_neg differs]
      exact known
  | _ => exact known

theorem find?_states_append_of_known {first later : List Binder}
    (kept : ∀ binder ∈ later, ∀ state, binder = .sentinel state → state.name ≠ name)
    (known : (ofBinders home first).names.states.find? name = some id) :
    (ofBinders home (first ++ later)).names.states.find? name = some id := by
  induction later using List.reverseRecOn with
  | nil =>
      rw [List.append_nil]
      exact known
  | append_singleton later binder ih =>
      rw [← List.append_assoc, ofBinders_concat]
      apply find?_states_bind_of_known
      · exact kept binder (List.mem_append_right _ List.mem_cons_self)
      · exact ih fun earlier member => kept earlier (List.mem_append_left _ member)

/-- The first binder of a name decides what it stands for. -/
theorem find?_states_of_first (home : Home) {first later : List Binder}
    (new : ∀ earlier ∈ first, earlier.stateName? ≠ some name)
    (named : binder.stateName? = some name)
    (kept : ∀ other ∈ later, ∀ state, other = .sentinel state → state.name ≠ name) :
    ∃ id, (ofBinders home (first ++ binder :: later)).names.states.find? name = some id ∧
      (ofBinders home (first ++ binder :: later)).table.decl? id =
        some (home.declared id binder) := by
  have absent : (ofBinders home first).names.states.contains name = false := by
    rw [Bool.eq_false_iff, ne_eq, contains_states_iff]
    rintro ⟨earlier, bound, same⟩
    exact new earlier bound same
  have whole : first ++ binder :: later = (first ++ [binder]) ++ later := by
    rw [List.append_assoc, List.singleton_append]
  obtain ⟨found, declared⟩ := find?_states_bind_of_new home named absent
  rw [← ofBinders_concat] at found declared
  rw [whole]
  exact ⟨_, find?_states_append_of_known kept found, extends_ofBinders home _ later _ _ declared⟩

/-- A source is linked to what its name stands for. -/
theorem linkOf?_bind_sourceState (home : Home) (bindings : Bindings) (state : State) :
    ∃ id, (bindings.bind home (.sourceState state)).names.states.find? state.name = some id ∧
      (bindings.bind home (.sourceState state)).table.linkOf? state.id = some id := by
  have outcome := bind_cases home bindings (.sourceState state)
  generalize bindings.bind home (.sourceState state) = after at outcome ⊢
  cases outcome with
  | sourceState =>
      refine ⟨bindings.table.nextId, ?_, ?_⟩
      · exact (OrderedMap.find?_insert _ _ _ _).trans (if_pos rfl)
      · refine (DeclTable.linkOf?_record _ _ _ _).trans ((if_pos rfl).trans ?_)
        rw [id_next]
  | @sourceStateAgain _ existing taken =>
      exact ⟨existing, taken, (DeclTable.linkOf?_link _ _ _ _).trans (if_pos rfl)⟩

end Bindings

/-! ## Links of destinations -/

theorem State.mem_linkedIds {states : List State} {state : State} (member : state ∈ states)
    (shown : state.id.isSynthetic = false) : state.id ∈ State.linkedIds states := by
  unfold State.linkedIds
  rw [List.mem_filter]
  exact ⟨List.mem_map_of_mem member, by rw [shown]; rfl⟩

namespace Resolution

variable {resolution : Resolution} {names : Names}

theorem recordOf_useDestination {state : State} (shown : state.id.isSynthetic = false)
    (fresh : resolution.recordOf state.id = .blank) :
    (resolution.useDestination names state).recordOf state.id =
      { NodeRecord.blank with link := names.states.find? state.name } := by
  unfold useDestination
  rw [shown, if_neg Bool.false_ne_true]
  cases found : names.states.find? state.name with
  | none => exact fresh
  | some decl => rw [recordOf_link, if_pos rfl, fresh]

/-- Of several destinations each is linked by its own name, as they are different nodes. -/
theorem recordOf_useDestinations {states : List State} (alone : (State.linkedIds states).Nodup)
    {state : State} (member : state ∈ states) (shown : state.id.isSynthetic = false)
    (fresh : resolution.recordOf state.id = .blank) :
    (states.foldl (fun named state => named.useDestination names state) resolution).recordOf
        state.id =
      { NodeRecord.blank with link := names.states.find? state.name } := by
  induction states generalizing resolution with
  | nil => cases member
  | cons first rest ih =>
      have split : State.linkedIds (first :: rest) =
          State.linkedIds [first] ++ State.linkedIds rest := by
        unfold State.linkedIds
        rw [← List.filter_append]
        rfl
      rw [split, List.nodup_append] at alone
      obtain ⟨_, later, apart⟩ := alone
      rw [List.foldl_cons]
      rcases List.mem_cons.mp member with rfl | inside
      · have own : state.id ∈ State.linkedIds [state] :=
          State.mem_linkedIds List.mem_cons_self shown
        rw [recordOf_useDestinations_of_outside _ _ fun again => apart _ own _ again rfl]
        exact recordOf_useDestination shown fresh
      · apply ih later inside
        have own := State.mem_linkedIds inside shown
        rw [recordOf_useDestination_of_outside _ _ fun again => apart _ again _ own rfl]
        exact fresh

theorem recordOf_useTransition_destination {transition : Transition}
    (named : transition.action.isSome = true) (alone : transition.nodes.Nodup) {state : State}
    (member : state ∈ transition.destinations) (shown : state.id.isSynthetic = false)
    (fresh : resolution.recordOf state.id = .blank) :
    (resolution.useTransition names transition).recordOf state.id =
      { NodeRecord.blank with link := names.states.find? state.name } := by
  obtain ⟨outside, destinations⟩ := List.nodup_cons.mp alone
  have differs : ¬ transition.id = state.id := by
    intro same
    exact outside (same ▸ State.mem_linkedIds member shown)
  obtain ⟨action, acts⟩ := Option.isSome_iff_exists.mp named
  unfold useTransition
  rw [acts]
  dsimp only
  apply recordOf_useDestinations destinations member shown
  split
  · rw [recordOf_link, if_neg differs, fresh]
  · rw [recordOf_poison, if_neg differs, recordOf_report, fresh]

end Resolution

/-! ## States of a unit -/

namespace SourceUnit

variable {unit : SourceUnit} {protocol : Protocol} {extra : List String}

/-- What is bound after the sentinels, up to the statements. -/
def middleBinders (unit : SourceUnit) (protocol : Protocol) : List Binder :=
  unit.usings.map Binder.usingType ++ unit.types.map Binder.typeDecl ++ [.ownProtocol protocol] ++
    unit.includes.map Binder.included ++ protocol.messages.map Binder.message

theorem stateName?_of_middle {binder : Binder} (bound : binder ∈ unit.middleBinders protocol) :
    binder.stateName? = none := by
  simp only [middleBinders, List.mem_append, List.mem_map, List.mem_singleton] at bound
  rcases bound with (((⟨_, _, rfl⟩ | ⟨_, _, rfl⟩) | rfl) | ⟨_, _, rfl⟩) | ⟨_, _, rfl⟩ <;> rfl

/-- The binders by what they have to do with states. -/
theorem binders_states (unit : SourceUnit) (protocol : Protocol) (extra : List String) :
    unit.binders protocol extra =
      (builtinTypes ++ extra).map Binder.builtinType ++ .sentinel .any :: .sentinel .dead ::
        (unit.middleBinders protocol ++
          protocol.statements.map fun statement => .sourceState statement.state) := by
  simp only [binders, middleBinders, List.append_assoc, List.cons_append, List.nil_append]

/-- What is bound before the source of a statement that stands after others. -/
def bindersBefore (unit : SourceUnit) (protocol : Protocol) (extra : List String)
    (before : List Statement) : List Binder :=
  (builtinTypes ++ extra).map Binder.builtinType ++ .sentinel .any :: .sentinel .dead ::
    (unit.middleBinders protocol ++ before.map fun statement => .sourceState statement.state)

theorem binders_of_split (unit : SourceUnit) (extra : List String)
    {before after : List Statement} {statement : Statement}
    (split : protocol.statements = before ++ statement :: after) :
    unit.binders protocol extra = unit.bindersBefore protocol extra before ++
      .sourceState statement.state :: after.map fun later => .sourceState later.state := by
  rw [binders_states, bindersBefore, split]
  simp only [List.map_append, List.map_cons, List.append_assoc, List.cons_append]

theorem stateName?_of_builtin {types : List String} {binder : Binder}
    (bound : binder ∈ types.map Binder.builtinType) : binder.stateName? = none := by
  obtain ⟨name, _, rfl⟩ := List.mem_map.mp bound
  rfl

theorem ne_sentinel_of_source {statements : List Statement} {binder : Binder}
    (bound : binder ∈ statements.map fun statement => Binder.sourceState statement.state)
    (state : State) : binder ≠ .sentinel state := by
  obtain ⟨statement, _, rfl⟩ := List.mem_map.mp bound
  exact nofun

theorem ne_sentinel_of_late {binder : Binder}
    (bound : binder ∈ unit.middleBinders protocol ++
      protocol.statements.map fun statement => .sourceState statement.state)
    (state : State) : binder ≠ .sentinel state := by
  rcases List.mem_append.mp bound with middle | source
  · rintro rfl
    cases stateName?_of_middle middle
  · exact ne_sentinel_of_source source state

/-- The binders around the one that declares a state. The name is new before it, and no
sentinel takes the name after it. -/
theorem exists_stateBinder {name : String} (hasState : protocol.HasState name)
    (unit : SourceUnit) (extra : List String) :
    ∃ first binder later, unit.binders protocol extra = first ++ binder :: later ∧
      protocol.StateBinder name binder ∧
      (∀ earlier ∈ first, earlier.stateName? ≠ some name) ∧
      ∀ other ∈ later, ∀ state, other = .sentinel state → state.name ≠ name := by
  have builtin : ∀ binder ∈ (builtinTypes ++ extra).map Binder.builtinType,
      binder.stateName? ≠ some name := by
    intro binder bound
    rw [stateName?_of_builtin bound]
    exact nofun
  by_cases wild : name = State.anyName
  · refine ⟨_, _, _, unit.binders_states protocol extra, .sentinel (Or.inl rfl) wild.symm,
      builtin, ?_⟩
    rintro other bound state rfl
    rcases List.mem_cons.mp bound with same | late
    · cases same
      rw [wild]
      decide
    · exact absurd rfl (ne_sentinel_of_late late state)
  by_cases dead : name = State.deadName
  · refine ⟨(builtinTypes ++ extra).map Binder.builtinType ++ [.sentinel .any], .sentinel .dead,
      unit.middleBinders protocol ++
        protocol.statements.map fun statement => .sourceState statement.state, ?_,
      .sentinel (Or.inr rfl) dead.symm, ?_, ?_⟩
    · rw [binders_states, List.append_assoc, List.singleton_append]
    · intro earlier bound
      rcases List.mem_append.mp bound with plain | any
      · exact builtin earlier plain
      · rw [List.mem_singleton.mp any]
        exact fun same => wild (Option.some.inj same).symm
    · intro other bound state sentinel
      exact absurd sentinel (ne_sentinel_of_late bound state)
  · -- An ordinary name is declared by the first statement that has it.
    have ordinary : State.isSentinelName name = false := by
      simp [State.isSentinelName, wild, dead]
    have written : (protocol.statements.find? fun statement => statement.state.name == name)
        |>.isSome := by
      rcases hasState with any | last | ⟨statement, member, same⟩
      · exact absurd any wild
      · exact absurd last dead
      · rw [List.find?_isSome]
        exact ⟨statement, member, beq_iff_eq.mpr same⟩
    obtain ⟨source, found⟩ := Option.isSome_iff_exists.mp written
    obtain ⟨_, before, after, split, others⟩ := List.find?_eq_some_iff_append.mp found
    refine ⟨_, _, _, unit.binders_of_split extra split, .source ordinary found, ?_, ?_⟩
    · intro earlier bound
      simp only [bindersBefore, List.mem_append, List.mem_cons] at bound
      rcases bound with plain | rfl | rfl | middle | source
      · exact builtin earlier plain
      · exact fun same => wild (Option.some.inj same).symm
      · exact fun same => dead (Option.some.inj same).symm
      · rw [stateName?_of_middle middle]
        exact nofun
      · obtain ⟨statement, member, rfl⟩ := List.mem_map.mp source
        intro same
        simpa [Option.some.inj same] using others statement member
    · intro other bound state sentinel
      exact absurd sentinel (ne_sentinel_of_source bound state)

/-- A name that is a state stands for what its binder declares. -/
theorem exists_stateDecl {name : String} (hasState : protocol.HasState name)
    (unit : SourceUnit) (extra : List String) :
    ∃ decl binder, protocol.StateBinder name binder ∧
      decl = (Home.ofProtocol protocol).declared decl.id binder ∧
      (unit.bindings protocol extra).names.states.find? name = some decl.id ∧
      (unit.resolution protocol extra).table.decl? decl.id = some decl := by
  obtain ⟨first, binder, later, parts, declares, new, kept⟩ :=
    exists_stateBinder hasState unit extra
  obtain ⟨id, found, declared⟩ :=
    Bindings.find?_states_of_first (.ofProtocol protocol) new declares.stateName? kept
  rw [← parts, ← bindings] at found declared
  have known := (unit.continues_resolution protocol extra).grows _ _ declared
  have own := (Home.ofProtocol protocol).id_declared id binder
  refine ⟨(Home.ofProtocol protocol).declared id binder, binder, declares, ?_, ?_, ?_⟩
  · rw [own]
  · rw [own]
    exact found
  · rw [own]
    exact known

/-- The bindings link a source to what its name stands for, unless a later source has its
node. -/
theorem linkOf?_bindings_source (unit : SourceUnit) (extra : List String)
    {before after : List Statement} {statement : Statement}
    (split : protocol.statements = before ++ statement :: after)
    (last : ∀ later ∈ after, later.state.id ≠ statement.state.id) :
    (unit.bindings protocol extra).table.linkOf? statement.state.id =
      (unit.bindings protocol extra).names.states.find? statement.state.name := by
  have parts := unit.binders_of_split extra split
  have unbound : statement.state.id ∉
      (after.map fun later => Binder.sourceState later.state).flatMap Binder.nodes := by
    simp only [List.flatMap_map, Binder.nodes, List.mem_flatMap, List.mem_singleton]
    rintro ⟨later, member, same⟩
    exact last later member same.symm
  obtain ⟨id, found, linked⟩ := Bindings.linkOf?_bind_sourceState (.ofProtocol protocol)
    (.ofBinders (.ofProtocol protocol) (unit.bindersBefore protocol extra before)) statement.state
  rw [← Bindings.ofBinders_concat] at found linked
  have kept : (unit.bindings protocol extra).names.states.find? statement.state.name = some id := by
    rw [bindings, parts, ← List.singleton_append, ← List.append_assoc]
    apply Bindings.find?_states_append_of_known _ found
    intro other bound state sentinel
    exact absurd sentinel (ne_sentinel_of_source bound state)
  rw [kept, bindings, parts, ← List.singleton_append, ← List.append_assoc,
    Bindings.linkOf?_append_of_outside unbound]
  exact linked

/-! ## Links in a numbered unit -/

namespace Numbered

variable {statement : Statement} {transition : Transition} {state : State}

theorem shown_of_statement (numbered : unit.Numbered) (described : unit.protocol = some protocol)
    (member : statement ∈ protocol.statements) (written : state.id ∈ statement.writtenIds) :
    state.id.isSynthetic = false := by
  have inside : state.id ∈ protocol.statements.flatMap Statement.writtenIds :=
    List.mem_flatMap.mpr ⟨statement, member, written⟩
  have whole : state.id ∈ unit.writtenIds := by
    simp [writtenIds, Protocol.writtenIds, described, inside]
  simpa [NodeId.isSynthetic] using numbered.nonzero _ whole

theorem shown_source (numbered : unit.Numbered) (described : unit.protocol = some protocol)
    (member : statement ∈ protocol.statements) (own : statement.state.isSynthesized = false) :
    statement.state.id.isSynthetic = false := by
  apply numbered.shown_of_statement described member
  simp [Statement.writtenIds, State.writtenIds, own]

theorem shown_destination (numbered : unit.Numbered) (described : unit.protocol = some protocol)
    (member : statement ∈ protocol.statements) (leads : transition ∈ statement.transitions)
    (named : state ∈ transition.destinations) (own : state.isSynthesized = false) :
    state.id.isSynthetic = false := by
  apply numbered.shown_of_statement described member
  have last : state.id ∈ transition.writtenIds := by
    refine List.mem_append_right _ (List.mem_flatMap.mpr ⟨state, named, ?_⟩)
    simp [State.writtenIds, own]
  exact List.mem_append_right _ (List.mem_flatMap.mpr ⟨transition, leads, last⟩)

/-- A source that is written is linked to what its name stands for. -/
theorem linkOf?_source (numbered : unit.Numbered) (described : unit.protocol = some protocol)
    (extra : List String) (member : statement ∈ protocol.statements)
    (own : statement.state.isSynthesized = false) :
    (unit.resolution protocol extra).table.linkOf? statement.state.id =
      (unit.bindings protocol extra).names.states.find? statement.state.name := by
  obtain ⟨before, after, split⟩ := List.append_of_mem member
  have nonzero : statement.state.id ≠ .synthetic := by
    simpa [NodeId.isSynthetic] using numbered.shown_source described member own
  obtain ⟨unbound, unused⟩ := numbered.binder_node_alone described
    (unit.binders_of_split extra split) List.mem_cons_self nonzero
  rw [← linkOf?_bindings_source unit extra split]
  · exact linkOf?_resolutionAfter unused
  · intro later written same
    apply unbound
    simp only [List.flatMap_map, Binder.nodes, List.mem_flatMap, List.mem_singleton]
    exact ⟨later, written, same.symm⟩

/-- A destination is linked by its name, but only in a transition with a trigger and a
message. -/
theorem linkOf?_destination (numbered : unit.Numbered) (described : unit.protocol = some protocol)
    (extra : List String) (member : statement ∈ protocol.statements)
    (leads : transition ∈ statement.transitions) (named : state ∈ transition.destinations)
    (own : state.isSynthesized = false) :
    (unit.resolution protocol extra).table.linkOf? state.id =
      if transition.action.isSome then (unit.bindings protocol extra).names.states.find? state.name
      else none := by
  have shown := numbered.shown_destination described member leads named own
  have linked : state.id ∈ State.linkedIds transition.destinations :=
    State.mem_linkedIds named shown
  split
  · rename_i acts
    have used : .transition transition ∈ unit.uses protocol := by
      refine List.mem_append_right _ (List.mem_append_right _ ?_)
      exact List.mem_flatMap.mpr ⟨statement, member, List.mem_map_of_mem leads⟩
    have nodes : (Use.transition transition).nodes = transition.nodes := if_pos acts
    have inside : state.id ∈ (Use.transition transition).nodes := by
      rw [nodes]
      exact List.mem_cons_of_mem _ linked
    have alone := numbered.use_nodes_nodup described used
    obtain ⟨earlier, later, parts⟩ := List.append_of_mem used
    have turn := numbered.turn described extra parts
    have settled := turn.settled state.id inside
    rw [nodes] at alone
    rw [Resolution.use, Resolution.recordOf_useTransition_destination acts alone named shown
      (turn.fresh _ inside), Resolution.recordOf, NodeRecord.mk.injEq] at settled
    exact settled.1
  · rename_i idle
    have left : state.id ∈ protocol.statements.flatMap Statement.idleNodes := by
      refine List.mem_flatMap.mpr ⟨statement, member, List.mem_flatMap.mpr ⟨transition, leads, ?_⟩⟩
      rw [Transition.idleNodes, if_neg idle]
      exact linked
    obtain ⟨unbound, unused⟩ := numbered.idle_node_alone described extra left
    exact (linkOf?_resolutionAfter unused).trans (Bindings.linkOf?_ofBinders_of_outside unbound)

end Numbered

end SourceUnit

/-! ## Destinations and the machine -/

/-- A destination is reported if it is no state, whatever its transition does. -/
theorem Resolved.dangling_iff {resolved : Resolved} {checked : Reported Checked MachineError}
    (ok : resolved.check = .ok checked) {protocol : Protocol}
    (described : resolved.unit.protocol = some protocol) {statement : Statement}
    (member : statement ∈ protocol.statements) {transition : Transition}
    (leads : transition ∈ statement.transitions) {destination : State}
    (named : destination ∈ transition.destinations) :
    ⟨.danglingDestination statement.state.name destination.name, transition.loc⟩ ∈
        checked.errors ↔ ¬ protocol.HasState destination.name := by
  obtain ⟨own, again, _, about⟩ := errorsAbout_of_check ok
  cases described.symm.trans again
  rw [mem_iff_mem_errorsAbout]
  change _ ∈ errorsAbout .destination checked.errors ↔ _
  rw [about]
  change _ ∈ protocol.danglingErrors ↔ _
  rw [protocol.danglingErrors_perm.mem_iff]
  constructor
  · intro stray
    simp only [Protocol.strayErrors, List.mem_flatMap, List.mem_map, List.mem_filter] at stray
    obtain ⟨_, _, _, _, other, ⟨_, missing⟩, same⟩ := stray
    rw [Located.mk.injEq, MachineError.danglingDestination.injEq] at same
    rw [← same.1.2]
    simpa using missing
  · intro missing
    refine List.mem_flatMap.mpr ⟨statement, member, List.mem_flatMap.mpr ⟨transition, leads, ?_⟩⟩
    exact List.mem_map.mpr ⟨destination, List.mem_filter.mpr ⟨named, by simpa using missing⟩, rfl⟩

/-- What becomes of a destination: it has a declaration if it is a state and its transition
has a trigger and a message, and is reported if it is no state. -/
structure Resolved.Destined (resolved : Resolved) (protocol : Protocol)
    (errors : List (Located MachineError)) (source : State) (transition : Transition)
    (destination : State) : Prop where
  linked_iff : (∃ decl, resolved.decls.declOf? destination.id = some decl) ↔
    transition.action.isSome = true ∧ protocol.machine.containsState destination.name = true
  declared : ∀ decl, resolved.decls.declOf? destination.id = some decl →
    ∃ binder, protocol.StateBinder destination.name binder ∧
      decl = (Home.ofProtocol protocol).declared decl.id binder
  shared : ∀ decl, resolved.decls.declOf? destination.id = some decl →
    ∀ statement ∈ protocol.statements, statement.state.name = destination.name →
      statement.state.isSynthesized = false →
        resolved.decls.declOf? statement.state.id = some decl
  reported_iff : ⟨.danglingDestination source.name destination.name, transition.loc⟩ ∈ errors ↔
    protocol.machine.containsState destination.name = false

namespace SourceUnit

variable {unit : SourceUnit} {protocol : Protocol}

theorem Numbered.destined (numbered : unit.Numbered) (described : unit.protocol = some protocol)
    (extra : List String) {checked : Reported Checked MachineError}
    (ok : (unit.resolved protocol extra).check = .ok checked) {statement : Statement}
    (member : statement ∈ protocol.statements) {transition : Transition}
    (leads : transition ∈ statement.transitions) {destination : State}
    (named : destination ∈ transition.destinations) (own : destination.isSynthesized = false) :
    (unit.resolved protocol extra).Destined protocol checked.errors statement.state transition
      destination := by
  have link := numbered.linkOf?_destination described extra member leads named own
  have hasState : protocol.machine.containsState destination.name = true ↔
      protocol.HasState destination.name := Protocol.containsState_machine_iff _
  have sound := (unit.continues_resolution protocol extra).sound
  -- What a declaration of the destination says of its transition and of its name.
  have known : ∀ decl, (unit.resolved protocol extra).decls.declOf? destination.id = some decl →
      transition.action.isSome = true ∧
        (unit.bindings protocol extra).names.states.find? destination.name = some decl.id ∧
        (unit.resolution protocol extra).table.decl? decl.id = some decl := by
    intro decl declared
    obtain ⟨linked, there⟩ := sound.declOf?_eq_some_iff.mp declared
    rw [link] at linked
    split at linked
    · rename_i acts
      exact ⟨acts, linked, there⟩
    · cases linked
  refine ⟨⟨?_, ?_⟩, ?_, ?_, ?_⟩
  · rintro ⟨decl, declared⟩
    obtain ⟨acts, found, _⟩ := known decl declared
    refine ⟨acts, hasState.mpr ?_⟩
    exact contains_states_bindings_iff.mp (OrderedMap.contains_of_find? found)
  · rintro ⟨acts, contained⟩
    obtain ⟨decl, _, _, _, found, there⟩ := exists_stateDecl (hasState.mp contained) unit extra
    refine ⟨decl, sound.declOf?_eq_some_iff.mpr ⟨?_, there⟩⟩
    rw [link, if_pos acts]
    exact found
  · intro decl declared
    obtain ⟨_, found, there⟩ := known decl declared
    have stands := contains_states_bindings_iff.mp (OrderedMap.contains_of_find? found)
    obtain ⟨other, binder, declares, made, again, same⟩ := exists_stateDecl stands unit extra
    rw [← Option.some.inj (found.symm.trans again)] at same made
    cases there.symm.trans same
    exact ⟨binder, declares, made⟩
  · intro decl declared source written same shown
    obtain ⟨_, found, there⟩ := known decl declared
    refine sound.declOf?_eq_some_iff.mpr ⟨?_, there⟩
    rw [numbered.linkOf?_source described extra written shown, same]
    exact found
  · rw [Resolved.dangling_iff ok described member leads named, ← hasState, Bool.not_eq_true]

/-- Every destination that is written is linked to what its name stands for if its transition
has a trigger and a message. Otherwise it is linked to nothing. -/
theorem resolve_links_destinations (numbered : unit.Numbered)
    (described : unit.protocol = some protocol) (extra : List String) :
    ∃ reported checked, unit.resolve extra = .ok reported ∧ reported.value.check = .ok checked ∧
      checked.value.machine = protocol.machine ∧
      ∀ statement ∈ protocol.statements, ∀ transition ∈ statement.transitions,
        ∀ destination ∈ transition.destinations, destination.isSynthesized = false →
          reported.value.Destined protocol checked.errors statement.state transition
            destination := by
  have ok := numbered.check_resolved described extra
  refine ⟨_, _, resolve_eq_ok described extra, ok, rfl, ?_⟩
  intro statement member transition leads destination named own
  exact numbered.destined described extra ok member leads named own

def doorLine (line : Nat) : Location := ⟨"PDoor.ipdl", line⟩

/-- A door that is shut without a message. -/
def doorProtocol : Protocol where
  id := ⟨2⟩
  name := "PDoor"
  namespaces := []
  semantics := .async
  spawns := []
  bridges := []
  managers := []
  manages := []
  messages := [⟨⟨3⟩, "Knock", .async, .outbound, [], [], doorLine 2⟩]
  statements := [
    ⟨⟨7⟩, ⟨⟨4⟩, "Open", true, doorLine 3⟩,
      [⟨⟨6⟩, some .send, none, [⟨⟨5⟩, "Shut", false, doorLine 4⟩], doorLine 4⟩], doorLine 3⟩,
    ⟨⟨11⟩, ⟨⟨8⟩, "Shut", false, doorLine 5⟩,
      [⟨⟨10⟩, some .send, some "Knock", [⟨⟨9⟩, "Open", false, doorLine 6⟩], doorLine 6⟩],
      doorLine 5⟩]
  loc := doorLine 1

def doorUnit : SourceUnit :=
  { SourceUnit.ofFile ⟨1⟩ "PDoor.ipdl" with protocol := some doorProtocol }

theorem doorUnit_numbered : doorUnit.Numbered := by
  constructor <;> decide

/-- A knock at the shut door leads to the declaration of the open one. -/
theorem door_knock_linked :
    doorUnit.Numbered ∧ doorUnit.protocol = some doorProtocol ∧
      ∃ reported checked, doorUnit.resolve [] = .ok reported ∧
        reported.value.check = .ok checked ∧ checked.value.machine = doorProtocol.machine ∧
        (∀ statement ∈ doorProtocol.statements, ∀ transition ∈ statement.transitions,
          ∀ destination ∈ transition.destinations, destination.isSynthesized = false →
            reported.value.Destined doorProtocol checked.errors statement.state transition
              destination) ∧
        (reported.value.decls.declOf? ⟨9⟩).map Decl.fullName = some "PDoor::Open" := by
  have described : doorUnit.protocol = some doorProtocol := rfl
  obtain ⟨reported, checked, resolves, ok, machine, destined⟩ :=
    resolve_links_destinations doorUnit_numbered described []
  refine ⟨doorUnit_numbered, described, reported, checked, resolves, ok, machine, destined, ?_⟩
  rw [eq_resolved_of_resolve described resolves]
  decide +kernel

/-- The transition that shuts the door is a step of the machine to one of its states, and
nothing is reported, but the destination has no declaration. -/
theorem door_shut_unlinked :
    doorUnit.Numbered ∧ ∃ reported checked, doorUnit.resolve [] = .ok reported ∧
      reported.value.check = .ok checked ∧ reported.errors = [] ∧ checked.errors = [] ∧
      ∃ statement ∈ doorProtocol.statements, ∃ transition ∈ statement.transitions,
        ∃ destination ∈ transition.destinations, destination.isSynthesized = false ∧
          (statement.state, transition) ∈ checked.value.machine.steps ∧
          checked.value.machine.containsState destination.name = true ∧
          ¬ ∃ decl, reported.value.decls.declOf? destination.id = some decl := by
  have described : doorUnit.protocol = some doorProtocol := rfl
  have unlinked : (doorUnit.resolved doorProtocol []).decls.declOf? ⟨5⟩ = none := by
    decide +kernel
  refine ⟨doorUnit_numbered, _, _, resolve_eq_ok described [],
    doorUnit_numbered.check_resolved described [], ?_, ?_, _, List.mem_cons_self, _,
    List.mem_cons_self, _, List.mem_cons_self, rfl, ?_, ?_, ?_⟩
  · decide +kernel
  · decide +kernel
  · decide
  · decide
  · rintro ⟨decl, declared⟩
    exact Option.some_ne_none decl (declared.symm.trans unlinked)

end SourceUnit

end ActorProtocol
