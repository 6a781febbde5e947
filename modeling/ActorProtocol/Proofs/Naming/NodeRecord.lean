import ActorProtocol.Naming.Resolved
import ActorProtocol.Proofs.Declaration.Soundness

/-!
# Records of nodes

What is known of a node is its record: its link, whether it is poisoned, and the
state of the actor it names. A use writes only into the records of its own nodes
and adds to the errors; every other record stays as it is.
-/

namespace ActorProtocol

set_option autoImplicit false

@[ext]
structure NodeRecord where
  link : Option DeclId
  poisoned : Bool
  actorState : Option State

namespace NodeRecord

def blank : NodeRecord := ⟨none, false, none⟩

end NodeRecord

/-- The ids of states that a use may link. -/
def State.linkedIds (states : List State) : List NodeId :=
  (states.map State.id).filter fun id => !id.isSynthetic

def TypeRef.nodes (type : TypeRef) : List NodeId :=
  type.id :: State.linkedIds type.state.toList

def Member.nodes (member : Member) : List NodeId :=
  member.id :: member.type.nodes

def Transition.nodes (transition : Transition) : List NodeId :=
  transition.id :: State.linkedIds transition.destinations

/-- The nodes whose records a use writes. -/
def Use.nodes : Use → List NodeId
  | .openStruct _ | .openMessage _ => []
  | .field member | .param member => member.nodes
  | .component type => type.nodes
  | .protocolName name => [name.id]
  | .transition used => if used.action.isSome then used.nodes else []

namespace Resolution

variable (resolution : Resolution) (node : NodeId)

def recordOf : NodeRecord :=
  ⟨resolution.table.linkOf? node, resolution.poisoned.contains node,
    resolution.actorStates.find? node⟩

theorem recordOf_ofBindings (bindings : Bindings) (node : NodeId) :
    (ofBindings bindings).recordOf node = ⟨bindings.table.linkOf? node, false, none⟩ := rfl

theorem errors_ofBindings (bindings : Bindings) : (ofBindings bindings).errors = bindings.errors :=
  rfl

@[simp] theorem recordOf_report (error : NamingError) (loc : Location) :
    (resolution.report error loc).recordOf node = resolution.recordOf node := rfl

@[simp] theorem recordOf_openScope (owner : NodeId) (scope : DeclId → DeclScope) :
    (resolution.openScope owner scope).recordOf node = resolution.recordOf node := rfl

theorem recordOf_poison (other : NodeId) :
    (resolution.poison other).recordOf node =
      if other = node then { resolution.recordOf node with poisoned := true }
      else resolution.recordOf node := by
  by_cases same : other = node
  · subst same
    simp [recordOf, poison]
  · have differs : ¬ node = other := fun equal => same equal.symm
    simp [recordOf, poison, same, differs]

theorem recordOf_link (other : NodeId) (decl : DeclId) :
    (resolution.link other decl).recordOf node =
      if other = node then { resolution.recordOf node with link := some decl }
      else resolution.recordOf node := by
  by_cases same : other = node <;> simp [recordOf, link, DeclTable.linkOf?_link, same]

theorem recordOf_record (decl : Decl) (other : NodeId) :
    (resolution.record decl other).recordOf node =
      if other = node then { resolution.recordOf node with link := some decl.id }
      else resolution.recordOf node := by
  by_cases same : other = node <;> simp [recordOf, record, DeclTable.linkOf?_record, same]

theorem recordOf_setActorState (other : NodeId) (state : State) :
    (resolution.setActorState other state).recordOf node =
      if other = node then { resolution.recordOf node with actorState := some state }
      else resolution.recordOf node := by
  by_cases same : other = node <;> simp [recordOf, setActorState, OrderedMap.find?_insert, same]

@[simp] theorem errors_report (error : NamingError) (loc : Location) :
    (resolution.report error loc).errors = resolution.errors ++ [⟨error, loc⟩] := rfl

@[simp] theorem errors_poison : (resolution.poison node).errors = resolution.errors := rfl

@[simp] theorem errors_link (decl : DeclId) :
    (resolution.link node decl).errors = resolution.errors := rfl

@[simp] theorem errors_setActorState (state : State) :
    (resolution.setActorState node state).errors = resolution.errors := rfl

/-- Everything that the use of a type can do, with what decides it. -/
inductive TypeUse (names : Names) (home : Home) (resolution : Resolution) (type : TypeRef) :
    Resolution → Prop
  | unknown (missing : names.type? home type.name = none) :
      TypeUse names home resolution type
        ((resolution.report (.unknownType type.name.text) type.loc).poison type.id)
  | plain {decl : DeclId} (found : names.type? home type.name = some decl)
      (bare : type.state = none) (kind : resolution.isProtocol decl = false) :
      TypeUse names home resolution type (resolution.link type.id decl)
  | anyState {decl : DeclId} (found : names.type? home type.name = some decl)
      (bare : type.state = none) (kind : resolution.isProtocol decl = true) :
      TypeUse names home resolution type
        ((resolution.link type.id decl).setActorState type.id .any)
  | notActor {decl : DeclId} {state : State} (found : names.type? home type.name = some decl)
      (asked : type.state = some state) (kind : resolution.isProtocol decl = false) :
      TypeUse names home resolution type
        (((resolution.link type.id decl).report
          (.notAnActorType type.name.text state.name) type.loc).poison type.id)
  | foreignState {decl : DeclId} {state : State} (found : names.type? home type.name = some decl)
      (asked : type.state = some state) (kind : resolution.isProtocol decl = true)
      (foreign : names.own ≠ some decl) :
      TypeUse names home resolution type
        ((resolution.link type.id decl).setActorState type.id state)
  | ownState {decl declared : DeclId} {state : State}
      (found : names.type? home type.name = some decl) (asked : type.state = some state)
      (kind : resolution.isProtocol decl = true) (own : names.own = some decl)
      (known : names.states.find? state.name = some declared) :
      TypeUse names home resolution type
        ((if state.id.isSynthetic then resolution.link type.id decl
          else (resolution.link type.id decl).link state.id declared).setActorState type.id state)
  | unknownState {decl : DeclId} {state : State} (found : names.type? home type.name = some decl)
      (asked : type.state = some state) (kind : resolution.isProtocol decl = true)
      (own : names.own = some decl) (absent : names.states.find? state.name = none) :
      TypeUse names home resolution type
        (((resolution.link type.id decl).report
          (.unknownState type.name.text state.name) type.loc).poison type.id)

variable (names : Names) (home : Home)

theorem useType_cases (type : TypeRef) :
    TypeUse names home resolution type (resolution.useType names home type) := by
  unfold useType
  cases found : names.type? home type.name with
  | none => exact .unknown found
  | some decl =>
      dsimp only
      unfold useRequestedState
      have same : (resolution.link type.id decl).isProtocol decl = resolution.isProtocol decl := rfl
      rw [same]
      cases asked : type.state with
      | none =>
          cases kind : resolution.isProtocol decl with
          | false => exact .plain found asked kind
          | true => exact .anyState found asked kind
      | some state =>
          cases kind : resolution.isProtocol decl with
          | false => exact .notActor found asked kind
          | true =>
              dsimp only
              unfold useActorState
              by_cases own : names.own = some decl
              · rw [if_pos own]
                cases known : names.states.find? state.name with
                | none => exact .unknownState found asked kind own known
                | some declared => exact .ownState found asked kind own known
              · rw [if_neg own]
                exact .foreignState found asked kind own

variable {node}

theorem recordOf_useType_of_outside {type : TypeRef} (outside : node ∉ type.nodes) :
    (resolution.useType names home type).recordOf node = resolution.recordOf node := by
  have differs : ¬ type.id = node := by
    intro same
    exact outside (by simp [TypeRef.nodes, same])
  have outcome := resolution.useType_cases names home type
  generalize resolution.useType names home type = after at outcome
  cases outcome with
  | unknown => simp [recordOf_poison, differs]
  | plain => simp [recordOf_link, differs]
  | anyState => simp [recordOf_setActorState, recordOf_link, differs]
  | notActor => simp [recordOf_poison, recordOf_link, differs]
  | foreignState => simp [recordOf_setActorState, recordOf_link, differs]
  | unknownState => simp [recordOf_poison, recordOf_link, differs]
  | @ownState _ _ state _ asked =>
      rw [recordOf_setActorState, if_neg differs]
      split
      · rw [recordOf_link, if_neg differs]
      · rename_i shown
        have stateDiffers : ¬ state.id = node := by
          intro same
          apply outside
          subst same
          simp [TypeRef.nodes, State.linkedIds, asked, shown]
        rw [recordOf_link, if_neg stateDiffers, recordOf_link, if_neg differs]

theorem recordOf_useMember_of_outside (kind : DeclId → DeclKind) {member : Member}
    (outside : node ∉ member.nodes) :
    (resolution.useMember names home kind member).recordOf node = resolution.recordOf node := by
  obtain ⟨own, type⟩ : node ≠ member.id ∧ node ∉ member.type.nodes := by
    simpa [Member.nodes] using outside
  have differs : ¬ member.id = node := fun same => own same.symm
  unfold useMember
  dsimp only
  split
  · rw [recordOf_record, if_neg differs, recordOf_useType_of_outside _ _ _ type]
  · rw [recordOf_poison, if_neg differs, recordOf_useType_of_outside _ _ _ type]

theorem recordOf_useProtocolName_of_outside {name : Ident} (outside : node ≠ name.id) :
    (resolution.useProtocolName names name).recordOf node = resolution.recordOf node := by
  have differs : ¬ name.id = node := fun same => outside same.symm
  unfold useProtocolName
  split
  · rw [recordOf_link, if_neg differs]
  · rw [recordOf_poison, if_neg differs, recordOf_report]

theorem recordOf_useDestination_of_outside {state : State}
    (outside : node ∉ State.linkedIds [state]) :
    (resolution.useDestination names state).recordOf node = resolution.recordOf node := by
  unfold useDestination
  split
  · rfl
  · rename_i shown
    split
    · have differs : ¬ state.id = node := by
        intro same
        apply outside
        subst same
        simp [State.linkedIds, shown]
      rw [recordOf_link, if_neg differs]
    · rfl

/-- Destinations are linked, and nothing else happens. -/
theorem useDestinations_eq (states : List State) :
    ∃ links, states.foldl (fun named state => named.useDestination names state) resolution =
      { resolution with table := { resolution.table with links } } := by
  induction states generalizing resolution with
  | nil => exact ⟨resolution.table.links, rfl⟩
  | cons state states ih =>
      have first : ∃ links, resolution.useDestination names state =
          { resolution with table := { resolution.table with links } } := by
        unfold useDestination
        split
        · exact ⟨resolution.table.links, rfl⟩
        · split
          · exact ⟨_, rfl⟩
          · exact ⟨resolution.table.links, rfl⟩
      obtain ⟨links, same⟩ := first
      rw [List.foldl_cons, same]
      exact ih _

theorem recordOf_useDestinations_of_outside {states : List State}
    (outside : node ∉ State.linkedIds states) :
    (states.foldl (fun named state => named.useDestination names state) resolution).recordOf node =
      resolution.recordOf node := by
  induction states generalizing resolution with
  | nil => rfl
  | cons state states ih =>
      have apart : node ∉ State.linkedIds [state] ∧ node ∉ State.linkedIds states := by
        have split : State.linkedIds (state :: states) =
            State.linkedIds [state] ++ State.linkedIds states := by
          rw [State.linkedIds, State.linkedIds, State.linkedIds, ← List.filter_append]
          rfl
        rw [split, List.mem_append, not_or] at outside
        exact outside
      rw [List.foldl_cons, ih _ apart.2]
      exact recordOf_useDestination_of_outside resolution names apart.1

theorem recordOf_useTransition_of_outside {transition : Transition}
    (outside : node ∉ (Use.transition transition).nodes) :
    (resolution.useTransition names transition).recordOf node = resolution.recordOf node := by
  unfold useTransition
  split
  · rfl
  · rename_i trigger message action
    obtain ⟨own, destinations⟩ :
        node ≠ transition.id ∧ node ∉ State.linkedIds transition.destinations := by
      simpa [Use.nodes, action, Transition.nodes] using outside
    have differs : ¬ transition.id = node := fun same => own same.symm
    dsimp only
    rw [recordOf_useDestinations_of_outside _ _ destinations]
    split
    · rw [recordOf_link, if_neg differs]
    · rw [recordOf_poison, if_neg differs, recordOf_report]

/-- The repeated parameters of a message are reported, and nothing else happens to nodes. -/
theorem openMessage_table (message : Message) :
    (resolution.openMessage message).table = resolution.table ∧
      (resolution.openMessage message).poisoned = resolution.poisoned ∧
      (resolution.openMessage message).actorStates = resolution.actorStates := by
  unfold openMessage
  generalize repeatedParams [] message.params = repeated
  induction repeated generalizing resolution with
  | nil => exact ⟨rfl, rfl, rfl⟩
  | cons param repeated ih =>
      exact ih (resolution.report (.duplicateParam message.name param.name) param.loc)

@[simp] theorem recordOf_openMessage (message : Message) (node : NodeId) :
    (resolution.openMessage message).recordOf node = resolution.recordOf node := by
  obtain ⟨table, poisoned, actorStates⟩ := resolution.openMessage_table message
  simp only [recordOf, table, poisoned, actorStates]

theorem recordOf_use_of_outside {use : Use} (outside : node ∉ use.nodes) :
    (resolution.use names home use).recordOf node = resolution.recordOf node := by
  cases use with
  | openStruct struct => exact resolution.recordOf_openScope node struct .struct
  | openMessage message => exact resolution.recordOf_openMessage message node
  | field member => exact resolution.recordOf_useMember_of_outside names home .field outside
  | component type => exact resolution.recordOf_useType_of_outside names home outside
  | param member => exact resolution.recordOf_useMember_of_outside names home .param outside
  | protocolName name =>
      exact resolution.recordOf_useProtocolName_of_outside names
        (by simpa [Use.nodes] using outside)
  | transition transition => exact resolution.recordOf_useTransition_of_outside names outside

theorem recordOf_useAll_of_outside {uses : List Use} (outside : node ∉ uses.flatMap Use.nodes) :
    (resolution.useAll names home uses).recordOf node = resolution.recordOf node := by
  induction uses generalizing resolution with
  | nil => rfl
  | cons use uses ih =>
      rw [List.flatMap_cons, List.mem_append, not_or] at outside
      change ((resolution.use names home use).useAll names home uses).recordOf node = _
      rw [ih (resolution.use names home use) outside.2]
      exact resolution.recordOf_use_of_outside names home outside.1

end Resolution

end ActorProtocol
