import ActorProtocol.Proofs.Naming.Settled
import ActorProtocol.Proofs.Source.Relabeling

/-!
# Resolution under new ids

Binding and using names reads the ids of nodes only to look into the tables that are
kept by node, and to see whether a node has the shared id. So each step on a unit under
new ids gives what it gives on the unit, with the new ids in its tables, and whole
resolutions follow. Units may repeat ids here, and nothing is said of what the steps
find in the tables.
-/

namespace ActorProtocol

set_option autoImplicit false

def DeclTable.relabel (labels : Relabeling) (table : DeclTable) : DeclTable :=
  { table with links := table.links.relabel labels.injective id }

def Binder.relabel (labels : Relabeling) : Binder → Binder
  | .builtinType name => .builtinType name
  | .sentinel state => .sentinel (state.relabel labels)
  | .usingType brought => .usingType (brought.relabel labels)
  | .typeDecl decl => .typeDecl (decl.relabel labels)
  | .ownProtocol protocol => .ownProtocol (protocol.relabel labels)
  | .included other => .included (other.relabel labels)
  | .message declared => .message (declared.relabel labels)
  | .sourceState state => .sourceState (state.relabel labels)

def Use.relabel (labels : Relabeling) : Use → Use
  | .openStruct struct => .openStruct (labels.node struct)
  | .openMessage message => .openMessage (message.relabel labels)
  | .field member => .field (member.relabel labels)
  | .component type => .component (type.relabel labels)
  | .param member => .param (member.relabel labels)
  | .protocolName name => .protocolName (name.relabel labels)
  | .transition taken => .transition (taken.relabel labels)

def Bindings.relabel (labels : Relabeling) (bindings : Bindings) : Bindings :=
  { bindings with table := bindings.table.relabel labels }

def Resolution.relabel (labels : Relabeling) (resolution : Resolution) : Resolution :=
  { resolution with
    table := resolution.table.relabel labels
    actorStates := resolution.actorStates.relabel labels.injective (State.relabel labels)
    poisoned := resolution.poisoned.map labels.node }

/-- What is known of the names of a unit, under the new ids. -/
def Resolved.relabel (labels : Relabeling) (resolved : Resolved) : Resolved where
  unit := resolved.unit.relabel labels
  decls := resolved.decls.relabel labels
  actorStates := resolved.actorStates.relabel labels.injective (State.relabel labels)
  poisoned := resolved.poisoned.map labels.node

variable (labels : Relabeling)

namespace DeclTable

variable (table : DeclTable)

theorem link_relabel (node : NodeId) (decl : DeclId) :
    (table.relabel labels).link (labels.node node) decl = (table.link node decl).relabel labels :=
  congrArg (DeclTable.mk table.decls)
    (table.links.insert_relabel labels.injective id node decl)

theorem record_relabel (decl : Decl) (node : NodeId) :
    (table.relabel labels).record decl (labels.node node) =
      (table.record decl node).relabel labels := by
  simp only [record, link_relabel]
  rfl

@[simp] theorem linkOf?_relabel (node : NodeId) :
    (table.relabel labels).linkOf? (labels.node node) = table.linkOf? node := by
  apply Eq.trans (table.links.find?_relabel labels.injective id node)
  exact Option.map_id_apply

/-- A declaration is found at the new id, and its absence is a fault that names that id. -/
theorem declOf_relabel (node : NodeId) :
    (table.relabel labels).declOf (labels.node node) = labels.outcome id (table.declOf node) := by
  have found : (table.relabel labels).declOf? (labels.node node) = table.declOf? node := by
    rw [declOf?, linkOf?_relabel]
    rfl
  unfold declOf
  rw [found]
  cases table.declOf? node <;> rfl

end DeclTable

/-! ## Binding -/

namespace Bindings

variable (bindings : Bindings) (home : Home)

theorem link_relabel (node : NodeId) (decl : DeclId) :
    (bindings.relabel labels).link (labels.node node) decl =
      (bindings.link node decl).relabel labels := by
  simp only [relabel, link, DeclTable.link_relabel]

theorem record_relabel (decl : Decl) (node : NodeId) :
    (bindings.relabel labels).record decl (labels.node node) =
      (bindings.record decl node).relabel labels := by
  simp only [relabel, record, DeclTable.record_relabel]

theorem bindUsingType_relabel (brought : UsingType) :
    (bindings.relabel labels).bindUsingType home (brought.relabel labels) =
      (bindings.bindUsingType home brought).relabel labels := by
  have names : (bindings.relabel labels).names = bindings.names := rfl
  have text : (brought.relabel labels).type.name.text = brought.type.name.text := rfl
  unfold bindUsingType
  rw [names, text]
  dsimp only
  split
  · exact bindings.link_relabel labels ..
  · rw [← record_relabel]
    rfl

theorem bindTypeDecl_relabel (type : TypeDecl) :
    (bindings.relabel labels).bindTypeDecl home (type.relabel labels) =
      (bindings.bindTypeDecl home type).relabel labels := by
  have names : (bindings.relabel labels).names = bindings.names := rfl
  have text : (type.relabel labels).qualifiedName.text = type.qualifiedName.text := by
    simp [TypeDecl.qualifiedName, TypeDecl.relabel, Ident.relabel, Function.comp_def]
  have body : (type.relabel labels).body = type.body.relabel labels := rfl
  unfold bindTypeDecl
  rw [names, text, body]
  cases type.body <;> dsimp only [TypeBody.relabel] <;> split <;>
    rw [← record_relabel] <;> rfl

theorem bindOwnProtocol_relabel (protocol : Protocol) :
    (bindings.relabel labels).bindOwnProtocol home (protocol.relabel labels) =
      (bindings.bindOwnProtocol home protocol).relabel labels := by
  have text : (protocol.relabel labels).qualifiedName.text = protocol.qualifiedName.text := by
    simp [Protocol.qualifiedName, Protocol.relabel, Ident.relabel, Function.comp_def]
  unfold bindOwnProtocol
  rw [text]
  rw [← record_relabel]
  rfl

theorem bindIncluded_relabel (included : ProtocolInclude) :
    (bindings.relabel labels).bindIncluded home (included.relabel labels) =
      (bindings.bindIncluded home included).relabel labels := by
  have names : (bindings.relabel labels).names = bindings.names := rfl
  have name : (included.relabel labels).protocol = included.protocol := rfl
  unfold bindIncluded
  rw [names, name]
  dsimp only
  split <;> rw [← record_relabel] <;> rfl

theorem bindMessage_relabel (message : Message) :
    (bindings.relabel labels).bindMessage home (message.relabel labels) =
      (bindings.bindMessage home message).relabel labels := by
  have names : (bindings.relabel labels).names = bindings.names := rfl
  have name : (message.relabel labels).name = message.name := rfl
  unfold bindMessage
  rw [names, name]
  dsimp only
  split <;> rw [← record_relabel] <;> rfl

theorem bindSourceState_relabel (state : State) :
    (bindings.relabel labels).bindSourceState home (state.relabel labels) =
      (bindings.bindSourceState home state).relabel labels := by
  have names : (bindings.relabel labels).names = bindings.names := rfl
  have name : (state.relabel labels).name = state.name := rfl
  unfold bindSourceState
  rw [names, name]
  split
  · exact bindings.link_relabel labels ..
  · rw [← record_relabel]
    rfl

theorem bind_relabel (binder : Binder) :
    (bindings.relabel labels).bind home (binder.relabel labels) =
      (bindings.bind home binder).relabel labels := by
  cases binder with
  | builtinType name =>
      change (bindings.relabel labels).bindBuiltinType home name =
        (bindings.bindBuiltinType home name).relabel labels
      have names : (bindings.relabel labels).names = bindings.names := rfl
      unfold bindBuiltinType
      rw [names]
      split <;> rfl
  | sentinel state => rfl
  | usingType brought => exact bindings.bindUsingType_relabel labels home brought
  | typeDecl decl => exact bindings.bindTypeDecl_relabel labels home decl
  | ownProtocol protocol => exact bindings.bindOwnProtocol_relabel labels home protocol
  | included included => exact bindings.bindIncluded_relabel labels home included
  | message message => exact bindings.bindMessage_relabel labels home message
  | sourceState state => exact bindings.bindSourceState_relabel labels home state

theorem ofBinders_relabel (binders : List Binder) :
    ofBinders home (binders.map (Binder.relabel labels)) =
      (ofBinders home binders).relabel labels := by
  induction binders using List.reverseRecOn with
  | nil => rfl
  | append_singleton binders binder ih =>
      rw [List.map_append, List.map_singleton, ofBinders_concat, ofBinders_concat, ih,
        bind_relabel]

end Bindings

/-! ## Using -/

namespace Resolution

variable (resolution : Resolution) (names : Names) (home : Home)

theorem link_relabel (node : NodeId) (decl : DeclId) :
    (resolution.relabel labels).link (labels.node node) decl =
      (resolution.link node decl).relabel labels := by
  simp only [relabel, link, DeclTable.link_relabel]

theorem record_relabel (decl : Decl) (node : NodeId) :
    (resolution.relabel labels).record decl (labels.node node) =
      (resolution.record decl node).relabel labels := by
  simp only [relabel, record, DeclTable.record_relabel]

theorem poison_relabel (node : NodeId) :
    (resolution.relabel labels).poison (labels.node node) =
      (resolution.poison node).relabel labels := by
  have inserted : (resolution.poisoned.map labels.node).insert (labels.node node) =
      (resolution.poisoned.insert node).map labels.node := by
    by_cases old : node ∈ resolution.poisoned
    · rw [List.insert_of_mem old, List.insert_of_mem (List.mem_map_of_mem old)]
    · have new : labels.node node ∉ resolution.poisoned.map labels.node := by
        rwa [List.mem_map_of_injective labels.injective]
      rw [List.insert_of_not_mem old, List.insert_of_not_mem new, List.map_cons]
  simp only [relabel, poison, inserted]

theorem setActorState_relabel (node : NodeId) (state : State) :
    (resolution.relabel labels).setActorState (labels.node node) (state.relabel labels) =
      (resolution.setActorState node state).relabel labels := by
  simp only [relabel, setActorState, OrderedMap.insert_relabel]

theorem report_relabel (error : NamingError) (loc : Location) :
    (resolution.relabel labels).report error loc = (resolution.report error loc).relabel labels :=
  rfl

theorem openScope_relabel (node : NodeId) (scope : DeclId → DeclScope) :
    (resolution.relabel labels).openScope (labels.node node) scope =
      (resolution.openScope node scope).relabel labels := by
  simp only [relabel, openScope, DeclTable.linkOf?_relabel]

theorem useActorState_relabel (type : TypeRef) (decl : DeclId) (state : State) :
    (resolution.relabel labels).useActorState names (type.relabel labels) decl
        (state.relabel labels) =
      (resolution.useActorState names type decl state).relabel labels := by
  have shared : (state.relabel labels).id.isSynthetic = state.id.isSynthetic :=
    labels.isSynthetic_node state.id
  have name : (state.relabel labels).name = state.name := rfl
  unfold useActorState
  rw [shared, name]
  split
  · split
    · dsimp only
      split
      · exact resolution.setActorState_relabel labels type.id state
      · rename_i declared _ _
        refine Eq.trans ?_ (setActorState_relabel labels _ type.id state)
        rw [← link_relabel]
        rfl
    · rw [← poison_relabel]
      rfl
  · exact resolution.setActorState_relabel labels type.id state

theorem useRequestedState_relabel (type : TypeRef) (decl : DeclId) :
    (resolution.relabel labels).useRequestedState names (type.relabel labels) decl =
      (resolution.useRequestedState names type decl).relabel labels := by
  have kind : (resolution.relabel labels).isProtocol decl = resolution.isProtocol decl := rfl
  have state : (type.relabel labels).state = type.state.map (State.relabel labels) := rfl
  unfold useRequestedState
  rw [kind, state]
  cases type.state with
  | none =>
      cases resolution.isProtocol decl with
      | false => rfl
      | true =>
          have set := resolution.setActorState_relabel labels type.id .any
          rw [labels.relabel_any] at set
          exact set
  | some state =>
      cases resolution.isProtocol decl with
      | false =>
          dsimp only
          rw [← poison_relabel]
          rfl
      | true => exact resolution.useActorState_relabel labels names type decl state

theorem useType_relabel (type : TypeRef) :
    (resolution.relabel labels).useType names home (type.relabel labels) =
      (resolution.useType names home type).relabel labels := by
  have name : (type.relabel labels).name = type.name := rfl
  unfold useType
  rw [name]
  split
  · rw [← useRequestedState_relabel, ← link_relabel]
    rfl
  · rw [← poison_relabel]
    rfl

theorem useMember_relabel (kind : DeclId → DeclKind) (member : Member) :
    (resolution.relabel labels).useMember names home kind (member.relabel labels) =
      (resolution.useMember names home kind member).relabel labels := by
  have type : (member.relabel labels).type = member.type.relabel labels := rfl
  have name : (member.type.relabel labels).name = member.type.name := rfl
  unfold useMember
  rw [type, name, useType_relabel]
  dsimp only
  split
  · exact record_relabel labels _ _ member.id
  · exact poison_relabel labels _ member.id

theorem useProtocolName_relabel (name : Ident) :
    (resolution.relabel labels).useProtocolName names (name.relabel labels) =
      (resolution.useProtocolName names name).relabel labels := by
  have spelled : (name.relabel labels).name = name.name := rfl
  unfold useProtocolName
  rw [spelled]
  split
  · exact resolution.link_relabel labels ..
  · rw [← poison_relabel]
    rfl

theorem useDestination_relabel (state : State) :
    (resolution.relabel labels).useDestination names (state.relabel labels) =
      (resolution.useDestination names state).relabel labels := by
  have shared : (state.relabel labels).id.isSynthetic = state.id.isSynthetic :=
    labels.isSynthetic_node state.id
  have name : (state.relabel labels).name = state.name := rfl
  unfold useDestination
  rw [shared, name]
  split
  · rfl
  · split
    · exact resolution.link_relabel labels ..
    · rfl

theorem useDestinations_relabel (states : List State) :
    (states.map (State.relabel labels)).foldl
        (fun named state => named.useDestination names state) (resolution.relabel labels) =
      (states.foldl (fun named state => named.useDestination names state) resolution).relabel
        labels := by
  induction states generalizing resolution with
  | nil => rfl
  | cons state rest ih =>
      rw [List.map_cons, List.foldl_cons, List.foldl_cons, useDestination_relabel, ih]

theorem useTransition_relabel (transition : Transition) :
    (resolution.relabel labels).useTransition names (transition.relabel labels) =
      (resolution.useTransition names transition).relabel labels := by
  have destinations : (transition.relabel labels).destinations =
      transition.destinations.map (State.relabel labels) := rfl
  unfold useTransition
  rw [labels.action_relabel, destinations]
  split
  · rfl
  · dsimp only
    rw [← useDestinations_relabel]
    split
    · rw [← link_relabel]
      rfl
    · rw [← poison_relabel, ← report_relabel]
      rfl

theorem repeatedParams_relabel (seen : List String) (params : List Member) :
    repeatedParams seen (params.map (Member.relabel labels)) =
      (repeatedParams seen params).map (Member.relabel labels) := by
  induction params generalizing seen with
  | nil => rfl
  | cons param rest ih =>
      have name : (param.relabel labels).name = param.name := rfl
      simp only [List.map_cons, repeatedParams, name, ih]
      split <;> rfl

theorem openMessage_relabel (message : Message) :
    (resolution.relabel labels).openMessage (message.relabel labels) =
      (resolution.openMessage message).relabel labels := by
  have params : (message.relabel labels).params = message.params.map (Member.relabel labels) :=
    (List.map_append ..).symm
  unfold openMessage
  rw [params, repeatedParams_relabel, List.foldl_map, ← openScope_relabel]
  generalize repeatedParams [] message.params = repeated
  dsimp only
  induction repeated generalizing resolution with
  | nil => rfl
  | cons param rest ih =>
      rw [List.foldl_cons, List.foldl_cons]
      exact ih (resolution.report (.duplicateParam message.name param.name) param.loc)

theorem use_relabel (use : Use) :
    (resolution.relabel labels).use names home (use.relabel labels) =
      (resolution.use names home use).relabel labels := by
  cases use with
  | openStruct struct => exact resolution.openScope_relabel labels struct .struct
  | openMessage message => exact resolution.openMessage_relabel labels message
  | field member => exact resolution.useMember_relabel labels names home .field member
  | component type => exact resolution.useType_relabel labels names home type
  | param member => exact resolution.useMember_relabel labels names home .param member
  | protocolName name => exact resolution.useProtocolName_relabel labels names name
  | transition transition => exact resolution.useTransition_relabel labels names transition

theorem useAll_relabel (uses : List Use) :
    (resolution.relabel labels).useAll names home (uses.map (Use.relabel labels)) =
      (resolution.useAll names home uses).relabel labels := by
  induction uses generalizing resolution with
  | nil => rfl
  | cons use rest ih =>
      change ((resolution.relabel labels).use names home (use.relabel labels)).useAll names home
        (rest.map (Use.relabel labels)) = _
      rw [use_relabel, ih]
      rfl

end Resolution

/-! ## Whole units -/

namespace SourceUnit

variable (unit : SourceUnit) (protocol : Protocol) (extra : List String)

theorem binders_relabel :
    (unit.relabel labels).binders (protocol.relabel labels) extra =
      (unit.binders protocol extra).map (Binder.relabel labels) := by
  simp [binders, relabel, Protocol.relabel, Statement.relabel, Binder.relabel, Function.comp_def]

theorem uses_relabel :
    (unit.relabel labels).uses (protocol.relabel labels) =
      (unit.uses protocol).map (Use.relabel labels) := by
  have types : ∀ decl : TypeDecl,
      (decl.relabel labels).uses = decl.uses.map (Use.relabel labels) := by
    intro decl
    have body : (decl.relabel labels).body = decl.body.relabel labels := rfl
    unfold TypeDecl.uses
    rw [body]
    cases decl.body <;> simp [TypeBody.relabel, TypeDecl.relabel, Use.relabel]
  have params : ∀ message : Message,
      (message.relabel labels).params = message.params.map (Member.relabel labels) :=
    fun _ => (List.map_append ..).symm
  simp [uses, Protocol.uses, Protocol.protocolNames, relabel, Protocol.relabel, Statement.relabel,
    Spawns.relabel, Bridges.relabel, Ident.relabel, Use.relabel, types, params, List.flatMap_map,
    List.map_flatMap, Function.comp_def]

theorem resolution_relabel :
    (unit.relabel labels).resolution (protocol.relabel labels) extra =
      (unit.resolution protocol extra).relabel labels := by
  have home := labels.ofProtocol_relabel protocol
  have bindings := Bindings.ofBinders_relabel labels (.ofProtocol protocol)
    (unit.binders protocol extra)
  unfold resolution
  rw [home, binders_relabel, uses_relabel]
  dsimp only
  rw [bindings]
  generalize Bindings.ofBinders (.ofProtocol protocol) (unit.binders protocol extra) = bound
  exact (Resolution.ofBindings bound).useAll_relabel labels bound.names (.ofProtocol protocol)
    (unit.uses protocol)

end SourceUnit

end ActorProtocol
