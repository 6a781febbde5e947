import ActorProtocol.Naming.Resolved
import Mathlib.Data.List.Basic

/-!
# Nodes that use names

The nodes of a unit that use a name are listed here without the uses: the types
of fields, components and parameters, the names of other protocols, and the
transitions with a trigger and a message. The uses of the unit visit exactly
these nodes, each once and in this order, and exactly its fields and parameters
are declared by a use.
-/

namespace ActorProtocol

set_option autoImplicit false

/-- A node that uses a name. -/
inductive UseNode where
  | type (type : TypeRef)
  | protocolName (name : Ident)
  | transition (transition : Transition)
  deriving DecidableEq

namespace UseNode

def id : UseNode → NodeId
  | type used => used.id
  | protocolName used => used.id
  | transition used => used.id

def loc : UseNode → Location
  | type used => used.loc
  | protocolName used => used.loc
  | transition used => used.loc

def type? : UseNode → Option TypeRef
  | type used => some used
  | protocolName _ | transition _ => none

def transition? : UseNode → Option Transition
  | transition used => some used
  | type _ | protocolName _ => none

end UseNode

namespace Use

/-- The node whose name is used. A transition uses one if it has a trigger and a message. -/
def node? : Use → Option UseNode
  | openStruct _ | openMessage _ => none
  | field member | param member => some (.type member.type)
  | component type => some (.type type)
  | protocolName name => some (.protocolName name)
  | transition used => if used.action.isSome then some (.transition used) else none

/-- The member that is declared by its use, and the kind of its declaration. -/
def member? : Use → Option (Member × (DeclId → DeclKind))
  | field member => some (member, .field)
  | param member => some (member, .param)
  | openStruct _ | openMessage _ | component _ | protocolName _ | transition _ => none

end Use

section Listing

variable {Item Source Result : Type} {selects : Source → Option Result} {wrap : Item → Source}

theorem filterMap_map_of_some {named : Item → Result}
    (selected : ∀ item, selects (wrap item) = some (named item)) (items : List Item) :
    (items.map wrap).filterMap selects = items.map named := by
  have pointwise : selects ∘ wrap = some ∘ named := funext selected
  rw [List.filterMap_map, pointwise, List.filterMap_eq_map]

theorem filterMap_map_of_none (skipped : ∀ item, selects (wrap item) = none)
    (items : List Item) : (items.map wrap).filterMap selects = [] := by
  rw [List.filterMap_map, List.filterMap_eq_nil_iff]
  intro item _
  exact skipped item

end Listing

def TypeDecl.fields (decl : TypeDecl) : List Member :=
  match decl.body with
  | .struct fields => fields
  | .union _ => []

namespace TypeDecl

theorem filterMap_node?_uses (decl : TypeDecl) :
    decl.uses.filterMap Use.node? = decl.typeRefs.map UseNode.type := by
  unfold uses typeRefs
  cases decl.body with
  | struct fields =>
      rw [List.filterMap_cons_none rfl, List.map_map]
      apply filterMap_map_of_some
      intro field
      rfl
  | union components =>
      apply filterMap_map_of_some
      intro component
      rfl

theorem filterMap_member?_uses (decl : TypeDecl) :
    decl.uses.filterMap Use.member? = decl.fields.map fun field => (field, .field) := by
  unfold uses fields
  cases decl.body with
  | struct fields =>
      rw [List.filterMap_cons_none rfl]
      apply filterMap_map_of_some
      intro field
      rfl
  | union components => exact filterMap_map_of_none (fun _ => rfl) components

end TypeDecl

namespace Protocol

def params (protocol : Protocol) : List Member :=
  protocol.messages.flatMap Message.params

def useNodes (protocol : Protocol) : List UseNode :=
  (protocol.spawns.map fun spawns => .protocolName ⟨spawns.id, spawns.protocol, spawns.loc⟩) ++
    (protocol.bridges.flatMap fun bridges =>
      [.protocolName bridges.parent, .protocolName bridges.child]) ++
    protocol.managers.map UseNode.protocolName ++
    protocol.manages.map UseNode.protocolName ++
    protocol.typeRefs.map UseNode.type ++
    ((protocol.statements.flatMap Statement.transitions).filter fun transition =>
      transition.action.isSome).map UseNode.transition

theorem filterMap_node?_uses (protocol : Protocol) :
    protocol.uses.filterMap Use.node? = protocol.useNodes := by
  have names : (protocol.protocolNames.map Use.protocolName).filterMap Use.node? =
      protocol.protocolNames.map UseNode.protocolName := by
    apply filterMap_map_of_some
    intro name
    rfl
  have messages : (protocol.messages.flatMap fun message =>
      Use.openMessage message :: message.params.map Use.param).filterMap Use.node? =
        protocol.typeRefs.map UseNode.type := by
    rw [List.filterMap_flatMap, typeRefs, List.map_flatMap]
    apply List.flatMap_congr
    intro message _
    rw [List.filterMap_cons_none rfl, List.map_map]
    apply filterMap_map_of_some
    intro param
    rfl
  have transitions : (protocol.statements.flatMap fun statement =>
      statement.transitions.map Use.transition).filterMap Use.node? =
        ((protocol.statements.flatMap Statement.transitions).filter fun transition =>
          transition.action.isSome).map UseNode.transition := by
    have single : ∀ items : List Transition, (items.map Use.transition).filterMap Use.node? =
        (items.filter fun transition => transition.action.isSome).map UseNode.transition := by
      intro items
      induction items with
      | nil => rfl
      | cons transition items ih =>
          rw [List.map_cons, List.filterMap_cons, List.filter_cons, ih]
          cases named : transition.action.isSome <;> simp [Use.node?, named]
    rw [List.filterMap_flatMap, List.filter_flatMap, List.map_flatMap]
    exact List.flatMap_congr fun statement _ => single statement.transitions
  unfold uses useNodes
  rw [List.filterMap_append, List.filterMap_append, names, messages, transitions, protocolNames]
  simp only [List.map_append, List.map_map, List.map_flatMap, List.map_cons, List.map_nil,
    Function.comp_def]

theorem filterMap_member?_uses (protocol : Protocol) :
    protocol.uses.filterMap Use.member? = protocol.params.map fun param => (param, .param) := by
  have names : (protocol.protocolNames.map Use.protocolName).filterMap Use.member? = [] :=
    filterMap_map_of_none (fun _ => rfl) _
  have transitions : (protocol.statements.flatMap fun statement =>
      statement.transitions.map Use.transition).filterMap Use.member? = [] := by
    rw [← List.map_flatMap]
    exact filterMap_map_of_none (fun _ => rfl) _
  unfold uses params
  rw [List.filterMap_append, List.filterMap_append, names, transitions, List.nil_append,
    List.append_nil, List.filterMap_flatMap, List.map_flatMap]
  apply List.flatMap_congr
  intro message _
  rw [List.filterMap_cons_none rfl]
  apply filterMap_map_of_some
  intro param
  rfl

end Protocol

namespace SourceUnit

def fields (unit : SourceUnit) : List Member :=
  unit.types.flatMap TypeDecl.fields

/-- The nodes of a unit that use a name, when its protocol is given. -/
def useNodes (unit : SourceUnit) (protocol : Protocol) : List UseNode :=
  (unit.types.flatMap TypeDecl.typeRefs).map UseNode.type ++ protocol.useNodes

/-- No node that uses a name is missed, and none is visited twice. -/
theorem filterMap_node?_uses (unit : SourceUnit) (protocol : Protocol) :
    (unit.uses protocol).filterMap Use.node? = unit.useNodes protocol := by
  unfold uses useNodes
  rw [List.filterMap_append, List.filterMap_flatMap, List.map_flatMap,
    protocol.filterMap_node?_uses]
  exact congrArg (· ++ _) (List.flatMap_congr fun type _ => type.filterMap_node?_uses)

theorem filterMap_member?_uses (unit : SourceUnit) (protocol : Protocol) :
    (unit.uses protocol).filterMap Use.member? =
      (unit.fields.map fun field => (field, .field)) ++
        protocol.params.map fun param => (param, .param) := by
  unfold uses fields
  rw [List.filterMap_append, List.filterMap_flatMap, List.map_flatMap,
    protocol.filterMap_member?_uses]
  exact congrArg (· ++ _) (List.flatMap_congr fun type _ => type.filterMap_member?_uses)

variable {unit : SourceUnit} {protocol : Protocol}

theorem mem_useNodes_iff {node : UseNode} :
    node ∈ unit.useNodes protocol ↔ ∃ use ∈ unit.uses protocol, use.node? = some node := by
  rw [← filterMap_node?_uses, List.mem_filterMap]

theorem exists_use_of_field {field : Member} (member : field ∈ unit.fields) :
    ∃ use ∈ unit.uses protocol, use.member? = some (field, .field) := by
  rw [← List.mem_filterMap, filterMap_member?_uses]
  exact List.mem_append_left _ (List.mem_map.mpr ⟨field, member, rfl⟩)

theorem exists_use_of_param {param : Member} (member : param ∈ protocol.params) :
    ∃ use ∈ unit.uses protocol, use.member? = some (param, .param) := by
  rw [← List.mem_filterMap, filterMap_member?_uses]
  exact List.mem_append_right _ (List.mem_map.mpr ⟨param, member, rfl⟩)

/-- Of the nodes that use a name, those are picked out that are types or transitions. -/
theorem filterMap_useNodes (described : unit.protocol = some protocol) {Part : Type}
    {select : UseNode → Option Part} (unnamed : ∀ name, select (.protocolName name) = none) :
    (unit.useNodes protocol).filterMap select =
      (unit.typeRefs.filterMap fun type => select (.type type)) ++
        ((protocol.statements.flatMap Statement.transitions).filter fun transition =>
          transition.action.isSome).filterMap fun transition => select (.transition transition) := by
  have names : ∀ names : List Ident, (names.map UseNode.protocolName).filterMap select = [] :=
    filterMap_map_of_none unnamed
  have spawns : (protocol.spawns.map fun spawns =>
      UseNode.protocolName ⟨spawns.id, spawns.protocol, spawns.loc⟩).filterMap select = [] :=
    filterMap_map_of_none (fun _ => unnamed _) _
  have bridges : (protocol.bridges.flatMap fun bridges =>
      [UseNode.protocolName bridges.parent, UseNode.protocolName bridges.child]).filterMap
        select = [] := by
    rw [List.filterMap_flatMap, List.flatMap_eq_nil_iff]
    intro bridges _
    exact names [bridges.parent, bridges.child]
  unfold useNodes Protocol.useNodes typeRefs
  rw [described, Option.toList_some, List.flatMap_singleton]
  simp only [List.filterMap_append, List.filterMap_map, names, spawns, bridges, List.nil_append,
    List.append_assoc, Function.comp_def]

/-- The types among the nodes that use a name. -/
theorem filterMap_type?_useNodes (described : unit.protocol = some protocol) :
    (unit.useNodes protocol).filterMap UseNode.type? = unit.typeRefs := by
  rw [filterMap_useNodes described fun _ => rfl]
  change unit.typeRefs.filterMap some ++ _ = _
  rw [List.filterMap_some, List.append_right_eq_self, List.filterMap_eq_nil_iff]
  intro transition _
  rfl

/-- The transitions among the nodes that use a name. -/
theorem filterMap_transition?_useNodes (described : unit.protocol = some protocol) :
    (unit.useNodes protocol).filterMap UseNode.transition? =
      (protocol.statements.flatMap Statement.transitions).filter fun transition =>
        transition.action.isSome := by
  rw [filterMap_useNodes described fun _ => rfl]
  change _ ++ List.filterMap some _ = _
  rw [List.filterMap_some, List.append_left_eq_self, List.filterMap_eq_nil_iff]
  intro type _
  rfl

theorem type_mem_useNodes_iff (described : unit.protocol = some protocol) {type : TypeRef} :
    .type type ∈ unit.useNodes protocol ↔ type ∈ unit.typeRefs := by
  rw [← filterMap_type?_useNodes described, List.mem_filterMap]
  constructor
  · intro used
    exact ⟨.type type, used, rfl⟩
  · rintro ⟨node, used, same⟩
    cases node with
    | type other =>
        cases same
        exact used
    | _ => cases same

end SourceUnit

end ActorProtocol
