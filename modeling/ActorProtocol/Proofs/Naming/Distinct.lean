import ActorProtocol.Proofs.Naming.NodeRecord
import ActorProtocol.Proofs.Source.Numbering

/-!
# Nodes of binders and uses

In a numbered unit no node is written by two uses, and no node that a use writes
is written by a binder or has the synthetic id. The destinations of a transition
without a trigger or a message are idle: nothing writes them. All these nodes are
compared with the written ids of the unit by counting how often an id occurs.
-/

namespace ActorProtocol

set_option autoImplicit false

/-- The nodes that a binder may link. -/
def Binder.nodes : Binder → List NodeId
  | .builtinType _ | .sentinel _ => []
  | .usingType brought => [brought.type.id]
  | .typeDecl type => [type.id]
  | .ownProtocol protocol => [protocol.id]
  | .included file => [file.id]
  | .message bound => [bound.id]
  | .sourceState state => [state.id]

/-- The destinations that are left alone, as nothing is done in the transition. -/
def Transition.idleNodes (transition : Transition) : List NodeId :=
  if transition.action.isSome then [] else State.linkedIds transition.destinations

def Statement.idleNodes (statement : Statement) : List NodeId :=
  statement.transitions.flatMap Transition.idleNodes

namespace SourceUnit

theorem binders_nodes (unit : SourceUnit) (protocol : Protocol) (extra : List String) :
    (unit.binders protocol extra).flatMap Binder.nodes =
      (unit.usings.map fun brought => brought.type.id) ++ unit.types.map TypeDecl.id ++
        [protocol.id] ++ unit.includes.map ProtocolInclude.id ++
        protocol.messages.map Message.id ++
        protocol.statements.map fun statement => statement.state.id := by
  have none : ∀ names : List String, (names.flatMap fun _ => ([] : List NodeId)) = [] := by
    intro names
    simp
  simp only [binders, List.flatMap_append, List.flatMap_assoc, List.flatMap_cons, List.flatMap_nil,
    Binder.nodes, List.map_eq_flatMap, List.nil_append, List.append_nil, none]

theorem uses_nodes (unit : SourceUnit) (protocol : Protocol) :
    (unit.uses protocol).flatMap Use.nodes =
      (unit.types.flatMap fun type => type.uses.flatMap Use.nodes) ++
        (protocol.spawns.map Spawns.id ++
          (protocol.bridges.flatMap fun bridges => [bridges.parent.id, bridges.child.id]) ++
          protocol.managers.map Ident.id ++ protocol.manages.map Ident.id ++
          (protocol.messages.flatMap fun message => message.params.flatMap Member.nodes) ++
          (protocol.statements.flatMap fun statement =>
            statement.transitions.flatMap fun transition =>
              (Use.transition transition).nodes)) := by
  simp only [uses, Protocol.uses, Protocol.protocolNames, List.flatMap_append, List.flatMap_assoc,
    List.flatMap_cons, List.flatMap_nil, List.map_eq_flatMap, List.nil_append, List.append_nil,
    List.cons_append, Use.nodes, List.append_assoc]

end SourceUnit

section Counting

variable (id : NodeId)

theorem State.count_linkedIds (states : List State) :
    (State.linkedIds states).count id ≤ (states.flatMap State.writtenIds).count id := by
  by_cases shared : id = .synthetic
  · have absent : id ∉ State.linkedIds states := by
      simp [State.linkedIds, shared, NodeId.isSynthetic]
    rw [List.count_eq_zero_of_not_mem absent]
    exact Nat.zero_le _
  · rw [State.count_flatMap_writtenIds shared]
    exact List.Sublist.count_le id List.filter_sublist

theorem TypeRef.count_nodes (type : TypeRef) : type.nodes.count id ≤ type.writtenIds.count id := by
  have states := State.count_linkedIds id type.state.toList
  simp only [TypeRef.nodes, TypeRef.writtenIds, List.count_cons]
  omega

theorem Member.count_nodes (member : Member) :
    member.nodes.count id ≤ member.writtenIds.count id := by
  have type := TypeRef.count_nodes id member.type
  simp only [Member.nodes, Member.writtenIds, List.count_cons]
  omega

/-- A transition with a trigger and a message is no padding, so it is written. -/
theorem Use.count_transition_nodes (transition : Transition) :
    ((Use.transition transition).nodes ++ transition.idleNodes).count id ≤
      transition.writtenIds.count id := by
  have destinations := State.count_linkedIds id transition.destinations
  unfold Use.nodes Transition.idleNodes
  dsimp only
  split
  · rename_i named
    have real : transition.isNull = false := by
      rw [Bool.eq_false_iff, ne_eq, Transition.isNull_iff]
      rintro ⟨trigger, _, _⟩
      simp [Transition.action, trigger] at named
    simp only [Transition.nodes, Transition.writtenIds, Transition.isSynthesized, real,
      Bool.and_false, List.count_cons, List.count_append]
    simp only [Bool.false_eq_true, if_false, List.count_cons, List.count_nil]
    omega
  · simp only [Transition.writtenIds, List.nil_append, List.count_append]
    omega

theorem TypeDecl.count_nodes (type : TypeDecl) :
    ([type.id] ++ type.uses.flatMap Use.nodes).count id ≤ type.writtenIds.count id := by
  have body : (type.uses.flatMap Use.nodes).count id ≤ type.body.writtenIds.count id := by
    unfold TypeDecl.uses
    cases type.body with
    | struct fields =>
        simp only [List.flatMap_cons, List.flatMap_map, Use.nodes, List.nil_append]
        exact count_flatMap_le _ fun member _ => Member.count_nodes id member
    | union components =>
        simp only [List.flatMap_map, Use.nodes]
        exact count_flatMap_le _ fun component _ => TypeRef.count_nodes id component
  unfold TypeDecl.writtenIds
  simp only [List.cons_append, List.nil_append, List.count_cons, List.count_append]
  omega

theorem Message.count_nodes (message : Message) :
    ([message.id] ++ message.params.flatMap Member.nodes).count id ≤
      message.writtenIds.count id := by
  unfold Message.writtenIds
  have params : (message.params.flatMap Member.nodes).count id ≤
      (message.params.flatMap Member.writtenIds).count id :=
    count_flatMap_le _ fun member _ => Member.count_nodes id member
  simp only [List.cons_append, List.nil_append, List.count_cons]
  omega

/-- Source states may be sentinels, which are written nowhere. -/
theorem Statement.count_nodes (statement : Statement) :
    (State.linkedIds [statement.state] ++
        ((statement.transitions.flatMap fun transition => (Use.transition transition).nodes) ++
          statement.idleNodes)).count id ≤
      statement.writtenIds.count id := by
  have transitions := count_flatMap_le statement.transitions
    fun transition _ => Use.count_transition_nodes id transition
  rw [count_flatMap_append] at transitions
  have state := State.count_linkedIds id [statement.state]
  rw [List.flatMap_cons, List.flatMap_nil, List.append_nil] at state
  unfold Statement.writtenIds Statement.idleNodes
  simp only [List.count_append]
  omega

theorem Bridges.count_ends (bridges : Bridges) :
    [bridges.parent.id, bridges.child.id].count id ≤ bridges.writtenIds.count id := by
  simp only [Bridges.writtenIds, List.count_cons, List.count_nil]
  omega

theorem UsingType.count_type (brought : UsingType) :
    [brought.type.id].count id ≤ brought.writtenIds.count id := by
  simp only [UsingType.writtenIds, TypeRef.writtenIds, List.count_cons, List.count_nil]
  omega

/-- Apart from the synthetic id, the nodes of binders and uses and those that are left
alone are written nodes, each for itself. -/
theorem SourceUnit.count_nodes (unit : SourceUnit) {protocol : Protocol}
    (described : unit.protocol = some protocol) (extra : List String) :
    (((unit.binders protocol extra).flatMap Binder.nodes).filter
        fun id => !id.isSynthetic).count id +
        ((unit.uses protocol).flatMap Use.nodes).count id +
        (protocol.statements.flatMap Statement.idleNodes).count id ≤
      unit.writtenIds.count id := by
  have usings := count_flatMap_le unit.usings
    fun brought _ => UsingType.count_type id brought
  have types := count_flatMap_le unit.types
    fun type _ => TypeDecl.count_nodes id type
  have bridges := count_flatMap_le protocol.bridges
    fun bridges _ => Bridges.count_ends id bridges
  have messages := count_flatMap_le protocol.messages
    fun message _ => Message.count_nodes id message
  have statements := count_flatMap_le protocol.statements
    fun statement _ => Statement.count_nodes id statement
  have kept : ∀ ids : List NodeId,
      (ids.filter fun id => !id.isSynthetic).count id ≤ ids.count id :=
    fun ids => List.Sublist.count_le id List.filter_sublist
  have sources : ((protocol.statements.map fun statement => statement.state.id).filter
      fun id => !id.isSynthetic) =
        protocol.statements.flatMap fun statement => State.linkedIds [statement.state] := by
    induction protocol.statements with
    | nil => rfl
    | cons statement statements ih =>
        rw [List.flatMap_cons, ← ih, List.map_cons, ← List.singleton_append, List.filter_append]
        rfl
  rw [count_flatMap_append] at types messages statements
  rw [count_flatMap_append] at statements
  rw [← List.map_eq_flatMap] at types messages usings
  rw [unit.binders_nodes, unit.uses_nodes]
  unfold SourceUnit.writtenIds Protocol.writtenIds
  rw [described]
  simp only [List.filter_append, sources, List.count_append, List.count_cons, Option.toList_some,
    List.flatMap_cons, List.flatMap_nil, List.append_nil]
  have keptUsings := kept (unit.usings.map fun brought => brought.type.id)
  have keptTypes := kept (unit.types.map TypeDecl.id)
  have keptOwn := kept [protocol.id]
  have keptIncludes := kept (unit.includes.map ProtocolInclude.id)
  have keptMessages := kept (protocol.messages.map Message.id)
  rw [List.count_cons, List.count_nil] at keptOwn
  omega

/-- Whatever a use writes is a written node, so it never is under the shared id. -/
theorem SourceUnit.use_node_written {unit : SourceUnit} {protocol : Protocol}
    (described : unit.protocol = some protocol)
    (used : id ∈ (unit.uses protocol).flatMap Use.nodes) : id ∈ unit.writtenIds := by
  rw [← List.count_pos_iff] at used ⊢
  have bound := unit.count_nodes id described []
  omega

/-- Leaving out the synthetic id keeps a node that has another one. -/
theorem count_shown_pos {nodes : List NodeId} (member : id ∈ nodes) (nonzero : id ≠ .synthetic) :
    0 < (nodes.filter fun id => !id.isSynthetic).count id := by
  have shown : (!id.isSynthetic) = true := by
    simpa [NodeId.isSynthetic] using nonzero
  exact List.count_pos_iff.mpr (List.mem_filter.mpr ⟨member, shown⟩)

end Counting

namespace SourceUnit.Numbered

variable {unit : SourceUnit} {protocol : Protocol}

theorem uses_nodes_nodup (numbered : unit.Numbered) (described : unit.protocol = some protocol) :
    ((unit.uses protocol).flatMap Use.nodes).Nodup := by
  rw [List.nodup_iff_count]
  intro id
  have bound := unit.count_nodes id described []
  have single := List.nodup_iff_count.mp numbered.distinct id
  omega

theorem use_node_nonzero (numbered : unit.Numbered) (described : unit.protocol = some protocol)
    {node : NodeId} (used : node ∈ (unit.uses protocol).flatMap Use.nodes) : node ≠ .synthetic :=
  numbered.nonzero node (use_node_written node described used)

theorem use_node_unbound (numbered : unit.Numbered) (described : unit.protocol = some protocol)
    (extra : List String) {node : NodeId} (used : node ∈ (unit.uses protocol).flatMap Use.nodes) :
    node ∉ (unit.binders protocol extra).flatMap Binder.nodes := by
  intro bound
  have kept := count_shown_pos node bound (numbered.use_node_nonzero described used)
  rw [← List.count_pos_iff] at used
  have count := unit.count_nodes node described extra
  have single := List.nodup_iff_count.mp numbered.distinct node
  omega

/-- A written node of a binder is a node of no other binder and of no use. -/
theorem binder_node_alone (numbered : unit.Numbered) (described : unit.protocol = some protocol)
    {extra : List String} {first later : List Binder} {binder : Binder}
    (parts : unit.binders protocol extra = first ++ binder :: later) {node : NodeId}
    (own : node ∈ binder.nodes) (nonzero : node ≠ .synthetic) :
    node ∉ later.flatMap Binder.nodes ∧ node ∉ (unit.uses protocol).flatMap Use.nodes := by
  have bound := count_shown_pos node own nonzero
  have once := unit.count_nodes node described extra
  have single := List.nodup_iff_count.mp numbered.distinct node
  rw [parts, List.flatMap_append, List.flatMap_cons, List.filter_append, List.filter_append,
    List.count_append, List.count_append] at once
  constructor
  · intro again
    have other := count_shown_pos node again nonzero
    omega
  · intro used
    rw [← List.count_pos_iff] at used
    omega

/-- A destination that is left alone is a node of no binder and of no use. -/
theorem idle_node_alone (numbered : unit.Numbered) (described : unit.protocol = some protocol)
    (extra : List String) {node : NodeId}
    (idle : node ∈ protocol.statements.flatMap Statement.idleNodes) :
    node ∉ (unit.binders protocol extra).flatMap Binder.nodes ∧
      node ∉ (unit.uses protocol).flatMap Use.nodes := by
  rw [← List.count_pos_iff] at idle
  have once := unit.count_nodes node described extra
  have single := List.nodup_iff_count.mp numbered.distinct node
  constructor
  · intro bound
    have written : node ∈ unit.writtenIds := by
      rw [← List.count_pos_iff]
      omega
    have kept := count_shown_pos node bound (numbered.nonzero node written)
    omega
  · intro used
    rw [← List.count_pos_iff] at used
    omega

end SourceUnit.Numbered

end ActorProtocol
