import ActorProtocol.Proofs.Naming.Distinct
import ActorProtocol.Proofs.Naming.Outcome

/-!
# What resolution settles

In a numbered unit the record of every node that uses a name is the one that its
own use leaves, which the bindings alone decide. The errors are those of the
bindings and then those of the uses, in reading order. Records of nodes that no
use writes are not looked at here.
-/

namespace ActorProtocol

set_option autoImplicit false

namespace Bindings

variable {home : Home} {bindings : Bindings} {node : NodeId}

theorem linkOf?_bind_of_outside {binder : Binder} (outside : node ∉ binder.nodes) :
    (bindings.bind home binder).table.linkOf? node = bindings.table.linkOf? node := by
  have differs : ∀ own, binder.nodes = [own] → ¬ own = node := by
    intro own nodes same
    exact outside (by simp [nodes, same])
  have outcome := bind_cases home bindings binder
  generalize bindings.bind home binder = after at outcome ⊢
  cases outcome with
  | builtinType | builtinTypeAgain | sentinel => rfl
  | usingTypeAgain | sourceStateAgain =>
      exact (DeclTable.linkOf?_link _ _ _ _).trans (if_neg (differs _ rfl))
  | _ => exact (DeclTable.linkOf?_record _ _ _ _).trans (if_neg (differs _ rfl))

theorem linkOf?_append_of_outside {first later : List Binder}
    (outside : node ∉ later.flatMap Binder.nodes) :
    (ofBinders home (first ++ later)).table.linkOf? node =
      (ofBinders home first).table.linkOf? node := by
  induction later using List.reverseRecOn with
  | nil => rw [List.append_nil]
  | append_singleton later binder ih =>
      rw [List.flatMap_append, List.mem_append, not_or] at outside
      rw [← List.append_assoc, ofBinders_concat,
        linkOf?_bind_of_outside (by simpa using outside.2)]
      exact ih outside.1

theorem linkOf?_ofBinders_of_outside {binders : List Binder}
    (outside : node ∉ binders.flatMap Binder.nodes) :
    (ofBinders home binders).table.linkOf? node = none := by
  rw [← List.nil_append binders, linkOf?_append_of_outside outside]
  rfl

end Bindings

namespace Resolution

variable {bindings : Bindings} {binders : List Binder} {home : Home} {resolution : Resolution}

/-- A use at its turn. Its nodes are blank before it, and what it makes of them, and what
it adds to the table, is there in the end. -/
structure Turn (bindings : Bindings) (home : Home) (use : Use) (before final : Resolution) :
    Prop where
  continues : before.Continues bindings
  fresh : ∀ node ∈ use.nodes, before.recordOf node = .blank
  settled : ∀ node ∈ use.nodes,
    final.recordOf node = (before.use bindings.names home use).recordOf node
  grows : (before.use bindings.names home use).table.Extends final.table

/-- Every use has a turn when no node is written twice. -/
theorem Continues.turn (continues : resolution.Continues bindings)
    (explained : bindings.Explained binders) {earlier later : List Use} {use : Use}
    (distinct : ((earlier ++ use :: later).flatMap Use.nodes).Nodup)
    (fresh : ∀ node ∈ (earlier ++ use :: later).flatMap Use.nodes,
      resolution.recordOf node = .blank) :
    Turn bindings home use (resolution.useAll bindings.names home earlier)
      (resolution.useAll bindings.names home (earlier ++ use :: later)) := by
  rw [List.flatMap_append, List.flatMap_cons, List.nodup_append] at distinct
  obtain ⟨_, rest, apart⟩ := distinct
  have split : resolution.useAll bindings.names home (earlier ++ use :: later) =
      ((resolution.useAll bindings.names home earlier).use bindings.names home use).useAll
        bindings.names home later := List.foldl_append
  have start : (resolution.useAll bindings.names home earlier).Continues bindings :=
    continues.useAll explained earlier
  refine ⟨start, ?_, ?_, ?_⟩
  · intro node own
    rw [recordOf_useAll_of_outside resolution bindings.names home]
    · exact fresh node (by simp [own])
    · intro again
      exact apart node again node (by simp [own]) rfl
  · intro node own
    rw [split, recordOf_useAll_of_outside _ bindings.names home]
    intro again
    exact (List.nodup_append.mp rest).2.2 node own node again rfl
  · rw [split]
    exact (start.use explained use).extends_useAll explained later

end Resolution

theorem Use.id_mem_nodes {use : Use} {node : UseNode} (names : use.node? = some node) :
    node.id ∈ use.nodes := by
  cases use with
  | openStruct struct => cases names
  | openMessage message => cases names
  | field member | param member =>
      cases names
      exact List.mem_cons_of_mem _ List.mem_cons_self
  | component type | protocolName name =>
      cases names
      exact List.mem_cons_self
  | transition used =>
      simp only [Use.node?] at names
      split at names
      · rename_i named
        cases names
        simp [Use.nodes, named, Transition.nodes, UseNode.id]
      · cases names

namespace SourceUnit

/-- The bindings that the uses of a unit start from. -/
def bindings (unit : SourceUnit) (protocol : Protocol) (extra : List String) : Bindings :=
  .ofBinders (.ofProtocol protocol) (unit.binders protocol extra)

variable {unit : SourceUnit} {protocol : Protocol} {extra : List String}

theorem explained_bindings (unit : SourceUnit) (protocol : Protocol) (extra : List String) :
    (unit.bindings protocol extra).Explained (unit.binders protocol extra) :=
  Bindings.explained_ofBinders _ _

theorem kept_bindings (unit : SourceUnit) (protocol : Protocol) (extra : List String) :
    (unit.bindings protocol extra).Kept (unit.binders protocol extra) :=
  Bindings.kept_ofBinders _ _

theorem continues_bindings (unit : SourceUnit) (protocol : Protocol) (extra : List String) :
    (Resolution.ofBindings (unit.bindings protocol extra)).Continues
      (unit.bindings protocol extra) :=
  Resolution.continues_ofBindings _ _

/-- What is known after some uses of the unit. -/
def resolutionAfter (unit : SourceUnit) (protocol : Protocol) (extra : List String)
    (uses : List Use) : Resolution :=
  (Resolution.ofBindings (unit.bindings protocol extra)).useAll
    (unit.bindings protocol extra).names (.ofProtocol protocol) uses

theorem resolution_eq (unit : SourceUnit) (protocol : Protocol) (extra : List String) :
    unit.resolution protocol extra =
      (Resolution.ofBindings (unit.bindings protocol extra)).useAll
        (unit.bindings protocol extra).names (.ofProtocol protocol) (unit.uses protocol) := rfl

/-- A node that no use writes keeps the link that the bindings gave it. -/
theorem linkOf?_resolutionAfter {uses : List Use} {node : NodeId}
    (unused : node ∉ uses.flatMap Use.nodes) :
    (unit.resolutionAfter protocol extra uses).table.linkOf? node =
      (unit.bindings protocol extra).table.linkOf? node := by
  have kept := Resolution.recordOf_useAll_of_outside
    (Resolution.ofBindings (unit.bindings protocol extra))
    (unit.bindings protocol extra).names (.ofProtocol protocol) unused
  rw [Resolution.recordOf_ofBindings, Resolution.recordOf, NodeRecord.mk.injEq] at kept
  exact kept.1

theorem continues_resolution (unit : SourceUnit) (protocol : Protocol) (extra : List String) :
    (unit.resolution protocol extra).Continues (unit.bindings protocol extra) := by
  rw [resolution_eq]
  exact (unit.continues_bindings protocol extra).useAll (unit.explained_bindings protocol extra) _

/-- What resolution makes of a unit. -/
def resolved (unit : SourceUnit) (protocol : Protocol) (extra : List String) : Resolved :=
  ⟨unit, (unit.resolution protocol extra).table, (unit.resolution protocol extra).actorStates,
    (unit.resolution protocol extra).poisoned⟩

/-- Resolution needs only a protocol to give a result. -/
theorem resolve_eq_ok (described : unit.protocol = some protocol) (extra : List String) :
    unit.resolve extra =
      .ok ⟨unit.resolved protocol extra, (unit.resolution protocol extra).errors⟩ := by
  simp only [resolve, requireProtocol, described]
  rfl

theorem eq_resolved_of_resolve (described : unit.protocol = some protocol)
    {reported : Reported Resolved NamingError} (resolves : unit.resolve extra = .ok reported) :
    reported = ⟨unit.resolved protocol extra, (unit.resolution protocol extra).errors⟩ := by
  rw [resolve_eq_ok described extra] at resolves
  exact (Except.ok.inj resolves).symm

theorem isPoisoned_resolved (node : NodeId) :
    (unit.resolved protocol extra).isPoisoned node =
      ((unit.resolution protocol extra).recordOf node).poisoned := rfl

theorem declOf?_resolved {node : NodeId} {id : DeclId}
    (linked : ((unit.resolution protocol extra).recordOf node).link = some id) :
    ∃ decl, (unit.resolved protocol extra).decls.declOf? node = some decl ∧
      (unit.resolution protocol extra).table.decl? id = some decl :=
  (unit.continues_resolution protocol extra).sound.declOf?_of_linkOf? linked

theorem declOf?_resolved_of_unlinked {node : NodeId}
    (unlinked : ((unit.resolution protocol extra).recordOf node).link = none) :
    (unit.resolved protocol extra).decls.declOf? node = none :=
  congrArg (fun link => Option.bind link (unit.resolved protocol extra).decls.decl?) unlinked

theorem errors_resolution (unit : SourceUnit) (protocol : Protocol) (extra : List String) :
    (unit.resolution protocol extra).errors =
      (unit.bindings protocol extra).errors ++
        (unit.uses protocol).flatMap
          ((unit.bindings protocol extra).errorsOf (.ofProtocol protocol)) := by
  rw [resolution_eq, (unit.continues_bindings protocol extra).errors_useAll
    (unit.explained_bindings protocol extra), Resolution.errors_ofBindings]

namespace Numbered

/-- No node that a use writes has been linked by a binder. -/
theorem fresh_use_node (numbered : unit.Numbered) (described : unit.protocol = some protocol)
    {node : NodeId} (used : node ∈ (unit.uses protocol).flatMap Use.nodes) :
    (Resolution.ofBindings (unit.bindings protocol extra)).recordOf node = .blank := by
  have unlinked : (unit.bindings protocol extra).table.linkOf? node = none :=
    Bindings.linkOf?_ofBinders_of_outside (numbered.use_node_unbound described extra used)
  rw [Resolution.recordOf_ofBindings, unlinked]
  rfl

theorem turn (numbered : unit.Numbered) (described : unit.protocol = some protocol)
    (extra : List String) {earlier later : List Use} {use : Use}
    (parts : unit.uses protocol = earlier ++ use :: later) :
    Resolution.Turn (unit.bindings protocol extra) (.ofProtocol protocol) use
      (unit.resolutionAfter protocol extra earlier) (unit.resolution protocol extra) := by
  have distinct := numbered.uses_nodes_nodup described
  have fresh : ∀ node ∈ (unit.uses protocol).flatMap Use.nodes,
      (Resolution.ofBindings (unit.bindings protocol extra)).recordOf node = .blank :=
    fun _ used => numbered.fresh_use_node described used
  rw [resolution_eq]
  rw [parts] at distinct fresh ⊢
  exact (unit.continues_bindings protocol extra).turn (unit.explained_bindings protocol extra)
    distinct fresh

theorem use_nodes_nodup (numbered : unit.Numbered) (described : unit.protocol = some protocol)
    {use : Use} (member : use ∈ unit.uses protocol) : use.nodes.Nodup := by
  obtain ⟨earlier, later, parts⟩ := List.append_of_mem member
  have whole := numbered.uses_nodes_nodup described
  rw [parts, List.flatMap_append, List.flatMap_cons] at whole
  exact (List.nodup_append.mp (List.nodup_append.mp whole).2.1).1

/-- The record of a node that uses a name. -/
theorem recordOf_useNode (numbered : unit.Numbered) (described : unit.protocol = some protocol)
    (extra : List String) {node : UseNode} (used : node ∈ unit.useNodes protocol) :
    (unit.resolution protocol extra).recordOf node.id =
      (unit.bindings protocol extra).useRecord (.ofProtocol protocol) node := by
  obtain ⟨use, member, names⟩ := mem_useNodes_iff.mp used
  obtain ⟨earlier, later, parts⟩ := List.append_of_mem member
  have turn := numbered.turn described extra parts
  rw [turn.settled node.id (Use.id_mem_nodes names)]
  exact turn.continues.recordOf_use (unit.explained_bindings protocol extra) names
    (numbered.use_nodes_nodup described member) turn.fresh

/-- A type is linked to what its name is bound to. -/
theorem link_type (numbered : unit.Numbered) (described : unit.protocol = some protocol)
    (extra : List String) {type : TypeRef} (used : .type type ∈ unit.useNodes protocol) :
    ((unit.resolution protocol extra).recordOf type.id).link =
      (unit.bindings protocol extra).names.type? (.ofProtocol protocol) type.name :=
  congrArg NodeRecord.link (numbered.recordOf_useNode described extra used)

/-- The state that is kept of a type. -/
theorem state_type (numbered : unit.Numbered) (described : unit.protocol = some protocol)
    (extra : List String) {type : TypeRef} (used : .type type ∈ unit.useNodes protocol) :
    (unit.resolved protocol extra).actorState? type.id =
      (unit.bindings protocol extra).typeState? (.ofProtocol protocol) type :=
  congrArg NodeRecord.actorState (numbered.recordOf_useNode described extra used)

theorem isPoisoned_useNode (numbered : unit.Numbered) (described : unit.protocol = some protocol)
    (extra : List String) {node : UseNode} (used : node ∈ unit.useNodes protocol) :
    (unit.resolved protocol extra).isPoisoned node.id =
      ((unit.bindings protocol extra).useError? (.ofProtocol protocol) node).isSome := by
  rw [isPoisoned_resolved, numbered.recordOf_useNode described extra used,
    Bindings.poisoned_useRecord]

section Members

variable {member : Member} {kind : DeclId → DeclKind}

/-- A member whose type is not known is poisoned and has no declaration. -/
theorem recordOf_member_of_unknown (numbered : unit.Numbered)
    (described : unit.protocol = some protocol) {use : Use} (used : use ∈ unit.uses protocol)
    (declares : use.member? = some (member, kind))
    (missing : (unit.bindings protocol extra).names.type? (.ofProtocol protocol)
      member.type.name = none) :
    (unit.resolution protocol extra).recordOf member.id = ⟨none, true, none⟩ := by
  obtain ⟨earlier, later, parts⟩ := List.append_of_mem used
  have turn := numbered.turn described extra parts
  have alone := numbered.use_nodes_nodup described used
  cases use with
  | field declared | param declared =>
      cases declares
      rw [turn.settled member.id List.mem_cons_self]
      exact Resolution.recordOf_useMember_of_unknown _ alone
        (turn.fresh _ List.mem_cons_self) missing
  | _ => cases declares

/-- A member whose type is known is linked to the declaration that it gets at its turn. -/
theorem recordOf_member_of_known (numbered : unit.Numbered)
    (described : unit.protocol = some protocol) {earlier later : List Use} {use : Use}
    (parts : unit.uses protocol = earlier ++ use :: later)
    (declares : use.member? = some (member, kind)) {type : DeclId}
    (found : (unit.bindings protocol extra).names.type? (.ofProtocol protocol)
      member.type.name = some type) :
    (unit.resolution protocol extra).recordOf member.id =
        ⟨some (unit.resolutionAfter protocol extra earlier).table.nextId, false, none⟩ ∧
      (unit.resolution protocol extra).table.decl?
          (unit.resolutionAfter protocol extra earlier).table.nextId =
        some ((unit.resolutionAfter protocol extra earlier).memberDecl (.ofProtocol protocol)
          (kind type) member) := by
  have turn := numbered.turn described extra parts
  have alone : use.nodes.Nodup := by
    apply numbered.use_nodes_nodup described
    rw [parts]
    exact List.mem_append_right _ List.mem_cons_self
  cases use with
  | field declared | param declared =>
      cases declares
      obtain ⟨record, known⟩ := Resolution.recordOf_useMember_of_known _ alone
        (turn.fresh _ List.mem_cons_self) found
      exact ⟨(turn.settled member.id List.mem_cons_self).trans record, turn.grows _ _ known⟩
  | _ => cases declares

end Members

end Numbered

end SourceUnit

end ActorProtocol
