import ActorProtocol.Proofs.Naming.Failure
import Mathlib.Data.List.Forall2

/-!
# Coverage of uses

After resolution every node that uses a name is linked or poisoned, and each that
is poisoned has one error at its place. Poison passes from the type of a field or
parameter to the member itself and no further, so a unit without errors has no
poisoned node.
-/

namespace ActorProtocol

set_option autoImplicit false

namespace Use

/-- The nodes that a use may poison: the one whose name is used and the member it declares. -/
def exposed (use : Use) : List NodeId :=
  (use.node?.map UseNode.id).toList ++ (use.member?.map fun declared => declared.1.id).toList

theorem node?_of_member? {use : Use} {member : Member} {kind : DeclId → DeclKind}
    (declares : use.member? = some (member, kind)) : use.node? = some (.type member.type) := by
  cases use with
  | field declared | param declared =>
      cases declares
      rfl
  | openStruct | openMessage | component | protocolName | transition => cases declares

end Use

namespace Resolution

variable {resolution : Resolution} {names : Names} {home : Home} {node : NodeId}

theorem mem_poisoned_poison {other : NodeId} :
    node ∈ (resolution.poison other).poisoned ↔ node = other ∨ node ∈ resolution.poisoned :=
  List.mem_insert_iff

theorem mem_poisoned_useType {type : TypeRef}
    (poisoned : node ∈ (resolution.useType names home type).poisoned) :
    node = type.id ∨ node ∈ resolution.poisoned := by
  have outcome := resolution.useType_cases names home type
  generalize resolution.useType names home type = after at outcome poisoned
  cases outcome with
  | unknown | notActor | unknownState => exact mem_poisoned_poison.mp poisoned
  | plain | anyState | foreignState => exact Or.inr poisoned
  | ownState =>
      right
      split at poisoned <;> exact poisoned

theorem mem_poisoned_useMember {kind : DeclId → DeclKind} {member : Member}
    (poisoned : node ∈ (resolution.useMember names home kind member).poisoned) :
    node = member.type.id ∨ node = member.id ∨ node ∈ resolution.poisoned := by
  unfold useMember at poisoned
  dsimp only at poisoned
  split at poisoned
  · rcases mem_poisoned_useType poisoned with type | earlier
    · exact Or.inl type
    · exact Or.inr (Or.inr earlier)
  · rcases mem_poisoned_poison.mp poisoned with own | typed
    · exact Or.inr (Or.inl own)
    · rcases mem_poisoned_useType typed with type | earlier
      · exact Or.inl type
      · exact Or.inr (Or.inr earlier)

theorem poisoned_useDestinations (states : List State) (resolution : Resolution) :
    (states.foldl (fun named state => named.useDestination names state) resolution).poisoned =
      resolution.poisoned := by
  obtain ⟨links, same⟩ := resolution.useDestinations_eq names states
  rw [same]

/-- A use poisons only nodes that it is exposed at. -/
theorem mem_poisoned_use {use : Use}
    (poisoned : node ∈ (resolution.use names home use).poisoned) :
    node ∈ use.exposed ∨ node ∈ resolution.poisoned := by
  have member : ∀ {own type : NodeId}, node = type ∨ node = own ∨ node ∈ resolution.poisoned →
      node ∈ [type, own] ∨ node ∈ resolution.poisoned := by
    intro own type known
    rcases known with same | same | earlier
    · exact Or.inl (by simp [same])
    · exact Or.inl (by simp [same])
    · exact Or.inr earlier
  cases use with
  | openStruct struct => exact Or.inr poisoned
  | openMessage message =>
      right
      rw [← (resolution.openMessage_table message).2.1]
      exact poisoned
  | field declared => exact member (mem_poisoned_useMember poisoned)
  | component type =>
      rcases mem_poisoned_useType poisoned with same | earlier
      · exact Or.inl (by simp [Use.exposed, Use.node?, UseNode.id, same])
      · exact Or.inr earlier
  | param declared => exact member (mem_poisoned_useMember poisoned)
  | protocolName name =>
      change node ∈ (resolution.useProtocolName names name).poisoned at poisoned
      unfold useProtocolName at poisoned
      split at poisoned
      · exact Or.inr poisoned
      · rcases mem_poisoned_poison.mp poisoned with same | earlier
        · exact Or.inl (by simp [Use.exposed, Use.node?, UseNode.id, same])
        · exact Or.inr earlier
  | transition used =>
      change node ∈ (resolution.useTransition names used).poisoned at poisoned
      unfold useTransition at poisoned
      split at poisoned
      · exact Or.inr poisoned
      · rename_i action
        rw [poisoned_useDestinations] at poisoned
        split at poisoned
        · exact Or.inr poisoned
        · rcases mem_poisoned_poison.mp poisoned with same | earlier
          · exact Or.inl (by simp [Use.exposed, Use.node?, UseNode.id, action, same])
          · exact Or.inr earlier

theorem mem_poisoned_useAll {uses : List Use}
    (poisoned : node ∈ (resolution.useAll names home uses).poisoned) :
    node ∈ uses.flatMap Use.exposed ∨ node ∈ resolution.poisoned := by
  induction uses generalizing resolution with
  | nil => exact Or.inr poisoned
  | cons use uses ih =>
      rw [List.flatMap_cons, List.mem_append, or_assoc]
      rcases ih poisoned with later | now
      · exact Or.inr (Or.inl later)
      · rcases mem_poisoned_use now with first | earlier
        · exact Or.inl first
        · exact Or.inr (Or.inr earlier)

end Resolution

namespace Bindings

variable {bindings : Bindings} {home : Home}

/-- A use that is not linked fails. -/
theorem useError?_of_unlinked {use : Use} {node : UseNode} (names : use.node? = some node)
    (unlinked : (bindings.useRecord home node).link = none) :
    (bindings.useError? home node).isSome = true := by
  have typed : ∀ type : TypeRef, bindings.names.type? home type.name = none →
      (bindings.typeError? home type).isSome = true := by
    intro type missing
    simp [typeError?, missing]
  cases use with
  | openStruct struct => cases names
  | openMessage message => cases names
  | field member | param member =>
      cases names
      exact typed member.type unlinked
  | component type =>
      cases names
      exact typed type unlinked
  | protocolName name =>
      cases names
      have absent : bindings.names.protocols.contains name.name = false :=
        (OrderedMap.find?_eq_none_iff _ _).mp unlinked
      simp [useError?, nameError?, absent]
  | transition used =>
      cases action : used.action with
      | none => simp [Use.node?, action] at names
      | some named =>
          obtain ⟨trigger, message⟩ := named
          simp only [Use.node?, action, Option.isSome_some, if_true, Option.some.injEq] at names
          subst names
          simp only [useRecord, transitionLink?, action, Option.bind_some] at unlinked
          have absent : bindings.names.messages.contains message = false :=
            (OrderedMap.find?_eq_none_iff _ _).mp unlinked
          simp [useError?, transitionError?, action, absent]

theorem forall₂_nodeErrors (nodes : List UseNode) :
    List.Forall₂ (fun error node => error.loc = node.loc ∧ node.Failure error.error)
      (nodes.flatMap (bindings.nodeErrors home))
      (nodes.filter fun node => (bindings.useError? home node).isSome) := by
  induction nodes with
  | nil => exact .nil
  | cons node nodes ih =>
      rw [List.flatMap_cons, List.filter_cons, nodeErrors]
      cases wrong : bindings.useError? home node with
      | none => exact ih
      | some error => exact .cons ⟨rfl, failure_of_useError? wrong⟩ ih

end Bindings

/-- A member is poisoned when its type has no declaration, and has one of its own otherwise. -/
structure Member.Declared (resolved : Resolved) (kind : DeclId → DeclKind) (member : Member) :
    Prop where
  poisoned : resolved.isPoisoned member.id = true ↔
    resolved.decls.declOf? member.type.id = none
  own : ∀ type, resolved.decls.declOf? member.type.id = some type →
    ∃ decl, resolved.decls.declOf? member.id = some decl ∧ decl.kind = kind type.id ∧
      decl.name = member.name ∧ decl.loc = member.loc ∧
      ∀ node, resolved.decls.declOf? node = some decl → node = member.id

/-- Every use is settled, and the failures are those of the poisoned nodes, one for each. -/
structure SourceUnit.Covered (unit : SourceUnit) (protocol : Protocol)
    (reported : Reported Resolved NamingError) : Prop where
  settled : ∀ node ∈ unit.useNodes protocol,
    (reported.value.decls.declOf? node.id).isSome = true ∨
      reported.value.isPoisoned node.id = true
  distinct : ((unit.useNodes protocol).map UseNode.id).Nodup
  failures : List.Forall₂ (fun error node => error.loc = node.loc ∧ node.Failure error.error)
    (reported.errors.filter fun error => error.error.isFailure)
    ((unit.useNodes protocol).filter fun node => reported.value.isPoisoned node.id)
  fields : ∀ field ∈ unit.fields, field.Declared reported.value .field
  params : ∀ param ∈ protocol.params, param.Declared reported.value .param
  exposed : ∀ id, reported.value.isPoisoned id = true →
    (∃ node ∈ unit.useNodes protocol, node.id = id) ∨
      ∃ member ∈ unit.fields ++ protocol.params, member.id = id
  clean : reported.errors = [] → reported.value.poisoned = []

namespace SourceUnit

variable {unit : SourceUnit} {protocol : Protocol} {extra : List String}

theorem exists_use_of_member {member : Member} (inside : member ∈ unit.fields ++ protocol.params) :
    ∃ use ∈ unit.uses protocol, ∃ kind, use.member? = some (member, kind) ∧
      ∀ type, (kind type).isMember = true := by
  rcases List.mem_append.mp inside with field | param
  · obtain ⟨use, used, declares⟩ := exists_use_of_field field
    exact ⟨use, used, _, declares, fun _ => rfl⟩
  · obtain ⟨use, used, declares⟩ := exists_use_of_param param
    exact ⟨use, used, _, declares, fun _ => rfl⟩

theorem exposed_of_poisoned {id : NodeId}
    (poisoned : (unit.resolved protocol extra).isPoisoned id = true) :
    (∃ node ∈ unit.useNodes protocol, node.id = id) ∨
      ∃ member ∈ unit.fields ++ protocol.params, member.id = id := by
  have member : id ∈ (unit.resolution protocol extra).poisoned := by
    simpa [Resolved.isPoisoned, resolved] using poisoned
  rcases Resolution.mem_poisoned_useAll member with exposed | none
  · obtain ⟨use, used, own⟩ := List.mem_flatMap.mp exposed
    rw [Use.exposed, List.mem_append, Option.mem_toList, Option.mem_toList,
      Option.map_eq_some_iff, Option.map_eq_some_iff] at own
    rcases own with ⟨node, names, same⟩ | ⟨⟨declared, kind⟩, declares, same⟩
    · exact Or.inl ⟨node, mem_useNodes_iff.mpr ⟨use, used, names⟩, same⟩
    · have listed := List.mem_filterMap.mpr ⟨use, used, declares⟩
      rw [filterMap_member?_uses, List.mem_append, List.mem_map, List.mem_map] at listed
      right
      rcases listed with ⟨field, inside, equal⟩ | ⟨param, inside, equal⟩
      · cases equal
        exact ⟨declared, List.mem_append_left _ inside, same⟩
      · cases equal
        exact ⟨declared, List.mem_append_right _ inside, same⟩
  · cases none

namespace Numbered

theorem useNodes_nodup (numbered : unit.Numbered) (described : unit.protocol = some protocol) :
    ((unit.useNodes protocol).map UseNode.id).Nodup := by
  have whole := numbered.uses_nodes_nodup described
  have each : ∀ use : Use, (use.node?.map UseNode.id).toList.Sublist use.nodes := by
    intro use
    cases names : use.node? with
    | none => exact List.nil_sublist _
    | some node => exact List.singleton_sublist.mpr (Use.id_mem_nodes names)
  have listed : (unit.useNodes protocol).map UseNode.id =
      (unit.uses protocol).flatMap fun use => (use.node?.map UseNode.id).toList := by
    rw [← filterMap_node?_uses, List.map_filterMap, List.filterMap_eq_flatMap_toList]
  rw [listed]
  have part : ∀ uses : List Use,
      (uses.flatMap fun use => (use.node?.map UseNode.id).toList).Sublist
        (uses.flatMap Use.nodes) := by
    intro uses
    induction uses with
    | nil => exact List.Sublist.refl _
    | cons use uses ih =>
        rw [List.flatMap_cons, List.flatMap_cons]
        exact (each use).append ih
  exact whole.sublist (part (unit.uses protocol))

theorem declared_member (numbered : unit.Numbered) (described : unit.protocol = some protocol)
    (extra : List String) {use : Use} (used : use ∈ unit.uses protocol) {member : Member}
    {kind : DeclId → DeclKind} (declares : use.member? = some (member, kind))
    (members : ∀ type, (kind type).isMember = true) :
    member.Declared (unit.resolved protocol extra) kind := by
  have node := mem_useNodes_iff.mpr ⟨use, used, Use.node?_of_member? declares⟩
  have link := numbered.link_type described extra node
  have continues := unit.continues_resolution protocol extra
  cases found : (unit.bindings protocol extra).names.type? (.ofProtocol protocol)
      member.type.name with
  | none =>
      have absent := declOf?_resolved_of_unlinked (link.trans found)
      have record := numbered.recordOf_member_of_unknown described used declares found
      refine ⟨?_, ?_⟩
      · rw [absent, isPoisoned_resolved, record]
        exact ⟨fun _ => rfl, fun _ => rfl⟩
      · intro type typed
        rw [absent] at typed
        cases typed
  | some id =>
      obtain ⟨type, typed, known⟩ := declOf?_resolved (link.trans found)
      obtain ⟨earlier, later, parts⟩ := List.append_of_mem used
      obtain ⟨record, own⟩ := numbered.recordOf_member_of_known described parts declares found
      have linked := congrArg NodeRecord.link record
      refine ⟨?_, ?_⟩
      · rw [typed, isPoisoned_resolved, record]
        simp
      · intro other same
        cases typed.symm.trans same
        obtain ⟨decl, declared, again⟩ := declOf?_resolved linked
        cases own.symm.trans again
        have position := continues.sound.positioned id type known
        refine ⟨_, declared, congrArg kind position.symm, rfl, rfl, ?_⟩
        intro node shared
        exact continues.eq_of_declOf? shared declared (members id)

theorem settled_useNode (numbered : unit.Numbered) (described : unit.protocol = some protocol)
    (extra : List String) {node : UseNode} (used : node ∈ unit.useNodes protocol) :
    ((unit.resolved protocol extra).decls.declOf? node.id).isSome = true ∨
      (unit.resolved protocol extra).isPoisoned node.id = true := by
  have record := numbered.recordOf_useNode described extra used
  cases linked : ((unit.resolution protocol extra).recordOf node.id).link with
  | some id =>
      left
      obtain ⟨decl, declared, _⟩ := declOf?_resolved linked
      rw [declared]
      rfl
  | none =>
      right
      obtain ⟨use, _, names⟩ := mem_useNodes_iff.mp used
      rw [numbered.isPoisoned_useNode described extra used]
      rw [record] at linked
      exact Bindings.useError?_of_unlinked names linked

theorem forall₂_failures (numbered : unit.Numbered) (described : unit.protocol = some protocol)
    (extra : List String) :
    List.Forall₂ (fun error node => error.loc = node.loc ∧ node.Failure error.error)
      ((unit.resolution protocol extra).errors.filter fun error => error.error.isFailure)
      ((unit.useNodes protocol).filter fun node =>
        (unit.resolved protocol extra).isPoisoned node.id) := by
  rw [failures_resolution]
  have poisoned : ((unit.useNodes protocol).filter fun node =>
      (unit.resolved protocol extra).isPoisoned node.id) =
        (unit.useNodes protocol).filter fun node =>
          ((unit.bindings protocol extra).useError? (.ofProtocol protocol) node).isSome := by
    apply List.filter_congr
    intro node used
    rw [numbered.isPoisoned_useNode described extra used]
  rw [poisoned]
  exact Bindings.forall₂_nodeErrors _

/-- A poisoned member has a poisoned type, so it does not go without an error either. -/
theorem poisoned_eq_nil (numbered : unit.Numbered) (described : unit.protocol = some protocol)
    (silent : (unit.resolution protocol extra).errors = []) :
    (unit.resolution protocol extra).poisoned = [] := by
  have failures := numbered.forall₂_failures described extra
  rw [silent, List.filter_nil, List.forall₂_nil_left_iff, List.filter_eq_nil_iff] at failures
  rw [List.eq_nil_iff_forall_not_mem]
  intro id member
  have poisoned : (unit.resolved protocol extra).isPoisoned id = true := by
    simpa [Resolved.isPoisoned, resolved] using member
  rcases exposed_of_poisoned poisoned with ⟨node, used, same⟩ | ⟨declared, inside, same⟩
  · exact failures node used (same ▸ poisoned)
  · obtain ⟨use, used, kind, declares, members⟩ := exists_use_of_member inside
    have node := mem_useNodes_iff.mpr ⟨use, used, Use.node?_of_member? declares⟩
    have account := numbered.declared_member described extra used declares members
    have absent := account.poisoned.mp (same ▸ poisoned)
    rcases numbered.settled_useNode described extra node with found | typePoisoned
    · rw [show (UseNode.type declared.type).id = declared.type.id from rfl, absent] at found
      cases found
    · exact failures _ node typePoisoned

end Numbered

theorem resolve_covers_uses (numbered : unit.Numbered)
    (described : unit.protocol = some protocol) (extra : List String) :
    ∃ reported, unit.resolve extra = .ok reported ∧ unit.Covered protocol reported := by
  refine ⟨_, resolve_eq_ok described extra, ?_⟩
  constructor
  · intro node used
    exact numbered.settled_useNode described extra used
  · exact numbered.useNodes_nodup described
  · exact numbered.forall₂_failures described extra
  · intro field member
    obtain ⟨use, used, declares⟩ := exists_use_of_field member
    exact numbered.declared_member described extra used declares fun _ => rfl
  · intro param member
    obtain ⟨use, used, declares⟩ := exists_use_of_param member
    exact numbered.declared_member described extra used declares fun _ => rfl
  · intro id poisoned
    exact exposed_of_poisoned poisoned
  · intro silent
    exact numbered.poisoned_eq_nil described silent

/-- The type of one parameter is not known, so that type and the parameter are poisoned. -/
theorem channel_missing_covered :
    (channelUnit "Missing").Numbered ∧
      (channelUnit "Missing").protocol = some (channelProtocol "Missing") ∧
      ∃ reported, (channelUnit "Missing").resolve [] = .ok reported ∧
        (channelUnit "Missing").Covered (channelProtocol "Missing") reported ∧
        reported.errors = [⟨.unknownType "Missing", channelLine 8⟩] ∧
        reported.value.poisoned = [⟨14⟩, ⟨15⟩] := by
  have described : (channelUnit "Missing").protocol = some (channelProtocol "Missing") := rfl
  refine ⟨channelUnit_numbered "Missing", described, ?_⟩
  obtain ⟨reported, resolved, covered⟩ :=
    resolve_covers_uses (channelUnit_numbered "Missing") described []
  have same := eq_resolved_of_resolve described resolved
  refine ⟨reported, resolved, covered, ?_, ?_⟩
  · rw [same]
    decide +kernel
  · rw [same]
    decide +kernel

end SourceUnit

end ActorProtocol
