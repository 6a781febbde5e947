import ActorProtocol.Proofs.Naming.Coverage
import ActorProtocol.Proofs.Naming.Protocols

/-!
# Declarations of nodes

The table of a resolved unit is well formed. In a numbered unit every node that
declares something is linked to a declaration of its own, be its name taken or not,
and a member stands in the declaration of the structure or message around it.
-/

namespace ActorProtocol

set_option autoImplicit false

theorem DeclKind.isMember_of_memberType? {kind : DeclKind} {type : DeclId}
    (member : kind.memberType? = some type) : kind.isMember = true := by
  cases kind with
  | field | param => rfl
  | _ => cases member

theorem Home.supports_declared (home : Home) (table : DeclTable) (id : DeclId) (binder : Binder) :
    table.Supports (home.declared id binder) where
  typed := by
    intro type member
    have outside := home.isMember_declared id binder
    rw [DeclKind.isMember_of_memberType? member] at outside
    cases outside
  owned := by
    intro owner belongs
    cases binder <;> cases belongs

namespace Use

theorem memberType?_of_member? {use : Use} {member : Member} {kind : DeclId → DeclKind}
    (declares : use.member? = some (member, kind)) (type : DeclId) :
    (kind type).memberType? = some type := by
  cases use with
  | field | param =>
      cases declares
      rfl
  | _ => cases declares

theorem owner?_of_opening? {use : Use} {node : NodeId} {scope : DeclId → DeclScope}
    (opens : use.opening? = some (node, scope)) (owner : DeclId) :
    (scope owner).owner? = some owner := by
  cases use with
  | openStruct | openMessage =>
      cases opens
      rfl
  | _ => cases opens

end Use

/-! ## References of the table -/

namespace Resolution

/-- No reference of the table dangles, and the owner of the next member is there. -/
structure Placed (resolution : Resolution) : Prop where
  supported : ∀ decl ∈ resolution.table.decls, resolution.table.Supports decl
  opened : ∀ owner, resolution.scope.owner? = some owner →
    ∃ target, resolution.table.decl? owner = some target

theorem placed_ofBindings (home : Home) (binders : List Binder) :
    (ofBindings (.ofBinders home binders)).Placed where
  supported := by
    intro decl member
    obtain ⟨binder, _, id, rfl⟩ := Bindings.exists_binder_of_mem member
    exact home.supports_declared _ id binder
  opened := by
    intro owner belongs
    cases belongs

variable {bindings : Bindings} {binders : List Binder} {home : Home} {resolution : Resolution}

theorem Placed.supports_declared (placed : resolution.Placed)
    (continues : resolution.Continues bindings) (explained : bindings.Explained binders)
    {use : Use} {decl : Decl} (added : decl ∈ resolution.declared bindings.names home use) :
    resolution.table.Supports decl := by
  obtain ⟨⟨member, kind⟩, declares, typed⟩ := Option.bind_eq_some_iff.mp (Option.mem_toList.mp added)
  obtain ⟨type, found, rfl⟩ := Option.map_eq_some_iff.mp typed
  constructor
  · intro asked known
    cases (use.memberType?_of_member? declares type).symm.trans known
    obtain ⟨candidate, _, bound⟩ := Names.type?_eq_some found
    obtain ⟨target, known, isType, _⟩ := explained.types candidate type bound
    exact ⟨target, continues.grows type target known, isType⟩
  · exact placed.opened

theorem Placed.use (placed : resolution.Placed) (continues : resolution.Continues bindings)
    (explained : bindings.Explained binders) (use : Use) :
    (resolution.use bindings.names home use).Placed := by
  have grows : resolution.table.Extends (resolution.use bindings.names home use).table :=
    continues.extends_useAll explained [use]
  constructor
  · exact DeclTable.supported_of_append (resolution.decls_use bindings.names home use) grows
      placed.supported fun _ added => placed.supports_declared continues explained added
  · intro owner belongs
    cases opens : use.opening? with
    | none =>
        rw [resolution.scope_use_of_closed bindings.names home opens] at belongs
        obtain ⟨target, known⟩ := placed.opened owner belongs
        exact ⟨target, grows owner target known⟩
    | some opening =>
        obtain ⟨node, scope⟩ := opening
        rw [resolution.scope_use_of_opening bindings.names home opens] at belongs
        dsimp only [openScope] at belongs
        cases linked : resolution.table.linkOf? node with
        | none =>
            rw [linked] at belongs
            cases belongs
        | some place =>
            rw [linked] at belongs
            cases (Use.owner?_of_opening? opens place).symm.trans belongs
            obtain ⟨target, known⟩ := continues.sound.linked node owner linked
            exact ⟨target, grows owner target known⟩

theorem Placed.useAll (placed : resolution.Placed) (continues : resolution.Continues bindings)
    (explained : bindings.Explained binders) (uses : List Use) :
    (resolution.useAll bindings.names home uses).Placed := by
  induction uses generalizing resolution with
  | nil => exact placed
  | cons use uses ih =>
      exact ih (placed.use continues explained use) (continues.use explained use)

end Resolution

theorem SourceUnit.wellFormed_resolution (unit : SourceUnit) (protocol : Protocol)
    (extra : List String) : (unit.resolution protocol extra).table.WellFormed where
  toSound := (unit.continues_resolution protocol extra).sound
  supported := by
    rw [resolution_eq]
    exact ((Resolution.placed_ofBindings _ _).useAll (unit.continues_bindings protocol extra)
      (unit.explained_bindings protocol extra) _).supported

/-! ## Nodes that declare -/

/-- The node at which a binder makes its declaration in any case. -/
def Binder.declaringNode? : Binder → Option NodeId
  | .typeDecl type => some type.id
  | .ownProtocol protocol => some protocol.id
  | .included file => some file.id
  | .message bound => some bound.id
  | .builtinType _ | .sentinel _ | .usingType _ | .sourceState _ => none

namespace Bindings

variable {home : Home} {bindings : Bindings} {binder : Binder}

theorem declares_of_declaringNode? {node : NodeId} (declaring : binder.declaringNode? = some node) :
    binder.declares = true := by
  cases binder <;> first | rfl | cases declaring

/-- What a binder declares in any case makes the table larger. -/
theorem size_ofBinders_lt (home : Home) (first later : List Binder) {node : NodeId}
    (declaring : binder.declaringNode? = some node) :
    (ofBinders home first).table.size < (ofBinders home (first ++ binder :: later)).table.size := by
  obtain ⟨added, grown⟩ := decls_ofBinders_append home (first ++ [binder]) later
  rw [List.append_assoc, List.singleton_append, ofBinders_concat,
    decls_bind_of_declares (declares_of_declaringNode? declaring)] at grown
  unfold DeclTable.size
  rw [grown, List.length_append, List.length_append, List.length_singleton]
  omega

/-- Binders that declare something under the same id are one binder. -/
theorem eq_of_nextId {first later first' later' : List Binder} {binder' : Binder}
    {node node' : NodeId} (declaring : binder.declaringNode? = some node)
    (declaring' : binder'.declaringNode? = some node')
    (parts : first ++ binder :: later = first' ++ binder' :: later')
    (same : (ofBinders home first).table.nextId = (ofBinders home first').table.nextId) :
    binder = binder' := by
  have size : (ofBinders home first).table.size = (ofBinders home first').table.size :=
    congrArg DeclId.position same
  rcases List.append_eq_append_iff.mp parts with ⟨between, longer, rest⟩ | ⟨between, longer, rest⟩
  · cases between with
    | nil => exact (List.cons.inj rest).1
    | cons next between =>
        obtain ⟨rfl, _⟩ := List.cons.inj rest
        have less := size_ofBinders_lt home first between declaring
        rw [← longer] at less
        omega
  · cases between with
    | nil => exact (List.cons.inj rest).1.symm
    | cons next between =>
        obtain ⟨rfl, _⟩ := List.cons.inj rest
        have less := size_ofBinders_lt home first' between declaring'
        rw [← longer] at less
        omega

theorem linkOf?_bind_of_declaringNode? {node : NodeId}
    (declaring : binder.declaringNode? = some node) :
    (bindings.bind home binder).table.linkOf? node = some bindings.table.nextId := by
  have outcome := bind_cases home bindings binder
  generalize bindings.bind home binder = after at outcome ⊢
  cases outcome with
  | typeDecl | typeDeclAgain | ownProtocol | included | includedAgain | message | messageAgain =>
      cases declaring
      refine (DeclTable.linkOf?_record _ _ _ _).trans ((if_pos rfl).trans ?_)
      rw [id_next]
  | _ => cases declaring

/-- The declaration of a binder that always makes one stays where it was put. -/
theorem decl?_of_declares (home : Home) (first later : List Binder)
    (declares : binder.declares = true) :
    (ofBinders home (first ++ binder :: later)).table.decl? (ofBinders home first).table.nextId =
      some (home.declared (ofBinders home first).table.nextId binder) := by
  have whole : first ++ binder :: later = first ++ [binder] ++ later := by
    rw [List.append_assoc, List.singleton_append]
  rw [whole]
  apply extends_ofBinders home (first ++ [binder]) later
  unfold DeclTable.decl?
  rw [ofBinders_concat, decls_bind_of_declares declares]
  exact List.getElem?_concat_length

/-- The node keeps the declaration that its binder made, unless another one takes it. -/
theorem declaration_of_binder (home : Home) (first : List Binder) {later : List Binder}
    {node : NodeId} (declaring : binder.declaringNode? = some node)
    (unbound : node ∉ later.flatMap Binder.nodes) :
    (ofBinders home (first ++ binder :: later)).table.linkOf? node =
        some (ofBinders home first).table.nextId ∧
      (ofBinders home (first ++ binder :: later)).table.decl? (ofBinders home first).table.nextId =
        some (home.declared (ofBinders home first).table.nextId binder) := by
  have whole : first ++ binder :: later = first ++ [binder] ++ later := by
    rw [List.append_assoc, List.singleton_append]
  refine ⟨?_, decl?_of_declares home first later (declares_of_declaringNode? declaring)⟩
  rw [whole, linkOf?_append_of_outside unbound, ofBinders_concat]
  exact linkOf?_bind_of_declaringNode? declaring

end Bindings

/-! ## Members and what they belong to -/

namespace Use

/-- The place of a member: after what opens its scope, with nothing else opened since. -/
def Within (opening use : Use) (uses : List Use) : Prop :=
  ∃ before inside after, uses = before ++ opening :: (inside ++ use :: after) ∧
    ∀ other ∈ inside, other.opening? = none

variable {opening use : Use} {uses : List Use}

theorem Within.append (within : Within opening use uses) (first last : List Use) :
    Within opening use (first ++ uses ++ last) := by
  obtain ⟨before, inside, after, rfl, closed⟩ := within
  refine ⟨first ++ before, inside, after ++ last, ?_, closed⟩
  simp only [List.append_assoc, List.cons_append]

theorem Within.flatMap {Item : Type} (listed : Item → List Use) {item : Item} {items : List Item}
    (within : Within opening use (listed item)) (member : item ∈ items) :
    Within opening use (items.flatMap listed) := by
  obtain ⟨first, last, rfl⟩ := List.append_of_mem member
  rw [List.flatMap_append, List.flatMap_cons, ← List.append_assoc]
  exact within.append _ _

theorem within_map {members : List Member} {member : Member} (inside : member ∈ members)
    {wrap : Member → Use} (closed : ∀ other, (wrap other).opening? = none) :
    Within opening (wrap member) (opening :: members.map wrap) := by
  obtain ⟨first, last, rfl⟩ := List.append_of_mem inside
  refine ⟨[], first.map wrap, last.map wrap, ?_, ?_⟩
  · rw [List.map_append, List.map_cons, List.nil_append]
  · intro other listed
    obtain ⟨member, _, rfl⟩ := List.mem_map.mp listed
    exact closed member

end Use

/-- A member whose type is known is linked to a declaration in that of its owner. -/
def Member.DeclaredIn (member : Member) (home : Home) (table : DeclTable) (owner : NodeId)
    (scope : DeclId → DeclScope) (kind : DeclId → DeclKind) : Prop :=
  ∀ type, table.declOf? member.type.id = some type →
    ∃ place id, table.declOf? owner = some place ∧
      table.declOf? member.id = some (home.decl id member.name
        (place.fullName ++ "::" ++ member.name) (kind type.id) (scope place.id) member.loc)

namespace SourceUnit

variable {unit : SourceUnit} {protocol : Protocol} {extra : List String}

theorem written_of_declaringNode? (described : unit.protocol = some protocol) {binder : Binder}
    (bound : binder ∈ unit.binders protocol extra) {node : NodeId}
    (declaring : binder.declaringNode? = some node) : node ∈ unit.writtenIds := by
  unfold writtenIds
  rw [described, Option.toList_some, List.flatMap_cons, List.flatMap_nil, List.append_nil]
  cases binder with
  | typeDecl type =>
      cases declaring
      have member := typeDecl_mem_binders.mp bound
      have own : type.id ∈ unit.types.flatMap TypeDecl.writtenIds :=
        List.mem_flatMap.mpr ⟨type, member, List.mem_cons_self⟩
      simp [own]
  | ownProtocol own =>
      cases declaring
      rw [ownProtocol_mem_binders.mp bound]
      simp [Protocol.writtenIds]
  | included file =>
      cases declaring
      have member := included_mem_binders.mp bound
      have own : file.id ∈ unit.includes.map ProtocolInclude.id := List.mem_map_of_mem member
      simp [own]
  | message declared =>
      cases declaring
      have member := message_mem_binders.mp bound
      have own : declared.id ∈ protocol.messages.flatMap Message.writtenIds :=
        List.mem_flatMap.mpr ⟨declared, member, List.mem_cons_self⟩
      simp [Protocol.writtenIds, own]
  | _ => cases declaring

/-- A declaration that a binder made after some others, and what is left of it. -/
structure Made (unit : SourceUnit) (protocol : Protocol) (extra : List String) (binder : Binder)
    (node : NodeId) (id : DeclId) : Prop where
  place : ∃ first later, unit.binders protocol extra = first ++ binder :: later ∧
    id = (Bindings.ofBinders (.ofProtocol protocol) first).table.nextId
  linked : (unit.bindings protocol extra).table.linkOf? node = some id
  declared : (unit.bindings protocol extra).table.decl? id =
    some ((Home.ofProtocol protocol).declared id binder)
  unused : node ∉ (unit.uses protocol).flatMap Use.nodes

namespace Made

variable {binder : Binder} {node : NodeId} {id : DeclId}

theorem linkOf?_resolution (made : unit.Made protocol extra binder node id) :
    (unit.resolution protocol extra).table.linkOf? node = some id := by
  rw [← made.linked]
  exact linkOf?_resolutionAfter made.unused

theorem declOf?_resolved (made : unit.Made protocol extra binder node id) :
    (unit.resolved protocol extra).decls.declOf? node =
      some ((Home.ofProtocol protocol).declared id binder) := by
  obtain ⟨decl, declared, known⟩ := SourceUnit.declOf?_resolved made.linkOf?_resolution
  have final := (unit.continues_resolution protocol extra).grows _ _ made.declared
  rw [declared, ← known]
  exact final

/-- No declaration was made twice. -/
theorem eq_of_same (made : unit.Made protocol extra binder node id) {binder' : Binder}
    {node' : NodeId} (made' : unit.Made protocol extra binder' node' id)
    (declaring : binder.declaringNode? = some node)
    (declaring' : binder'.declaringNode? = some node') : node = node' := by
  obtain ⟨first, later, parts, next⟩ := made.place
  obtain ⟨first', later', parts', next'⟩ := made'.place
  have same := Bindings.eq_of_nextId declaring declaring' (parts.symm.trans parts')
    (next.symm.trans next')
  rw [same] at declaring
  exact Option.some.inj (declaring.symm.trans declaring')

/-- The scope that a use opens at the node stays open until the next one. -/
theorem scope_resolutionAfter (made : unit.Made protocol extra binder node id)
    {before inside : List Use} {opening : Use} {scope : DeclId → DeclScope}
    (unused : node ∉ before.flatMap Use.nodes) (opens : opening.opening? = some (node, scope))
    (closed : ∀ other ∈ inside, other.opening? = none) :
    (unit.resolutionAfter protocol extra (before ++ opening :: inside)).scope = scope id := by
  have earlier : (unit.resolutionAfter protocol extra before).table.linkOf? node = some id :=
    (linkOf?_resolutionAfter unused).trans made.linked
  have split : unit.resolutionAfter protocol extra (before ++ opening :: inside) =
      ((unit.resolutionAfter protocol extra before).use (unit.bindings protocol extra).names
        (.ofProtocol protocol) opening).useAll (unit.bindings protocol extra).names
          (.ofProtocol protocol) inside := List.foldl_append
  rw [split, Resolution.scope_useAll_of_closed _ _ _ closed,
    Resolution.scope_use_of_opening _ _ _ opens]
  dsimp only [Resolution.openScope]
  rw [earlier]

end Made

theorem within_field {type : TypeDecl} (declared : type ∈ unit.types) {field : Member}
    (member : field ∈ type.fields) :
    Use.Within (.openStruct type.id) (.field field) (unit.uses protocol) := by
  have block : Use.Within (.openStruct type.id) (.field field) type.uses := by
    unfold TypeDecl.uses
    unfold TypeDecl.fields at member
    cases body : type.body with
    | struct fields =>
        rw [body] at member
        exact Use.within_map member fun _ => rfl
    | union components =>
        rw [body] at member
        cases member
  exact (block.flatMap TypeDecl.uses declared).append [] protocol.uses

theorem within_param {message : Message} (declared : message ∈ protocol.messages) {param : Member}
    (member : param ∈ message.params) :
    Use.Within (.openMessage message) (.param param) (unit.uses protocol) := by
  let block (message : Message) : List Use := .openMessage message :: message.params.map Use.param
  have listed : Use.Within (.openMessage message) (.param param)
      (protocol.messages.flatMap block) := by
    apply Use.Within.flatMap block _ declared
    exact Use.within_map member fun _ => rfl
  have whole := (listed.append (protocol.protocolNames.map Use.protocolName)
    (protocol.statements.flatMap fun statement =>
      statement.transitions.map Use.transition)).append (unit.types.flatMap TypeDecl.uses) []
  rw [List.append_nil] at whole
  exact whole

/-- The nodes that make a declaration: types, protocols, messages and members. -/
def declaringNodes (unit : SourceUnit) (protocol : Protocol) : List NodeId :=
  unit.types.map TypeDecl.id ++ [protocol.id] ++ unit.includes.map ProtocolInclude.id ++
    protocol.messages.map Message.id ++ (unit.fields ++ protocol.params).map Member.id

/-- Every node that declares something is linked to its own declaration. -/
structure OwnDecls (unit : SourceUnit) (protocol : Protocol) (table : DeclTable) : Prop where
  types : ∀ type ∈ unit.types, ∃ id,
    table.declOf? type.id = some ((Home.ofProtocol protocol).declared id (.typeDecl type))
  own : ∃ id,
    table.declOf? protocol.id = some ((Home.ofProtocol protocol).declared id (.ownProtocol protocol))
  includes : ∀ file ∈ unit.includes, ∃ id,
    table.declOf? file.id = some ((Home.ofProtocol protocol).declared id (.included file))
  messages : ∀ message ∈ protocol.messages, ∃ id,
    table.declOf? message.id = some ((Home.ofProtocol protocol).declared id (.message message))
  fields : ∀ type ∈ unit.types, ∀ field ∈ type.fields,
    field.DeclaredIn (.ofProtocol protocol) table type.id .struct .field
  params : ∀ message ∈ protocol.messages, ∀ param ∈ message.params,
    param.DeclaredIn (.ofProtocol protocol) table message.id .message .param
  apart : ∀ left ∈ unit.declaringNodes protocol, ∀ right ∈ unit.declaringNodes protocol,
    ∀ decl, table.declOf? left = some decl → table.declOf? right = some decl → left = right

namespace Numbered

theorem made (numbered : unit.Numbered) (described : unit.protocol = some protocol)
    {binder : Binder} (bound : binder ∈ unit.binders protocol extra) {node : NodeId}
    (declaring : binder.declaringNode? = some node) :
    ∃ id, unit.Made protocol extra binder node id := by
  have own : node ∈ binder.nodes := by
    cases binder with
    | typeDecl | ownProtocol | included | message =>
        cases declaring
        exact List.mem_cons_self
    | _ => cases declaring
  obtain ⟨first, later, parts⟩ := List.append_of_mem bound
  obtain ⟨unbound, unused⟩ := numbered.binder_node_alone described parts own
    (numbered.nonzero node (written_of_declaringNode? described bound declaring))
  have made := Bindings.declaration_of_binder (.ofProtocol protocol) first declaring unbound
  rw [← parts] at made
  exact ⟨_, ⟨first, later, parts, rfl⟩, made.1, made.2, unused⟩

/-- A member is placed in the declaration that was made for what is open around it. -/
theorem declOf?_within (numbered : unit.Numbered) (described : unit.protocol = some protocol)
    {opening use : Use} (within : opening.Within use (unit.uses protocol)) {node : NodeId}
    {scope : DeclId → DeclScope} (opens : opening.opening? = some (node, scope))
    {member : Member} {kind : DeclId → DeclKind} (declares : use.member? = some (member, kind))
    {binder : Binder} {owner : DeclId} (made : unit.Made protocol extra binder node owner)
    {type : DeclId} (found : (unit.bindings protocol extra).names.type? (.ofProtocol protocol)
      member.type.name = some type) :
    ∃ id, (unit.resolved protocol extra).decls.declOf? member.id =
      some ((Home.ofProtocol protocol).decl id member.name
        (((Home.ofProtocol protocol).declared owner binder).fullName ++ "::" ++ member.name)
        (kind type) (scope owner) member.loc) := by
  obtain ⟨before, inside, after, parts, closed⟩ := within
  have whole : unit.uses protocol = (before ++ opening :: inside) ++ use :: after := by
    rw [parts, List.append_assoc, List.cons_append]
  obtain ⟨record, known⟩ := numbered.recordOf_member_of_known described whole declares found
  have placed : (unit.resolutionAfter protocol extra (before ++ opening :: inside)).scope =
      scope owner := by
    refine made.scope_resolutionAfter ?_ opens closed
    intro used
    apply made.unused
    rw [parts, List.flatMap_append]
    exact List.mem_append_left _ used
  have full : (unit.resolutionAfter protocol extra (before ++ opening :: inside)).memberFullName
      member.name =
        ((Home.ofProtocol protocol).declared owner binder).fullName ++ "::" ++ member.name := by
    have there := (numbered.turn described extra whole).continues.grows _ _ made.declared
    unfold Resolution.memberFullName
    rw [placed, Use.owner?_of_opening? opens, Option.bind_some, there]
  unfold Resolution.memberDecl at known
  rw [placed, full] at known
  obtain ⟨decl, declared, there⟩ := declOf?_resolved (congrArg NodeRecord.link record)
  cases there.symm.trans known
  exact ⟨_, declared⟩

theorem declaredIn (numbered : unit.Numbered) (described : unit.protocol = some protocol)
    {opening use : Use} (within : opening.Within use (unit.uses protocol)) {node : NodeId}
    {scope : DeclId → DeclScope} (opens : opening.opening? = some (node, scope))
    {member : Member} {kind : DeclId → DeclKind} (declares : use.member? = some (member, kind))
    {binder : Binder} (bound : binder ∈ unit.binders protocol extra)
    (declaring : binder.declaringNode? = some node) :
    member.DeclaredIn (.ofProtocol protocol) (unit.resolved protocol extra).decls node scope
      kind := by
  intro type typed
  obtain ⟨owner, made⟩ := numbered.made described bound declaring
  have used : use ∈ unit.uses protocol := by
    obtain ⟨before, inside, after, parts, _⟩ := within
    simp [parts]
  have node := mem_useNodes_iff.mpr ⟨use, used, Use.node?_of_member? declares⟩
  have found : (unit.bindings protocol extra).names.type? (.ofProtocol protocol)
      member.type.name = some type.id := by
    rw [← numbered.link_type described extra node]
    exact ((unit.continues_resolution protocol extra).sound.linkOf?_of_declOf? typed).1
  obtain ⟨id, declared⟩ := numbered.declOf?_within described within opens declares made found
  refine ⟨_, id, made.declOf?_resolved, ?_⟩
  rw [Home.id_declared]
  exact declared

/-- A node that declares something is that of a binder or that of a member. -/
theorem exists_of_declaringNodes (extra : List String) {node : NodeId}
    (listed : node ∈ unit.declaringNodes protocol) :
    (∃ binder ∈ unit.binders protocol extra, binder.declaringNode? = some node) ∨
      ∃ member ∈ unit.fields ++ protocol.params, member.id = node := by
  simp only [declaringNodes, List.mem_append, List.mem_map, List.mem_singleton] at listed
  rcases listed with (((⟨type, member, rfl⟩ | rfl) | ⟨file, member, rfl⟩) |
    ⟨message, member, rfl⟩) | ⟨member, inside, rfl⟩
  · exact Or.inl ⟨.typeDecl type, typeDecl_mem_binders.mpr member, rfl⟩
  · exact Or.inl ⟨.ownProtocol protocol, ownProtocol_mem_binders.mpr rfl, rfl⟩
  · exact Or.inl ⟨.included file, included_mem_binders.mpr member, rfl⟩
  · exact Or.inl ⟨.message message, message_mem_binders.mpr member, rfl⟩
  · exact Or.inr ⟨member, List.mem_append.mpr inside, rfl⟩

/-- The declaration of a member node is that of a member. -/
theorem isMember_of_member (numbered : unit.Numbered) (described : unit.protocol = some protocol)
    {member : Member} (inside : member ∈ unit.fields ++ protocol.params) {decl : Decl}
    (declared : (unit.resolved protocol extra).decls.declOf? member.id = some decl) :
    decl.kind.isMember = true := by
  obtain ⟨use, used, kind, declares, members⟩ := exists_use_of_member inside
  obtain ⟨earlier, later, parts⟩ := List.append_of_mem used
  obtain ⟨linked, known⟩ :=
    (unit.continues_resolution protocol extra).sound.linkOf?_of_declOf? declared
  cases found : (unit.bindings protocol extra).names.type? (.ofProtocol protocol)
      member.type.name with
  | none =>
      have record := numbered.recordOf_member_of_unknown described used declares found
      cases linked.symm.trans (congrArg NodeRecord.link record)
  | some type =>
      obtain ⟨record, there⟩ := numbered.recordOf_member_of_known described parts declares found
      have position := Option.some.inj (linked.symm.trans (congrArg NodeRecord.link record))
      rw [position] at known
      cases known.symm.trans there
      exact members type

theorem eq_of_declaringNodes (numbered : unit.Numbered)
    (described : unit.protocol = some protocol) {left right : NodeId}
    (leftListed : left ∈ unit.declaringNodes protocol)
    (rightListed : right ∈ unit.declaringNodes protocol) {decl : Decl}
    (leftDecl : (unit.resolved protocol extra).decls.declOf? left = some decl)
    (rightDecl : (unit.resolved protocol extra).decls.declOf? right = some decl) :
    left = right := by
  have continues := unit.continues_resolution protocol extra
  rcases exists_of_declaringNodes extra leftListed with leftBound | leftInside
  · rcases exists_of_declaringNodes extra rightListed with rightBound | rightInside
    · obtain ⟨binder, bound, declaring⟩ := leftBound
      obtain ⟨binder', bound', declaring'⟩ := rightBound
      obtain ⟨id, made⟩ := numbered.made described bound declaring
      obtain ⟨id', made'⟩ := numbered.made described bound' declaring'
      have ofLeft := Option.some.inj (made.declOf?_resolved.symm.trans leftDecl)
      have ofRight := Option.some.inj (made'.declOf?_resolved.symm.trans rightDecl)
      have same : id' = id := by
        have ids := congrArg Decl.id (ofRight.trans ofLeft.symm)
        rw [Home.id_declared, Home.id_declared] at ids
        exact ids
      exact made.eq_of_same (same ▸ made') declaring declaring'
    · obtain ⟨member, inside, rfl⟩ := rightInside
      exact continues.eq_of_declOf? leftDecl rightDecl
        (numbered.isMember_of_member described inside rightDecl)
  · obtain ⟨member, inside, rfl⟩ := leftInside
    exact continues.eq_of_declOf? leftDecl rightDecl
      (numbered.isMember_of_member described inside leftDecl)

theorem ownDecls (numbered : unit.Numbered) (described : unit.protocol = some protocol)
    (extra : List String) :
    unit.OwnDecls protocol (unit.resolved protocol extra).decls := by
  have made : ∀ {binder}, binder ∈ unit.binders protocol extra → ∀ {node},
      binder.declaringNode? = some node → ∃ id, (unit.resolved protocol extra).decls.declOf? node =
        some ((Home.ofProtocol protocol).declared id binder) := by
    intro binder bound node declaring
    obtain ⟨id, made⟩ := numbered.made described bound declaring
    exact ⟨id, made.declOf?_resolved⟩
  constructor
  · exact fun type member => made (typeDecl_mem_binders.mpr member) rfl
  · exact made (ownProtocol_mem_binders.mpr rfl) rfl
  · exact fun file member => made (included_mem_binders.mpr member) rfl
  · exact fun message member => made (message_mem_binders.mpr member) rfl
  · intro type member field inside
    exact numbered.declaredIn described (within_field member inside) rfl rfl
      (typeDecl_mem_binders.mpr member) rfl
  · intro message member param inside
    exact numbered.declaredIn described (within_param member inside) rfl rfl
      (message_mem_binders.mpr member) rfl
  · intro left leftListed right rightListed decl leftDecl rightDecl
    exact numbered.eq_of_declaringNodes described leftListed rightListed leftDecl rightDecl

end Numbered

theorem resolve_declares_well (described : unit.protocol = some protocol) (extra : List String) :
    ∃ reported, unit.resolve extra = .ok reported ∧ reported.value.decls.WellFormed ∧
      (unit.Numbered → unit.OwnDecls protocol reported.value.decls) := by
  refine ⟨_, resolve_eq_ok described extra, unit.wellFormed_resolution protocol extra, ?_⟩
  intro numbered
  exact numbered.ownDecls described extra

/-- A channel whose header is declared a second time, with a field of its own. -/
def repeatedChannel : SourceUnit :=
  { channelUnit "Blob" with
    types := (channelUnit "Blob").types ++ [
      ⟨⟨26⟩, "Header", [⟨⟨27⟩, "net", channelLine 14⟩],
        .struct [⟨⟨28⟩, "size", channelType 29 15 "int", channelLine 15⟩], channelLine 14⟩] }

/-- The header that is rejected has its own declaration, and so has its field. -/
theorem repeated_channel_declared :
    repeatedChannel.protocol = some (channelProtocol "Blob") ∧ repeatedChannel.Numbered ∧
      ∃ reported, repeatedChannel.resolve [] = .ok reported ∧
        reported.errors = [⟨.duplicateDecl "net::Header", channelLine 14⟩] ∧
        reported.value.decls.WellFormed ∧
        repeatedChannel.OwnDecls (channelProtocol "Blob") reported.value.decls ∧
        (reported.value.decls.linkOf? ⟨6⟩, reported.value.decls.linkOf? ⟨26⟩) =
          (some ⟨27⟩, some ⟨28⟩) ∧
        (reported.value.decls.declOf? ⟨28⟩).map (fun decl => (decl.fullName, decl.scope)) =
          some ("net::Header::size", .struct ⟨28⟩) := by
  have described : repeatedChannel.protocol = some (channelProtocol "Blob") := rfl
  have numbered : repeatedChannel.Numbered := by
    constructor
    · decide +kernel
    · decide +kernel
  obtain ⟨reported, resolves, wellFormed, own⟩ := resolve_declares_well described []
  have same := eq_resolved_of_resolve described resolves
  refine ⟨described, numbered, reported, resolves, ?_, wellFormed, own numbered, ?_, ?_⟩
  · rw [same]
    decide +kernel
  · rw [same]
    decide +kernel
  · rw [same]
    decide +kernel

end SourceUnit

end ActorProtocol
