import ActorProtocol.Proofs.Naming.Failure

/-!
# Known protocols

A unit knows its own protocol by its bare name and the others by the names of its
includes. Nothing that is bound before the protocol of the unit is a protocol, so
neither is what a type that is brought in stands for.
-/

namespace ActorProtocol

set_option autoImplicit false

/-- The name under which a binder makes a protocol known. -/
def Binder.protocolName? : Binder → Option String
  | .ownProtocol protocol => some protocol.name
  | .included other => some other.protocol
  | .builtinType _ | .sentinel _ | .usingType _ | .typeDecl _ | .message _ | .sourceState _ => none

theorem Home.protocolName?_declared (home : Home) (id : DeclId) (binder : Binder) :
    binder.protocolName? =
      if (home.declared id binder).kind.isProtocol then some (home.declared id binder).name
      else none := by
  cases binder with
  | typeDecl type =>
      have plain : type.body.kind.isProtocol = false := by cases type.body <;> rfl
      exact (if_neg (by simp [declared, decl, plain])).symm
  | _ => rfl

namespace Bindings

variable {home : Home} {bindings : Bindings} {binder : Binder} {binders : List Binder}

theorem contains_protocols_bind {name : String} :
    (bindings.bind home binder).names.protocols.contains name = true ↔
      bindings.names.protocols.contains name = true ∨ binder.protocolName? = some name := by
  have outcome := bind_cases home bindings binder
  generalize bindings.bind home binder = after at outcome ⊢
  cases outcome with
  | @ownProtocol protocol =>
      change (bindings.names.protocols.insert protocol.name _).contains name = true ↔ _
      rw [OrderedMap.contains_insert, Binder.protocolName?, Option.some_inj, or_comm]
  | @included included =>
      change (bindings.names.protocols.insert included.protocol _).contains name = true ↔ _
      rw [OrderedMap.contains_insert, Binder.protocolName?, Option.some_inj, or_comm]
  | @includedAgain included taken =>
      change bindings.names.protocols.contains name = true ↔ _
      rw [Binder.protocolName?, Option.some_inj]
      constructor
      · exact Or.inl
      · rintro (known | same)
        · exact known
        · exact same ▸ taken
  | _ => exact (or_iff_left nofun).symm

/-- A protocol is known by a name exactly when some binder makes it so. -/
theorem contains_protocols_iff {name : String} :
    (ofBinders home binders).names.protocols.contains name = true ↔
      ∃ binder ∈ binders, binder.protocolName? = some name :=
  known_ofBinders_iff (fun bindings => bindings.names.protocols.contains name = true) nofun
    (fun _ _ => contains_protocols_bind) binders

theorem known_of_isProtocol {decl : Decl}
    (member : decl ∈ (ofBinders home binders).table.decls)
    (protocol : decl.kind.isProtocol = true) :
    (ofBinders home binders).names.protocols.contains decl.name = true := by
  rcases exists_binder_of_mem member with ⟨binder, bound, id, rfl⟩
  apply contains_protocols_iff.mpr
  refine ⟨binder, bound, ?_⟩
  rw [home.protocolName?_declared id binder, if_pos protocol]

end Bindings

namespace SourceUnit

variable {unit : SourceUnit} {protocol : Protocol} {extra : List String}

/-- What is bound before the protocol of the unit. -/
def plainBinders (unit : SourceUnit) (extra : List String) : List Binder :=
  (builtinTypes ++ extra).map Binder.builtinType ++ [.sentinel .any, .sentinel .dead] ++
    unit.usings.map Binder.usingType ++ unit.types.map Binder.typeDecl

/-- What is bound after the protocol of the unit. -/
def laterBinders (unit : SourceUnit) (protocol : Protocol) : List Binder :=
  unit.includes.map Binder.included ++ protocol.messages.map Binder.message ++
    protocol.statements.map fun statement => .sourceState statement.state

theorem binders_eq (unit : SourceUnit) (protocol : Protocol) (extra : List String) :
    unit.binders protocol extra =
      unit.plainBinders extra ++ .ownProtocol protocol :: unit.laterBinders protocol := by
  simp only [binders, plainBinders, laterBinders, List.append_assoc, List.nil_append,
    List.cons_append]

theorem bindings_eq (unit : SourceUnit) (protocol : Protocol) (extra : List String) :
    unit.bindings protocol extra = .ofBinders (.ofProtocol protocol)
      (unit.plainBinders extra ++ .ownProtocol protocol :: unit.laterBinders protocol) := by
  rw [bindings, binders_eq]

theorem protocolName?_of_plain {binder : Binder} (bound : binder ∈ unit.plainBinders extra) :
    binder.protocolName? = none := by
  simp only [plainBinders, List.mem_append, List.mem_map, List.mem_cons, List.not_mem_nil,
    or_false] at bound
  rcases bound with ((⟨_, _, rfl⟩ | rfl | rfl) | ⟨_, _, rfl⟩) | ⟨_, _, rfl⟩ <;> rfl

theorem ne_ownProtocol_of_later {binder : Binder} (bound : binder ∈ unit.laterBinders protocol)
    (own : Protocol) : binder ≠ .ownProtocol own := by
  simp only [laterBinders, List.mem_append, List.mem_map] at bound
  rcases bound with (⟨_, _, rfl⟩ | ⟨_, _, rfl⟩) | ⟨_, _, rfl⟩ <;> exact nofun

theorem typeDecl_mem_binders {type : TypeDecl} :
    .typeDecl type ∈ unit.binders protocol extra ↔ type ∈ unit.types := by
  simp [binders]

theorem message_mem_binders {message : Message} :
    .message message ∈ unit.binders protocol extra ↔ message ∈ protocol.messages := by
  simp [binders]

theorem included_mem_binders {included : ProtocolInclude} :
    .included included ∈ unit.binders protocol extra ↔ included ∈ unit.includes := by
  simp [binders]

theorem ownProtocol_mem_binders {own : Protocol} :
    .ownProtocol own ∈ unit.binders protocol extra ↔ own = protocol := by
  simp [binders]

theorem contains_protocols_bindings_iff {name : String} :
    (unit.bindings protocol extra).names.protocols.contains name = true ↔
      protocol.name = name ∨ ∃ included ∈ unit.includes, included.protocol = name := by
  unfold bindings
  rw [Bindings.contains_protocols_iff]
  constructor
  · rintro ⟨binder, bound, named⟩
    cases binder with
    | ownProtocol own =>
        rw [ownProtocol_mem_binders.mp bound] at named
        exact Or.inl (Option.some.inj named)
    | included included =>
        exact Or.inr ⟨included, included_mem_binders.mp bound, Option.some.inj named⟩
    | _ => cases named
  · rintro (rfl | ⟨included, member, rfl⟩)
    · exact ⟨_, ownProtocol_mem_binders.mpr rfl, rfl⟩
    · exact ⟨_, included_mem_binders.mpr member, rfl⟩

/-- What a binder declares is all that resolution knows besides members. -/
theorem exists_binder_of_decl? {id : DeclId} {decl : Decl}
    (known : (unit.resolution protocol extra).table.decl? id = some decl)
    (outside : decl.kind.isMember = false) :
    ∃ binder ∈ unit.binders protocol extra, ∃ id,
      decl = (Home.ofProtocol protocol).declared id binder := by
  apply Bindings.exists_binder_of_mem
  rw [DeclTable.mem_decls_iff]
  exact ⟨id, (unit.continues_resolution protocol extra).bound id decl known outside⟩

theorem fullName_of_protocol {id : DeclId} {decl : Decl} {semantics : Semantics}
    (known : (unit.resolution protocol extra).table.decl? id = some decl)
    (kind : decl.kind = .protocol semantics) : decl.fullName = protocol.qualifiedName.text := by
  rcases exists_binder_of_decl? known (by rw [kind]; rfl) with ⟨binder, bound, _, rfl⟩
  cases binder with
  | ownProtocol own =>
      rw [ownProtocol_mem_binders.mp bound]
      rfl
  | typeDecl type =>
      have plain : type.body.kind ≠ .protocol semantics := by cases type.body <;> exact nofun
      exact absurd kind plain
  | _ => cases kind

theorem exists_include_of_decl? {id : DeclId} {decl : Decl} {file : String}
    (known : (unit.resolution protocol extra).table.decl? id = some decl)
    (kind : decl.kind = .includedProtocol file) :
    ∃ included ∈ unit.includes, included.file = file ∧ decl.name = included.protocol ∧
      decl.fullName = included.protocol := by
  rcases exists_binder_of_decl? known (by rw [kind]; rfl) with ⟨binder, bound, _, rfl⟩
  cases binder with
  | included included =>
      refine ⟨included, included_mem_binders.mp bound, ?_, rfl, rfl⟩
      exact DeclKind.includedProtocol.inj kind
  | typeDecl type =>
      have plain : type.body.kind ≠ .includedProtocol file := by cases type.body <;> exact nofun
      exact absurd kind plain
  | _ => cases kind

/-- The node of a type that is brought in is written by its own binder alone. -/
theorem Numbered.brought_node_alone (numbered : unit.Numbered)
    (described : unit.protocol = some protocol) {brought : UsingType}
    (member : brought ∈ unit.usings) :
    brought.type.id ∉ (Binder.ownProtocol protocol :: unit.laterBinders protocol).flatMap
        Binder.nodes ∧
      brought.type.id ∉ (unit.uses protocol).flatMap Use.nodes := by
  have written : brought.type.id ∈ unit.writtenIds := by
    unfold writtenIds
    simp only [List.mem_append, List.mem_flatMap]
    left
    left
    right
    exact ⟨brought, member, by simp [UsingType.writtenIds, TypeRef.writtenIds]⟩
  have bound : .usingType brought ∈ unit.plainBinders [] := by
    simp [plainBinders, member]
  obtain ⟨earlier, later, parts⟩ := List.append_of_mem bound
  have whole : unit.binders protocol [] = earlier ++ .usingType brought ::
      (later ++ .ownProtocol protocol :: unit.laterBinders protocol) := by
    rw [binders_eq, parts, List.append_assoc, List.cons_append]
  obtain ⟨unbound, unused⟩ := numbered.binder_node_alone described whole List.mem_cons_self
    (numbered.nonzero _ written)
  rw [List.flatMap_append, List.mem_append, not_or] at unbound
  exact ⟨unbound.2, unused⟩

/-- A type that is brought in never stands for a protocol. -/
theorem Numbered.brought_plain (numbered : unit.Numbered)
    (described : unit.protocol = some protocol) (extra : List String) {brought : UsingType}
    (member : brought ∈ unit.usings) {decl : Decl}
    (declared : (unit.resolved protocol extra).decls.declOf? brought.type.id = some decl) :
    decl.kind.isProtocol = false := by
  change (unit.resolution protocol extra).table.declOf? brought.type.id = some decl at declared
  rcases numbered.brought_node_alone described member with ⟨unbound, unused⟩
  have link : (unit.resolution protocol extra).table.linkOf? brought.type.id =
      (unit.bindings protocol extra).table.linkOf? brought.type.id :=
    linkOf?_resolutionAfter unused
  rw [bindings_eq, Bindings.linkOf?_append_of_outside unbound] at link
  rcases Option.bind_eq_some_iff.mp declared with ⟨id, linked, known⟩
  have sound := (Bindings.explained_ofBinders (.ofProtocol protocol)
    (unit.plainBinders extra)).sound
  rcases sound.linked _ id (link.symm.trans linked) with ⟨target, found⟩
  have grows := Bindings.extends_ofBinders (.ofProtocol protocol) (unit.plainBinders extra)
    (.ownProtocol protocol :: unit.laterBinders protocol)
  rw [← bindings_eq] at grows
  have final := (unit.continues_resolution protocol extra).grows id target (grows id target found)
  have same : decl = target := Option.some.inj (known.symm.trans final)
  rcases Bindings.exists_binder_of_mem ((DeclTable.mem_decls_iff _ _).mpr ⟨id, found⟩) with
    ⟨binder, bound, place, rfl⟩
  have plain := protocolName?_of_plain bound
  rw [(Home.ofProtocol protocol).protocolName?_declared place binder] at plain
  rw [same]
  simpa using plain

end SourceUnit

end ActorProtocol
