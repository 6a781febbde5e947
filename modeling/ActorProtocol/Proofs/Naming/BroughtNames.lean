import ActorProtocol.Proofs.Naming.Protocols
import ActorProtocol.Proofs.Naming.Spelling
import ActorProtocol.Proofs.Naming.TypeScope

/-!
# Base names of types brought in

A type that is brought in is known by its full name in any case. Its base name is bound
with it only where the full name is new, so a builtin type that is brought in stays unknown
by its base name, unless something else has that name. For names that are read from
spellings no other case is left: the first of several equal types that are brought in binds
the base name for all.

The names by which a unit knows types are listed from what is written in it. What each
of them means, when several declarations share it, is not looked at here.
-/

namespace ActorProtocol

set_option autoImplicit false

/-- The names under which a binder makes a type known in any case. -/
def Binder.typeNames : Binder → List String
  | builtinType name => [name]
  | usingType brought => [brought.type.name.text]
  | typeDecl type => [type.qualifiedName.text]
  | ownProtocol protocol => [protocol.qualifiedName.text, protocol.name]
  | included other => [other.protocol]
  | sentinel _ | message _ | sourceState _ => []

namespace UsingType

variable {usings more : List UsingType} {brought other : UsingType}

/-- Whatever is brought in under the same text has the same base name. -/
def Alike (usings : List UsingType) (brought : UsingType) : Prop :=
  ∀ other ∈ usings,
    other.type.name.text = brought.type.name.text ∨ other.type.baseName = brought.type.name.text →
      other.type.baseName = brought.type.baseName

theorem Alike.subset (alike : brought.Alike more) (subset : usings ⊆ more) :
    brought.Alike usings := by
  intro other inside
  exact alike other (subset inside)

theorem Alike.of_text (alike : brought.Alike usings) (inside : other ∈ usings)
    (same : other.type.name.text = brought.type.name.text) : other.Alike usings := by
  intro third within close
  rw [same] at close
  rw [alike third within close, alike other inside (Or.inl same)]

end UsingType

namespace Bindings

variable {home : Home} {bindings : Bindings} {binder : Binder} {binders before : List Binder}
  {usings : List UsingType} {brought : UsingType} {name : String}

/-- A type is known by the name. -/
def Knows (bindings : Bindings) (name : String) : Prop :=
  bindings.names.types.contains name = true

/-- The name is that of the type, or its base name when the full name is new. -/
def Brings (bindings : Bindings) (brought : UsingType) (name : String) : Prop :=
  name = brought.type.name.text ∨
    name = brought.type.baseName ∧ ¬ bindings.Knows brought.type.name.text

theorem knows_nameType (fullName : String) (id : DeclId) :
    (bindings.nameType fullName id).Knows name ↔ bindings.Knows name ∨ name = fullName := by
  rw [or_comm, @eq_comm _ name]
  exact OrderedMap.contains_insert _ _ _ _

theorem knows_nameTypeIfNew (fullName : String) (id : DeclId) :
    (bindings.nameTypeIfNew fullName id).Knows name ↔ bindings.Knows name ∨ name = fullName := by
  rw [or_comm, @eq_comm _ name]
  exact OrderedMap.contains_insertIfNew _ _ _ _

theorem knows_again {fullName : String} (taken : bindings.Knows fullName) :
    bindings.Knows name ↔ bindings.Knows name ∨ name = fullName := by
  constructor
  · exact Or.inl
  · rintro (known | rfl)
    · exact known
    · exact taken

theorem knows_bind_brought :
    (bindings.bind home (.usingType brought)).Knows name ↔
      bindings.Knows name ∨ bindings.Brings brought name := by
  have outcome := bind_cases home bindings (.usingType brought)
  generalize bindings.bind home (.usingType brought) = after at outcome ⊢
  cases outcome with
  | usingType absent =>
      have new : ¬ bindings.Knows brought.type.name.text := by
        unfold Knows
        rw [absent]
        exact Bool.false_ne_true
      rw [Brings, and_iff_left new, ← or_assoc, ← knows_nameType _ bindings.table.nextId]
      exact knows_nameTypeIfNew _ _
  | usingTypeAgain taken =>
      have known : bindings.Knows brought.type.name.text := OrderedMap.contains_of_find? taken
      have same : ¬ (name = brought.type.baseName ∧ ¬ bindings.Knows brought.type.name.text) :=
        fun new => new.2 known
      rw [Brings, or_iff_left same]
      exact knows_again known

theorem knows_bind_other (kept : bindings.Kept binders)
    (other : ∀ brought, binder ≠ .usingType brought) :
    (bindings.bind home binder).Knows name ↔ bindings.Knows name ∨ name ∈ binder.typeNames := by
  have outcome := bind_cases home bindings binder
  generalize bindings.bind home binder = after at outcome ⊢
  cases outcome with
  | builtinType | typeDecl =>
      rw [Binder.typeNames, List.mem_singleton]
      exact knows_nameType _ _
  | builtinTypeAgain taken | typeDeclAgain taken =>
      rw [Binder.typeNames, List.mem_singleton]
      exact knows_again taken
  | usingType | usingTypeAgain => exact absurd rfl (other _)
  | @ownProtocol protocol =>
      rw [Binder.typeNames, List.mem_cons, List.mem_singleton, ← or_assoc,
        ← knows_nameType _ bindings.table.nextId]
      exact knows_nameType _ _
  | included =>
      rw [Binder.typeNames, List.mem_singleton]
      exact knows_nameType _ _
  | includedAgain taken =>
      rw [Binder.typeNames, List.mem_singleton]
      exact knows_again (kept.protocols _ taken)
  | sentinel | message | messageAgain | sourceState | sourceStateAgain =>
      exact (or_iff_left List.not_mem_nil).symm

theorem knows_append_other (other : ∀ brought, .usingType brought ∉ binders) :
    (ofBinders home (before ++ binders)).Knows name ↔
      (ofBinders home before).Knows name ∨ name ∈ binders.flatMap Binder.typeNames := by
  induction binders using List.reverseRecOn with
  | nil =>
      rw [List.append_nil]
      exact (or_iff_left List.not_mem_nil).symm
  | append_singleton binders binder ih =>
      have last : ∀ brought, binder ≠ .usingType brought := by
        rintro brought rfl
        exact other brought (List.mem_append_right _ List.mem_cons_self)
      have earlier : ∀ brought, .usingType brought ∉ binders := fun brought member =>
        other brought (List.mem_append_left _ member)
      rw [← List.append_assoc, ofBinders_concat, knows_bind_other (kept_ofBinders home _) last,
        ih earlier, List.flatMap_append, List.mem_append, List.flatMap_singleton, or_assoc]

theorem knows_append (known : (ofBinders home before).Knows name) (binders : List Binder) :
    (ofBinders home (before ++ binders)).Knows name := by
  induction binders using List.reverseRecOn with
  | nil =>
      rw [List.append_nil]
      exact known
  | append_singleton binders binder ih =>
      rw [← List.append_assoc, ofBinders_concat]
      cases binder with
      | usingType brought => exact knows_bind_brought.mpr (Or.inl ih)
      | _ =>
          apply (knows_bind_other (kept_ofBinders home _) _).mpr (Or.inl ih)
          intro brought same
          cases same

/-- What is known after types are brought in was known before, or one of them brings it. -/
theorem brought_of_knows
    (known : (ofBinders home (before ++ usings.map .usingType)).Knows name) :
    (ofBinders home before).Knows name ∨
      ∃ brought ∈ usings, (ofBinders home before).Brings brought name := by
  induction usings using List.reverseRecOn generalizing name with
  | nil =>
      rw [List.map_nil, List.append_nil] at known
      exact Or.inl known
  | append_singleton usings last ih =>
      rw [List.map_append, List.map_singleton, ← List.append_assoc, ofBinders_concat,
        knows_bind_brought] at known
      have inside : last ∈ usings ++ [last] := List.mem_append_right _ List.mem_cons_self
      rcases known with known | full | ⟨base, new⟩
      · rcases ih known with earlier | ⟨brought, member, brings⟩
        · exact Or.inl earlier
        · exact Or.inr ⟨brought, List.mem_append_left _ member, brings⟩
      · exact Or.inr ⟨last, inside, Or.inl full⟩
      · exact Or.inr ⟨last, inside, Or.inr ⟨base, fun earlier => new (knows_append earlier _)⟩⟩

theorem knows_full (member : brought ∈ usings) :
    (ofBinders home (before ++ usings.map .usingType)).Knows brought.type.name.text := by
  rcases List.append_of_mem member with ⟨earlier, later, rfl⟩
  rw [List.map_append, List.map_cons, ← List.append_assoc, List.append_cons]
  apply knows_append
  rw [ofBinders_concat]
  exact knows_bind_brought.mpr (Or.inr (Or.inl rfl))

/-- A full name that is new before any type is brought in has its base name known after.
Where it is not new to the type itself, an earlier one of the same text binds the base name. -/
theorem knows_base (alike : brought.Alike usings) (member : brought ∈ usings)
    (new : ¬ (ofBinders home before).Knows brought.type.name.text) :
    (ofBinders home (before ++ usings.map .usingType)).Knows brought.type.baseName := by
  induction usings using List.reverseRecOn generalizing brought with
  | nil => cases member
  | append_singleton usings last ih =>
      have earlier : usings ⊆ usings ++ [last] := List.subset_append_left _ _
      rw [List.map_append, List.map_singleton, ← List.append_assoc, ofBinders_concat,
        knows_bind_brought]
      rcases List.mem_append.mp member with inside | atEnd
      · exact Or.inl (ih (alike.subset earlier) inside new)
      · obtain rfl := List.mem_singleton.mp atEnd
        by_cases known : (ofBinders home (before ++ usings.map .usingType)).Knows
            brought.type.name.text
        · left
          -- the full name is that of an earlier type, or a base name that one has bound
          rcases brought_of_knows known with old | ⟨other, inside, full | ⟨base, _⟩⟩
          · exact absurd old new
          · have same := alike other (earlier inside) (Or.inl full.symm)
            have others := (alike.of_text (earlier inside) full.symm).subset earlier
            rw [full] at new
            rw [← same]
            exact ih others inside new
          · have same := alike other (earlier inside) (Or.inr base.symm)
            rw [← same, ← base]
            exact known
        · right
          exact Or.inr ⟨rfl, known⟩

theorem knows_append_brought (alike : ∀ brought ∈ usings, brought.Alike usings) :
    (ofBinders home (before ++ usings.map .usingType)).Knows name ↔
      (ofBinders home before).Knows name ∨
        ∃ brought ∈ usings, (ofBinders home before).Brings brought name := by
  constructor
  · exact brought_of_knows
  · rintro (known | ⟨brought, member, rfl | ⟨rfl, new⟩⟩)
    · exact knows_append known _
    · exact knows_full member
    · exact knows_base (alike brought member) member new

end Bindings

namespace SourceUnit

variable {unit : SourceUnit} {protocol : Protocol} {extra : List String} {name : String}

/-- What is bound before any type is brought in. -/
def builtinBinders (extra : List String) : List Binder :=
  (builtinTypes ++ extra).map Binder.builtinType ++ [.sentinel .any, .sentinel .dead]

/-- What is bound once all types are brought in. -/
def declaringBinders (unit : SourceUnit) (protocol : Protocol) : List Binder :=
  unit.types.map Binder.typeDecl ++ .ownProtocol protocol :: unit.laterBinders protocol

/-- The names that a type is known by when it is brought in besides builtin types. -/
def broughtNames (extra : List String) (brought : UsingType) : List String :=
  if brought.type.name.text ∈ builtinTypes ++ extra then [brought.type.name.text]
  else [brought.type.name.text, brought.type.baseName]

/-- The names under which a unit knows types. -/
def knownTypeNames (unit : SourceUnit) (protocol : Protocol) (extra : List String) :
    List String :=
  builtinTypes ++ extra ++ unit.usings.flatMap (broughtNames extra) ++
    unit.types.map (fun type => type.qualifiedName.text) ++
    [protocol.qualifiedName.text, protocol.name] ++
    unit.includes.map ProtocolInclude.protocol

theorem binders_eq_brought (unit : SourceUnit) (protocol : Protocol) (extra : List String) :
    unit.binders protocol extra = builtinBinders extra ++ unit.usings.map .usingType ++
      unit.declaringBinders protocol := by
  simp only [binders, builtinBinders, declaringBinders, laterBinders, List.append_assoc,
    List.nil_append, List.cons_append]

theorem knows_builtin_iff (home : Home) :
    (Bindings.ofBinders home (builtinBinders extra)).Knows name ↔
      name ∈ builtinTypes ++ extra := by
  have other : ∀ brought, Binder.usingType brought ∉ builtinBinders extra := by
    simp [builtinBinders]
  have none : ¬ (Bindings.ofBinders home []).Knows name := nofun
  rw [← List.nil_append (builtinBinders extra), Bindings.knows_append_other other,
    or_iff_right none, builtinBinders, List.flatMap_append, List.flatMap_map]
  change name ∈ (builtinTypes ++ extra).flatMap (fun name => [name]) ++ [] ↔ _
  rw [List.append_nil, List.flatMap_singleton']

theorem typeNames_declaring :
    name ∈ (unit.declaringBinders protocol).flatMap Binder.typeNames ↔
      name ∈ unit.types.map (fun type => type.qualifiedName.text) ++
        [protocol.qualifiedName.text, protocol.name] ++
        unit.includes.map ProtocolInclude.protocol := by
  simp [declaringBinders, laterBinders, Binder.typeNames, List.flatMap_append,
    @eq_comm _ name]

theorem knows_declaring_iff :
    (unit.bindings protocol extra).Knows name ↔
      (Bindings.ofBinders (.ofProtocol protocol)
        (builtinBinders extra ++ unit.usings.map .usingType)).Knows name ∨
        name ∈ (unit.declaringBinders protocol).flatMap Binder.typeNames := by
  have other : ∀ brought, Binder.usingType brought ∉ unit.declaringBinders protocol := by
    simp [declaringBinders, laterBinders]
  rw [bindings, binders_eq_brought]
  exact Bindings.knows_append_other other

theorem mem_broughtNames_iff {brought : UsingType} (home : Home) :
    name ∈ broughtNames extra brought ↔
      (Bindings.ofBinders home (builtinBinders extra)).Brings brought name := by
  unfold broughtNames Bindings.Brings
  rw [knows_builtin_iff home]
  by_cases builtin : brought.type.name.text ∈ builtinTypes ++ extra
  · rw [if_pos builtin, List.mem_singleton, or_iff_left]
    exact fun new => new.2 builtin
  · rw [if_neg builtin, List.mem_cons, List.mem_singleton, and_iff_left builtin]

theorem knows_full_name {brought : UsingType} (member : brought ∈ unit.usings) :
    (unit.bindings protocol extra).Knows brought.type.name.text :=
  knows_declaring_iff.mpr (Or.inl (Bindings.knows_full member))

theorem knows_base_name {brought : UsingType} (alike : brought.Alike unit.usings)
    (member : brought ∈ unit.usings) (new : brought.type.name.text ∉ builtinTypes ++ extra) :
    (unit.bindings protocol extra).Knows brought.type.baseName := by
  apply knows_declaring_iff.mpr
  left
  apply Bindings.knows_base alike member
  rw [knows_builtin_iff]
  exact new

theorem knows_bindings_iff (alike : ∀ brought ∈ unit.usings, brought.Alike unit.usings) :
    (unit.bindings protocol extra).Knows name ↔ name ∈ unit.knownTypeNames protocol extra := by
  rw [knows_declaring_iff, Bindings.knows_append_brought alike, knows_builtin_iff,
    typeNames_declaring, knownTypeNames]
  simp only [List.append_assoc, List.mem_append, List.mem_flatMap,
    mem_broughtNames_iff (.ofProtocol protocol), or_assoc]

theorem alike_of_parsed
    (parsed : ∀ brought ∈ unit.usings, ∃ spelling, brought.type.name = .parse spelling) :
    ∀ brought ∈ unit.usings, brought.Alike unit.usings := by
  intro brought member other inside close
  rcases parsed brought member with ⟨spelling, read⟩
  rcases parsed other inside with ⟨spelled, same⟩
  unfold TypeRef.baseName at close ⊢
  rw [read, QualifiedName.text_parse, same, QualifiedName.text_parse] at close
  rw [read, same]
  rcases close with rfl | rfl
  · rfl
  · rw [QualifiedName.parse_base]

theorem not_known_of_reported {loc : Location}
    (reported : ⟨.unknownType name, loc⟩ ∈ (unit.resolution protocol extra).errors) :
    ¬ (unit.bindings protocol extra).Knows name := by
  rcases unknown_of_reported reported with ⟨spelled, same, missing⟩
  have outermost := Names.candidate_eq_none_of_type? missing (Nat.zero_le _)
  have unbound : (unit.bindings protocol extra).names.types.contains name = false := by
    rw [← OrderedMap.find?_eq_none_iff, ← same]
    exact outermost
  exact Bool.eq_false_iff.mp unbound

/-- Types that are brought in are known by their names as far as builtin types allow. -/
structure KnowsBrought (unit : SourceUnit) (protocol : Protocol) (extra : List String)
    (errors : List (Located NamingError)) : Prop where
  fullName : ∀ brought ∈ unit.usings, ∀ loc,
    ⟨.unknownType brought.type.name.text, loc⟩ ∉ errors
  baseName : ∀ brought ∈ unit.usings, brought.Alike unit.usings →
    brought.type.name.text ∉ builtinTypes ++ extra →
      ∀ loc, ⟨.unknownType brought.type.baseName, loc⟩ ∉ errors
  reported_iff : (∀ brought ∈ unit.usings, brought.Alike unit.usings) →
    ∀ type ∈ unit.typeRefs, ⟨.unknownType type.name.text, type.loc⟩ ∈ errors ↔
      ∀ depth ≤ (Home.ofProtocol protocol).namespaces.length,
        (Home.ofProtocol protocol).candidate type.name.text depth ∉
          unit.knownTypeNames protocol extra

theorem resolve_knows_brought (described : unit.protocol = some protocol)
    (extra : List String) :
    ∃ reported, unit.resolve extra = .ok reported ∧
      unit.KnowsBrought protocol extra reported.errors := by
  refine ⟨_, resolve_eq_ok described extra, ?_, ?_, ?_⟩
  · intro brought member loc reported
    exact not_known_of_reported reported (knows_full_name member)
  · intro brought member alike new loc reported
    exact not_known_of_reported reported (knows_base_name alike member new)
  · intro alike type member
    rw [unknownType_reported_iff ((type_mem_useNodes_iff described).mpr member),
      Names.type?_eq_none_iff]
    apply forall₂_congr
    intro depth bound
    rw [← knows_bindings_iff alike, OrderedMap.find?_eq_none_iff]
    exact Bool.eq_false_iff

def poolLine (line : Nat) : Location := ⟨"PPool.ipdl", line⟩

def poolType (id line : Nat) (spelling : String) : TypeRef :=
  ⟨⟨id⟩, .parse spelling, none, false, false, none, none, poolLine line⟩

def poolProtocol : Protocol where
  id := ⟨4⟩
  name := "PPool"
  namespaces := []
  semantics := .async
  spawns := []
  bridges := []
  managers := []
  manages := []
  messages := [
    ⟨⟨5⟩, "Lend", .async, .outbound, [⟨⟨6⟩, "memory", poolType 7 4 "Shmem", poolLine 4⟩], [],
      poolLine 3⟩]
  statements := [
    ⟨⟨8⟩, ⟨⟨9⟩, "Full", true, poolLine 5⟩, [⟨⟨10⟩, some .send, some "Lend",
      [⟨⟨11⟩, "Full", false, poolLine 6⟩], poolLine 6⟩], poolLine 5⟩]
  loc := poolLine 2

/-- A unit that brings in one type, with a parameter that is spelled `Shmem`. -/
def poolUnit (spelling : String) : SourceUnit :=
  { SourceUnit.ofFile ⟨1⟩ "PPool.ipdl" with
    usings := [⟨⟨2⟩, poolType 3 1 spelling, poolLine 1⟩]
    protocol := some poolProtocol }

/-- A type that is not builtin is known by its base name. -/
theorem pool_base_name_known :
    (poolUnit "pool::Shmem").protocol = some poolProtocol ∧
      ∃ reported, (poolUnit "pool::Shmem").resolve [] = .ok reported ∧
        (poolUnit "pool::Shmem").KnowsBrought poolProtocol [] reported.errors ∧
        ∀ loc, ⟨.unknownType "Shmem", loc⟩ ∉ reported.errors := by
  have described : (poolUnit "pool::Shmem").protocol = some poolProtocol := rfl
  refine ⟨described, ?_⟩
  rcases resolve_knows_brought described [] with ⟨reported, resolves, known⟩
  refine ⟨reported, resolves, known, ?_⟩
  have parsed : ∀ brought ∈ (poolUnit "pool::Shmem").usings,
      ∃ spelling, brought.type.name = .parse spelling := by
    intro brought member
    rw [List.mem_singleton.mp member]
    exact ⟨_, rfl⟩
  have member : ⟨⟨2⟩, poolType 3 1 "pool::Shmem", poolLine 1⟩ ∈
      (poolUnit "pool::Shmem").usings := List.mem_cons_self
  exact known.baseName _ member (alike_of_parsed parsed _ member) (by decide +kernel)

/-- A builtin type that is brought in is not. -/
theorem pool_base_name_unknown :
    ∃ reported, (poolUnit "mozilla::ipc::Shmem").resolve [] = .ok reported ∧
      (poolUnit "mozilla::ipc::Shmem").usings.map (fun brought => brought.type.baseName) =
        ["Shmem"] ∧
      reported.errors = [⟨.unknownType "Shmem", poolLine 4⟩] := by
  refine ⟨_, resolve_eq_ok rfl [], ?_, ?_⟩
  · decide +kernel
  · decide +kernel

end SourceUnit

end ActorProtocol
