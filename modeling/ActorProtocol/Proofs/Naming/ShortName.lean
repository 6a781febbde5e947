import ActorProtocol.Proofs.Naming.Spelling
import ActorProtocol.Proofs.Naming.TypeNames
import ActorProtocol.Proofs.Naming.TypeScope

/-!
# Short names of types

A short name leaves out the part of the context that the full name begins with, and the
context has the name of the protocol in it. Looking a type up adds only namespaces. So
the short name of a type leads back to it just when the type stands outside the
protocol's own name, its full name still means it, and no other reading of the short
name, from further inside, is taken. In all other cases the short name leads to another
type or to none; a type that stands inside the protocol's own name is found only by the
base name that a type has when it is brought in.
-/

namespace ActorProtocol

set_option autoImplicit false

namespace Home

variable (home : Home)

/-- How much of the context a full name begins with. More than the namespaces is the
name of the protocol with them. -/
def sharedDepth (fullName : String) : Nat :=
  QualifiedName.sharedLength (QualifiedName.parse fullName).qualifiers home.context

variable {home} {fullName : String}

/-- Read from where it was shortened, a short name is the full name. -/
theorem candidate_shortName (outside : home.sharedDepth fullName ≤ home.namespaces.length) :
    home.candidate (QualifiedName.shortName fullName home.context) (home.sharedDepth fullName) =
      fullName := by
  have whole := QualifiedName.join_shortName fullName home.context
  change QualifiedName.join (home.context.take (home.sharedDepth fullName)) _ = _ at whole
  have same : home.context.take (home.sharedDepth fullName) =
      home.namespaces.take (home.sharedDepth fullName) := List.take_append_of_le_length outside
  rw [same] at whole
  exact whole

theorem fullName_of_inside (inside : home.namespaces.length < home.sharedDepth fullName) :
    QualifiedName.join home.context (QualifiedName.shortName fullName home.context) =
      fullName := by
  have whole := QualifiedName.join_shortName fullName home.context
  change QualifiedName.join (home.context.take (home.sharedDepth fullName)) _ = _ at whole
  have all : home.context.length ≤ home.sharedDepth fullName := by
    simp only [context, List.length_append, List.length_singleton]
    exact inside
  rw [List.take_of_length_le all] at whole
  exact whole

theorem length_candidate_lt (spelling : String) {depth inner : Nat} (deeper : depth < inner)
    (bound : inner ≤ home.namespaces.length) :
    (home.candidate spelling depth).length < (home.candidate spelling inner).length := by
  have further : (home.namespaces.drop depth).take (inner - depth) ≠ [] := by
    apply List.ne_nil_of_length_pos
    rw [List.length_take, List.length_drop]
    omega
  have grown : home.namespaces.take inner =
      home.namespaces.take depth ++ (home.namespaces.drop depth).take (inner - depth) := by
    rw [← List.take_add, Nat.add_sub_cancel' (Nat.le_of_lt deeper)]
  unfold candidate
  rw [grown]
  exact QualifiedName.length_join_lt _ further spelling

/-- No reading of a spelling from a namespace is as long as one from inside the protocol. -/
theorem length_candidate_lt_context (spelling : String) (depth : Nat) :
    (home.candidate spelling depth).length < (QualifiedName.join home.context spelling).length := by
  have parts : home.context =
      home.namespaces.take depth ++ (home.namespaces.drop depth ++ [home.protocol]) := by
    rw [← List.append_assoc, List.take_append_drop]
    rfl
  unfold candidate
  rw [parts]
  exact QualifiedName.length_join_lt _ (by simp) spelling

end Home

/-- No name that a type has is longer than its full name. -/
theorem Decl.KnownAs.length_le {binders : List Binder} {decl : Decl} {name : String}
    (known : decl.KnownAs binders name) : name.length ≤ decl.fullName.length := by
  have base : ∀ qualified : QualifiedName, qualified.base.length ≤ qualified.text.length := by
    intro qualified
    unfold QualifiedName.text
    rw [QualifiedName.length_join]
    exact Nat.le_add_left _ _
  cases known with
  | fullName => exact Nat.le_refl _
  | @baseName brought member kind full =>
      rw [full]
      exact base brought.type.name
  | @bareName protocol member kind full =>
      rw [full]
      exact base protocol.qualifiedName

namespace Names

variable {names : Names} {home : Home} {name : QualifiedName}

/-- A name means a declaration from some depth on exactly if that is its innermost hit. -/
theorem type?_of_innermost {id : DeclId} {depth : Nat} (bound : depth ≤ home.namespaces.length)
    (hit : names.types.find? (home.candidate name.text depth) = some id)
    (misses : ∀ inner, depth < inner → inner ≤ home.namespaces.length →
      names.types.find? (home.candidate name.text inner) = none) :
    names.type? home name = some id := by
  cases found : names.type? home name with
  | none =>
      rw [candidate_eq_none_of_type? found bound] at hit
      cases hit
  | some other =>
      obtain ⟨place, within, placed, beyond⟩ := type?_innermost found
      rcases Nat.lt_trichotomy depth place with above | same | below
      · rw [misses place above within] at placed
        cases placed
      · rw [same] at hit
        exact placed.symm.trans hit
      · rw [beyond depth below bound] at hit
        cases hit

end Names

namespace SourceUnit

variable {unit : SourceUnit} {protocol : Protocol} {extra : List String} {decl : Decl}

/-- What a spelled type stands for in the unit. -/
def typeSpelled? (unit : SourceUnit) (protocol : Protocol) (extra : List String)
    (spelling : String) : Option DeclId :=
  (unit.bindings protocol extra).names.type? (.ofProtocol protocol) (.parse spelling)

theorem typeSpelled?_innermost {spelling : String} {id : DeclId}
    (found : unit.typeSpelled? protocol extra spelling = some id) :
    ∃ depth ≤ (Home.ofProtocol protocol).namespaces.length,
      (unit.bindings protocol extra).names.types.find?
          ((Home.ofProtocol protocol).candidate spelling depth) = some id ∧
        ∀ inner, depth < inner → inner ≤ (Home.ofProtocol protocol).namespaces.length →
          (unit.bindings protocol extra).names.types.find?
            ((Home.ofProtocol protocol).candidate spelling inner) = none := by
  have search := Names.type?_innermost found
  rw [QualifiedName.text_parse] at search
  exact search

theorem shortName_of_type (member : decl ∈ (unit.resolution protocol extra).table.types) :
    decl.shortName =
      QualifiedName.shortName decl.fullName (Home.ofProtocol protocol).context := by
  obtain ⟨id, known⟩ := decl?_of_mem_types member
  obtain ⟨binder, _, place, rfl⟩ := exists_binder_of_decl? known
    (DeclKind.isMember_of_isType (DeclTable.mem_types_iff.mp member).2)
  exact (Home.ofProtocol protocol).shortName_declared place binder

/-- A type is in the table of the bindings already, at the position of its id. -/
theorem decl?_bindings_of_type (member : decl ∈ (unit.resolution protocol extra).table.types) :
    (unit.bindings protocol extra).table.decl? decl.id = some decl := by
  obtain ⟨id, known⟩ := decl?_of_mem_types member
  have continues := unit.continues_resolution protocol extra
  rw [continues.sound.positioned id decl known]
  exact continues.bound id decl known
    (DeclKind.isMember_of_isType (DeclTable.mem_types_iff.mp member).2)

/-- Where a name leads to a type, the type is declared under that name. -/
theorem knownAs_of_find? (member : decl ∈ (unit.resolution protocol extra).table.types)
    {name : String}
    (found : (unit.bindings protocol extra).names.types.find? name = some decl.id) :
    decl.KnownAs (unit.binders protocol extra) name := by
  obtain ⟨target, known, _, named⟩ := (unit.explained_bindings protocol extra).types name _ found
  cases known.symm.trans (decl?_bindings_of_type member)
  exact named

theorem exists_type_of_find? {name : String} {id : DeclId}
    (found : (unit.bindings protocol extra).names.types.find? name = some id) :
    ∃ other ∈ (unit.resolution protocol extra).table.types, other.id = id ∧
      other.KnownAs (unit.binders protocol extra) name := by
  obtain ⟨other, known, isType, named⟩ := (unit.explained_bindings protocol extra).types name id
    found
  have continues := unit.continues_resolution protocol extra
  have final := continues.grows id other known
  refine ⟨other, ?_, continues.sound.positioned id other final, named⟩
  exact DeclTable.mem_types_iff.mpr ⟨(DeclTable.mem_decls_iff _ _).mpr ⟨id, final⟩, isType⟩

/-- The full name of a type leads to some type, if not to the type itself. -/
theorem fullName_taken (member : decl ∈ (unit.resolution protocol extra).table.types) :
    (unit.bindings protocol extra).names.types.find? decl.fullName ≠ none := by
  intro missing
  have taken := (unit.kept_bindings protocol extra).types decl.id decl
    (decl?_bindings_of_type member) (DeclTable.mem_types_iff.mp member).2
  rw [(OrderedMap.find?_eq_none_iff _ _).mp missing] at taken
  cases taken

section Outside

variable (member : decl ∈ (unit.resolution protocol extra).table.types)
  (outside : (Home.ofProtocol protocol).sharedDepth decl.fullName ≤
    (Home.ofProtocol protocol).namespaces.length)

include member outside

theorem candidate_shortName_of_type :
    (Home.ofProtocol protocol).candidate decl.shortName
      ((Home.ofProtocol protocol).sharedDepth decl.fullName) = decl.fullName := by
  rw [shortName_of_type member]
  exact Home.candidate_shortName outside

/-- The innermost hit for a short name is no further out than the full name. -/
theorem sharedDepth_le_of_innermost {depth : Nat}
    (misses : ∀ inner, depth < inner → inner ≤ (Home.ofProtocol protocol).namespaces.length →
      (unit.bindings protocol extra).names.types.find?
        ((Home.ofProtocol protocol).candidate decl.shortName inner) = none) :
    (Home.ofProtocol protocol).sharedDepth decl.fullName ≤ depth := by
  by_contra further
  have missing := misses _ (Nat.lt_of_not_le further) outside
  rw [candidate_shortName_of_type member outside] at missing
  exact fullName_taken member missing

theorem typeSpelled?_shortName_iff :
    unit.typeSpelled? protocol extra decl.shortName = some decl.id ↔
      (unit.bindings protocol extra).names.types.find? decl.fullName = some decl.id ∧
        ∀ inner, (Home.ofProtocol protocol).sharedDepth decl.fullName < inner →
          inner ≤ (Home.ofProtocol protocol).namespaces.length →
            (unit.bindings protocol extra).names.types.find?
              ((Home.ofProtocol protocol).candidate decl.shortName inner) = none := by
  have full := candidate_shortName_of_type member outside
  constructor
  · intro found
    obtain ⟨depth, bound, hit, misses⟩ := typeSpelled?_innermost found
    have above := sharedDepth_le_of_innermost member outside misses
    have shorter := (knownAs_of_find? member hit).length_le
    have same : (Home.ofProtocol protocol).sharedDepth decl.fullName = depth := by
      rcases Nat.lt_or_eq_of_le above with deeper | equal
      · have longer := Home.length_candidate_lt decl.shortName deeper bound
        rw [full] at longer
        omega
      · exact equal
    rw [← same] at hit misses
    rw [full] at hit
    exact ⟨hit, misses⟩
  · rintro ⟨hit, misses⟩
    rw [← full] at hit
    apply Names.type?_of_innermost outside
    · rw [QualifiedName.text_parse]
      exact hit
    · rw [QualifiedName.text_parse]
      exact misses

/-- A short name always leads to some type, whose name is at least as far inside. -/
theorem exists_typeSpelled?_shortName :
    ∃ other ∈ (unit.resolution protocol extra).table.types,
      unit.typeSpelled? protocol extra decl.shortName = some other.id ∧
        ∃ depth, (Home.ofProtocol protocol).sharedDepth decl.fullName ≤ depth ∧
          depth ≤ (Home.ofProtocol protocol).namespaces.length ∧
          other.KnownAs (unit.binders protocol extra)
            ((Home.ofProtocol protocol).candidate decl.shortName depth) := by
  cases found : unit.typeSpelled? protocol extra decl.shortName with
  | none =>
      have missing := Names.candidate_eq_none_of_type? found outside
      rw [QualifiedName.text_parse, candidate_shortName_of_type member outside] at missing
      exact absurd missing (fullName_taken member)
  | some id =>
      obtain ⟨depth, bound, hit, misses⟩ := typeSpelled?_innermost found
      obtain ⟨other, inside, rfl, named⟩ := exists_type_of_find? hit
      exact ⟨other, inside, rfl, depth, sharedDepth_le_of_innermost member outside misses, bound,
        named⟩

end Outside

/-- Inside the protocol's own name only a base name is short enough to be found. -/
theorem imported_of_inside (member : decl ∈ (unit.resolution protocol extra).table.types)
    (inside : (Home.ofProtocol protocol).namespaces.length <
      (Home.ofProtocol protocol).sharedDepth decl.fullName)
    (found : unit.typeSpelled? protocol extra decl.shortName = some decl.id) :
    decl.kind = .importedType := by
  have full := Home.fullName_of_inside inside
  rw [← shortName_of_type member] at full
  obtain ⟨depth, _, hit, _⟩ := typeSpelled?_innermost found
  have named := knownAs_of_find? member hit
  have shorter := (Home.ofProtocol protocol).length_candidate_lt_context decl.shortName depth
  generalize spelled : (Home.ofProtocol protocol).candidate decl.shortName depth = name
    at named shorter
  cases named with
  | fullName =>
      rw [full] at shorter
      exact absurd shorter (Nat.lt_irrefl _)
  | baseName _ kind _ => exact kind
  | @bareName own bound _ equal =>
      -- what stands inside the protocol's own name is longer than the protocol itself
      rw [ownProtocol_mem_binders.mp bound] at equal
      have longer : protocol.qualifiedName.text.length <
          (QualifiedName.join (Home.ofProtocol protocol).context decl.shortName).length := by
        unfold Protocol.qualifiedName QualifiedName.text Home.context Home.ofProtocol
        rw [QualifiedName.join_append, QualifiedName.length_join _ protocol.name,
          QualifiedName.length_join _ (QualifiedName.join _ _), QualifiedName.length_join_cons]
        dsimp only
        omega
      rw [full, equal] at longer
      exact absurd longer (Nat.lt_irrefl _)

/-- Types that were shortened by the same part of the context keep apart. -/
theorem eq_of_shortName (distinct : (unit.resolution protocol extra).table.typeNames.Nodup)
    {left right : Decl} (leftMember : left ∈ (unit.resolution protocol extra).table.types)
    (rightMember : right ∈ (unit.resolution protocol extra).table.types)
    (short : left.shortName = right.shortName)
    (shared : (Home.ofProtocol protocol).sharedDepth left.fullName =
      (Home.ofProtocol protocol).sharedDepth right.fullName) : left = right := by
  have whole : ∀ {other}, other ∈ (unit.resolution protocol extra).table.types →
      QualifiedName.join ((Home.ofProtocol protocol).context.take
        ((Home.ofProtocol protocol).sharedDepth other.fullName)) other.shortName =
          other.fullName := by
    intro other member
    rw [shortName_of_type member]
    exact QualifiedName.join_shortName other.fullName _
  have same : left.fullName = right.fullName := by
    rw [← whole leftMember, ← whole rightMember, short, shared]
  exact List.inj_on_of_nodup_map distinct leftMember rightMember same

/-- What the short name of a type leads to. -/
structure ShortNamed (unit : SourceUnit) (protocol : Protocol) (extra : List String)
    (table : DeclTable) (decl : Decl) : Prop where
  found_iff : (Home.ofProtocol protocol).sharedDepth decl.fullName ≤
      (Home.ofProtocol protocol).namespaces.length →
    (unit.typeSpelled? protocol extra decl.shortName = some decl.id ↔
      (unit.bindings protocol extra).names.types.find? decl.fullName = some decl.id ∧
        ∀ inner, (Home.ofProtocol protocol).sharedDepth decl.fullName < inner →
          inner ≤ (Home.ofProtocol protocol).namespaces.length →
            (unit.bindings protocol extra).names.types.find?
              ((Home.ofProtocol protocol).candidate decl.shortName inner) = none)
  leads : (Home.ofProtocol protocol).sharedDepth decl.fullName ≤
      (Home.ofProtocol protocol).namespaces.length →
    ∃ other ∈ table.types, unit.typeSpelled? protocol extra decl.shortName = some other.id ∧
      ∃ depth, (Home.ofProtocol protocol).sharedDepth decl.fullName ≤ depth ∧
        depth ≤ (Home.ofProtocol protocol).namespaces.length ∧
        other.KnownAs (unit.binders protocol extra)
          ((Home.ofProtocol protocol).candidate decl.shortName depth)
  inside : (Home.ofProtocol protocol).namespaces.length <
      (Home.ofProtocol protocol).sharedDepth decl.fullName →
    unit.typeSpelled? protocol extra decl.shortName = some decl.id → decl.kind = .importedType

theorem resolve_short_names (described : unit.protocol = some protocol) (extra : List String) :
    ∃ reported, unit.resolve extra = .ok reported ∧
      (∀ decl ∈ reported.value.decls.types,
        unit.ShortNamed protocol extra reported.value.decls decl) ∧
      (reported.errors = [] → unit.ProtocolsApart protocol reported.value.decls →
        ∀ left ∈ reported.value.decls.types, ∀ right ∈ reported.value.decls.types,
          left.shortName = right.shortName →
            (Home.ofProtocol protocol).sharedDepth left.fullName =
              (Home.ofProtocol protocol).sharedDepth right.fullName → left = right) := by
  refine ⟨_, resolve_eq_ok described extra, ?_, ?_⟩
  · intro decl member
    constructor
    · exact typeSpelled?_shortName_iff member
    · exact exists_typeSpelled?_shortName member
    · exact imported_of_inside member
  · intro silent apart left leftMember right rightMember
    exact eq_of_shortName (distinct_of_apart silent apart) leftMember rightMember

/-- A store in two namespaces, with a header in each of them and an item of its own. -/
def storeProtocol : Protocol :=
  ⟨⟨11⟩, "PStore", [⟨⟨13⟩, "net", ⟨"PStore.ipdl", 4⟩⟩, ⟨⟨12⟩, "ipc", ⟨"PStore.ipdl", 4⟩⟩], .async,
    [], [], [], [], [], [], ⟨"PStore.ipdl", 4⟩⟩

def storeUnit : SourceUnit :=
  let line := Location.mk "PStore.ipdl"
  { SourceUnit.ofFile ⟨1⟩ "PStore.ipdl" with
    types := [
      ⟨⟨2⟩, "Header", [⟨⟨3⟩, "net", line 1⟩], .struct [], line 1⟩,
      ⟨⟨4⟩, "Header", [⟨⟨6⟩, "net", line 2⟩, ⟨⟨5⟩, "ipc", line 2⟩], .struct [], line 2⟩,
      ⟨⟨7⟩, "Item", [⟨⟨10⟩, "net", line 3⟩, ⟨⟨9⟩, "ipc", line 3⟩, ⟨⟨8⟩, "PStore", line 3⟩],
        .struct [], line 3⟩]
    protocol := some storeProtocol }

/-- The inner header is found by its short name. -/
theorem store_header_found :
    storeUnit.protocol = some storeProtocol ∧
      ∃ reported, storeUnit.resolve [] = .ok reported ∧ reported.errors = [] ∧
        ∃ decl ∈ reported.value.decls.types, decl.fullName = "net::ipc::Header" ∧
          storeUnit.typeSpelled? storeProtocol [] "Header" = some decl.id := by
  have described : storeUnit.protocol = some storeProtocol := rfl
  refine ⟨described, ?_⟩
  obtain ⟨reported, resolves, named, _⟩ := resolve_short_names described []
  have table := eq_resolved_of_resolve described resolves
  have silent : reported.errors = [] := by
    rw [table]
    decide +kernel
  have header : ∃ decl ∈ reported.value.decls.types, decl.fullName = "net::ipc::Header" ∧
      decl.shortName = "Header" ∧ (Home.ofProtocol storeProtocol).sharedDepth decl.fullName = 2 ∧
      (storeUnit.bindings storeProtocol []).names.types.find? decl.fullName = some decl.id := by
    rw [table]
    decide +kernel
  obtain ⟨decl, member, full, short, shared, bound⟩ := header
  refine ⟨reported, resolves, silent, decl, member, full, ?_⟩
  rw [← short]
  apply ((named decl member).found_iff (by rw [shared]; decide)).mpr
  refine ⟨bound, ?_⟩
  intro inner deeper within
  rw [shared] at deeper
  exact absurd (Nat.lt_of_lt_of_le deeper within) (Nat.lt_irrefl 2)

/-- Both headers have one short name, and the short name of the item leads nowhere. -/
theorem store_short_names_ambiguous :
    ∃ reported, storeUnit.resolve [] = .ok reported ∧ reported.errors = [] ∧
      (∃ outer ∈ reported.value.decls.types, outer.fullName = "net::Header" ∧
        ∃ inner ∈ reported.value.decls.types, inner.fullName = "net::ipc::Header" ∧
          outer.id ≠ inner.id ∧ outer.shortName = inner.shortName ∧
            storeUnit.typeSpelled? storeProtocol [] outer.shortName = some inner.id) ∧
      ∃ item ∈ reported.value.decls.types, item.fullName = "net::ipc::PStore::Item" ∧
        storeUnit.typeSpelled? storeProtocol [] item.shortName = none := by
  refine ⟨_, resolve_eq_ok rfl [], by decide +kernel, ?_, ?_⟩
  · decide +kernel
  · decide +kernel

end SourceUnit

end ActorProtocol
