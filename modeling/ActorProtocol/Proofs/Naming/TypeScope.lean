import ActorProtocol.Proofs.Naming.Failure

/-!
# Scopes of type names

A spelling is read from within every number of the namespaces around the protocol,
and the innermost reading that is declared is what it means. The main statement
says this of the table that resolution gives, and of every type that a field, a
component or a parameter has: what it is linked to is declared under one of its
readings, and no type of the table has a reading further inside as its full name.
-/

namespace ActorProtocol

set_option autoImplicit false

/-- The full name that a spelling has from within the outermost `depth` namespaces. -/
def Home.candidate (home : Home) (spelling : String) (depth : Nat) : String :=
  QualifiedName.join (home.namespaces.take depth) spelling

/-- The first hit of a search from the last number down is the largest number with a hit. -/
theorem findSome?_downwards {Found : Type} (look : Nat → Option Found) (count : Nat) :
    match (List.range count).reverse.findSome? look with
    | some found => ∃ depth < count, look depth = some found ∧
        ∀ inner, depth < inner → inner < count → look inner = none
    | none => ∀ depth < count, look depth = none := by
  induction count with
  | zero =>
      intro depth below
      omega
  | succ count ih =>
      rw [List.range_succ, List.reverse_append, List.reverse_singleton, List.singleton_append,
        List.findSome?_cons]
      cases last : look count with
      | some found =>
          refine ⟨count, by omega, last, ?_⟩
          intro inner above below
          omega
      | none =>
          dsimp only
          cases earlier : (List.range count).reverse.findSome? look with
          | some found =>
              rw [earlier] at ih
              obtain ⟨depth, below, hit, misses⟩ := ih
              refine ⟨depth, by omega, hit, ?_⟩
              intro inner above bound
              by_cases top : inner = count
              · rw [top]
                exact last
              · exact misses inner above (by omega)
          | none =>
              rw [earlier] at ih
              intro depth bound
              by_cases top : depth = count
              · rw [top]
                exact last
              · exact ih depth (by omega)

namespace Names

variable {names : Names} {home : Home} {name : QualifiedName}

/-- The name means what its innermost candidate is bound to. -/
theorem type?_innermost {id : DeclId} (found : names.type? home name = some id) :
    ∃ depth ≤ home.namespaces.length,
      names.types.find? (home.candidate name.text depth) = some id ∧
      ∀ inner, depth < inner → inner ≤ home.namespaces.length →
        names.types.find? (home.candidate name.text inner) = none := by
  have search := findSome?_downwards
    (fun depth => names.types.find? (home.candidate name.text depth)) (home.namespaces.length + 1)
  have same : (List.range (home.namespaces.length + 1)).reverse.findSome?
      (fun depth => names.types.find? (home.candidate name.text depth)) = some id := by
    rw [← found, type?, Home.candidates, List.findSome?_map]
    rfl
  rw [same] at search
  obtain ⟨depth, below, hit, misses⟩ := search
  refine ⟨depth, by omega, hit, ?_⟩
  intro inner above bound
  exact misses inner above (by omega)

theorem candidate_eq_none_of_type? (missing : names.type? home name = none) {depth : Nat}
    (bound : depth ≤ home.namespaces.length) :
    names.types.find? (home.candidate name.text depth) = none := by
  refine List.findSome?_eq_none_iff.mp missing _ (List.mem_map.mpr ⟨depth, ?_, rfl⟩)
  rw [List.mem_reverse, List.mem_range]
  omega

theorem type?_eq_none_iff :
    names.type? home name = none ↔ ∀ depth ≤ home.namespaces.length,
      names.types.find? (home.candidate name.text depth) = none := by
  constructor
  · intro missing depth bound
    exact candidate_eq_none_of_type? missing bound
  · intro missing
    apply List.findSome?_eq_none_iff.mpr
    intro reading member
    rcases List.mem_map.mp member with ⟨depth, below, rfl⟩
    rw [List.mem_reverse, List.mem_range] at below
    exact missing depth (by omega)

end Names

/-- Some type in the table has the full name. -/
def DeclTable.HasType (table : DeclTable) (fullName : String) : Prop :=
  ∃ decl ∈ table.decls, decl.kind.isType = true ∧ decl.fullName = fullName

/-- A declaration that answers a spelling, with no type declared further inside. -/
structure DeclTable.Answers (table : DeclTable) (binders : List Binder) (home : Home)
    (spelling : String) (decl : Decl) : Prop where
  isType : decl.kind.isType = true
  innermost : ∃ depth ≤ home.namespaces.length,
    decl.KnownAs binders (home.candidate spelling depth) ∧
      ∀ inner, depth < inner → inner ≤ home.namespaces.length →
        ¬ table.HasType (home.candidate spelling inner)

namespace SourceUnit

variable {unit : SourceUnit} {protocol : Protocol} {extra : List String}

/-- Uses declare no types, so a type of the table is found by its full name. -/
theorem not_hasType_of_unbound {fullName : String}
    (unbound : (unit.bindings protocol extra).names.types.find? fullName = none) :
    ¬ (unit.resolution protocol extra).table.HasType fullName := by
  rintro ⟨decl, member, isType, rfl⟩
  obtain ⟨id, known⟩ := (DeclTable.mem_decls_iff _ _).mp member
  have bound := (unit.continues_resolution protocol extra).bound id decl known
    (DeclKind.isMember_of_isType isType)
  have taken := (unit.kept_bindings protocol extra).types id decl bound isType
  rw [(OrderedMap.find?_eq_none_iff _ _).mp unbound] at taken
  cases taken

theorem answers_of_type? {name : QualifiedName} {id : DeclId}
    (found : (unit.bindings protocol extra).names.type? (.ofProtocol protocol) name = some id) :
    ∃ decl, (unit.resolution protocol extra).table.decl? id = some decl ∧
      (unit.resolution protocol extra).table.Answers (unit.binders protocol extra)
        (.ofProtocol protocol) name.text decl := by
  obtain ⟨depth, bound, hit, misses⟩ := Names.type?_innermost found
  obtain ⟨decl, known, isType, named⟩ := (unit.explained_bindings protocol extra).types _ id hit
  refine ⟨decl, (unit.continues_resolution protocol extra).grows id decl known, isType, depth,
    bound, named, ?_⟩
  intro inner above within
  exact not_hasType_of_unbound (misses inner above within)

/-- A type that is reported as unknown is so wherever it is spelled this way. -/
theorem unknown_of_reported {spelling : String} {loc : Location}
    (reported : ⟨.unknownType spelling, loc⟩ ∈ (unit.resolution protocol extra).errors) :
    ∃ name : QualifiedName, name.text = spelling ∧
      (unit.bindings protocol extra).names.type? (.ofProtocol protocol) name = none := by
  obtain ⟨node, _, wrong⟩ := exists_useNode_of_failure reported rfl
  cases node with
  | type used =>
      cases found : (unit.bindings protocol extra).names.type? (.ofProtocol protocol) used.name with
      | none =>
          have spelled : some (NamingError.unknownType used.name.text) =
              some (.unknownType spelling) := by
            rw [← wrong]
            simp [Bindings.useError?, Bindings.typeError?, found]
          cases spelled
          exact ⟨used.name, rfl, found⟩
      | some decl =>
          simp only [Bindings.useError?, Bindings.typeError?, found, Option.bind_eq_some_iff,
            Bindings.stateError?] at wrong
          obtain ⟨state, _, wrong⟩ := wrong
          split at wrong
          · split at wrong <;> cases wrong
          · cases wrong
  | protocolName used | transition used =>
      cases Bindings.failure_of_useError? wrong

/-- A type is reported as unknown exactly when no reading of its spelling is declared. -/
theorem unknownType_reported_iff {type : TypeRef} (used : .type type ∈ unit.useNodes protocol) :
    ⟨.unknownType type.name.text, type.loc⟩ ∈ (unit.resolution protocol extra).errors ↔
      (unit.bindings protocol extra).names.type? (.ofProtocol protocol) type.name = none := by
  constructor
  · intro reported
    obtain ⟨name, same, missing⟩ := unknown_of_reported reported
    unfold Names.type? at missing ⊢
    rw [← same]
    exact missing
  · intro missing
    apply reported_of_useError? used
    simp [Bindings.useError?, Bindings.typeError?, missing]

theorem resolve_answers_innermost (numbered : unit.Numbered)
    (described : unit.protocol = some protocol) (extra : List String) :
    ∃ reported, unit.resolve extra = .ok reported ∧ ∀ type ∈ unit.typeRefs,
      (∀ decl, reported.value.decls.declOf? type.id = some decl →
        reported.value.decls.Answers (unit.binders protocol extra) (.ofProtocol protocol)
          type.name.text decl) ∧
      (reported.value.decls.declOf? type.id = none ↔
        ⟨.unknownType type.name.text, type.loc⟩ ∈ reported.errors) ∧
      (⟨.unknownType type.name.text, type.loc⟩ ∈ reported.errors →
        ∀ depth ≤ (Home.ofProtocol protocol).namespaces.length,
          ¬ reported.value.decls.HasType
            ((Home.ofProtocol protocol).candidate type.name.text depth)) := by
  refine ⟨_, resolve_eq_ok described extra, ?_⟩
  intro type member
  have used := (type_mem_useNodes_iff described).mpr member
  have link := numbered.link_type described extra used
  dsimp only
  rw [unknownType_reported_iff used]
  cases found : (unit.bindings protocol extra).names.type? (.ofProtocol protocol) type.name with
  | some id =>
      obtain ⟨target, known, answers⟩ := answers_of_type? found
      obtain ⟨same, declared, again⟩ := declOf?_resolved (link.trans found)
      cases known.symm.trans again
      rw [declared]
      refine ⟨?_, ?_, ?_⟩
      · intro decl same
        cases same
        exact answers
      · simp
      · intro missing
        cases missing
  | none =>
      rw [declOf?_resolved_of_unlinked (link.trans found)]
      refine ⟨?_, ?_, ?_⟩
      · intro decl linked
        cases linked
      · simp
      · intro _ depth bound
        exact not_hasType_of_unbound (Names.candidate_eq_none_of_type? found bound)

/-- A header is declared in the namespace and another outside, and the one inside is meant. -/
theorem channel_header_innermost :
    (channelUnit "Header").Numbered ∧
      (channelUnit "Header").protocol = some (channelProtocol "Header") ∧
      ∃ reported decl, (channelUnit "Header").resolve [] = .ok reported ∧
        reported.value.decls.declOf? ⟨15⟩ = some decl ∧ decl.fullName = "net::Header" ∧
        reported.value.decls.Answers ((channelUnit "Header").binders (channelProtocol "Header") [])
          (.ofProtocol (channelProtocol "Header")) "Header" decl := by
  have described : (channelUnit "Header").protocol = some (channelProtocol "Header") := rfl
  refine ⟨channelUnit_numbered "Header", described, ?_⟩
  obtain ⟨reported, resolved, answered⟩ :=
    resolve_answers_innermost (channelUnit_numbered "Header") described []
  have table : reported.value = (channelUnit "Header").resolved (channelProtocol "Header") [] := by
    rw [eq_resolved_of_resolve described resolved]
  have linked : (reported.value.decls.declOf? ⟨15⟩).map Decl.fullName = some "net::Header" := by
    rw [table]
    decide +kernel
  obtain ⟨decl, known, full⟩ := Option.map_eq_some_iff.mp linked
  refine ⟨reported, decl, resolved, known, full, ?_⟩
  exact (answered (channelType 15 8 "Header") (by decide)).1 decl known

end SourceUnit

end ActorProtocol
