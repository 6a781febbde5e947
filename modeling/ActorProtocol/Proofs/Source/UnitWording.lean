import ActorProtocol.Proofs.Source.ProtocolWording

/-!
# The words of units

A unit is a row of parts in the order of its sections, and its words are those of its
parts one after another. What is in namespaces has their opening and closing words around
its own.
-/

namespace ActorProtocol

set_option autoImplicit false

inductive PartOutline where
  | header (file : String)
  | included (protocol : String)
  | type (decl : TypeDeclOutline)
  | brought (type : TypeOutline)
  | protocol (protocol : ProtocolOutline)
  deriving DecidableEq

namespace PartOutline

def namespaces : PartOutline → List String
  | header _ | included _ | brought _ => []
  | type decl => decl.namespaces
  | protocol described => described.namespaces

/-- The words of a part within its namespaces. -/
def coreWording : PartOutline → List String
  | header file => ["include", "\"" ++ file ++ "\";"]
  | included name => ["include", "protocol", name, ";"]
  | type decl => decl.body.wording decl.name
  | brought spelled => "using" :: (spelled.wording ++ [";"])
  | protocol described => described.wording

def wording (part : PartOutline) : List String :=
  opening part.namespaces ++ part.coreWording ++ closing part.namespaces

def WellNamed : PartOutline → Prop
  | header file => '\n' ∉ file.toList
  | included name => IsName name
  | type decl => decl.WellNamed
  | brought spelled => spelled.WellNamed
  | protocol described => described.WellNamed

end PartOutline

namespace UnitOutline

def parts (unit : UnitOutline) : List PartOutline :=
  unit.headers.map .header ++ (unit.includes.map .included ++ (unit.types.map .type ++
    (unit.usings.map .brought ++ unit.protocol.toList.map .protocol)))

theorem WellNamed.parts {unit : UnitOutline} (named : unit.WellNamed) :
    ∀ part ∈ unit.parts, part.WellNamed := by
  intro part listed
  simp only [UnitOutline.parts, List.mem_append, List.mem_map] at listed
  rcases listed with ⟨_, member, rfl⟩ | ⟨_, member, rfl⟩ | ⟨_, member, rfl⟩ | ⟨_, member, rfl⟩ |
    ⟨_, member, rfl⟩
  · exact named.headers _ member
  · exact named.includes _ member
  · exact named.types _ member
  · exact named.usings _ member
  · exact named.protocol _ (Option.mem_toList.mp member)

end UnitOutline

namespace SourceUnit

theorem words_header {header : HeaderInclude} (line : '\n' ∉ header.file.toList) :
    words ("include \"" ++ header.file ++ "\";") =
      (PartOutline.header header.file).wording := by
  have quoted : wordsAfter ['"'] (header.file.toList ++ ['"', ';']) =
      [String.ofList ('"' :: (header.file.toList ++ ['"', ';']))] :=
    wordsAfter_quoted rfl (by simp [line])
  have file : String.ofList ('"' :: (header.file.toList ++ ['"', ';'])) =
      "\"" ++ header.file ++ "\";" := by
    apply String.toList_inj.mp
    simp
  simp [words, wordsAfter, marks, putWord, quoted, file, PartOutline.wording, opening, closing,
    PartOutline.namespaces, PartOutline.coreWording]

theorem words_included {included : ProtocolInclude} (named : IsName included.protocol) :
    words ("include protocol " ++ included.protocol ++ ";") =
      (PartOutline.included included.protocol).wording := by
  simp [words, wordsAfter, marks, putWord, separators, named.isWord.writes.follow,
    PartOutline.wording, opening, closing, PartOutline.namespaces, PartOutline.coreWording]

theorem words_brought {type : TypeRef} (named : type.outline.WellNamed) :
    words ("using " ++ type.source ++ ";") = (PartOutline.brought type.outline).wording := by
  rw [TypeRef.words_using named]
  simp [PartOutline.wording, opening, closing, PartOutline.namespaces, PartOutline.coreWording]

/-- The words of a text are those of the outline. -/
theorem words_text {unit : SourceUnit} (named : unit.outline.WellNamed) :
    words unit.text = unit.outline.parts.flatMap PartOutline.wording := by
  have headers : unit.headers.flatMap (fun header =>
      words ("include \"" ++ header.file ++ "\";")) =
        (unit.headers.map HeaderInclude.file).flatMap fun file =>
          (PartOutline.header file).wording :=
    flatMap_eq_wording named.headers fun header fits => words_header fits
  have includes : unit.includes.flatMap (fun included =>
      words ("include protocol " ++ included.protocol ++ ";")) =
        (unit.includes.map ProtocolInclude.protocol).flatMap fun protocol =>
          (PartOutline.included protocol).wording :=
    flatMap_eq_wording named.includes fun included fits => words_included fits
  have types : unit.types.flatMap (fun decl => decl.sourceLines.flatMap words) =
      (unit.types.map TypeDecl.outline).flatMap fun decl => (PartOutline.type decl).wording :=
    flatMap_eq_wording named.types fun decl fits => TypeDecl.flatMap_words_sourceLines fits
  have usings : unit.usings.flatMap (fun brought =>
      words ("using " ++ brought.type.source ++ ";")) =
        (unit.usings.map fun brought => brought.type.outline).flatMap fun type =>
          (PartOutline.brought type).wording :=
    flatMap_eq_wording named.usings fun brought fits => words_brought fits
  have protocols : unit.protocol.toList.flatMap (fun protocol =>
      protocol.sourceLines.flatMap words) =
        (unit.protocol.map Protocol.outline).toList.flatMap fun protocol =>
          (PartOutline.protocol protocol).wording := by
    cases described : unit.protocol with
    | none => rfl
    | some protocol =>
        have fits : protocol.outline.WellNamed :=
          named.protocol protocol.outline (by simp [outline, described])
        rw [Option.map_some, Option.toList_some, Option.toList_some, List.flatMap_singleton,
          List.flatMap_singleton]
        exact Protocol.flatMap_words_sourceLines fits
  unfold text sourceLines includeLines UnitOutline.parts outline
  rw [words_join_lines, flatMap_words_sections]
  simp only [List.flatMap_cons, List.flatMap_nil, List.flatMap_append, List.flatMap_map,
    List.flatMap_assoc, headers, includes, types, usings, protocols, List.append_assoc,
    List.append_nil]

end SourceUnit

end ActorProtocol
