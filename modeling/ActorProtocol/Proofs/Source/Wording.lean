import ActorProtocol.Proofs.Source.TypeText
import Mathlib.Data.List.Basic

/-!
# The words of types

The words of the text of a node depend on its outline alone. A type is one word, or two
if it is nullable, and what it is a part of adds the words around it: names, marks,
keywords and the namespaces that are opened and closed.
-/

namespace ActorProtocol

set_option autoImplicit false

theorem IsPlain.of_not_layout {letter : Char} (apart : letter ∉ layoutLetters) :
    IsPlain letter := by
  intro ends
  have layout : ('"' :: separators).all fun letter => layoutLetters.contains letter := by decide
  exact apart (by simpa using List.all_eq_true.mp layout letter ends)

theorem IsName.isWord {name : String} (named : IsName name) : IsWord name :=
  ⟨named.1, fun letter member => .of_not_layout (named.2 letter member)⟩

theorem IsStateName.isWord {name : String} (named : IsStateName name) : IsWord name := by
  rcases named with plain | rfl | rfl
  · exact plain.isWord
  · simp [IsWord, IsPlain, State.anyName, separators, marks]
  · simp [IsWord, IsPlain, State.deadName, separators, marks]

theorem QualifiedName.isWord_join {qualifiers : List String} {base : String}
    (named : ∀ qualifier ∈ qualifiers, IsName qualifier) (base_named : IsName base) :
    IsWord (join qualifiers base) := by
  induction qualifiers with
  | nil => exact base_named.isWord
  | cons qualifier rest ih =>
      have inner := ih fun one member => named one (List.mem_cons_of_mem _ member)
      rw [join_cons, String.append_assoc]
      apply (named qualifier List.mem_cons_self).isWord.append
      intro letter member
      rw [String.toList_append, List.mem_append] at member
      rcases member with colon | member
      · revert letter
        simp [IsPlain, separators, marks]
      · exact inner.2 letter member

namespace TypeOutline

variable {type : TypeOutline}

theorem WellNamed.isWord (named : type.WellNamed) : IsWord type.annotated := by
  obtain ⟨name, spelled, qualifiers, base⟩ := named.segments
  have word : IsWord name.text := QualifiedName.isWord_join qualifiers base
  rw [spelled] at word
  apply word.append
  have brackets_plain : ∀ letter ∈ (brackets type.array).toList, IsPlain letter := by
    cases type.array <;> simp [brackets, IsPlain, separators, marks]
  cases written : type.state with
  | none =>
      rw [annotations, written]
      simpa [stateMark] using brackets_plain
  | some state =>
      have state_plain := (named.state state written).isWord.2
      have colon_plain : IsPlain ':' := by simp [IsPlain, separators, marks]
      rw [annotations, written]
      simp only [stateMark, String.toList_append, List.mem_append]
      intro letter member
      rcases member with (colon | member) | member
      · have same : letter = ':' := by simpa using colon
        exact same ▸ colon_plain
      · exact state_plain letter member
      · exact brackets_plain letter member

def wording (type : TypeOutline) : List String :=
  if type.nullable then ["nullable", type.annotated] else [type.annotated]

end TypeOutline

theorem TypeRef.source_eq (type : TypeRef) :
    type.source = (if type.nullable then "nullable " else "") ++ type.outline.annotated := by
  unfold source TypeOutline.annotated TypeOutline.annotations outline
  cases type.state <;> simp [TypeOutline.stateMark, brackets, String.append_assoc]

theorem TypeRef.writes_source {type : TypeRef} (named : type.outline.WellNamed) :
    Writes type.source type.outline.wording where
  follow := by
    intro rest ended
    have word := named.isWord.writes.follow ended
    have nullable : type.outline.nullable = type.nullable := rfl
    rw [source_eq, TypeOutline.wording, nullable]
    cases type.nullable
    · simp [word]
    · simp [wordsAfter, marks, putWord, word]

def MemberOutline.wording (member : MemberOutline) : List String :=
  member.type.wording ++ [member.name]

theorem Member.writes_source {member : Member} (named : member.outline.WellNamed) :
    Writes member.source member.outline.wording where
  follow := by
    intro rest ended
    have type := TypeRef.writes_source named.type
    have name : Writes member.name [member.name] := named.name.isWord.writes
    have same : member.outline.wording = member.type.outline.wording ++ [member.name] := rfl
    rw [source, String.toList_append, String.toList_append, List.append_assoc, List.append_assoc,
      type.follow (by simp [separators]), same]
    simp [wordsAfter, name.follow ended]

/-- Items in a row are worded one by one, each by its outline. -/
theorem flatMap_eq_wording {Item Outline : Type} {outline : Item → Outline}
    {write : Item → List String} {wording : Outline → List String} {fit : Outline → Prop}
    {items : List Item} (fits : ∀ told ∈ items.map outline, fit told)
    (each : ∀ item, fit (outline item) → write item = wording (outline item)) :
    items.flatMap write = (items.map outline).flatMap wording := by
  rw [List.flatMap_map]
  apply List.flatMap_congr
  intro item member
  exact each item (fits (outline item) (List.mem_map_of_mem member))

theorem Member.words_line {member : Member} (named : member.outline.WellNamed) :
    words (indented (member.source ++ ";")) = member.outline.wording ++ [";"] := by
  simp [words, indented, wordsAfter, marks, (writes_source named).follow, separators]

theorem TypeRef.words_line {type : TypeRef} (named : type.outline.WellNamed) :
    words (indented (type.source ++ ";")) = type.outline.wording ++ [";"] := by
  simp [words, indented, wordsAfter, marks, (writes_source named).follow, separators]

theorem TypeRef.words_using {type : TypeRef} (named : type.outline.WellNamed) :
    words ("using " ++ type.source ++ ";") = "using" :: (type.outline.wording ++ [";"]) := by
  simp [words, wordsAfter, marks, (writes_source named).follow, separators, putWord]

def paramsWording (params : List MemberOutline) : List String :=
  separated "," (params.map MemberOutline.wording)

theorem Member.writes_sourceList {members : List Member}
    (named : ∀ member ∈ members.map outline, member.WellNamed) :
    Writes (sourceList members) (paramsWording (members.map outline)) := by
  unfold sourceList paramsWording
  rw [List.map_map]
  apply writes_intercalate
  · simp [separators, marks]
  · simp [wordsAfter, marks]
  · intro member listed
    exact writes_source (named member.outline (List.mem_map_of_mem listed))

theorem words_blockEnd : words (closeBrace ++ ";") = [closeBrace, ";"] := by
  simp [words, wordsAfter, marks, putWord, closeBrace]

/-- The words that open namespaces. -/
def opening (scopes : List String) : List String :=
  scopes.flatMap fun scope => ["namespace", scope, openBrace]

/-- The words that close namespaces, innermost first. -/
def closing (scopes : List String) : List String :=
  scopes.reverse.flatMap fun scope => [closeBrace, "//", "namespace", scope]

theorem flatMap_words_withinNamespaces {scopes : List Ident} {lines : List String}
    (named : ∀ scope ∈ scopes.map Ident.name, IsName scope) :
    (withinNamespaces scopes lines).flatMap words =
      opening (scopes.map Ident.name) ++ lines.flatMap words ++
        closing (scopes.map Ident.name) := by
  induction scopes with
  | nil => simp [withinNamespaces, opening, closing]
  | cons scope scopes ih =>
      have inner := ih fun one member => named one (List.mem_cons_of_mem _ member)
      have name : Writes scope.name [scope.name] :=
        (named scope.name List.mem_cons_self).isWord.writes
      have opens : words ("namespace " ++ scope.name ++ " " ++ openBrace) =
          ["namespace", scope.name, openBrace] := by
        simp [words, wordsAfter, marks, putWord, name.follow, separators, openBrace]
      have closes : words (closeBrace ++ " // namespace " ++ scope.name) =
          [closeBrace, "//", "namespace", scope.name] := by
        simp [words, wordsAfter, marks, putWord, name.alone, closeBrace]
      simp [withinNamespaces, opens, closes, inner, opening, closing]

def BodyOutline.wording (name : String) : BodyOutline → List String
  | .struct fields =>
      "struct" :: name :: openBrace ::
        (fields.flatMap (fun field => field.wording ++ [";"]) ++ [closeBrace, ";"])
  | .union components =>
      "union" :: name :: openBrace ::
        (components.flatMap (fun component => component.wording ++ [";"]) ++ [closeBrace, ";"])

theorem TypeDecl.flatMap_words_sourceLines {decl : TypeDecl} (named : decl.outline.WellNamed) :
    decl.sourceLines.flatMap words =
      opening decl.outline.namespaces ++ decl.outline.body.wording decl.name ++
        closing decl.outline.namespaces := by
  have name : Writes decl.name [decl.name] := named.name.isWord.writes
  have body := named.body
  unfold sourceLines
  rw [flatMap_words_withinNamespaces named.namespaces]
  unfold outline at body ⊢
  cases written : decl.body with
  | struct fields =>
      rw [written] at body
      have head : words ("struct " ++ decl.name ++ " " ++ openBrace) =
          ["struct", decl.name, openBrace] := by
        simp [words, wordsAfter, marks, putWord, name.follow, separators, openBrace]
      have lines : fields.flatMap (fun field => words (indented (field.source ++ ";"))) =
          (fields.map Member.outline).flatMap fun field => field.wording ++ [";"] :=
        flatMap_eq_wording body fun field fits => Member.words_line fits
      simp [TypeBody.outline, BodyOutline.wording, head, words_blockEnd, List.flatMap_map, lines]
  | union components =>
      rw [written] at body
      have head : words ("union " ++ decl.name ++ " " ++ openBrace) =
          ["union", decl.name, openBrace] := by
        simp [words, wordsAfter, marks, putWord, name.follow, separators, openBrace]
      have lines : components.flatMap (fun component =>
          words (indented (component.source ++ ";"))) =
            (components.map TypeRef.outline).flatMap fun component => component.wording ++ [";"] :=
        flatMap_eq_wording body fun component fits => TypeRef.words_line fits
      simp [TypeBody.outline, BodyOutline.wording, head, words_blockEnd, List.flatMap_map, lines]

end ActorProtocol
