import ActorProtocol.Proofs.Source.Outline
import ActorProtocol.Proofs.Source.Reading

/-!
# The text of a type

A type is written as one word, after the word `nullable` if it is that. The word is read
from the left: a segment ends where its letters end, two colons begin another segment and
one colon the state. A type or a member may be named `nullable` itself, so which of the
two words is meant is known from how many words there are before the next mark.
-/

namespace ActorProtocol

set_option autoImplicit false

/-- A run of letters of one kind ends where another letter comes. -/
theorem append_inj_of_head {Letter : Type} {kind : Letter → Prop}
    {left right rest later : List Letter} (within : ∀ letter ∈ left, kind letter)
    (within' : ∀ letter ∈ right, kind letter)
    (ends : ∀ letter ∈ rest.head?, ¬ kind letter) (ends' : ∀ letter ∈ later.head?, ¬ kind letter)
    (same : left ++ rest = right ++ later) : left = right ∧ rest = later := by
  -- If one run were longer, its next letter would be the one that ends the other.
  have longer : ∀ {left right middle rest later : List Letter}, (∀ letter ∈ right, kind letter) →
      (∀ letter ∈ rest.head?, ¬ kind letter) → right = left ++ middle → rest = middle ++ later →
      middle = [] := by
    intro left right middle rest later within ends whole tail
    cases middle with
    | nil => rfl
    | cons letter middle =>
        rw [tail] at ends
        exact absurd (within letter (by simp [whole])) (ends letter rfl)
  rcases List.append_eq_append_iff.mp same with ⟨middle, whole, tail⟩ | ⟨middle, whole, tail⟩
  · have none := longer within' ends whole tail
    simp [whole, tail, none]
  · have none := longer within ends' whole tail
    simp [whole, tail, none]

theorem IsName.append_inj {name other rest later : String} (named : IsName name)
    (named' : IsName other) (ends : ∀ letter ∈ rest.toList.head?, letter ∈ layoutLetters)
    (ends' : ∀ letter ∈ later.toList.head?, letter ∈ layoutLetters)
    (same : name ++ rest = other ++ later) : name = other ∧ rest = later := by
  have letters := congrArg String.toList same
  rw [String.toList_append, String.toList_append] at letters
  have parts := append_inj_of_head named.2 named'.2
    (fun letter first => not_not_intro (ends letter first))
    (fun letter first => not_not_intro (ends' letter first)) letters
  exact ⟨String.toList_inj.mp parts.1, String.toList_inj.mp parts.2⟩

/-- What may follow the last segment of a name. -/
structure EndsSegments (text : String) : Prop where
  layout : ∀ letter ∈ text.toList.head?, letter ∈ layoutLetters
  single : ∀ rest, text ≠ "::" ++ rest

namespace QualifiedName

theorem join_append_inj {qualifiers others : List String} {base other rest later : String}
    (named : ∀ qualifier ∈ qualifiers, IsName qualifier) (base_named : IsName base)
    (named' : ∀ qualifier ∈ others, IsName qualifier) (base_named' : IsName other)
    (ends : EndsSegments rest) (ends' : EndsSegments later)
    (same : join qualifiers base ++ rest = join others other ++ later) :
    join qualifiers base = join others other ∧ rest = later := by
  have colons : ∀ text, ∀ letter ∈ ("::" ++ text).toList.head?, letter ∈ layoutLetters := by
    simp [layoutLetters]
  induction qualifiers generalizing others with
  | nil =>
      cases others with
      | nil => exact base_named.append_inj base_named' ends.layout ends'.layout same
      | cons qualifier others =>
          simp only [join_nil, join_cons, String.append_assoc] at same
          have parts := base_named.append_inj (named' qualifier List.mem_cons_self) ends.layout
            (colons _) same
          exact absurd parts.2 (ends.single _)
  | cons qualifier qualifiers ih =>
      have first := named qualifier List.mem_cons_self
      cases others with
      | nil =>
          simp only [join_nil, join_cons, String.append_assoc] at same
          have parts := first.append_inj base_named' (colons _) ends'.layout same
          exact absurd parts.2.symm (ends'.single _)
      | cons outer others =>
          simp only [join_cons, String.append_assoc] at same ⊢
          have parts := first.append_inj (named' outer List.mem_cons_self) (colons _) (colons _)
            same
          have inner := ih (fun one member => named one (List.mem_cons_of_mem _ member))
            (fun one member => named' one (List.mem_cons_of_mem _ member))
            (String.append_right_inj _ |>.mp parts.2)
          rw [parts.1, inner.1]
          exact ⟨rfl, inner.2⟩

end QualifiedName

def brackets (array : Bool) : String :=
  if array then "[]" else ""

theorem brackets_ne_colon (array : Bool) (rest : String) : brackets array ≠ ":" ++ rest := by
  intro same
  have letters := congrArg String.toList same
  cases array <;> simp [brackets] at letters

theorem brackets_inj {array array' : Bool} (same : brackets array = brackets array') :
    array = array' := by
  cases array <;> cases array' <;> simp [brackets] at same ⊢

namespace IsStateName

variable {name other : String}

theorem opens (named : IsStateName name) :
    ∃ letter later, name.toList = letter :: later ∧ letter ≠ ':' := by
  rcases named with plain | rfl | rfl
  · cases letters : name.toList with
    | nil => exact absurd (String.toList_eq_nil_iff.mp letters) plain.1
    | cons letter later =>
        have apart := plain.2 letter (by simp [letters])
        exact ⟨letter, later, rfl, by rintro rfl; exact absurd apart (by decide)⟩
  · exact ⟨'[', ['a', 'n', 'y', ']'], rfl, by decide⟩
  · exact ⟨'[', ['d', 'e', 'a', 'd', ']'], rfl, by decide⟩

/-- The sentinels end in a bracket, but not in two. -/
theorem ne_append_brackets (named : IsStateName name) (text : String) : name ≠ text ++ "[]" := by
  intro same
  have closed : ['[', ']'] <:+ name.toList := ⟨text.toList, by simp [same]⟩
  rcases named with plain | rfl | rfl
  · exact plain.2 '[' (by simp [same]) (by decide)
  · exact absurd closed (by decide)
  · exact absurd closed (by decide)

theorem append_brackets_inj (named : IsStateName name) (named' : IsStateName other)
    {array array' : Bool} (same : name ++ brackets array = other ++ brackets array') :
    name = other ∧ array = array' := by
  cases array <;> cases array'
  · simpa [brackets] using same
  · exact absurd (by simpa [brackets] using same) (named.ne_append_brackets other)
  · exact absurd (by simpa [brackets] using same.symm) (named'.ne_append_brackets name)
  · exact ⟨String.append_left_inj _ |>.mp same, rfl⟩

end IsStateName

namespace TypeOutline

variable (type : TypeOutline)

def stateMark : Option String → String
  | some state => ":" ++ state
  | none => ""

/-- What is written behind the spelling of a type. -/
def annotations : String :=
  stateMark type.state ++ brackets type.array

/-- A type but for whether it is nullable. -/
def annotated : String :=
  type.spelling ++ type.annotations

variable {type} {other : TypeOutline}

theorem WellNamed.endsSegments (named : type.WellNamed) : EndsSegments type.annotations := by
  unfold annotations
  constructor
  · cases type.state <;> cases type.array <;> simp [stateMark, brackets, layoutLetters]
  · intro rest same
    cases written : type.state with
    | none =>
        rw [written, stateMark, String.empty_append] at same
        exact brackets_ne_colon type.array (":" ++ rest) (by rw [same, ← String.append_assoc]; rfl)
    | some state =>
        obtain ⟨letter, later, first, apart⟩ := (named.state state written).opens
        have letters := congrArg String.toList same
        simp [written, stateMark, first] at letters
        exact apart letters.1

/-- The state and the brackets are read off what follows the spelling. -/
theorem WellNamed.annotations_inj (named : type.WellNamed) (named' : other.WellNamed)
    (same : type.annotations = other.annotations) :
    type.state = other.state ∧ type.array = other.array := by
  unfold annotations at same
  cases written : type.state with
  | none =>
      rw [written] at same
      cases written' : other.state with
      | none =>
          rw [written', String.append_right_inj] at same
          exact ⟨rfl, brackets_inj same⟩
      | some state =>
          rw [written', stateMark, stateMark, String.empty_append, String.append_assoc] at same
          exact absurd same (brackets_ne_colon _ _)
  | some state =>
      rw [written] at same
      cases written' : other.state with
      | none =>
          rw [written', stateMark, stateMark, String.empty_append, String.append_assoc] at same
          exact absurd same.symm (brackets_ne_colon _ _)
      | some state' =>
          rw [written', stateMark, stateMark, String.append_assoc, String.append_assoc,
            String.append_right_inj] at same
          have parts := (named.state state written).append_brackets_inj
            (named'.state state' written') same
          exact ⟨congrArg some parts.1, parts.2⟩

/-- What a type tells, apart from being nullable, is read off its word. -/
theorem WellNamed.annotated_inj (named : type.WellNamed) (named' : other.WellNamed)
    (same : type.annotated = other.annotated) :
    type.spelling = other.spelling ∧ type.state = other.state ∧ type.array = other.array := by
  obtain ⟨name, spelled, qualifiers, base⟩ := named.segments
  obtain ⟨name', spelled', qualifiers', base'⟩ := named'.segments
  rw [annotated, annotated, ← spelled, ← spelled'] at same
  have parts := QualifiedName.join_append_inj qualifiers base qualifiers' base'
    named.endsSegments named'.endsSegments same
  rw [← spelled, ← spelled']
  exact ⟨parts.1, named.annotations_inj named' parts.2⟩

end TypeOutline

end ActorProtocol
