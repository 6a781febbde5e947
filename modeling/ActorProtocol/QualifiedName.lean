/-!
# Qualified names

A qualified name is a base name behind a list of qualifiers, outermost first,
and is written with `::` after every qualifier. Reading a spelling cuts it at
the leftmost separators that do not overlap, so segments may be empty and a run
of three colons is a separator followed by a colon.

`shortName` is the spelling that is left of a full name once the qualifiers that
agree with a context are removed. The base name is never removed.
-/

namespace ActorProtocol

set_option autoImplicit false

structure QualifiedName where
  qualifiers : List String
  base : String
  deriving DecidableEq

namespace QualifiedName

/-- Puts a name behind qualifiers, each followed by `::`. -/
def join : List String → String → String
  | [], name => name
  | qualifier :: rest, name => qualifier ++ "::" ++ join rest name

/-- The segments of a spelling, as the first one and the ones after it. -/
def cut : List Char → List Char × List (List Char)
  | ':' :: ':' :: rest =>
      let (first, later) := cut rest
      ([], first :: later)
  | letter :: rest =>
      let (first, later) := cut rest
      (letter :: first, later)
  | [] => ([], [])

/-- The last of the segments is the base and those before it qualify it. -/
def ofSegments : String → List String → QualifiedName
  | first, [] => ⟨[], first⟩
  | first, next :: later =>
      let inner := ofSegments next later
      ⟨first :: inner.qualifiers, inner.base⟩

def parse (spelling : String) : QualifiedName :=
  let (first, later) := cut spelling.toList
  ofSegments (String.ofList first) (later.map String.ofList)

def text (name : QualifiedName) : String :=
  join name.qualifiers name.base

/-- The base becomes the innermost qualifier of a new base. -/
def qualify (name : QualifiedName) (base : String) : QualifiedName :=
  ⟨name.qualifiers ++ [name.base], base⟩

def isQualified (name : QualifiedName) : Bool :=
  !name.qualifiers.isEmpty

/-- How many leading qualifiers agree with a context, position by position. -/
def sharedLength : List String → List String → Nat
  | qualifier :: rest, outer :: context =>
      if qualifier = outer then sharedLength rest context + 1 else 0
  | _, _ => 0

/-- The spelling of a full name from inside a context. -/
def shortName (fullName : String) (context : List String) : String :=
  let name := parse fullName
  join (name.qualifiers.drop (sharedLength name.qualifiers context)) name.base

@[simp] theorem join_nil (name : String) : join [] name = name := rfl

@[simp] theorem join_cons (qualifier : String) (rest : List String) (name : String) :
    join (qualifier :: rest) name = qualifier ++ "::" ++ join rest name := rfl

theorem join_append (outer inner : List String) (name : String) :
    join (outer ++ inner) name = join outer (join inner name) := by
  induction outer with
  | nil => rfl
  | cons qualifier rest ih =>
      simp only [List.cons_append, join_cons, ih]

theorem text_qualify (name : QualifiedName) (base : String) :
    (name.qualify base).text = name.text ++ "::" ++ base := by
  unfold text qualify
  rw [join_append]
  induction name.qualifiers with
  | nil => rfl
  | cons qualifier rest ih =>
      simp only [join_cons, join_nil] at ih ⊢
      rw [ih]
      simp only [String.append_assoc]

end QualifiedName

end ActorProtocol
