import ActorProtocol.Source.Text

/-!
# The words of a text

A text is cut into words at its spaces and line feeds, and the marks that separate or
close the parts of a line are words of their own. A word that begins with a quote goes on
to the end of its line. How the words are set on lines is lost, and with it which blank
lines stand between the sections.
-/

namespace ActorProtocol

set_option autoImplicit false

/-- The marks that are words wherever they stand. -/
def marks : List Char := [',', ';', '(', ')', '{', '}']

/-- The letters that end a word. -/
def separators : List Char := ' ' :: '\n' :: marks

def putWord (word : List Char) (later : List String) : List String :=
  if word.isEmpty then later else String.ofList word :: later

/-- The words of some letters, the first of which go on with a word begun before them. -/
def wordsAfter (word : List Char) : List Char → List String
  | [] => putWord word []
  | letter :: rest =>
      if letter = '\n' then putWord word (wordsAfter [] rest)
      else if word.head? = some '"' then wordsAfter (word ++ [letter]) rest
      else if letter = ' ' then putWord word (wordsAfter [] rest)
      else if letter ∈ marks then
        putWord word (String.singleton letter :: wordsAfter [] rest)
      else wordsAfter (word ++ [letter]) rest

def words (text : String) : List String :=
  wordsAfter [] text.toList

@[simp] theorem putWord_nil (later : List String) : putWord [] later = later := rfl

theorem putWord_append (word : List Char) (first later : List String) :
    putWord word (first ++ later) = putWord word first ++ later := by
  unfold putWord
  split <;> rfl

/-- Every word ends with its line, a quoted one too. -/
theorem wordsAfter_lineFeed (word line rest : List Char) :
    wordsAfter word (line ++ '\n' :: rest) = wordsAfter word line ++ wordsAfter [] rest := by
  -- The word begun before may be a quoted one, which only the line feed ends.
  induction line generalizing word with
  | nil => simp [wordsAfter, ← putWord_append]
  | cons letter line ih =>
      simp only [List.cons_append, wordsAfter]
      repeat' split
      all_goals simp only [ih, ← putWord_append, ← List.cons_append]

theorem words_join_lines (lines : List String) :
    words (String.join (lines.map fun line => line ++ "\n")) = lines.flatMap words := by
  unfold words
  rw [String.toList_join]
  induction lines with
  | nil => rfl
  | cons line lines ih =>
      simp only [List.map_cons, List.flatMap_cons, String.toList_append] at ih ⊢
      rw [← ih]
      simp [wordsAfter_lineFeed]

theorem flatMap_words_sections (parts : List (List String)) :
    (sections parts).flatMap words = parts.flatMap fun lines => lines.flatMap words := by
  induction parts with
  | nil => rfl
  | cons lines rest ih =>
      simp only [sections, List.flatMap_cons, ← ih]
      by_cases empty : lines.isEmpty
      · simp [List.isEmpty_iff.mp empty]
      · by_cases last : (sections rest).isEmpty
        · simp [empty, List.isEmpty_iff.mp last, -List.isEmpty_iff]
        · simp [empty, last, words, wordsAfter, putWord]

/-- A letter that is part of a word wherever it stands. -/
def IsPlain (letter : Char) : Prop :=
  letter ∉ '"' :: separators

/-- A text that is one word. -/
def IsWord (text : String) : Prop :=
  text ≠ "" ∧ ∀ letter ∈ text.toList, IsPlain letter

theorem IsWord.append {text suffix : String} (word : IsWord text)
    (plain : ∀ letter ∈ suffix.toList, IsPlain letter) : IsWord (text ++ suffix) := by
  constructor
  · intro empty
    exact word.1 (String.append_eq_empty_iff.mp empty).1
  · intro letter member
    rw [String.toList_append, List.mem_append] at member
    rcases member with member | member
    · exact word.2 letter member
    · exact plain letter member

theorem wordsAfter_plain {word letters rest : List Char} (unquoted : word.head? ≠ some '"')
    (plain : ∀ letter ∈ letters, IsPlain letter) :
    wordsAfter word (letters ++ rest) = wordsAfter (word ++ letters) rest := by
  induction letters generalizing word with
  | nil => simp
  | cons letter letters ih =>
      have apart := plain letter List.mem_cons_self
      simp only [IsPlain, separators, List.mem_cons, not_or] at apart
      have still : (word ++ [letter]).head? ≠ some '"' := by
        cases word with
        | nil => simpa using apart.1
        | cons => exact unquoted
      have later := ih still fun other member => plain other (List.mem_cons_of_mem _ member)
      simp [wordsAfter, unquoted, apart, later]

theorem wordsAfter_quoted {word letters : List Char} (quoted : word.head? = some '"')
    (line : '\n' ∉ letters) : wordsAfter word letters = [String.ofList (word ++ letters)] := by
  have some_letter : word ≠ [] := by
    intro none
    rw [none] at quoted
    exact nomatch quoted
  induction letters generalizing word with
  | nil => simp [wordsAfter, putWord, some_letter]
  | cons letter letters ih =>
      rw [List.mem_cons, not_or] at line
      have still : (word ++ [letter]).head? = some '"' := by
        simp [List.head?_append, quoted]
      have later := ih still line.2 (by simp)
      simp [wordsAfter, quoted, Ne.symm line.1, later]

def IsMark (text : String) : Prop :=
  ∃ mark ∈ marks, text = String.singleton mark

theorem IsWord.not_isMark {text : String} (word : IsWord text) : ¬ IsMark text := by
  rintro ⟨mark, listed, rfl⟩
  apply word.2 mark (by simp)
  exact List.mem_cons_of_mem _ (List.mem_cons_of_mem _ (List.mem_cons_of_mem _ listed))

/-- A text followed by a separator, or by nothing, is cut into the given words. -/
structure Writes (text : String) (list : List String) : Prop where
  follow : ∀ {rest : List Char}, rest.head?.all (· ∈ separators) →
    wordsAfter [] (text.toList ++ rest) = list ++ wordsAfter [] rest

theorem Writes.alone {text : String} {list : List String} (writes : Writes text list) :
    wordsAfter [] text.toList = list := by
  have whole : wordsAfter [] (text.toList ++ []) = list ++ wordsAfter [] [] := writes.follow rfl
  simpa [wordsAfter] using whole

theorem IsWord.writes {text : String} (word : IsWord text) : Writes text [text] where
  follow := by
    intro rest ended
    have unquoted : text.toList.head? ≠ some '"' := by
      intro quoted
      exact word.2 '"' (List.mem_of_mem_head? quoted) List.mem_cons_self
    have put : ∀ later, putWord text.toList later = text :: later := by
      intro later
      simp [putWord, word.1]
    rw [wordsAfter_plain (by simp) word.2, List.nil_append]
    cases rest with
    | nil => exact put []
    | cons letter rest =>
        simp only [List.head?_cons, Option.all_some, separators, List.mem_cons,
          decide_eq_true_eq] at ended
        rcases ended with rfl | rfl | mark
        · simp [wordsAfter, unquoted, put]
        · simp [wordsAfter, put]
        · have apart : letter ≠ '\n' ∧ letter ≠ ' ' := by
            constructor
            · rintro rfl
              exact absurd mark (by decide)
            · rintro rfl
              exact absurd mark (by decide)
          simp [wordsAfter, apart, unquoted, mark, put]

/-- Puts a word between lists of words. -/
def separated (separator : String) : List (List String) → List String
  | [] => []
  | first :: rest => first ++ rest.flatMap fun later => separator :: later

theorem writes_intercalate {Item : Type} {source : Item → String} {write : Item → List String}
    {separator : String} {word : String} {items : List Item}
    (starts : ∀ rest, (separator.toList ++ rest).head?.all (· ∈ separators))
    (single : ∀ rest, wordsAfter [] (separator.toList ++ rest) = word :: wordsAfter [] rest)
    (each : ∀ item ∈ items, Writes (source item) (write item)) :
    Writes (separator.intercalate (items.map source)) (separated word (items.map write)) where
  follow := by
    intro rest ended
    induction items with
    | nil => simp [separated]
    | cons item items ih =>
        have first := each item List.mem_cons_self
        have others := ih fun other member => each other (List.mem_cons_of_mem _ member)
        cases items with
        | nil => simp [separated, first.follow ended]
        | cons next items =>
            simp only [List.map_cons, String.intercalate_cons_cons, String.toList_append,
              List.append_assoc] at others ⊢
            rw [first.follow (starts _), single, others]
            simp [separated]

end ActorProtocol
