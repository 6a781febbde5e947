import ActorProtocol.Excerpt
import Mathlib.Data.List.Forall2
import Mathlib.Data.Nat.Digits.Lemmas

/-!
# What an excerpt shows

An error is shown with nothing but its header unless the text has the line it is about.
If it has, the line is shown between its neighbours, each behind its own number, and all
numbers end in the same column, which is as wide as the last of them. Every line is read by
a number that the text has, and is shown as it stands there.
-/

namespace ActorProtocol

set_option autoImplicit false

namespace Excerpt

/-! ## Lines of a text -/

/-- The lines that letters make up. A line ends at a line feed, at a carriage return with a
line feed after it, or with the text if there is something left of it. -/
inductive LinesOf : List Char → List (List Char) → Prop
  | empty : LinesOf [] []
  | last {line : List Char} (begun : line ≠ []) (single : '\n' ∉ line) : LinesOf line [line]
  | fed {line rest : List Char} {later : List (List Char)} (single : '\n' ∉ line)
      (bare : ¬ ['\r'] <:+ line) (follows : LinesOf rest later) :
      LinesOf (line ++ '\n' :: rest) (line :: later)
  | returned {line rest : List Char} {later : List (List Char)} (single : '\n' ∉ line)
      (follows : LinesOf rest later) :
      LinesOf (line ++ '\r' :: '\n' :: rest) (line :: later)

theorem dropReturn_concat (line : List Char) : dropReturn (line ++ ['\r']) = line := by
  induction line with
  | nil => rfl
  | cons letter line ih =>
      rw [List.cons_append, dropReturn, ih]
      intro _ alone
      exact List.append_ne_nil_of_right_ne_nil _ (List.cons_ne_nil _ _) alone

theorem dropReturn_of_bare {line : List Char} (bare : ¬ ['\r'] <:+ line) :
    dropReturn line = line := by
  induction line with
  | nil => rfl
  | cons letter line ih =>
      rw [List.suffix_cons_iff, not_or] at bare
      rw [dropReturn, ih bare.2]
      rintro rfl rfl
      exact bare.1 rfl

/-- The letters of a line so far stand in front of what is still to be read. -/
theorem linesOf_linesFrom {line : List Char} (single : '\n' ∉ line) (rest : List Char) :
    LinesOf (line.reverse ++ rest) (linesFrom line rest) := by
  induction rest generalizing line with
  | nil =>
      rw [List.append_nil, linesFrom]
      cases line with
      | nil => exact .empty
      | cons letter line =>
          exact .last (by simp) (by simpa only [List.mem_reverse] using single)
  | cons letter rest ih =>
      by_cases ends : letter = '\n'
      · rw [ends, linesFrom]
        have later : LinesOf rest (linesFrom [] rest) := ih List.not_mem_nil
        have whole : '\n' ∉ line.reverse := by simpa using single
        by_cases bare : ['\r'] <:+ line.reverse
        · obtain ⟨before, parts⟩ := bare
          rw [← parts] at whole ⊢
          rw [dropReturn_concat, List.append_assoc]
          exact .returned (fun inside => whole (List.mem_append_left _ inside)) later
        · rw [dropReturn_of_bare bare]
          exact .fed whole bare later
      · have longer : '\n' ∉ letter :: line := by
          rintro (_ | inside)
          · exact ends rfl
          · exact single ‹_›
        have read := ih longer
        rw [linesFrom]
        · simpa using read
        · exact ends

theorem linesOf_lines (source : String) :
    LinesOf source.toList ((lines source).map String.toList) := by
  have unbroken : '\n' ∉ ([] : List Char) := List.not_mem_nil
  have letters : (lines source).map String.toList = linesFrom [] source.toList := by
    unfold lines
    rw [List.map_map]
    exact List.map_id'' (fun _ => String.toList_ofList) _
  rw [letters]
  exact linesOf_linesFrom unbroken source.toList

/-! ## Numbers in a column -/

/-- The text of a number has its decimal digits, which zero has none of. -/
theorem length_toString {number : Nat} (positive : 0 < number) :
    (toString number).length = (Nat.digits 10 number).length := by
  have digits : 0 < (Nat.digits 10 number).length :=
    List.length_pos_of_ne_nil (Nat.digits_ne_nil_iff_ne_zero.mpr (Nat.ne_of_gt positive))
  rw [Nat.toString_eq_repr]
  apply Nat.le_antisymm
  · rw [Nat.length_repr_le_iff digits, ← Nat.digits_length_le_iff (by decide)]
  · rw [Nat.digits_length_le_iff (by decide), ← Nat.length_repr_le_iff Nat.length_repr_pos]

/-- A line that is shown behind its number, which blanks push to the end of a column. -/
def IsRow (width number : Nat) (text row : String) : Prop :=
  ∃ blanks, blanks + (Nat.digits 10 number).length = width ∧
    row = "│ " ++ (String.ofList (List.replicate blanks ' ') ++ toString number) ++ " │ " ++
      text ++ "\n"

theorem isRow_numberedLine {number last : Nat} (positive : 0 < number) (bound : number ≤ last)
    (text : String) :
    IsRow (Nat.digits 10 last).length number text
      (numberedLine (Nat.digits 10 last).length number text) := by
  have fits := Nat.le_length_digits_le 10 number last bound
  refine ⟨(Nat.digits 10 last).length - (Nat.digits 10 number).length, Nat.sub_add_cancel fits, ?_⟩
  unfold numberedLine alignRight
  rw [length_toString positive]

/-! ## Lines around a line -/

/-- A line by its number, which counts from 1. Reading any other number fails. -/
def line? (lines : List String) (number : Nat) : Option String :=
  if number = 0 then none else lines[number - 1]?

/-- What is shown around a line that the text has. -/
structure Shows (lines : List String) (line : Nat) (rows : List String) : Prop where
  numbers : ∀ number, number ∈ window line lines.length ↔
    max 1 (line - 1) ≤ number ∧ number ≤ min (line + 1) lines.length
  ordered : (window line lines.length).Pairwise (· < ·)
  own : line ∈ window line lines.length
  read : List.Forall₂
    (fun number row => ∃ text, line? lines number = some text ∧
      IsRow (Nat.digits 10 (min (line + 1) lines.length)).length number text row)
    (window line lines.length) rows

theorem line?_of_inside {lines : List String} {number : Nat} (positive : 1 ≤ number)
    (inside : number - 1 < lines.length) : line? lines number = some lines[number - 1] := by
  unfold line?
  rw [if_neg (Nat.ne_of_gt positive)]
  exact List.getElem?_eq_getElem inside

theorem forall₂_pmap {Item Other : Type} {Within : Item → Prop} {Related : Item → Other → Prop}
    {make : ∀ item, Within item → Other} {items : List Item}
    (within : ∀ item ∈ items, Within item)
    (related : ∀ item ∈ items, ∀ inside, Related item (make item inside)) :
    List.Forall₂ Related items (items.pmap make within) := by
  induction items with
  | nil => exact .nil
  | cons item items ih =>
      refine .cons (related item List.mem_cons_self _) (ih _ ?_)
      exact fun other member => related other (List.mem_cons_of_mem _ member)

/-- Each number of the window is read within the lines and shown with what it reads. -/
theorem forall₂_rows (line : Nat) (lines : List String) :
    List.Forall₂
      (fun number row => ∃ text, line? lines number = some text ∧
        IsRow (Nat.digits 10 (min (line + 1) lines.length)).length number text row)
      (window line lines.length) (rows line lines) := by
  apply forall₂_pmap
  intro number shown within
  have last := (mem_window_iff.mp shown).2
  have inside : number - 1 < lines.length := by omega
  refine ⟨_, line?_of_inside within.1 inside, ?_⟩
  rw [length_toString (Nat.lt_of_lt_of_le within.1 last)]
  exact isRow_numberedLine within.1 last _

theorem shows_rows {line : Nat} {lines : List String} (positive : 1 ≤ line)
    (bound : line ≤ lines.length) : Shows lines line (rows line lines) where
  numbers := fun _ => mem_window_iff
  ordered := List.pairwise_lt_range'
  own := mem_window_iff.mpr (by omega)
  read := forall₂_rows line lines

theorem Shows.rows_ne_nil {lines : List String} {line : Nat} {rows : List String}
    (shows : Shows lines line rows) : rows ≠ [] := by
  rintro rfl
  have empty := List.forall₂_nil_right_iff.mp shows.read
  have own := shows.own
  rw [empty] at own
  exact List.not_mem_nil own

end Excerpt

/-- An error is shown as its header and as the rows around its line. There are rows exactly
if the text has the line, and then they are those of the line and of its neighbours, each
read from the text and put behind its number. -/
theorem showError_shows_lines (source : String) (loc : Location) (message : String) :
    Excerpt.LinesOf source.toList ((Excerpt.lines source).map String.toList) ∧
      ∃ rows : List String,
        showError source loc message =
          "(" ++ toString loc.line ++ ") " ++ message ++ "\n" ++ String.join rows ∧
        (rows ≠ [] ↔ 1 ≤ loc.line ∧ loc.line ≤ (Excerpt.lines source).length) ∧
        (rows ≠ [] → Excerpt.Shows (Excerpt.lines source) loc.line rows) := by
  refine ⟨Excerpt.linesOf_lines source, ?_⟩
  unfold showError Excerpt.around
  by_cases outside : loc.line = 0 ∨ (Excerpt.lines source).length < loc.line
  · refine ⟨[], ?_, iff_of_false (fun some => some rfl) (by omega), fun some => absurd rfl some⟩
    rw [if_pos outside]
    rfl
  · have positive : 1 ≤ loc.line := by omega
    have bound : loc.line ≤ (Excerpt.lines source).length := by omega
    have shows := Excerpt.shows_rows positive bound
    refine ⟨_, ?_, iff_of_true shows.rows_ne_nil ⟨positive, bound⟩, fun _ => shows⟩
    rw [if_neg outside]

/-- The numbers on both sides of ten end in one column. -/
example : Excerpt.rows 9 (List.replicate 12 "call") =
    ["│  8 │ call\n", "│  9 │ call\n", "│ 10 │ call\n"] := by
  decide +kernel

end ActorProtocol
