import ActorProtocol.Location

/-!
# Source excerpts

An error is shown with the line it is about and its neighbours. Every line shown
has its number in front, and the numbers are aligned to the right. A location
that is not in the text shows no lines.

A line ends at a line feed, and a carriage return right before that is dropped
with it. Text after the last line feed is a line of its own.
-/

namespace ActorProtocol

set_option autoImplicit false

namespace Excerpt

/-- Drops a carriage return at the end. -/
def dropReturn : List Char → List Char
  | [] => []
  | ['\r'] => []
  | letter :: rest => letter :: dropReturn rest

/-- The lines of a text of which the line so far has been read, in reverse. -/
def linesFrom (line : List Char) : List Char → List (List Char)
  | [] => if line.isEmpty then [] else [line.reverse]
  | '\n' :: rest => dropReturn line.reverse :: linesFrom [] rest
  | letter :: rest => linesFrom (letter :: line) rest

def lines (source : String) : List String :=
  (linesFrom [] source.toList).map String.ofList

/-- Puts blanks before a text up to a width. -/
def alignRight (width : Nat) (text : String) : String :=
  String.ofList (List.replicate (width - text.length) ' ') ++ text

def numberedLine (width number : Nat) (line : String) : String :=
  "│ " ++ alignRight width (toString number) ++ " │ " ++ line ++ "\n"

/-- The numbers of the lines that are shown around a line of a text with some
count of lines: from the one before it to the one after it, where there are such. -/
def window (line count : Nat) : List Nat :=
  let first := max 1 (line - 1)
  let last := min (line + 1) count
  List.range' first (last + 1 - first)

theorem mem_window_iff {line count number : Nat} :
    number ∈ window line count ↔ max 1 (line - 1) ≤ number ∧ number ≤ min (line + 1) count := by
  unfold window
  rw [List.mem_range'_1]
  omega

theorem within_of_window {line count number : Nat} (shown : number ∈ window line count) :
    1 ≤ number ∧ number ≤ count := by
  have bounds := mem_window_iff.mp shown
  omega

/-- The lines of the window, each read by its number, which counts from 1. -/
def rows (line : Nat) (lines : List String) : List String :=
  let width := (toString (min (line + 1) lines.length)).length
  (window line lines.length).pmap
    (fun number (_ : 1 ≤ number ∧ number ≤ lines.length) =>
      numberedLine width number lines[number - 1])
    fun _ => within_of_window

/-- The lines around a line, if the text has it. -/
def around (line : Nat) (lines : List String) : String :=
  if line = 0 ∨ lines.length < line then "" else String.join (rows line lines)

end Excerpt

/-- Shows an error message with the lines of the source around its location. -/
def showError (source : String) (loc : Location) (message : String) : String :=
  "(" ++ toString loc.line ++ ") " ++ message ++ "\n" ++
    Excerpt.around loc.line (Excerpt.lines source)

end ActorProtocol
