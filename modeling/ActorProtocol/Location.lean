/-!
# Source locations

A location names a file and a line of it, counted from 1. Nodes that no source
line produced carry the unknown location.
-/

namespace ActorProtocol

set_option autoImplicit false

structure Location where
  file : String
  line : Nat
  deriving DecidableEq

namespace Location

/-- Stands for a file whose name is not known. -/
def unknownFile : String := "<??>"

def unknown : Location := ⟨unknownFile, 0⟩

/-- The location of a line. A file without a name reads as the unknown file,
and the line is kept. -/
def ofLine (file : String) (line : Nat) : Location :=
  if file = "" then ⟨unknownFile, line⟩ else ⟨file, line⟩

def isUnknown (location : Location) : Bool :=
  location == unknown

def text (location : Location) : String :=
  location.file ++ ":" ++ toString location.line

theorem ofLine_file_of_ne_empty {file : String} (named : file ≠ "") (line : Nat) :
    (ofLine file line).file = file := by
  simp [ofLine, named]

@[simp] theorem ofLine_line (file : String) (line : Nat) :
    (ofLine file line).line = line := by
  unfold ofLine
  split <;> rfl

end Location

end ActorProtocol
