import ActorProtocol.Proofs.Data.Search
import ActorProtocol.Proofs.Faultless
import ActorProtocol.Proofs.Program.Findings
import Mathlib.Data.List.Nodup

/-!
# Order of the units

The check of a program looks a file up in a map, where it is there once, but a protocol in
the last unit that describes it. So the order of the units matters to what is found about
protocols that several units describe, and to nothing else: a fault is of the same kind in
any order, and the errors about any other protocol are the same up to their order.
-/

namespace ActorProtocol

set_option autoImplicit false

/-- Whether two faults break the same agreement. -/
def Fault.SameKind : Fault → Fault → Prop
  | .missingProtocol _, .missingProtocol _ => True
  | .missingDecl _, .missingDecl _ => True
  | .notAMessage _, .notAMessage _ => True
  | .noRole _, .noRole _ => True
  | _, _ => False

/-- The protocol that was looked up for an error. Errors of includes look up files. -/
def ProgramError.consulted? : ProgramError → Option String
  | .missingInclude _ _ | .includeProtocolMismatch _ _ _ => none
  | .managerMismatch _ manager => some manager
  | .managesMismatch _ managed => some managed
  | .unknownActorState protocol _ => some protocol

/-- Whether the protocol that was looked up for an error is one of some. -/
def ProgramError.isOn (about : Option String → Bool) (error : Located ProgramError) : Bool :=
  about error.error.consulted?

namespace Program

/-- At most one unit describes the protocol. -/
def Single (program : Program) (name : String) : Prop :=
  ∀ first ∈ program.units, ∀ second ∈ program.units, first.protocol.name = name →
    second.protocol.name = name → first = second

/-- The look-ups of files agree, and those of the protocols that are asked about. -/
structure AgreeOn (program other : Program) (about : Option String → Bool) : Prop where
  files : ∀ file, program.unitOfFile? file = other.unitOfFile? file
  protocols : ∀ name, about (some name) = true →
    program.unitOfProtocol? name = other.unitOfProtocol? name

section Found

variable (program : Program)

theorem managerError?_eq_bind (protocol : Protocol) (manager : Ident) :
    program.managerError? protocol manager =
      (program.unitOfProtocol? manager.name).bind fun other =>
        if other.protocol.isManagerOf protocol.name then none
        else some ⟨.managerMismatch protocol.name manager.name, manager.loc⟩ := by
  unfold managerError?
  cases program.unitOfProtocol? manager.name <;> rfl

theorem managesError?_eq_bind (protocol : Protocol) (managed : Ident) :
    program.managesError? protocol managed =
      (program.unitOfProtocol? managed.name).bind fun other =>
        if other.protocol.isManagedBy protocol.name then none
        else some ⟨.managesMismatch protocol.name managed.name, managed.loc⟩ := by
  unfold managesError?
  cases program.unitOfProtocol? managed.name <;> rfl

end Found

namespace AgreeOn

variable {program other : Program} {about : Option String → Bool}

/-- What is found about a protocol is the same if it is looked up alike, and is left out
otherwise. -/
theorem filter_bind (agree : program.AgreeOn other about) (name : String)
    (passes : ProgramUnit → Bool) {error : Located ProgramError}
    (consults : error.error.consulted? = some name) :
    ((program.unitOfProtocol? name).bind fun target =>
        if passes target then none else some error).filter (ProgramError.isOn about) =
      ((other.unitOfProtocol? name).bind fun target =>
        if passes target then none else some error).filter (ProgramError.isOn about) := by
  cases asked : about (some name) with
  | true => rw [agree.protocols name asked]
  | false =>
      have left : ∀ found : Option ProgramUnit, ((found.bind fun target =>
          if passes target then none else some error).filter (ProgramError.isOn about)) = none := by
        intro found
        cases found with
        | none => rfl
        | some target =>
            rw [Option.bind_some]
            split
            · rfl
            · rw [Option.filter_some_eq_none, ProgramError.isOn, consults, asked]
              exact Bool.false_ne_true
      rw [left, left]

theorem unitFindings (agree : program.AgreeOn other about) (unit : ProgramUnit) :
    (program.unitFindings unit).filter (ProgramError.isOn about) =
      (other.unitFindings unit).filter (ProgramError.isOn about) := by
  have includes : ∀ included, program.includeError? included = other.includeError? included := by
    intro included
    unfold includeError?
    rw [agree.files]
  have asked : ∀ type,
      (program.askedError? unit.checked type).filter (ProgramError.isOn about) =
        (other.askedError? unit.checked type).filter (ProgramError.isOn about) := by
    intro type
    unfold askedError?
    cases unit.checked.asked? type with
    | none => rfl
    | some asked => exact agree.filter_bind asked.1 _ rfl
  have managers : ∀ manager,
      (program.managerError? unit.protocol manager).filter (ProgramError.isOn about) =
        (other.managerError? unit.protocol manager).filter (ProgramError.isOn about) := by
    intro manager
    rw [managerError?_eq_bind, managerError?_eq_bind]
    exact agree.filter_bind manager.name _ rfl
  have manages : ∀ managed,
      (program.managesError? unit.protocol managed).filter (ProgramError.isOn about) =
        (other.managesError? unit.protocol managed).filter (ProgramError.isOn about) := by
    intro managed
    rw [managesError?_eq_bind, managesError?_eq_bind]
    exact agree.filter_bind managed.name _ rfl
  unfold Program.unitFindings
  simp only [List.filter_append, List.filter_filterMap, includes, managers, manages, asked]

theorem findings_perm (agree : program.AgreeOn other about)
    (units : program.units.Perm other.units) :
    (program.findings.filter (ProgramError.isOn about)).Perm
      (other.findings.filter (ProgramError.isOn about)) := by
  have same := fun unit => agree.unitFindings unit
  unfold findings
  rw [List.filter_flatMap, List.filter_flatMap]
  simp only [same]
  exact units.flatMap_right _

end AgreeOn

variable {program other : Program}

theorem unitOfProtocol?_eq_of_single (units : program.units.Perm other.units) {name : String}
    (single : program.Single name) : program.unitOfProtocol? name = other.unitOfProtocol? name := by
  have turned : program.units.reverse.Perm other.units.reverse :=
    (List.reverse_perm _).trans (units.trans (List.reverse_perm _).symm)
  apply find?_eq_of_perm turned fun unit => unit.protocol.name
  intro first one second two
  exact single first (List.mem_reverse.mp one) second (List.mem_reverse.mp two)

theorem unitOfFile?_eq_of_perm {entries others : List (String × Checked)}
    (same : entries.Perm others) (distinct : (entries.map Prod.fst).Nodup) (file : String) :
    (ofEntries entries).unitOfFile? file = (ofEntries others).unitOfFile? file := by
  apply find?_eq_of_perm (same.filterMap _) ProgramUnit.file
  intro first one second two named again
  obtain ⟨entry, member, made⟩ := List.mem_filterMap.mp one
  obtain ⟨entry', member', made'⟩ := List.mem_filterMap.mp two
  obtain ⟨key, _⟩ := ProgramUnit.described?_eq_some_iff.mp made
  obtain ⟨key', _⟩ := ProgramUnit.described?_eq_some_iff.mp made'
  have keys : entry.1 = entry'.1 := by
    rw [key, key']
    exact named.trans again.symm
  have equal := List.inj_on_of_nodup_map distinct member member' keys
  rw [equal, made'] at made
  exact (Option.some.inj made).symm

end Program

/-- What the findings in two orders of the units have in common. A protocol that at most one
unit describes is looked up alike, and the errors for which that was done are the same. -/
structure Program.FoundAlike (program other : Program)
    (errors others : List (Located ProgramError)) : Prop where
  looked : ∀ name, program.Single name →
    program.unitOfProtocol? name = other.unitOfProtocol? name
  found : ∀ about, (∀ name, about (some name) = true →
      program.unitOfProtocol? name = other.unitOfProtocol? name) →
    (errors.filter (ProgramError.isOn about)).Perm (others.filter (ProgramError.isOn about))
  whole : (∀ name, program.Single name) → errors.Perm others

namespace Program

variable {entries others : List (String × Checked)}

theorem findings_alike (same : entries.Perm others) (distinct : (entries.map Prod.fst).Nodup) :
    (ofEntries entries).FoundAlike (ofEntries others) (ofEntries entries).findings
      (ofEntries others).findings := by
  have units : (ofEntries entries).units.Perm (ofEntries others).units := same.filterMap _
  have looked : ∀ name, (ofEntries entries).Single name →
      (ofEntries entries).unitOfProtocol? name = (ofEntries others).unitOfProtocol? name :=
    fun name single => unitOfProtocol?_eq_of_single units single
  have found : ∀ about, (∀ name, about (some name) = true →
      (ofEntries entries).unitOfProtocol? name = (ofEntries others).unitOfProtocol? name) →
        ((ofEntries entries).findings.filter (ProgramError.isOn about)).Perm
          ((ofEntries others).findings.filter (ProgramError.isOn about)) :=
    fun about agree => AgreeOn.findings_perm ⟨unitOfFile?_eq_of_perm same distinct, agree⟩ units
  refine ⟨looked, found, ?_⟩
  intro single
  have every : ∀ errors : List (Located ProgramError),
      errors.filter (ProgramError.isOn fun _ => true) = errors := fun _ => List.filter_true _
  rw [← every (ofEntries entries).findings, ← every (ofEntries others).findings]
  exact found _ fun name _ => looked name (single name)

end Program

/-- The order of the entries of a map matters to nothing but the protocols that several units
describe. -/
theorem checkProgram_order {first second : OrderedMap String Checked}
    (same : first.entries.Perm second.entries) :
    (∃ fault other, checkProgram first = .error fault ∧ checkProgram second = .error other ∧
      fault.SameKind other) ∨
    ∃ program other errors others, Program.ofMap first = .ok program ∧
      Program.ofMap second = .ok other ∧ checkProgram first = .ok errors ∧
      checkProgram second = .ok others ∧ program.FoundAlike other errors others := by
  by_cases undescribed : ∃ entry ∈ first.entries, entry.2.unit.protocol = none
  · obtain ⟨file, fault⟩ := checkProgram_of_undescribed undescribed
    obtain ⟨entry, member, none⟩ := undescribed
    obtain ⟨again, other⟩ := checkProgram_of_undescribed ⟨entry, same.mem_iff.mp member, none⟩
    exact Or.inl ⟨_, _, fault, other, trivial⟩
  have described : ∀ entry ∈ first.entries, entry.2.unit.protocol ≠ none :=
    fun entry member none => undescribed ⟨entry, member, none⟩
  have whole := Program.ofMap_of_described described
  have whole' := Program.ofMap_of_described
    fun entry member => described entry (same.mem_iff.mpr member)
  have units : (Program.ofEntries first.entries).units.Perm
      (Program.ofEntries second.entries).units := same.filterMap _
  rw [checkProgram_eq_errors whole, checkProgram_eq_errors whole']
  by_cases astray : ∃ unit ∈ (Program.ofEntries first.entries).units, unit.Astray
  · obtain ⟨node, fault⟩ := Program.errors_of_astray astray
    obtain ⟨unit, member, lost⟩ := astray
    obtain ⟨again, other⟩ := Program.errors_of_astray ⟨unit, units.mem_iff.mp member, lost⟩
    exact Or.inl ⟨_, _, fault, other, trivial⟩
  · have sound : ∀ unit ∈ (Program.ofEntries first.entries).units, ¬ unit.Astray :=
      fun unit member lost => astray ⟨unit, member, lost⟩
    exact Or.inr ⟨_, _, _, _, whole, whole', Program.errors_of_sound sound,
      Program.errors_of_sound fun unit member => sound unit (units.mem_iff.mpr member),
      Program.findings_alike same first.distinct⟩

/-! ## Two lamps of one name -/

/-- A statement that flips a lamp from one state to another. -/
def lampStatement (file : String) (id line : Nat) (source : String) (start : Bool)
    (target : String) : Statement :=
  ⟨⟨id + 3⟩, ⟨⟨id⟩, source, start, ⟨file, line⟩⟩,
    [⟨⟨id + 2⟩, some .send, some "Flip", [⟨⟨id + 1⟩, target, false, ⟨file, line + 1⟩⟩],
      ⟨file, line + 1⟩⟩], ⟨file, line⟩⟩

def lampProtocol (file : String) (statements : List Statement) : Protocol where
  id := ⟨2⟩
  name := "PLamp"
  namespaces := []
  semantics := .async
  spawns := []
  bridges := []
  managers := []
  manages := []
  messages := [⟨⟨3⟩, "Flip", .async, .outbound, [], [], ⟨file, 2⟩⟩]
  statements
  loc := ⟨file, 1⟩

def lampUnit (file : String) (statements : List Statement) : SourceUnit :=
  { SourceUnit.ofFile ⟨1⟩ file with protocol := some (lampProtocol file statements) }

def brightStatements : List Statement :=
  [lampStatement "PLamp.ipdl" 4 3 "Off" true "On", lampStatement "PLamp.ipdl" 8 5 "On" false "Off"]

/-- The lamp that is included by the room below. -/
def brightLamp : SourceUnit := lampUnit "PLamp.ipdl" brightStatements

def darkStatements : List Statement := [lampStatement "old/PLamp.ipdl" 4 3 "Off" true "Off"]

/-- An older lamp, which is never on. -/
def darkLamp : SourceUnit := lampUnit "old/PLamp.ipdl" darkStatements

def roomLine (line : Nat) : Location := ⟨"PRoom.ipdl", line⟩

def roomProtocol : Protocol where
  id := ⟨3⟩
  name := "PRoom"
  namespaces := []
  semantics := .async
  spawns := []
  bridges := []
  managers := []
  manages := []
  messages := [
    ⟨⟨4⟩, "Use", .async, .outbound,
      [⟨⟨5⟩, "lamp", ⟨⟨6⟩, ⟨[], "PLamp"⟩, some ⟨⟨7⟩, "On", false, roomLine 4⟩, false, false,
        none, none, roomLine 4⟩, roomLine 4⟩], [], roomLine 3⟩]
  statements := []
  loc := roomLine 2

/-- A room whose lamp is on. -/
def roomUnit : SourceUnit :=
  { SourceUnit.ofFile ⟨1⟩ "PRoom.ipdl" with
    includes := [⟨⟨2⟩, "PLamp", "PLamp.ipdl", roomLine 1⟩]
    protocol := some roomProtocol }

def lampContext (file : String) (statements : List Statement) : String × Checked :=
  (file, (lampUnit file statements).checked (lampProtocol file statements) [])

def roomContext : String × Checked :=
  ("PRoom.ipdl", roomUnit.checked roomProtocol [])

def brightLastMap : OrderedMap String Checked where
  entries := [lampContext "old/PLamp.ipdl" darkStatements,
    lampContext "PLamp.ipdl" brightStatements, roomContext]
  distinct := by decide

def darkLastMap : OrderedMap String Checked where
  entries := [lampContext "PLamp.ipdl" brightStatements,
    lampContext "old/PLamp.ipdl" darkStatements, roomContext]
  distinct := by decide

theorem lampMaps_perm : brightLastMap.entries.Perm darkLastMap.entries :=
  List.Perm.swap _ _ _

/-- Every entry is what the check of its unit gives, and nothing is wrong with any unit. -/
theorem lampMaps_checked : ∀ entry ∈ brightLastMap.entries,
    entry.2.unit.Numbered ∧ entry.2.unit.check .standard = .ok ⟨some entry.2, []⟩ := by
  have dark : darkLamp.Numbered := by constructor <;> decide
  have bright : brightLamp.Numbered := by constructor <;> decide
  have room : roomUnit.Numbered := by constructor <;> decide
  intro entry member
  simp only [brightLastMap, List.mem_cons, List.not_mem_nil, or_false] at member
  rcases member with rfl | rfl | rfl
  · exact ⟨dark, dark.check_eq_checked rfl .standard (by decide +kernel) (by decide +kernel)⟩
  · exact ⟨bright, bright.check_eq_checked rfl .standard (by decide +kernel) (by decide +kernel)⟩
  · exact ⟨room, room.check_eq_checked rfl .standard (by decide +kernel) (by decide +kernel)⟩

/-- The includes are found in either order, and nothing else looks up a file. -/
theorem lamps_found_alike :
    brightLastMap.entries.Perm darkLastMap.entries ∧
      ∃ program other errors others, Program.ofMap brightLastMap = .ok program ∧
        Program.ofMap darkLastMap = .ok other ∧ checkProgram brightLastMap = .ok errors ∧
        checkProgram darkLastMap = .ok others ∧ program.FoundAlike other errors others := by
  refine ⟨lampMaps_perm, ?_⟩
  rcases checkProgram_order lampMaps_perm with ⟨fault, _, failed, _⟩ | found
  · have passes : checkProgram brightLastMap = .ok [] := by decide +kernel
    rw [passes] at failed
    cases failed
  · exact found

/-- With the older lamp last the room is reported, with the other lamp last it is not. -/
theorem lamp_order_matters :
    brightLastMap.entries.Perm darkLastMap.entries ∧
      (∀ entry ∈ brightLastMap.entries,
        entry.2.unit.Numbered ∧ entry.2.unit.check .standard = .ok ⟨some entry.2, []⟩) ∧
      checkProgram brightLastMap = .ok [] ∧
      checkProgram darkLastMap = .ok [⟨.unknownActorState "PLamp" "On", roomLine 4⟩] := by
  refine ⟨lampMaps_perm, lampMaps_checked, ?_, ?_⟩
  · decide +kernel
  · decide +kernel

end ActorProtocol
