import ActorProtocol.Proofs.Program.Closure
import ActorProtocol.Proofs.Program.Findings
import Mathlib.Data.List.Forall2

/-!
# Collecting the units of a program

Units that pass their checks are collected by file. A file stands where its first unit came
in, but with what its last unit came to: of several units of a file all but the last are
gone before the units are checked against each other. Units of different files are all kept.
-/

namespace ActorProtocol

set_option autoImplicit false

namespace OrderedMap

variable {Key Value : Type} [DecidableEq Key]

/-- Puts entries into a map one after the other. -/
def ofEntries (entries : List (Key × Value)) : OrderedMap Key Value :=
  entries.foldl (fun map entry => map.insert entry.1 entry.2) .empty

theorem ofEntries_concat (entries : List (Key × Value)) (entry : Key × Value) :
    ofEntries (entries ++ [entry]) = (ofEntries entries).insert entry.1 entry.2 := by
  unfold ofEntries
  rw [List.foldl_append]
  rfl

/-- The keys stand in the order of their first entries. -/
theorem keys_ofEntries (entries : List (Key × Value)) :
    (ofEntries entries).keys = (entries.map Prod.fst).eraseDups := by
  induction entries using List.reverseRecOn with
  | nil => rfl
  | append_singleton entries entry ih =>
      rw [ofEntries_concat, keys_insert, ih, List.map_append, List.map_singleton,
        List.eraseDups_append]
      simp only [List.mem_eraseDups, List.removeAll, List.filter_singleton, List.elem_eq_mem]
      by_cases taken : entry.1 ∈ entries.map Prod.fst
      · simp only [taken, if_true, decide_true, Bool.not_true]
        exact (List.append_nil _).symm
      · simp only [taken, if_false, decide_false, Bool.not_false]
        rfl

/-- A key has the value of its last entry. -/
theorem find?_ofEntries (entries : List (Key × Value)) (key : Key) :
    (ofEntries entries).find? key =
      (entries.reverse.find? fun entry => entry.1 == key).map Prod.snd := by
  induction entries using List.reverseRecOn with
  | nil => rfl
  | append_singleton entries entry ih =>
      rw [ofEntries_concat, find?_insert, ih, List.reverse_append, List.reverse_singleton,
        List.singleton_append, List.find?_cons]
      by_cases same : entry.1 = key
      · rw [if_pos same, beq_iff_eq.mpr same]
        rfl
      · rw [if_neg same, beq_false_of_ne same]

theorem putEntry_of_new {entries : List (Key × Value)} {key : Key} (value : Value)
    (new : key ∉ entries.map Prod.fst) :
    putEntry key value entries = entries ++ [(key, value)] := by
  induction entries with
  | nil => rfl
  | cons entry rest ih =>
      rw [List.map_cons, List.mem_cons, not_or] at new
      rw [putEntry, if_neg fun same => new.1 same.symm, ih new.2]
      rfl

/-- Nothing is replaced exactly if no key comes twice. -/
theorem entries_ofEntries_iff (entries : List (Key × Value)) :
    (ofEntries entries).entries = entries ↔ (entries.map Prod.fst).Nodup := by
  constructor
  · intro kept
    rw [← kept]
    exact (ofEntries entries).distinct
  · intro distinct
    induction entries using List.reverseRecOn with
    | nil => rfl
    | append_singleton entries entry ih =>
        rw [List.map_append, List.map_singleton, List.nodup_append] at distinct
        have new : entry.1 ∉ entries.map Prod.fst := fun taken =>
          distinct.2.2 _ taken _ List.mem_cons_self rfl
        have kept := ih distinct.1
        rw [ofEntries_concat]
        change putEntry entry.1 entry.2 (ofEntries entries).entries = _
        rw [kept, putEntry_of_new _ new]

end OrderedMap

/-! ## Units that pass -/

/-- What a unit adds to the map, if it passes. -/
def SourceUnit.keyed? (unit : SourceUnit) (outcome : UnitCheck) : Option (String × Checked) :=
  outcome.checked.map fun checked => (unit.file, checked)

theorem collectChecked_concat (outcomes : List (SourceUnit × UnitCheck))
    (outcome : SourceUnit × UnitCheck) :
    collectChecked (outcomes ++ [outcome]) =
      outcome.2.checked.elim (collectChecked outcomes) fun checked =>
        (collectChecked outcomes).insert outcome.1.file checked := by
  obtain ⟨unit, outcome⟩ := outcome
  unfold collectChecked
  rw [List.foldl_append, List.foldl_cons, List.foldl_nil]
  dsimp only
  cases outcome.checked with
  | none => rfl
  | some checked => rfl

theorem collectChecked_eq_ofEntries (outcomes : List (SourceUnit × UnitCheck)) :
    collectChecked outcomes =
      OrderedMap.ofEntries (outcomes.filterMap fun outcome => outcome.1.keyed? outcome.2) := by
  induction outcomes using List.reverseRecOn with
  | nil => rfl
  | append_singleton outcomes outcome ih =>
      rw [collectChecked_concat, ih, List.filterMap_append]
      cases passed : outcome.2.checked with
      | none => simp [SourceUnit.keyed?, passed]
      | some checked =>
          simp only [List.filterMap_cons, SourceUnit.keyed?, passed, Option.map_some,
            List.filterMap_nil]
          exact (OrderedMap.ofEntries_concat _ (outcome.1.file, checked)).symm

/-- A unit in which no errors are found passes. -/
theorem SourceUnit.checked_of_silent {unit : SourceUnit} {options : CheckOptions}
    {outcome : UnitCheck} (ok : unit.check options = .ok outcome) (silent : outcome.errors = []) :
    ∃ checked, outcome = ⟨some checked, []⟩ := by
  unfold check at ok
  cases resolves : unit.resolve options.extraTypes with
  | error fault =>
      rw [resolves] at ok
      cases ok
  | ok resolved =>
      rw [resolves] at ok
      simp only [bind, Except.bind] at ok
      split at ok
      · rename_i stopped
        cases ok
        exact absurd silent stopped.2
      · cases checks : resolved.value.check with
        | error fault =>
            rw [checks] at ok
            cases ok
        | ok checked =>
            rw [checks] at ok
            cases ok
            dsimp only at silent
            refine ⟨checked.value, ?_⟩
            rw [silent]
            rfl

theorem contexts_of_checkEach {options : CheckOptions} {units : List SourceUnit}
    {outcomes : List (SourceUnit × UnitCheck)} (ok : checkEach options units = .ok outcomes)
    (silent : ∀ outcome ∈ outcomes, outcome.2.errors = []) :
    ∃ contexts,
      List.Forall₂ (fun unit context => unit.check options = .ok ⟨some context, []⟩) units
        contexts ∧
      (outcomes.filterMap fun outcome => outcome.1.keyed? outcome.2) =
        (units.map SourceUnit.file).zip contexts := by
  induction units generalizing outcomes with
  | nil =>
      cases ok
      exact ⟨[], .nil, rfl⟩
  | cons unit units ih =>
      obtain ⟨outcome, rest, first, later, rfl⟩ := checkEach_cons ok
      obtain ⟨context, rfl⟩ := SourceUnit.checked_of_silent first (silent _ List.mem_cons_self)
      obtain ⟨contexts, checked, entries⟩ :=
        ih later fun other member => silent other (List.mem_cons_of_mem _ member)
      refine ⟨context :: contexts, .cons first checked, ?_⟩
      rw [List.filterMap_cons, entries]
      rfl

/-- What the map of an accepted program holds. A file has the context of its last unit, which
is all that the units are checked against each other with. -/
structure ProgramCheck.Collects (result : ProgramCheck) (units : List SourceUnit)
    (contexts : List Checked) : Prop where
  keys : result.units.keys = (units.map SourceUnit.file).eraseDups
  last : ∀ file, result.units.find? file =
    ((units.zip contexts).reverse.find? fun pair => pair.1.file == file).map Prod.snd
  complete_iff : result.units.entries = (units.map SourceUnit.file).zip contexts ↔
    (units.map SourceUnit.file).Nodup
  related : ∃ program, Program.ofMap result.units = .ok program ∧ program.errors = .ok [] ∧
    (program.units.map fun unit => (unit.file, unit.checked)) = result.units.entries

theorem collects_of_entries {result : ProgramCheck} {units : List SourceUnit}
    {contexts : List Checked} (same : units.length = contexts.length)
    (collected : result.units = .ofEntries ((units.map SourceUnit.file).zip contexts))
    (passed : checkProgram result.units = .ok []) : result.Collects units contexts := by
  have files : ((units.map SourceUnit.file).zip contexts).map Prod.fst =
      units.map SourceUnit.file := by
    apply List.map_fst_zip
    rw [List.length_map]
    exact Nat.le_of_eq same
  refine ⟨?_, ?_, ?_, ?_⟩
  · rw [collected, OrderedMap.keys_ofEntries, files]
  · intro file
    rw [collected, OrderedMap.find?_ofEntries, List.zip_map_left, ← List.map_reverse,
      List.find?_map, Option.map_map]
    rfl
  · rw [collected, OrderedMap.entries_ofEntries_iff, files]
  · have described := described_of_checkProgram passed
    have whole := Program.ofMap_of_described described
    rw [checkProgram_eq_errors whole] at passed
    exact ⟨_, whole, passed, Program.entries_of_units described⟩

/-- A program that is accepted is collected from contexts of all units. -/
theorem checkUnits_collects (options : CheckOptions) {units : List SourceUnit}
    {result : ProgramCheck} (ok : checkUnits units options = .ok result)
    (silent : result.errors = []) :
    ∃ contexts,
      List.Forall₂ (fun unit context => unit.check options = .ok ⟨some context, []⟩) units
        contexts ∧
      result.Collects units contexts := by
  obtain ⟨outcomes, each, collected, passed⟩ := outcomes_of_checkUnits ok
  obtain ⟨faultless, related⟩ := passed silent
  obtain ⟨contexts, checked, entries⟩ := contexts_of_checkEach each faultless
  rw [collectChecked_eq_ofEntries, entries] at collected
  exact ⟨contexts, checked, collects_of_entries checked.length_eq collected related⟩

/-- What a run shows of its value, it shows of some value. -/
theorem exists_ok_of_view {Value View : Type} {run : Except Fault Value} (view : Value → View)
    {seen : View} (runs : run.toOption.map view = some seen) :
    ∃ value, run = .ok value ∧ view value = seen := by
  cases run with
  | error fault => cases runs
  | ok value => exact ⟨value, rfl, Option.some.inj runs⟩

/-- The host and its channel are in different files, so both are kept. -/
theorem host_and_channel_collected :
    ∃ result, checkUnits [hostUnit, channelUnit "Header"] .standard = .ok result ∧
      result.errors = [] ∧
      (∃ contexts,
        List.Forall₂ (fun unit context => unit.check .standard = .ok ⟨some context, []⟩)
          [hostUnit, channelUnit "Header"] contexts ∧
        result.Collects [hostUnit, channelUnit "Header"] contexts) ∧
      result.units.keys = ["PHost.ipdl", "PChannel.ipdl"] := by
  have runs : (checkUnits [hostUnit, channelUnit "Header"] .standard).toOption.map
      (fun result => (result.errors.isEmpty, result.units.keys)) =
        some (true, ["PHost.ipdl", "PChannel.ipdl"]) := by decide +kernel
  obtain ⟨result, ok, seen⟩ := exists_ok_of_view _ runs
  obtain ⟨silent, keys⟩ := Prod.mk.inj seen
  have accepted : result.errors = [] := List.isEmpty_iff.mp silent
  exact ⟨result, ok, accepted, checkUnits_collects .standard ok accepted, keys⟩

/-- A protocol without messages and states, by itself in a unit. -/
def bareUnit (file name : String) (includes : List ProtocolInclude) : SourceUnit :=
  { SourceUnit.ofFile ⟨1⟩ file with
    includes
    protocol := some ⟨⟨3⟩, name, [], .async, [], [], [], [], [], [], ⟨file, 2⟩⟩ }

/-- Two units of one file, around one of another, the first with the given includes. -/
def crowdedUnits (includes : List ProtocolInclude) : List SourceUnit :=
  [bareUnit "PA.ipdl" "PA" includes, bareUnit "PC.ipdl" "PC" [], bareUnit "PA.ipdl" "PB" []]

/-- An include of a file that no unit has. -/
def goneInclude : ProtocolInclude := ⟨⟨2⟩, "PGone", "PGone.ipdl", ⟨"PA.ipdl", 1⟩⟩

/-- Three units are accepted and two are kept. What is wrong with the includes of the one
that is lost is reported if it comes alone, and not if it is replaced. -/
theorem crowded_unit_lost :
    (∀ unit ∈ crowdedUnits [goneInclude], unit.Numbered) ∧
      (∃ result, checkUnits (crowdedUnits []) .standard = .ok result ∧ result.errors = [] ∧
        (result.units.entries.map fun entry =>
          (entry.1, entry.2.unit.protocol.map Protocol.name)) =
            [("PA.ipdl", some "PB"), ("PC.ipdl", some "PC")]) ∧
      (∃ alone, checkUnits [bareUnit "PA.ipdl" "PA" [goneInclude]] .standard = .ok alone ∧
        alone.errors.length = 1) ∧
      ∃ result, checkUnits (crowdedUnits [goneInclude]) .standard = .ok result ∧
        result.errors = [] := by
  refine ⟨?_, ?_, ?_, ?_⟩
  · intro unit member
    simp only [crowdedUnits, List.mem_cons, List.not_mem_nil, or_false] at member
    rcases member with rfl | rfl | rfl <;> constructor <;> decide
  · have runs : (checkUnits (crowdedUnits []) .standard).toOption.map (fun result =>
        (result.errors.isEmpty, result.units.entries.map fun entry =>
          (entry.1, entry.2.unit.protocol.map Protocol.name))) =
            some (true, [("PA.ipdl", some "PB"), ("PC.ipdl", some "PC")]) := by decide +kernel
    obtain ⟨result, ok, seen⟩ := exists_ok_of_view _ runs
    obtain ⟨silent, entries⟩ := Prod.mk.inj seen
    exact ⟨result, ok, List.isEmpty_iff.mp silent, entries⟩
  · have runs : (checkUnits [bareUnit "PA.ipdl" "PA" [goneInclude]] .standard).toOption.map
        (fun alone => alone.errors.length) = some 1 := by decide +kernel
    exact exists_ok_of_view _ runs
  · have runs : (checkUnits (crowdedUnits [goneInclude]) .standard).toOption.map
        (fun result => result.errors.isEmpty) = some true := by decide +kernel
    obtain ⟨result, ok, silent⟩ := exists_ok_of_view _ runs
    exact ⟨result, ok, List.isEmpty_iff.mp silent⟩

end ActorProtocol
