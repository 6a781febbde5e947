import ActorProtocol.FrontEnd
import ActorProtocol.Proofs.Machine.Triggers
import Mathlib.Data.List.Induction

/-!
# Checks without faults

A fault is a broken agreement between two checks, and on numbered units none is
broken. The state of an actor is only kept for a type that is linked, so the check
of a program finds the declaration of every type that it looks at. What one unit
needs is carried by `Checked.Made`. A checked unit that comes out of the check of a unit
is `Checked.Clean`, which says more, and so is every entry of the map of a program.
-/

namespace ActorProtocol

set_option autoImplicit false

/-- The unit is what the checks make of a numbered unit with a protocol. -/
def Checked.Made (checked : Checked) : Prop :=
  ∃ protocol extra, checked.unit.protocol = some protocol ∧ checked.unit.Numbered ∧
    checked = checked.unit.checked protocol extra

/-- The unit is what the checks make of a numbered unit in which all names are right. -/
def Checked.Clean (checked : Checked) : Prop :=
  ∃ (unit : SourceUnit) (protocol : Protocol) (extra : List String),
    unit.protocol = some protocol ∧ unit.Numbered ∧
    (unit.resolution protocol extra).errors = [] ∧ checked = unit.checked protocol extra

theorem Checked.Clean.made {checked : Checked} (clean : checked.Clean) : checked.Made := by
  rcases clean with ⟨unit, protocol, extra, described, numbered, _, rfl⟩
  exact ⟨protocol, extra, described, numbered, rfl⟩

namespace SourceUnit

variable {unit : SourceUnit} {protocol : Protocol}

theorem Numbered.actorState?_checked (numbered : unit.Numbered)
    (described : unit.protocol = some protocol) (extra : List String) {type : TypeRef}
    (member : type ∈ unit.typeRefs) :
    (unit.checked protocol extra).actorState? type.id =
      (unit.bindings protocol extra).typeState? (.ofProtocol protocol) type :=
  numbered.state_type described extra ((type_mem_useNodes_iff described).mpr member)

theorem Numbered.declOf?_of_actorState? (numbered : unit.Numbered)
    (described : unit.protocol = some protocol) (extra : List String) {type : TypeRef}
    (member : type ∈ unit.typeRefs) {state : State}
    (asked : (unit.checked protocol extra).actorState? type.id = some state) :
    ∃ decl, (unit.checked protocol extra).decls.declOf? type.id = some decl := by
  have used := (type_mem_useNodes_iff described).mpr member
  have kept := (numbered.actorState?_checked described extra member).symm.trans asked
  cases found : (unit.bindings protocol extra).names.type? (.ofProtocol protocol) type.name with
  | none =>
      unfold Bindings.typeState? at kept
      rw [found] at kept
      cases kept
  | some id =>
      have linked := (numbered.link_type described extra used).trans found
      obtain ⟨decl, declared, _⟩ := declOf?_resolved linked
      exact ⟨decl, declared⟩

end SourceUnit

namespace Program

variable (program : Program)

theorem actorStateError?_ok {checked : Checked} (made : checked.Made) {type : TypeRef}
    (member : type ∈ checked.unit.typeRefs) :
    ∃ error?, program.actorStateError? checked type = .ok error? := by
  obtain ⟨protocol, extra, described, numbered, same⟩ := made
  unfold actorStateError?
  cases asked : checked.actorState? type.id with
  | none => exact ⟨none, rfl⟩
  | some state =>
      dsimp only
      split
      · exact ⟨none, rfl⟩
      · have declared : ∃ decl, checked.decls.declOf? type.id = some decl := by
          rw [same] at asked ⊢
          exact numbered.declOf?_of_actorState? described extra member asked
        obtain ⟨decl, known⟩ := declared
        have looked : checked.decls.declOf type.id = .ok decl := by
          unfold DeclTable.declOf
          rw [known]
        rw [looked]
        simp only [bind, Except.bind]
        split
        · split
          · exact ⟨none, rfl⟩
          · split
            · exact ⟨none, rfl⟩
            · exact ⟨_, rfl⟩
        · exact ⟨none, rfl⟩

theorem actorStateErrors_ok {checked : Checked} (made : checked.Made) {types : List TypeRef}
    (members : ∀ type ∈ types, type ∈ checked.unit.typeRefs) :
    ∃ errors, program.actorStateErrors checked types = .ok errors := by
  induction types with
  | nil => exact ⟨[], rfl⟩
  | cons type types ih =>
      obtain ⟨first, firstOk⟩ := program.actorStateError?_ok made (members _ List.mem_cons_self)
      obtain ⟨later, laterOk⟩ :=
        ih fun other member => members other (List.mem_cons_of_mem _ member)
      unfold actorStateErrors
      rw [firstOk, laterOk]
      exact ⟨_, rfl⟩

theorem unitErrors_ok {unit : ProgramUnit} (made : unit.checked.Made) :
    ∃ errors, program.unitErrors unit = .ok errors := by
  have members : ∀ type ∈ unit.checked.unit.typeRefs.filter TypeRef.isActor,
      type ∈ unit.checked.unit.typeRefs := fun type member => (List.mem_filter.mp member).1
  obtain ⟨errors, ok⟩ := program.actorStateErrors_ok made members
  unfold unitErrors
  rw [ok]
  exact ⟨_, rfl⟩

theorem errorsOf_ok {units : List ProgramUnit} (made : ∀ unit ∈ units, unit.checked.Made) :
    ∃ errors, program.errorsOf units = .ok errors := by
  induction units with
  | nil => exact ⟨[], rfl⟩
  | cons unit units ih =>
      obtain ⟨first, firstOk⟩ := program.unitErrors_ok (made _ List.mem_cons_self)
      obtain ⟨later, laterOk⟩ := ih fun other member => made other (List.mem_cons_of_mem _ member)
      unfold errorsOf
      rw [firstOk, laterOk]
      exact ⟨_, rfl⟩

theorem unitsOf_ok {entries : List (String × Checked)} (made : ∀ entry ∈ entries, entry.2.Made) :
    ∃ units, unitsOf entries = .ok units ∧ ∀ unit ∈ units, unit.checked.Made := by
  induction entries with
  | nil => exact ⟨[], rfl, fun unit member => by cases member⟩
  | cons entry entries ih =>
      obtain ⟨file, checked⟩ := entry
      have first := made _ List.mem_cons_self
      obtain ⟨units, ok, rest⟩ := ih fun other member => made other (List.mem_cons_of_mem _ member)
      obtain ⟨protocol, _, described, _⟩ := first
      have own : checked.unit.requireProtocol = .ok protocol := by
        unfold SourceUnit.requireProtocol
        rw [described]
      unfold unitsOf
      rw [own, ok]
      refine ⟨_, rfl, ?_⟩
      intro unit member
      rcases List.mem_cons.mp member with same | later
      · rw [same]
        exact made _ List.mem_cons_self
      · exact rest unit later

end Program

theorem checkProgram_ok {map : OrderedMap String Checked}
    (made : ∀ entry ∈ map.entries, entry.2.Made) : ∃ errors, checkProgram map = .ok errors := by
  obtain ⟨units, ok, all⟩ := Program.unitsOf_ok made
  obtain ⟨errors, found⟩ := Program.errorsOf_ok ⟨units⟩ all
  refine ⟨errors, ?_⟩
  unfold checkProgram Program.ofMap
  rw [ok]
  exact found

namespace SourceUnit

variable {unit : SourceUnit}

theorem Numbered.check_ok (numbered : unit.Numbered) {protocol : Protocol}
    (described : unit.protocol = some protocol) (options : CheckOptions) :
    ∃ outcome, unit.check options = .ok outcome := by
  unfold check
  rw [resolve_eq_ok described]
  simp only [bind, Except.bind]
  split
  · exact ⟨_, rfl⟩
  · rw [numbered.check_resolved described]
    exact ⟨_, rfl⟩

/-- A unit in which nothing is wrong gives a checked unit. -/
theorem Numbered.check_eq_checked (numbered : unit.Numbered) {protocol : Protocol}
    (described : unit.protocol = some protocol) (options : CheckOptions)
    (silent : (unit.resolution protocol options.extraTypes).errors = [])
    (sound : protocol.structureErrors ++ protocol.triggerErrors ++ protocol.replyErrors = []) :
    unit.check options = .ok ⟨some (unit.checked protocol options.extraTypes), []⟩ := by
  unfold check
  rw [resolve_eq_ok described, silent]
  simp only [bind, Except.bind, List.map_nil, ne_eq, not_true_eq_false, and_false, if_false]
  rw [numbered.check_resolved described, sound]
  simp only [List.map_nil, List.append_nil, List.isEmpty_nil, if_true, pure, Except.pure]

theorem Numbered.clean_of_check (numbered : unit.Numbered) {options : CheckOptions}
    {outcome : UnitCheck} (ok : unit.check options = .ok outcome) {checked : Checked}
    (passed : outcome.checked = some checked) : checked.Clean := by
  unfold check at ok
  cases described : unit.protocol with
  | none =>
      simp only [resolve, requireProtocol, described] at ok
      cases ok
  | some protocol =>
      rw [resolve_eq_ok described] at ok
      simp only [bind, Except.bind] at ok
      split at ok
      · cases ok
        cases passed
      · rw [numbered.check_resolved described] at ok
        cases ok
        dsimp only at passed
        split at passed
        · rename_i faultless
          cases passed
          rw [List.isEmpty_iff, List.append_eq_nil_iff, List.map_eq_nil_iff] at faultless
          exact ⟨unit, protocol, options.extraTypes, described, numbered, faultless.1, rfl⟩
        · cases passed

end SourceUnit

theorem checkEach_ok (options : CheckOptions) {units : List SourceUnit}
    (described : ∀ unit ∈ units, unit.protocol.isSome = true)
    (numbered : ∀ unit ∈ units, unit.Numbered) :
    ∃ outcomes, checkEach options units = .ok outcomes := by
  induction units with
  | nil => exact ⟨[], rfl⟩
  | cons unit units ih =>
      obtain ⟨protocol, own⟩ := Option.isSome_iff_exists.mp (described _ List.mem_cons_self)
      obtain ⟨outcome, ok⟩ := (numbered _ List.mem_cons_self).check_ok own options
      obtain ⟨outcomes, rest⟩ := ih
        (fun other member => described other (List.mem_cons_of_mem _ member))
        (fun other member => numbered other (List.mem_cons_of_mem _ member))
      unfold checkEach
      rw [ok, rest]
      exact ⟨_, rfl⟩

theorem checkEach_cons {options : CheckOptions} {unit : SourceUnit} {units : List SourceUnit}
    {outcomes : List (SourceUnit × UnitCheck)}
    (ok : checkEach options (unit :: units) = .ok outcomes) :
    ∃ outcome rest, unit.check options = .ok outcome ∧ checkEach options units = .ok rest ∧
      outcomes = (unit, outcome) :: rest := by
  unfold checkEach at ok
  cases first : unit.check options with
  | error fault =>
      rw [first] at ok
      cases ok
  | ok outcome =>
      cases later : checkEach options units with
      | error fault =>
          rw [first, later] at ok
          cases ok
      | ok rest =>
          rw [first, later] at ok
          cases ok
          exact ⟨outcome, rest, rfl, rfl, rfl⟩

theorem mem_of_checkEach {options : CheckOptions} {units : List SourceUnit}
    {outcomes : List (SourceUnit × UnitCheck)} (ok : checkEach options units = .ok outcomes) :
    ∀ outcome ∈ outcomes, outcome.1 ∈ units ∧ outcome.1.check options = .ok outcome.2 := by
  induction units generalizing outcomes with
  | nil =>
      cases ok
      intro outcome member
      cases member
  | cons unit units ih =>
      obtain ⟨outcome, rest, first, later, rfl⟩ := checkEach_cons ok
      intro other member
      rcases List.mem_cons.mp member with same | found
      · rw [same]
        exact ⟨List.mem_cons_self, first⟩
      · obtain ⟨inside, checked⟩ := ih later other found
        exact ⟨List.mem_cons_of_mem _ inside, checked⟩

/-- Whatever replaces what in the map, its entries come from the outcomes. -/
theorem exists_outcome_of_collected {outcomes : List (SourceUnit × UnitCheck)}
    {entry : String × Checked} (member : entry ∈ (collectChecked outcomes).entries) :
    ∃ outcome ∈ outcomes, outcome.2.checked = some entry.2 := by
  induction outcomes using List.reverseRecOn with
  | nil => cases member
  | append_singleton outcomes outcome ih =>
      have earlier : entry ∈ (collectChecked outcomes).entries →
          ∃ outcome' ∈ outcomes ++ [outcome], outcome'.2.checked = some entry.2 := by
        intro kept
        obtain ⟨other, found, passed⟩ := ih kept
        exact ⟨other, List.mem_append_left _ found, passed⟩
      obtain ⟨unit, outcome⟩ := outcome
      unfold collectChecked at member
      rw [List.foldl_append, List.foldl_cons, List.foldl_nil] at member
      dsimp only at member
      split at member
      · rename_i checked passed
        rcases OrderedMap.mem_entries_insert member with same | kept
        · refine ⟨(unit, outcome), List.mem_append_right _ List.mem_cons_self, ?_⟩
          rw [same]
          exact passed
        · exact earlier kept
      · exact earlier member

theorem clean_of_checkEach {options : CheckOptions} {units : List SourceUnit}
    (numbered : ∀ unit ∈ units, unit.Numbered) {outcomes : List (SourceUnit × UnitCheck)}
    (ok : checkEach options units = .ok outcomes) :
    ∀ entry ∈ (collectChecked outcomes).entries, entry.2.Clean := by
  intro entry member
  obtain ⟨outcome, found, passed⟩ := exists_outcome_of_collected member
  obtain ⟨inside, checked⟩ := mem_of_checkEach ok outcome found
  exact (numbered _ inside).clean_of_check checked passed

/-- Units are checked against each other when nothing is wrong with any of them. -/
theorem outcomes_of_checkUnits {options : CheckOptions} {units : List SourceUnit}
    {result : ProgramCheck} (ok : checkUnits units options = .ok result) :
    ∃ outcomes, checkEach options units = .ok outcomes ∧
      result.units = collectChecked outcomes ∧
      (result.errors = [] → (∀ outcome ∈ outcomes, outcome.2.errors = []) ∧
        checkProgram result.units = .ok []) := by
  unfold checkUnits at ok
  cases each : checkEach options units with
  | error fault =>
      rw [each] at ok
      cases ok
  | ok outcomes =>
      rw [each] at ok
      simp only [bind, Except.bind] at ok
      refine ⟨outcomes, rfl, ?_⟩
      split at ok
      · rename_i silent
        cases program : checkProgram (collectChecked outcomes) with
        | error fault =>
            rw [program] at ok
            cases ok
        | ok errors =>
            rw [program] at ok
            cases ok
            refine ⟨rfl, fun passed => ⟨?_, ?_⟩⟩
            · exact List.flatMap_eq_nil_iff.mp (List.isEmpty_iff.mp silent)
            · rw [List.map_eq_nil_iff.mp passed] at program
              exact program
      · rename_i faulty
        cases ok
        exact ⟨rfl, fun silent => absurd (List.isEmpty_iff.mpr silent) faulty⟩

theorem checks_never_fault (options : CheckOptions) {units : List SourceUnit}
    (described : ∀ unit ∈ units, unit.protocol.isSome = true)
    (numbered : ∀ unit ∈ units, unit.Numbered) :
    (∀ unit ∈ units, (∃ outcome, unit.check options = .ok outcome) ∧
      ∃ resolved checked, unit.resolve options.extraTypes = .ok resolved ∧
        resolved.value.check = .ok checked) ∧
    ∃ result, checkUnits units options = .ok result ∧
      ∃ errors, checkProgram result.units = .ok errors := by
  constructor
  · intro unit member
    obtain ⟨protocol, own⟩ := Option.isSome_iff_exists.mp (described unit member)
    obtain ⟨outcome, ok⟩ := (numbered unit member).check_ok own options
    exact ⟨⟨outcome, ok⟩, _, _, SourceUnit.resolve_eq_ok own options.extraTypes,
      (numbered unit member).check_resolved own options.extraTypes⟩
  · obtain ⟨outcomes, ok⟩ := checkEach_ok options described numbered
    obtain ⟨errors, found⟩ :=
      checkProgram_ok fun entry member => (clean_of_checkEach numbered ok entry member).made
    unfold checkUnits
    rw [ok]
    simp only [bind, Except.bind]
    split
    · rw [found]
      exact ⟨_, rfl, errors, found⟩
    · exact ⟨_, rfl, errors, found⟩

/-- One of two channels names a type that is not known, and both are checked to the end. -/
theorem channels_never_fault :
    (∀ unit ∈ [channelUnit "Header", channelUnit "Missing"], unit.protocol.isSome = true) ∧
      (∀ unit ∈ [channelUnit "Header", channelUnit "Missing"], unit.Numbered) ∧
      ∃ result, checkUnits [channelUnit "Header", channelUnit "Missing"] ⟨.keepGoing, []⟩ =
          .ok result ∧
        (∃ errors, checkProgram result.units = .ok errors) ∧
        result.errors.map Diagnostic.message = ["Unknown type `Missing`"] := by
  have described : ∀ unit ∈ [channelUnit "Header", channelUnit "Missing"],
      unit.protocol.isSome = true := by decide
  have numbered : ∀ unit ∈ [channelUnit "Header", channelUnit "Missing"], unit.Numbered := by
    intro unit member
    rcases List.mem_cons.mp member with same | last
    · exact same ▸ channelUnit_numbered "Header"
    · exact List.mem_singleton.mp last ▸ channelUnit_numbered "Missing"
  obtain ⟨_, result, ok, faultless⟩ := checks_never_fault ⟨.keepGoing, []⟩ described numbered
  refine ⟨described, numbered, result, ok, faultless, ?_⟩
  have messages : (checkUnits [channelUnit "Header", channelUnit "Missing"]
      ⟨.keepGoing, []⟩).toOption.map (fun result => result.errors.map Diagnostic.message) =
        some ["Unknown type `Missing`"] := by decide +kernel
  rw [ok] at messages
  exact Option.some.inj messages

end ActorProtocol
