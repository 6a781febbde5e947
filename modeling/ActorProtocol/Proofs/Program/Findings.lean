import ActorProtocol.Proofs.Program.Consistency
import Mathlib.Data.List.Basic

/-!
# Findings of the check of a program

The check of a program either ends in a fault or finds a plain list of errors. A fault is
owed to a single unit: it has no protocol, or it keeps the state of a type that is linked
to nothing. What is found in a unit depends on the other units only through the look-up of
files and of protocols.
-/

namespace ActorProtocol

set_option autoImplicit false

namespace Checked

/-- The included protocol that a type stands for, with the state that is kept for it. -/
def asked? (checked : Checked) (type : TypeRef) : Option (String × String) :=
  (checked.actorState? type.id).bind fun state =>
    (checked.decls.declOf? type.id).bind fun decl =>
      match decl.kind with
      | .includedProtocol _ => some (decl.fullName, state.name)
      | _ => none

/-- A state is kept for the type, but nothing tells whose state it is. -/
def Astray (checked : Checked) (type : TypeRef) : Prop :=
  (∃ state, checked.actorState? type.id = some state ∧ state.isSentinel = false) ∧
    checked.decls.declOf? type.id = none

theorem asked?_eq_some_iff {checked : Checked} {type : TypeRef} {protocol name : String} :
    checked.asked? type = some (protocol, name) ↔
      ∃ state decl file, checked.actorState? type.id = some state ∧ state.name = name ∧
        checked.decls.declOf? type.id = some decl ∧ decl.kind = .includedProtocol file ∧
        decl.fullName = protocol := by
  unfold asked?
  rw [Option.bind_eq_some_iff]
  constructor
  · rintro ⟨state, kept, asked⟩
    obtain ⟨decl, declared, asked⟩ := Option.bind_eq_some_iff.mp asked
    split at asked
    · rename_i file kind
      cases asked
      exact ⟨state, decl, file, kept, rfl, declared, kind, rfl⟩
    · cases asked
  · rintro ⟨state, decl, file, kept, rfl, declared, kind, rfl⟩
    refine ⟨state, kept, ?_⟩
    rw [declared, Option.bind_some, kind]

end Checked

namespace ProgramUnit

/-- The unit of an entry, if it has a protocol. -/
def described? (entry : String × Checked) : Option ProgramUnit :=
  entry.2.unit.protocol.map fun protocol => ⟨entry.1, protocol, entry.2⟩

theorem described?_eq_some_iff {entry : String × Checked} {unit : ProgramUnit} :
    described? entry = some unit ↔
      entry = (unit.file, unit.checked) ∧ unit.checked.unit.protocol = some unit.protocol := by
  obtain ⟨file, checked⟩ := entry
  unfold described?
  rw [Option.map_eq_some_iff]
  constructor
  · rintro ⟨protocol, described, rfl⟩
    exact ⟨rfl, described⟩
  · rintro ⟨same, described⟩
    cases same
    exact ⟨unit.protocol, described, rfl⟩

/-- The types of the unit whose states are looked at. -/
def actors (unit : ProgramUnit) : List TypeRef :=
  unit.checked.unit.typeRefs.filter TypeRef.isActor

def Astray (unit : ProgramUnit) : Prop :=
  ∃ type ∈ unit.actors, unit.checked.Astray type

end ProgramUnit

namespace Program

section Findings

variable (program : Program)

def askedError? (checked : Checked) (type : TypeRef) : Option (Located ProgramError) :=
  (checked.asked? type).bind fun (protocol, name) =>
    (program.unitOfProtocol? protocol).bind fun target =>
      if target.checked.machine.containsState name then none
      else some ⟨.unknownActorState protocol name, type.loc⟩

def unitFindings (unit : ProgramUnit) : List (Located ProgramError) :=
  unit.checked.unit.includes.filterMap program.includeError? ++
    unit.protocol.managers.filterMap (program.managerError? unit.protocol) ++
    unit.protocol.manages.filterMap (program.managesError? unit.protocol) ++
    unit.actors.filterMap (program.askedError? unit.checked)

def findings : List (Located ProgramError) :=
  program.units.flatMap program.unitFindings

end Findings

variable {program : Program}

theorem askedError?_eq_some_iff {checked : Checked} {type : TypeRef}
    {error : Located ProgramError} :
    program.askedError? checked type = some error ↔
      ∃ protocol name target, checked.asked? type = some (protocol, name) ∧
        program.unitOfProtocol? protocol = some target ∧
        target.checked.machine.containsState name = false ∧
        error = ⟨.unknownActorState protocol name, type.loc⟩ := by
  unfold askedError?
  rw [Option.bind_eq_some_iff]
  constructor
  · rintro ⟨⟨protocol, name⟩, asked, found⟩
    obtain ⟨target, described, found⟩ := Option.bind_eq_some_iff.mp found
    split at found
    · cases found
    · rename_i missing
      cases found
      exact ⟨protocol, name, target, asked, described, Bool.eq_false_iff.mpr missing, rfl⟩
  · rintro ⟨protocol, name, target, asked, described, missing, rfl⟩
    refine ⟨(protocol, name), asked, ?_⟩
    simp only [described, Option.bind_some, missing, Bool.false_eq_true, if_false]

/-- Sentinel states are states of every machine, so passing over them hides nothing. -/
theorem askedError?_of_sentinel {checked : Checked} {type : TypeRef} {state : State}
    (kept : checked.actorState? type.id = some state) (sentinel : state.isSentinel = true) :
    program.askedError? checked type = none := by
  rw [Option.eq_none_iff_forall_not_mem]
  intro error found
  obtain ⟨protocol, name, target, asked, _, missing, _⟩ := askedError?_eq_some_iff.mp found
  obtain ⟨same, _, _, again, rfl, _⟩ := Checked.asked?_eq_some_iff.mp asked
  cases kept.symm.trans again
  have everywhere : target.checked.machine.containsState state.name = true :=
    StateMachine.containsState_iff.mpr (Or.inl (State.isSentinelName_of_isSentinel sentinel))
  rw [everywhere] at missing
  cases missing

/-! ## Runs of the check -/

/-- A run that checks items in order and gathers the errors of each. -/
structure Gathers {Item Found : Type}
    (run : List Item → Except Fault (List (Located ProgramError)))
    (check : Item → Except Fault Found) (errors : Found → List (Located ProgramError)) :
    Prop where
  nil : run [] = .ok []
  cons : ∀ item rest, run (item :: rest) = do
    let found ← check item
    let later ← run rest
    return errors found ++ later

namespace Gathers

variable {Item Found : Type} {run : List Item → Except Fault (List (Located ProgramError))}
  {check : Item → Except Fault Found} {errors : Found → List (Located ProgramError)}
  {items : List Item}

theorem ok (gathers : Gathers run check errors) {found : Item → Found}
    (finds : ∀ item ∈ items, check item = .ok (found item)) :
    run items = .ok (items.flatMap fun item => errors (found item)) := by
  induction items with
  | nil => exact gathers.nil
  | cons item items ih =>
      rw [gathers.cons, finds item List.mem_cons_self,
        ih fun other member => finds other (List.mem_cons_of_mem _ member)]
      rfl

/-- Whichever item is the first to fail, the run fails in the same way. -/
theorem fault (gathers : Gathers run check errors) {fails : Item → Prop}
    (faults : ∀ item, fails item → ∃ node, check item = .error (.missingDecl node))
    (finds : ∀ item, ¬ fails item → ∃ found, check item = .ok found)
    (failing : ∃ item ∈ items, fails item) : ∃ node, run items = .error (.missingDecl node) := by
  induction items with
  | nil =>
      obtain ⟨_, member, _⟩ := failing
      cases member
  | cons item items ih =>
      rw [gathers.cons]
      by_cases first : fails item
      · obtain ⟨node, fault⟩ := faults item first
        rw [fault]
        exact ⟨node, rfl⟩
      · have later : ∃ item ∈ items, fails item := by
          obtain ⟨other, member, failed⟩ := failing
          rcases List.mem_cons.mp member with rfl | inside
          · exact absurd failed first
          · exact ⟨other, inside, failed⟩
        obtain ⟨found, passed⟩ := finds item first
        obtain ⟨node, fault⟩ := ih later
        rw [passed, fault]
        exact ⟨node, rfl⟩

end Gathers

section Types

variable {checked : Checked} {type : TypeRef}

theorem actorStateError?_of_astray (astray : checked.Astray type) :
    program.actorStateError? checked type = .error (.missingDecl type.id) := by
  obtain ⟨⟨state, kept, ordinary⟩, missing⟩ := astray
  unfold actorStateError? DeclTable.declOf
  rw [kept, missing]
  dsimp only
  rw [ordinary]
  rfl

theorem actorStateError?_of_sound (sound : ¬ checked.Astray type) :
    program.actorStateError? checked type = .ok (program.askedError? checked type) := by
  unfold actorStateError?
  cases kept : checked.actorState? type.id with
  | none =>
      unfold askedError? Checked.asked?
      rw [kept]
      rfl
  | some state =>
      dsimp only
      split
      · rename_i sentinel
        rw [askedError?_of_sentinel kept sentinel]
      · rename_i ordinary
        unfold DeclTable.declOf askedError? Checked.asked?
        cases declared : checked.decls.declOf? type.id with
        | none => exact absurd ⟨⟨state, kept, Bool.eq_false_iff.mpr ordinary⟩, declared⟩ sound
        | some decl =>
            simp only [bind, Except.bind, kept, Option.bind_some]
            cases decl.kind with
            | includedProtocol file =>
                simp only [Option.bind_some]
                cases program.unitOfProtocol? decl.fullName with
                | none => rfl
                | some target =>
                    simp only [Option.bind_some]
                    split <;> rfl
            | _ => rfl

end Types

theorem actorStateErrors_of_astray {checked : Checked} {types : List TypeRef}
    (astray : ∃ type ∈ types, checked.Astray type) :
    ∃ node, program.actorStateErrors checked types = .error (.missingDecl node) := by
  have gathers : Gathers (program.actorStateErrors checked)
      (program.actorStateError? checked) Option.toList := ⟨rfl, fun _ _ => rfl⟩
  apply gathers.fault _ _ astray
  · exact fun type lost => ⟨type.id, actorStateError?_of_astray lost⟩
  · exact fun type sound => ⟨_, actorStateError?_of_sound sound⟩

theorem actorStateErrors_of_sound {checked : Checked} {types : List TypeRef}
    (sound : ∀ type ∈ types, ¬ checked.Astray type) :
    program.actorStateErrors checked types =
      .ok (types.filterMap (program.askedError? checked)) := by
  have gathers : Gathers (program.actorStateErrors checked)
      (program.actorStateError? checked) Option.toList := ⟨rfl, fun _ _ => rfl⟩
  rw [List.filterMap_eq_flatMap_toList]
  exact gathers.ok fun type member => actorStateError?_of_sound (sound type member)

theorem unitErrors_of_astray {unit : ProgramUnit} (astray : unit.Astray) :
    ∃ node, program.unitErrors unit = .error (.missingDecl node) := by
  obtain ⟨node, fault⟩ : ∃ node, program.actorStateErrors unit.checked unit.actors =
    .error (.missingDecl node) := actorStateErrors_of_astray astray
  refine ⟨node, ?_⟩
  unfold ProgramUnit.actors at fault
  unfold unitErrors
  rw [fault]
  rfl

theorem unitErrors_of_sound {unit : ProgramUnit} (sound : ¬ unit.Astray) :
    program.unitErrors unit = .ok (program.unitFindings unit) := by
  have asked : program.actorStateErrors unit.checked unit.actors =
      .ok (unit.actors.filterMap (program.askedError? unit.checked)) := by
    apply actorStateErrors_of_sound
    exact fun type member lost => sound ⟨type, member, lost⟩
  unfold unitErrors unitFindings
  unfold ProgramUnit.actors at asked ⊢
  rw [asked]
  rfl

theorem errors_of_astray (astray : ∃ unit ∈ program.units, unit.Astray) :
    ∃ node, program.errors = .error (.missingDecl node) := by
  have gathers : Gathers program.errorsOf program.unitErrors fun errors => errors :=
    ⟨rfl, fun _ _ => rfl⟩
  apply gathers.fault _ _ astray
  · exact fun unit lost => unitErrors_of_astray lost
  · exact fun unit sound => ⟨_, unitErrors_of_sound sound⟩

theorem errors_of_sound (sound : ∀ unit ∈ program.units, ¬ unit.Astray) :
    program.errors = .ok program.findings := by
  have gathers : Gathers program.errorsOf program.unitErrors fun errors => errors :=
    ⟨rfl, fun _ _ => rfl⟩
  exact gathers.ok fun unit member => unitErrors_of_sound (sound unit member)

/-- What the check finds, if it does not end in a fault. -/
theorem eq_findings_of_errors {errors : List (Located ProgramError)}
    (ok : program.errors = .ok errors) : errors = program.findings := by
  by_cases astray : ∃ unit ∈ program.units, unit.Astray
  · obtain ⟨node, fault⟩ := errors_of_astray astray
    rw [fault] at ok
    cases ok
  · rw [errors_of_sound fun unit member lost => astray ⟨unit, member, lost⟩] at ok
    exact (Except.ok.inj ok).symm

/-! ## Units of a map -/

theorem unitsOf_of_undescribed {entries : List (String × Checked)}
    (undescribed : ∃ entry ∈ entries, entry.2.unit.protocol = none) :
    ∃ file, unitsOf entries = .error (.missingProtocol file) := by
  induction entries with
  | nil =>
      obtain ⟨_, member, _⟩ := undescribed
      cases member
  | cons entry entries ih =>
      obtain ⟨file, checked⟩ := entry
      unfold unitsOf SourceUnit.requireProtocol
      cases described : checked.unit.protocol with
      | none => exact ⟨checked.unit.file, rfl⟩
      | some protocol =>
          obtain ⟨other, member, none⟩ := undescribed
          rcases List.mem_cons.mp member with rfl | inside
          · rw [described] at none
            cases none
          · obtain ⟨later, fault⟩ := ih ⟨other, inside, none⟩
            rw [fault]
            exact ⟨later, rfl⟩

theorem unitsOf_of_described {entries : List (String × Checked)}
    (described : ∀ entry ∈ entries, entry.2.unit.protocol ≠ none) :
    unitsOf entries = .ok (entries.filterMap ProgramUnit.described?) := by
  induction entries with
  | nil => rfl
  | cons entry entries ih =>
      obtain ⟨file, checked⟩ := entry
      obtain ⟨protocol, known⟩ := Option.ne_none_iff_exists'.mp (described _ List.mem_cons_self)
      unfold unitsOf SourceUnit.requireProtocol ProgramUnit.described?
      rw [ih fun other member => described other (List.mem_cons_of_mem _ member)]
      dsimp only at known
      rw [known, List.filterMap_cons, known]
      rfl

/-- The program of some entries, without those that have no protocol. -/
def ofEntries (entries : List (String × Checked)) : Program :=
  ⟨entries.filterMap ProgramUnit.described?⟩

theorem ofMap_of_described {map : OrderedMap String Checked}
    (described : ∀ entry ∈ map.entries, entry.2.unit.protocol ≠ none) :
    ofMap map = .ok (ofEntries map.entries) := by
  unfold ofMap
  rw [unitsOf_of_described described]
  rfl

/-- Units with a protocol are all in the program, in their order. -/
theorem entries_of_units {entries : List (String × Checked)}
    (described : ∀ entry ∈ entries, entry.2.unit.protocol ≠ none) :
    ((ofEntries entries).units.map fun unit => (unit.file, unit.checked)) = entries := by
  unfold ofEntries
  induction entries with
  | nil => rfl
  | cons entry entries ih =>
      obtain ⟨protocol, known⟩ := Option.ne_none_iff_exists'.mp (described _ List.mem_cons_self)
      have made : ProgramUnit.described? entry = some ⟨entry.1, protocol, entry.2⟩ :=
        ProgramUnit.described?_eq_some_iff.mpr ⟨rfl, known⟩
      have later := ih fun other member => described other (List.mem_cons_of_mem _ member)
      dsimp only at later ⊢
      rw [List.filterMap_cons, made, List.map_cons, later]

end Program

theorem checkProgram_of_undescribed {map : OrderedMap String Checked}
    (undescribed : ∃ entry ∈ map.entries, entry.2.unit.protocol = none) :
    ∃ file, checkProgram map = .error (.missingProtocol file) := by
  obtain ⟨file, fault⟩ := Program.unitsOf_of_undescribed undescribed
  refine ⟨file, ?_⟩
  unfold checkProgram Program.ofMap
  rw [fault]
  rfl

theorem checkProgram_eq_errors {map : OrderedMap String Checked} {program : Program}
    (whole : Program.ofMap map = .ok program) : checkProgram map = program.errors := by
  rw [checkProgram, whole]
  rfl

theorem described_of_checkProgram {map : OrderedMap String Checked}
    {errors : List (Located ProgramError)} (ok : checkProgram map = .ok errors) :
    ∀ entry ∈ map.entries, entry.2.unit.protocol ≠ none := by
  intro entry member none
  obtain ⟨file, fault⟩ := checkProgram_of_undescribed ⟨entry, member, none⟩
  rw [fault] at ok
  cases ok

end ActorProtocol
