import ActorProtocol.FrontEnd
import ActorProtocol.Proofs.Machine.Rejection

/-!
# Policies

The two policies differ only in where they stop. Under the partial policy the checks of
the machine see a unit with names that are not known; a transition with such a name is
poisoned, and its trigger is not looked at. So nothing is lost and no transition is
reported by both stages: a name of a message is either unknown or has a direction that
a trigger may not fit.
-/

namespace ActorProtocol

set_option autoImplicit false

def NamingError.isUnknownMessage : NamingError → Bool
  | unknownMessage _ => true
  | unknownType _ | unknownProtocol _ | unknownState _ _ | notAnActorType _ _ | duplicateDecl _
  | duplicateParam _ _ => false

theorem NamingError.isFailure_of_isUnknownMessage (error : NamingError)
    (about : error.isUnknownMessage = true) : error.isFailure = true := by
  cases error <;> first | rfl | cases about

/-- Only transitions name messages. -/
theorem UseNode.not_unknownMessage_of_failure {node : UseNode} (other : node.transition? = none)
    (error : NamingError) (failure : node.Failure error) : error.isUnknownMessage = false := by
  cases failure <;> first | rfl | cases other

/-- The error of a transition whose message is not known. -/
def Resolved.unknownMessage? (resolved : Resolved) (transition : Transition) :
    Option (Located NamingError) :=
  transition.action.bind fun (_, message) =>
    if resolved.isPoisoned transition.id then some ⟨.unknownMessage message, transition.loc⟩
    else none

/-- The check of a trigger passes over what resolution reports. -/
theorem Resolved.unknownMessage?_or_mismatch? (resolved : Resolved) (transition : Transition) :
    resolved.unknownMessage? transition = none ∨ resolved.mismatch? transition = none := by
  unfold Resolved.unknownMessage? Resolved.mismatch?
  cases transition.action with
  | none => exact Or.inl rfl
  | some action =>
      rw [Option.bind_some, Option.bind_some]
      dsimp only
      cases resolved.isPoisoned transition.id with
      | false => exact Or.inl rfl
      | true => exact Or.inr rfl

/-- What comes of both stages. -/
def UnitCheck.complete (resolved : Reported Resolved NamingError)
    (checked : Reported Checked MachineError) : UnitCheck :=
  let errors := resolved.errors.map Diagnostic.naming ++ checked.errors.map Diagnostic.machine
  ⟨if errors.isEmpty then some checked.value else none, errors⟩

theorem UnitCheck.isSome_complete_iff (resolved : Reported Resolved NamingError)
    (checked : Reported Checked MachineError) :
    (complete resolved checked).checked.isSome = true ↔ (complete resolved checked).errors = [] := by
  unfold complete
  dsimp only
  rw [← List.isEmpty_iff]
  split
  · rename_i silent
    exact ⟨fun _ => silent, fun _ => rfl⟩
  · rename_i faulty
    exact ⟨nofun, fun silent => absurd silent faulty⟩

/-- How the outcomes of the two policies are related, by what the stages report. -/
structure PoliciesAgree (resolved : Reported Resolved NamingError)
    (checked : Reported Checked MachineError) (strict keepGoing : UnitCheck) : Prop where
  all : keepGoing.errors =
    resolved.errors.map Diagnostic.naming ++ checked.errors.map Diagnostic.machine
  same : resolved.errors = [] → strict = keepGoing
  stopped : resolved.errors ≠ [] → strict.errors = resolved.errors.map Diagnostic.naming
  initial : strict.errors <+: keepGoing.errors
  faulty : strict.errors = [] ↔ keepGoing.errors = []
  strictPasses : strict.checked.isSome = true ↔ strict.errors = []
  keepGoingPasses : keepGoing.checked.isSome = true ↔ keepGoing.errors = []

/-- No transition is reported by both stages. The messages that are not known are those of
the poisoned transitions, and the triggers that do not fit are those of other transitions. -/
structure ReportedApart (protocol : Protocol) (resolved : Reported Resolved NamingError)
    (checked : Reported Checked MachineError) : Prop where
  unknown : (resolved.errors.filter fun error => error.error.isUnknownMessage) =
    (protocol.statements.flatMap Statement.transitions).filterMap resolved.value.unknownMessage?
  mismatched : (errorsAbout .trigger checked.errors).Perm
    ((protocol.statements.flatMap Statement.transitions).filterMap resolved.value.mismatch?)
  once : ∀ transition, resolved.value.unknownMessage? transition = none ∨
    resolved.value.mismatch? transition = none
  names : ∀ name loc, ⟨.unknownMessage name, loc⟩ ∈ resolved.errors →
    ∀ trigger declared other,
      ⟨.triggerDirectionMismatch trigger name declared, other⟩ ∉ checked.errors

namespace SourceUnit

variable {unit : SourceUnit} {protocol : Protocol} {extra : List String}

/-! ## Where the policies stop -/

theorem check_undescribed (undescribed : unit.protocol = none) (options : CheckOptions) :
    unit.check options = .error (.missingProtocol unit.file) := by
  unfold check resolve requireProtocol
  rw [undescribed]
  rfl

/-- The errors of a unit are those of its names and, unless the policy stops there, then
those of its machine. -/
theorem errors_check (described : unit.protocol = some protocol) (options : CheckOptions) :
    (unit.check options).map UnitCheck.errors =
      if options.policy = .strict ∧ (unit.resolution protocol options.extraTypes).errors ≠ [] then
        .ok ((unit.resolution protocol options.extraTypes).errors.map Diagnostic.naming)
      else
        ((unit.resolved protocol options.extraTypes).check.map Reported.errors).map fun errors =>
          (unit.resolution protocol options.extraTypes).errors.map Diagnostic.naming ++
            errors.map Diagnostic.machine := by
  unfold check
  rw [resolve_eq_ok described]
  simp only [bind, Except.bind, ne_eq, List.map_eq_nil_iff]
  split
  · rfl
  · cases (unit.resolved protocol options.extraTypes).check <;> rfl

/-- What a check may report, by where it stops. -/
inductive Reports (unit : SourceUnit) (protocol : Protocol) (options : CheckOptions) :
    List Diagnostic → Prop
  | stopped (strict : options.policy = .strict)
      (wrong : (unit.resolution protocol options.extraTypes).errors ≠ []) :
      Reports unit protocol options
        ((unit.resolution protocol options.extraTypes).errors.map Diagnostic.naming)
  | complete {checked : Reported Checked MachineError}
      (goesOn : options.policy = .strict →
        (unit.resolution protocol options.extraTypes).errors = [])
      (ok : (unit.resolved protocol options.extraTypes).check = .ok checked) :
      Reports unit protocol options
        ((unit.resolution protocol options.extraTypes).errors.map Diagnostic.naming ++
          checked.errors.map Diagnostic.machine)

theorem reports_of_check {options : CheckOptions} {outcome : UnitCheck}
    (ends : unit.check options = .ok outcome) :
    ∃ protocol, unit.protocol = some protocol ∧ unit.Reports protocol options outcome.errors := by
  cases described : unit.protocol with
  | none =>
      rw [check_undescribed described] at ends
      cases ends
  | some protocol =>
      refine ⟨protocol, rfl, ?_⟩
      have errors := errors_check described options
      rw [ends] at errors
      split at errors
      · rename_i stops
        rw [Except.ok.inj errors]
        exact .stopped stops.1 stops.2
      · rename_i goesOn
        cases ok : (unit.resolved protocol options.extraTypes).check with
        | error fault =>
            rw [ok] at errors
            cases errors
        | ok checked =>
            rw [ok] at errors
            rw [Except.ok.inj errors]
            exact .complete (by simpa using goesOn) ok

section Stages

variable {resolved : Reported Resolved NamingError} {checked : Reported Checked MachineError}

theorem check_complete (resolves : unit.resolve extra = .ok resolved)
    (checks : resolved.value.check = .ok checked) {policy : Policy}
    (goesOn : policy = .keepGoing ∨ resolved.errors = []) :
    unit.check ⟨policy, extra⟩ = .ok (.complete resolved checked) := by
  unfold check
  rw [resolves]
  simp only [bind, Except.bind]
  split
  · rename_i stops
    rcases goesOn with going | silent
    · rw [going] at stops
      cases stops.1
    · exact absurd (List.map_eq_nil_iff.mpr silent) stops.2
  · rw [checks]
    rfl

theorem check_stopped (resolves : unit.resolve extra = .ok resolved)
    (wrong : resolved.errors ≠ []) :
    unit.check ⟨.strict, extra⟩ = .ok ⟨none, resolved.errors.map Diagnostic.naming⟩ := by
  have listed : resolved.errors.map Diagnostic.naming ≠ [] := List.map_eq_nil_iff.not.mpr wrong
  unfold check
  rw [resolves]
  simp only [bind, Except.bind]
  rw [if_pos ⟨trivial, listed⟩]
  rfl

/-- A unit whose names are all known has one outcome. -/
theorem policiesAgree_of_silent (silent : resolved.errors = []) :
    PoliciesAgree resolved checked (.complete resolved checked) (.complete resolved checked) where
  all := rfl
  same := fun _ => rfl
  stopped := fun wrong => absurd silent wrong
  initial := List.prefix_rfl
  faulty := Iff.rfl
  strictPasses := UnitCheck.isSome_complete_iff resolved checked
  keepGoingPasses := UnitCheck.isSome_complete_iff resolved checked

theorem policiesAgree_of_wrong (wrong : resolved.errors ≠ []) :
    PoliciesAgree resolved checked ⟨none, resolved.errors.map Diagnostic.naming⟩
      (.complete resolved checked) := by
  have listed : resolved.errors.map Diagnostic.naming ≠ [] := List.map_eq_nil_iff.not.mpr wrong
  exact {
    all := rfl
    same := fun silent => absurd silent wrong
    stopped := fun _ => rfl
    initial := List.prefix_append _ _
    faulty := by
      constructor
      · intro none
        exact absurd none listed
      · intro none
        exact absurd (List.append_eq_nil_iff.mp none).1 listed
    strictPasses := ⟨nofun, fun none => absurd none listed⟩
    keepGoingPasses := UnitCheck.isSome_complete_iff resolved checked }

theorem policies_agree_of_stages (resolves : unit.resolve extra = .ok resolved)
    (checks : resolved.value.check = .ok checked) :
    ∃ strict keepGoing, unit.check ⟨.strict, extra⟩ = .ok strict ∧
      unit.check ⟨.keepGoing, extra⟩ = .ok keepGoing ∧
      PoliciesAgree resolved checked strict keepGoing := by
  have whole := check_complete resolves checks (.inl rfl)
  by_cases silent : resolved.errors = []
  · exact ⟨_, _, check_complete resolves checks (.inr silent), whole,
      policiesAgree_of_silent silent⟩
  · exact ⟨_, _, check_stopped resolves silent, whole, policiesAgree_of_wrong silent⟩

end Stages

/-! ## What the stages report of a transition -/

namespace Numbered

theorem unknownMessages_of_transition (numbered : unit.Numbered)
    (described : unit.protocol = some protocol) {transition : Transition}
    (used : .transition transition ∈ unit.useNodes protocol) :
    (((unit.bindings protocol extra).nodeErrors (.ofProtocol protocol)
        (.transition transition)).filter fun error => error.error.isUnknownMessage) =
      ((unit.resolved protocol extra).unknownMessage? transition).toList := by
  have poison : (unit.resolved protocol extra).isPoisoned transition.id =
      ((unit.bindings protocol extra).transitionError? transition).isSome :=
    numbered.isPoisoned_useNode described extra used
  dsimp only [Bindings.nodeErrors, Bindings.useError?, UseNode.loc, Resolved.unknownMessage?]
  rw [poison]
  unfold Bindings.transitionError?
  cases transition.action with
  | none => rfl
  | some action =>
      rw [Option.bind_some, Option.bind_some]
      dsimp only
      split <;> rfl

theorem unknownMessages_resolved (numbered : unit.Numbered)
    (described : unit.protocol = some protocol) :
    ((unit.resolution protocol extra).errors.filter fun error => error.error.isUnknownMessage) =
      (protocol.statements.flatMap Statement.transitions).filterMap
        (unit.resolved protocol extra).unknownMessage? := by
  have written : (protocol.statements.flatMap Statement.transitions).filterMap
      (unit.resolved protocol extra).unknownMessage? =
        ((unit.useNodes protocol).filterMap UseNode.transition?).filterMap
          (unit.resolved protocol extra).unknownMessage? := by
    rw [filterMap_transition?_useNodes described, List.filterMap_filter]
    apply List.filterMap_congr
    intro transition _
    unfold Resolved.unknownMessage?
    cases transition.action <;> rfl
  rw [written]
  apply failures_of_kind NamingError.isFailure_of_isUnknownMessage
  intro node used
  cases node with
  | transition transition => exact numbered.unknownMessages_of_transition described used
  | type | protocolName =>
      exact Bindings.nodeErrors_of_other_kind (UseNode.not_unknownMessage_of_failure rfl)

theorem isPoisoned_transition_iff (numbered : unit.Numbered)
    (described : unit.protocol = some protocol) {transition : Transition}
    (written : transition ∈ protocol.statements.flatMap Statement.transitions)
    {trigger : Trigger} {name : String} (action : transition.action = some (trigger, name)) :
    (unit.resolved protocol extra).isPoisoned transition.id = true ↔
      protocol.message? name = none := by
  have settled := numbered.settled_transition described extra written action
  cases first : protocol.message? name with
  | none =>
      rw [first] at settled
      exact ⟨fun _ => rfl, fun _ => settled⟩
  | some message =>
      rw [first] at settled
      constructor
      · intro poisoned
        cases settled.1.symm.trans poisoned
      · exact nofun

theorem message?_of_unknown (numbered : unit.Numbered) (described : unit.protocol = some protocol)
    {transition : Transition}
    (written : transition ∈ protocol.statements.flatMap Statement.transitions) {name : String}
    {loc : Location} (unknown : (unit.resolved protocol extra).unknownMessage? transition =
      some ⟨.unknownMessage name, loc⟩) : protocol.message? name = none := by
  unfold Resolved.unknownMessage? at unknown
  obtain ⟨⟨trigger, message⟩, action, found⟩ := Option.bind_eq_some_iff.mp unknown
  dsimp only at found
  split at found
  · rename_i poisoned
    cases found
    exact (numbered.isPoisoned_transition_iff described written action).mp poisoned
  · cases found

theorem message?_of_mismatch (numbered : unit.Numbered) (described : unit.protocol = some protocol)
    {transition : Transition}
    (written : transition ∈ protocol.statements.flatMap Statement.transitions) {name : String}
    {trigger : Trigger} {declared : Direction} {loc : Location}
    (misfits : (unit.resolved protocol extra).mismatch? transition =
      some ⟨.triggerDirectionMismatch trigger name declared, loc⟩) :
    protocol.message? name ≠ none := by
  intro absent
  unfold Resolved.mismatch? at misfits
  obtain ⟨⟨asked, message⟩, action, found⟩ := Option.bind_eq_some_iff.mp misfits
  dsimp only at found
  split at found
  · cases found
  · rename_i healthy
    obtain ⟨decl, _, found⟩ := Option.bind_eq_some_iff.mp found
    split at found
    · split at found
      · cases found
      · cases found
        exact healthy ((numbered.isPoisoned_transition_iff described written action).mpr absent)
    · cases found

theorem reportedApart (numbered : unit.Numbered) (described : unit.protocol = some protocol)
    {checked : Reported Checked MachineError}
    (checks : (unit.resolved protocol extra).check = .ok checked) :
    ReportedApart protocol
      ⟨unit.resolved protocol extra, (unit.resolution protocol extra).errors⟩ checked := by
  have unknown : ((unit.resolution protocol extra).errors.filter
      fun error => error.error.isUnknownMessage) =
        (protocol.statements.flatMap Statement.transitions).filterMap
          (unit.resolved protocol extra).unknownMessage? :=
    numbered.unknownMessages_resolved described
  have mismatched : (errorsAbout .trigger checked.errors).Perm
      ((unit.resolved protocol extra).mismatchErrors protocol) := by
    obtain ⟨own, same, _, about⟩ := Resolved.errorsAbout_of_check checks
    cases described.symm.trans same
    rw [about]
    exact Resolved.mismatchErrors_perm protocol
  refine ⟨unknown, mismatched, Resolved.unknownMessage?_or_mismatch? _, ?_⟩
  intro name loc reported trigger declared other misfits
  have asked : ⟨.unknownMessage name, loc⟩ ∈ (unit.resolution protocol extra).errors.filter
      fun error => error.error.isUnknownMessage := List.mem_filter.mpr ⟨reported, rfl⟩
  rw [unknown] at asked
  obtain ⟨transition, written, found⟩ := List.mem_filterMap.mp asked
  have listed := mismatched.mem_iff.mp (mem_iff_mem_errorsAbout.mp misfits)
  obtain ⟨later, laterWritten, laterFound⟩ := List.mem_filterMap.mp listed
  exact numbered.message?_of_mismatch described laterWritten laterFound
    (numbered.message?_of_unknown described written found)

end Numbered

theorem check_policies_agree (numbered : unit.Numbered) (extra : List String) :
    (unit.protocol = none ∧
      ∀ policy, unit.check ⟨policy, extra⟩ = .error (.missingProtocol unit.file)) ∨
    ∃ protocol resolved checked strict keepGoing, unit.protocol = some protocol ∧
      unit.resolve extra = .ok resolved ∧ resolved.value.check = .ok checked ∧
      unit.check ⟨.strict, extra⟩ = .ok strict ∧ unit.check ⟨.keepGoing, extra⟩ = .ok keepGoing ∧
      PoliciesAgree resolved checked strict keepGoing ∧
      ReportedApart protocol resolved checked := by
  cases described : unit.protocol with
  | none => exact Or.inl ⟨rfl, fun policy => check_undescribed described ⟨policy, extra⟩⟩
  | some protocol =>
      right
      have resolves := resolve_eq_ok described extra
      have checks := numbered.check_resolved described extra
      obtain ⟨strict, keepGoing, strictOk, keepGoingOk, agree⟩ :=
        policies_agree_of_stages resolves checks
      exact ⟨protocol, _, _, strict, keepGoing, rfl, resolves, checks, strictOk, keepGoingOk, agree,
        numbered.reportedApart described checks⟩

/-- A channel that sends a message that is not there, and receives one that it sends. -/
def lostProtocol : Protocol :=
  { channelProtocol "Header" with
    statements := (channelProtocol "Header").statements ++ [
      ⟨⟨26⟩, ⟨⟨27⟩, "Done", false, channelLine 14⟩,
        [⟨⟨28⟩, some .send, some "Lost", [.dead], channelLine 15⟩,
          ⟨⟨29⟩, some .recv, some "Close", [.dead], channelLine 16⟩], channelLine 14⟩] }

def lostUnit : SourceUnit :=
  { channelUnit "Header" with protocol := some lostProtocol }

/-- The strict policy reports the first of them only. -/
theorem lost_policies_agree :
    lostUnit.Numbered ∧
      ∃ resolved checked strict keepGoing, lostUnit.resolve [] = .ok resolved ∧
        resolved.value.check = .ok checked ∧ lostUnit.check ⟨.strict, []⟩ = .ok strict ∧
        lostUnit.check ⟨.keepGoing, []⟩ = .ok keepGoing ∧
        PoliciesAgree resolved checked strict keepGoing ∧
        ReportedApart lostProtocol resolved checked ∧
        resolved.errors = [⟨.unknownMessage "Lost", channelLine 15⟩] ∧
        checked.errors =
          [⟨.triggerDirectionMismatch .recv "Close" .outbound, channelLine 16⟩] := by
  have numbered : lostUnit.Numbered := by
    constructor
    · decide +kernel
    · decide +kernel
  refine ⟨numbered, ?_⟩
  rcases check_policies_agree numbered [] with ⟨undescribed, _⟩ | agreed
  · cases undescribed
  · obtain ⟨protocol, resolved, checked, strict, keepGoing, described, resolves, checks, strictOk,
      keepGoingOk, agree, apart⟩ := agreed
    cases described
    have errors : ((lostUnit.resolved lostProtocol []).check.toOption.map Reported.errors) =
        some [⟨.triggerDirectionMismatch .recv "Close" .outbound, channelLine 16⟩] := by
      decide +kernel
    have table := eq_resolved_of_resolve rfl resolves
    refine ⟨resolved, checked, strict, keepGoing, resolves, checks, strictOk, keepGoingOk, agree,
      apart, ?_, ?_⟩
    · rw [table]
      decide +kernel
    · rw [table] at checks
      rw [checks] at errors
      exact Option.some.inj errors

end SourceUnit

end ActorProtocol
