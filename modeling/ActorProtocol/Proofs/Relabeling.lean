import ActorProtocol.Proofs.Faultless
import ActorProtocol.Proofs.Machine.Relabeling
import ActorProtocol.Proofs.Policies
import Mathlib.Logic.Equiv.Basic

/-!
# Node ids are handles

The checks use the id of a node to find again what they noted for the node, and for
nothing else. So a unit under new ids gets the same diagnostics in the same order, and
its tables are those of the unit, under the new ids. On numbered units the only fault is
a missing protocol, and that names no node; on others a fault names the new id.
-/

namespace ActorProtocol

set_option autoImplicit false

def Reported.mapValue {Value Other Error : Type} (convert : Value → Other)
    (reported : Reported Value Error) : Reported Other Error :=
  ⟨convert reported.value, reported.errors⟩

variable (labels : Relabeling)

def Checked.relabel (checked : Checked) : Checked where
  unit := checked.unit.relabel labels
  decls := checked.decls.relabel labels
  actorStates := checked.actorStates.relabel labels.injective (State.relabel labels)
  machine := checked.machine.relabel labels

def UnitCheck.relabel (outcome : UnitCheck) : UnitCheck :=
  { outcome with checked := outcome.checked.map (Checked.relabel labels) }

/-- Faults that name no node stay what they are. -/
theorem Relabeling.outcome_eq_map {Value Other : Type} {convert : Value → Other}
    {run : Except Fault Value} (nameless : ∀ fault, run = .error fault →
      fault.relabel labels = fault) :
    labels.outcome convert run = run.map convert := by
  cases run with
  | ok value => rfl
  | error fault => exact congrArg Except.error (nameless fault rfl)

theorem SourceUnit.requireProtocol_relabel (unit : SourceUnit) :
    (unit.relabel labels).requireProtocol =
      labels.outcome (Protocol.relabel labels) unit.requireProtocol := by
  have protocol : (unit.relabel labels).protocol =
      unit.protocol.map (Protocol.relabel labels) := rfl
  unfold requireProtocol
  rw [protocol]
  cases unit.protocol <;> rfl

theorem SourceUnit.resolve_relabel (unit : SourceUnit) (extra : List String) :
    (unit.relabel labels).resolve extra =
      labels.outcome (Reported.mapValue (Resolved.relabel labels)) (unit.resolve extra) := by
  unfold resolve
  rw [requireProtocol_relabel]
  apply labels.outcome_bind
  intro protocol
  rw [resolution_relabel]
  rfl

theorem Resolved.check_relabel (resolved : Resolved) :
    (resolved.relabel labels).check =
      labels.outcome (Reported.mapValue (Checked.relabel labels)) resolved.check := by
  have unit : (resolved.relabel labels).unit = resolved.unit.relabel labels := rfl
  unfold check
  rw [unit, SourceUnit.requireProtocol_relabel]
  apply labels.outcome_bind
  intro protocol
  rw [Protocol.allSteps_relabel, triggerErrors_relabel]
  apply labels.outcome_bind
  intro errors
  rw [Protocol.structureErrors_relabel, Protocol.replyErrors_relabel, Protocol.machine_relabel]
  rfl

namespace SourceUnit

/-- Units may repeat ids here. -/
theorem check_relabel (unit : SourceUnit) (options : CheckOptions) :
    (unit.relabel labels).check options =
      labels.outcome (UnitCheck.relabel labels) (unit.check options) := by
  unfold check
  rw [resolve_relabel]
  apply labels.outcome_bind
  intro resolved
  have errors : (resolved.mapValue (Resolved.relabel labels)).errors = resolved.errors := rfl
  have value : (resolved.mapValue (Resolved.relabel labels)).value =
      resolved.value.relabel labels := rfl
  simp only [errors, value, Resolved.check_relabel]
  split
  · rfl
  · apply labels.outcome_bind
    intro checked
    have kept : ∀ all : List Diagnostic,
        (⟨if all.isEmpty then some (checked.value.relabel labels) else none, all⟩ : UnitCheck) =
          UnitCheck.relabel labels ⟨if all.isEmpty then some checked.value else none, all⟩ := by
      intro all
      cases all <;> rfl
    exact congrArg Except.ok (kept _)

variable {unit : SourceUnit}

theorem fault_of_resolve {extra : List String} {fault : Fault}
    (fails : unit.resolve extra = .error fault) : fault = .missingProtocol unit.file := by
  cases described : unit.protocol with
  | none =>
      simp only [resolve, requireProtocol, described] at fails
      exact (Except.error.inj fails).symm
  | some protocol =>
      rw [resolve_eq_ok described] at fails
      cases fails

theorem Numbered.fault_of_check (numbered : unit.Numbered) {options : CheckOptions}
    {fault : Fault} (fails : unit.check options = .error fault) :
    fault = .missingProtocol unit.file := by
  cases described : unit.protocol with
  | none =>
      rw [check_undescribed described] at fails
      exact (Except.error.inj fails).symm
  | some protocol =>
      rcases numbered.check_ok described options with ⟨outcome, ok⟩
      rw [ok] at fails
      cases fails

/-- A numbered unit is checked alike under all ids, and its tables are found under them. -/
theorem check_ignores_ids (numbered : unit.Numbered) (labels : Relabeling)
    (options : CheckOptions) :
    ((unit.relabel labels).check options).map UnitCheck.errors =
        (unit.check options).map UnitCheck.errors ∧
      (unit.relabel labels).check options =
        (unit.check options).map (UnitCheck.relabel labels) ∧
      (unit.relabel labels).resolve options.extraTypes =
        (unit.resolve options.extraTypes).map (Reported.mapValue (Resolved.relabel labels)) := by
  have checked : (unit.relabel labels).check options =
      (unit.check options).map (UnitCheck.relabel labels) := by
    rw [check_relabel]
    apply labels.outcome_eq_map
    intro fault fails
    rw [numbered.fault_of_check fails]
    rfl
  have resolved : (unit.relabel labels).resolve options.extraTypes =
      (unit.resolve options.extraTypes).map (Reported.mapValue (Resolved.relabel labels)) := by
    rw [resolve_relabel]
    apply labels.outcome_eq_map
    intro fault fails
    rw [fault_of_resolve fails]
    rfl
  have errors : ((unit.relabel labels).check options).map UnitCheck.errors =
      (unit.check options).map UnitCheck.errors := by
    rw [checked]
    cases unit.check options <;> rfl
  exact ⟨errors, checked, resolved⟩

/-- A message and a transition of a channel change places. -/
def channelSwap : Relabeling where
  node := Equiv.swap ⟨13⟩ ⟨21⟩
  injective := (Equiv.swap _ _).injective
  synthetic := by decide

theorem swapped_channel_checked_alike :
    (channelUnit "Missing").Numbered ∧
      (channelUnit "Missing").relabel channelSwap ≠ channelUnit "Missing" ∧
      (((channelUnit "Missing").relabel channelSwap).check ⟨.keepGoing, []⟩).map
          UnitCheck.errors =
        ((channelUnit "Missing").check ⟨.keepGoing, []⟩).map UnitCheck.errors ∧
      ((channelUnit "Missing").check ⟨.keepGoing, []⟩).toOption.map
          (fun outcome => outcome.errors.map Diagnostic.message) =
        some ["Unknown type `Missing`"] := by
  have numbered := channelUnit_numbered "Missing"
  exact ⟨numbered, by decide +kernel,
    (check_ignores_ids numbered channelSwap ⟨.keepGoing, []⟩).1, by decide +kernel⟩

end SourceUnit

end ActorProtocol
