import ActorProtocol.Proofs.Faultless
import ActorProtocol.Proofs.Machine.Reordering
import ActorProtocol.Proofs.Policies

/-!
# Order of declarations

Types, messages and statements may be written in any order. With distinct names the same
diagnostics come out, with their locations, under both policies; only their order may be
another one. Includes, types that are brought in and the members of a declaration keep
their places here.
-/

namespace ActorProtocol

set_option autoImplicit false

/-! ## Nodes in another order -/

theorem Protocol.Reordered.writtenIds {protocol other : Protocol}
    (reordered : protocol.Reordered other) : protocol.writtenIds.Perm other.writtenIds := by
  rw [reordered.rest]
  unfold Protocol.writtenIds
  apply List.Perm.append
  · apply List.Perm.append_left
    exact reordered.messages.flatMap_right _
  · exact reordered.statements.flatMap_right _

namespace SourceUnit

variable {unit other : SourceUnit}

theorem Reordered.writtenIds (reordered : unit.Reordered other) :
    unit.writtenIds.Perm other.writtenIds := by
  have protocols : (unit.protocol.toList.flatMap Protocol.writtenIds).Perm
      (other.protocol.toList.flatMap Protocol.writtenIds) := by
    rcases reordered.protocol_cases with ⟨absent, absent'⟩ | ⟨_, _, described, described', inside⟩
    · rw [absent, absent']
    · rw [described, described']
      exact inside.writtenIds.append_right []
  rw [reordered.rest]
  unfold SourceUnit.writtenIds
  apply List.Perm.append
  · apply List.Perm.append_left
    exact reordered.types.flatMap_right _
  · exact protocols

theorem Numbered.reordered (numbered : unit.Numbered) (reordered : unit.Reordered other) :
    other.Numbered where
  distinct := reordered.writtenIds.nodup_iff.mp numbered.distinct
  nonzero := fun id written => numbered.nonzero id (reordered.writtenIds.mem_iff.mpr written)

/-- A numbered unit is checked without a fault, so its errors are those of both stages. -/
theorem Numbered.errors_check (numbered : unit.Numbered) {protocol : Protocol}
    (described : unit.protocol = some protocol) (options : CheckOptions) :
    (unit.check options).map UnitCheck.errors =
      .ok (if options.policy = .strict ∧
          (unit.resolution protocol options.extraTypes).errors ≠ [] then
        (unit.resolution protocol options.extraTypes).errors.map Diagnostic.naming
      else
        (unit.resolution protocol options.extraTypes).errors.map Diagnostic.naming ++
          (protocol.structureErrors ++ protocol.triggerErrors ++ protocol.replyErrors).map
            Diagnostic.machine) := by
  rw [SourceUnit.errors_check described, numbered.check_resolved described]
  split <;> rfl

/-- The same diagnostics come out in every order. -/
theorem check_ignores_order (numbered : unit.Numbered) (apart : unit.NamedApart)
    (reordered : unit.Reordered other) (options : CheckOptions) :
    ((unit.check options).map fun outcome => (outcome.errors : Multiset Diagnostic)) =
      (other.check options).map fun outcome => (outcome.errors : Multiset Diagnostic) := by
  have counted : ∀ unit : SourceUnit,
      ((unit.check options).map fun outcome => (outcome.errors : Multiset Diagnostic)) =
        ((unit.check options).map UnitCheck.errors).map fun errors =>
          (errors : Multiset Diagnostic) := by
    intro unit
    cases unit.check options <;> rfl
  rcases reordered.protocol_cases with
    ⟨absent, absent'⟩ | ⟨protocol, protocol', described, described', inside⟩
  · have file : other.file = unit.file := (congrArg SourceUnit.file reordered.rest :)
    rw [check_undescribed absent, check_undescribed absent', file]
  · have named := apart.protocols protocol described
    have naming := namingErrors_reordered reordered inside apart named options.extraTypes
    have machine := inside.errors_perm named
    have silent : (unit.resolution protocol options.extraTypes).errors = [] ↔
        (other.resolution protocol' options.extraTypes).errors = [] := by
      rw [← List.isEmpty_iff, ← List.isEmpty_iff, naming.isEmpty_eq]
    rw [counted, counted, numbered.errors_check described,
      (numbered.reordered reordered).errors_check described']
    simp only [Except.map, ne_eq, silent]
    apply congrArg Except.ok
    apply Multiset.coe_eq_coe.mpr
    split
    · exact naming.map _
    · exact (naming.map _).append (machine.map _)

/-- A channel that sends a third message. Two of its messages take types that are not known. -/
def parcelProtocol : Protocol :=
  { channelProtocol "Missing" with
    messages := (channelProtocol "Missing").messages ++
      [⟨⟨26⟩, "Parcel", .async, .outbound,
        [⟨⟨27⟩, "weight", channelType 28 14 "Lost", channelLine 14⟩], [], channelLine 14⟩] }

def parcelUnit : SourceUnit :=
  { channelUnit "Missing" with protocol := some parcelProtocol }

/-- The same channel, written from the end to the start. -/
def turnedParcelUnit : SourceUnit :=
  { parcelUnit with
    types := parcelUnit.types.reverse
    protocol := some { parcelProtocol with
      messages := parcelProtocol.messages.reverse
      statements := parcelProtocol.statements.reverse } }

theorem parcelUnit_reordered : parcelUnit.Reordered turnedParcelUnit where
  types := (List.reverse_perm _).symm
  protocols := .some ⟨(List.reverse_perm _).symm, (List.reverse_perm _).symm, rfl⟩
  rest := rfl

theorem parcel_checked_alike :
    parcelUnit.Numbered ∧ parcelUnit.NamedApart ∧ parcelUnit.Reordered turnedParcelUnit ∧
      ((parcelUnit.check ⟨.keepGoing, []⟩).map fun outcome =>
          (outcome.errors : Multiset Diagnostic)) =
        ((turnedParcelUnit.check ⟨.keepGoing, []⟩).map fun outcome =>
          (outcome.errors : Multiset Diagnostic)) ∧
      (parcelUnit.check ⟨.keepGoing, []⟩).toOption.map
          (fun outcome => outcome.errors.map Diagnostic.message) =
        some ["Unknown type `Missing`", "Unknown type `Lost`"] ∧
      (turnedParcelUnit.check ⟨.keepGoing, []⟩).toOption.map
          (fun outcome => outcome.errors.map Diagnostic.message) =
        some ["Unknown type `Lost`", "Unknown type `Missing`"] := by
  have numbered : parcelUnit.Numbered := ⟨by decide +kernel, by decide +kernel⟩
  have apart : parcelUnit.NamedApart := by
    constructor
    · decide +kernel
    · intro protocol described
      obtain rfl := Option.some.inj described
      exact ⟨by decide +kernel, by decide +kernel⟩
  exact ⟨numbered, apart, parcelUnit_reordered,
    check_ignores_order numbered apart parcelUnit_reordered ⟨.keepGoing, []⟩,
    by decide +kernel, by decide +kernel⟩

end SourceUnit

end ActorProtocol
