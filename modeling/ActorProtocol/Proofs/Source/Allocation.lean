import Mathlib.Data.List.Forall2
import Mathlib.Data.List.Perm.Subperm
import ActorProtocol.Proofs.Source.BuilderCalls

/-!
# The ids that a builder hands out

A client calls one builder in an order of its choice, and gives to a call what it has at hand
from earlier ones. As long as the count does not run out no two nodes that are made have one
id. Since a call returns what it was given together with what it made, neither have any two in
all that is at hand, and a unit that is put together from this is numbered.
-/

namespace ActorProtocol

set_option autoImplicit false

namespace Build

/-! ## Ids in order -/

/-- Nodes that are made on the way have smaller ids than the node that is returned. -/
theorem Made.Fits.inner_lt {made : Made} {given : List NodeId} {first count : Nat}
    (fits : made.Fits given (idsFrom first count)) (started : 0 < first) :
    ∀ outer ∈ made.returned, ∀ inner ∈ made.nested, inner.id.value < outer.id.value := by
  intro outer returned inner nested
  have outerOwn : outer.ownIds = [outer.id] :=
    (fits.last outer returned).resolve_left (List.ne_nil_of_mem nested)
  have parts : made.nested.flatMap Piece.ownIds ++ [outer.id] = idsFrom first count := by
    rw [← fits.own, ids, pieces, Option.mem_def.mp returned]
    simp [outerOwn]
  have taken : outer.id ∈ idsFrom first count := by
    rw [← parts]
    exact List.mem_append_right _ (List.mem_singleton_self _)
  rcases inner.ownIds_cases with own | ⟨_, shared⟩
  · have ascending := ascending_idsFrom first count
    rw [← parts, List.pairwise_append] at ascending
    have inside : inner.id ∈ made.nested.flatMap Piece.ownIds :=
      List.mem_flatMap.mpr ⟨inner, nested, by simp [own]⟩
    exact ascending.2.2 inner.id inside outer.id (List.mem_singleton_self _)
  · -- A sentinel that is named on the way has the shared id, which is the least.
    rw [shared]
    exact Nat.lt_of_lt_of_le started (mem_idsFrom_iff.mp taken).1

/-- The ids of all nodes that are written down in what is at hand. -/
def idsOf (hand : List Piece) : List NodeId :=
  hand.flatMap Piece.writtenIds

/-- Each call took the ids that follow those of the calls before it. -/
inductive InOrder : Nat → List Call → List Made → Prop
  | done (next : Nat) : InOrder next [] []
  | call {next : Nat} {call : Call} {calls : List Call} {made : Made} {later : List Made}
      (fits : made.Fits call.givenIds (idsFrom next call.allocations))
      (further : InOrder (next + call.allocations) calls later) :
      InOrder next (call :: calls) (made :: later)

namespace InOrder

variable {next : Nat} {calls : List Call} {made : List Made}

theorem ids_eq (inOrder : InOrder next calls made) :
    made.flatMap Made.ids = idsFrom next (allocations calls) := by
  induction inOrder with
  | done next => rfl
  | @call next call calls made later fits further ih =>
      rw [List.flatMap_cons, fits.own, ih, ← idsFrom_add]
      rfl

theorem whole (inOrder : InOrder next calls made) :
    List.Forall₂ (fun call one =>
      (idsOf one.returned.toList).Perm (one.ids ++ call.givenIds)) calls made := by
  induction inOrder with
  | done next => exact .nil
  | call fits further ih =>
      apply List.Forall₂.cons _ ih
      rw [fits.own]
      exact fits.whole

theorem inner_lt (inOrder : InOrder next calls made) (started : 0 < next) :
    ∀ one ∈ made, ∀ outer ∈ one.returned, ∀ inner ∈ one.nested,
      inner.id.value < outer.id.value := by
  induction inOrder with
  | done next =>
      intro one member
      cases member
  | call fits further ih =>
      exact List.forall_mem_cons.mpr ⟨fits.inner_lt started, ih (by omega)⟩

end InOrder

theorem inOrder_runAll (calls : List Call) (builder : Builder)
    (started : 0 < builder.nextId.toNat)
    (room : builder.nextId.toNat + allocations calls < UInt32.size) :
    InOrder builder.nextId.toNat calls ((runAll calls).run builder).1 := by
  induction calls generalizing builder with
  | nil => exact .done _
  | cons call calls ih =>
      have total : allocations (call :: calls) = call.allocations + allocations calls := rfl
      obtain ⟨counted, fits⟩ := call.takes_run builder started (by omega)
      have further := ih (call.run.run builder).2 (by omega) (by omega)
      rw [counted] at further
      exact .call fits further

/-! ## What is at hand -/

/-- What is left at hand after some calls. What a client gives to a call and what it keeps are
put together from what it has at hand: it may change nodes, move them or drop them, but not
write a node down twice. Nodes under the shared id may be used at any time. -/
inductive Leaves : List Piece → List Call → List Made → List Piece → Prop
  | done (hand : List Piece) : Leaves hand [] [] hand
  | call {hand left : List Piece} {call : Call} {calls : List Call} {made : Made}
      {later : List Made} (kept : List Piece)
      (moved : (call.givenIds ++ idsOf kept).Subperm (idsOf hand))
      (further : Leaves (kept ++ made.returned.toList) calls later left) :
      Leaves hand (call :: calls) (made :: later) left

/-- What is at hand has distinct ids, all of them handed out before the next one. -/
structure Holds (next : Nat) (hand : List Piece) : Prop where
  distinct : (idsOf hand).Nodup
  before : ∀ id ∈ idsOf hand, 0 < id.value ∧ id.value < next

theorem ne_synthetic_of_pos {id : NodeId} (positive : 0 < id.value) : id ≠ .synthetic := by
  rintro rfl
  exact Nat.lt_irrefl 0 positive

theorem Holds.nonzero {next : Nat} {hand : List Piece} (holds : Holds next hand) :
    ∀ id ∈ idsOf hand, id ≠ .synthetic :=
  fun id inside => ne_synthetic_of_pos (holds.before id inside).1

theorem holds_nil {next : Nat} : Holds next [] := ⟨List.nodup_nil, nofun⟩

theorem nodup_of_subperm {ids whole : List NodeId} (inside : ids.Subperm whole)
    (distinct : whole.Nodup) : ids.Nodup := by
  obtain ⟨_, same, part⟩ := inside
  exact same.nodup_iff.mp (distinct.sublist part)

theorem Holds.call {next : Nat} {hand kept : List Piece} {call : Call} {made : Made}
    (holds : Holds next hand) (started : 0 < next)
    (fits : made.Fits call.givenIds (idsFrom next call.allocations))
    (moved : (call.givenIds ++ idsOf kept).Subperm (idsOf hand)) :
    Holds (next + call.allocations) (kept ++ made.returned.toList) := by
  have whole : (idsOf (kept ++ made.returned.toList)).Perm
      (idsFrom next call.allocations ++ (call.givenIds ++ idsOf kept)) := by
    rw [idsOf, List.flatMap_append, ← List.append_assoc]
    exact (fits.whole.append_left _).trans List.perm_append_comm
  constructor
  · -- What is made has ids from the next one on, and what was at hand has earlier ones.
    apply whole.nodup_iff.mpr
    apply (nodup_idsFrom _ _).append (nodup_of_subperm moved holds.distinct)
    intro id fresh older
    have below := (holds.before id (moved.subset older)).2
    have above := (mem_idsFrom_iff.mp fresh).1
    omega
  · intro id inside
    rcases List.mem_append.mp (whole.mem_iff.mp inside) with fresh | older
    · have bounds := mem_idsFrom_iff.mp fresh
      omega
    · have bounds := holds.before id (moved.subset older)
      omega

theorem InOrder.holds {next : Nat} {calls : List Call} {made : List Made}
    (inOrder : InOrder next calls made) (started : 0 < next) {hand left : List Piece}
    (holding : Holds next hand) (leaves : Leaves hand calls made left) :
    Holds (next + allocations calls) left := by
  -- Every call changes what is at hand, so the induction is over all that may be at hand.
  induction inOrder generalizing hand with
  | done next =>
      cases leaves
      exact holding
  | @call next call calls made later fits further ih =>
      cases leaves with
      | call kept moved rest =>
          have total : next + allocations (call :: calls) =
              next + call.allocations + allocations calls := (Nat.add_assoc _ _ _).symm
          rw [total]
          exact ih (by omega) (holding.call started fits moved) rest

/-! ## All calls of a builder -/

/-- What is made by calls of a builder, from the first on. -/
def madeBy (file : String) (calls : List Call) : List Made :=
  ((runAll calls).run (.ofFile file)).1

theorem inOrder_madeBy (file : String) {calls : List Call}
    (few : allocations calls < UInt32.size - 1) : InOrder 1 calls (madeBy file calls) := by
  apply inOrder_runAll calls (.ofFile file) Nat.one_pos
  change 1 + allocations calls < UInt32.size
  omega

/-- A unit that is put together from what is left at hand after the calls is numbered. -/
theorem Leaves.numbered {file : String} {calls : List Call} {hand : List Piece}
    (few : allocations calls < UInt32.size - 1) (leaves : Leaves [] calls (madeBy file calls) hand)
    {unit : SourceUnit} (assembled : unit.writtenIds.Subperm (idsOf hand)) : unit.Numbered := by
  have holds := (inOrder_madeBy file few).holds Nat.one_pos holds_nil leaves
  exact ⟨nodup_of_subperm assembled holds.distinct,
    fun id written => holds.nonzero id (assembled.subset written)⟩

/-- No two of the nodes that were made have one id, no node apart from the sentinels has the
shared id, and nodes that were made on the way come before the one that was returned. What
was returned holds what was made and what was given, so no two nodes that are left at hand
have one id, wherever they stand in it. -/
structure NumbersApart (calls : List Call) (made : List Made) : Prop where
  counted : (made.flatMap Made.ids).length = allocations calls
  distinct : (made.flatMap Made.ids).Nodup
  nonzero : ∀ id ∈ made.flatMap Made.ids, id ≠ .synthetic
  ascending : ∀ one ∈ made, ∀ outer ∈ one.returned, ∀ inner ∈ one.nested,
    inner.id.value < outer.id.value
  whole : List.Forall₂ (fun call one =>
    (idsOf one.returned.toList).Perm (one.ids ++ call.givenIds)) calls made
  atHand : ∀ hand, Leaves [] calls made hand →
    (idsOf hand).Nodup ∧ ∀ id ∈ idsOf hand, id ≠ .synthetic

/-- Whatever calls are made of a builder, in whatever order, their ids never collide, as long
as they take fewer than there are. -/
theorem calls_number_apart (file : String) (calls : List Call)
    (few : allocations calls < UInt32.size - 1) : NumbersApart calls (madeBy file calls) := by
  have inOrder := inOrder_madeBy file few
  constructor
  case counted =>
    rw [inOrder.ids_eq]
    exact length_idsFrom _ _
  case distinct =>
    rw [inOrder.ids_eq]
    exact nodup_idsFrom _ _
  case nonzero =>
    intro id taken
    rw [inOrder.ids_eq] at taken
    exact ne_synthetic_of_pos (mem_idsFrom_iff.mp taken).1
  case ascending => exact inOrder.inner_lt Nat.one_pos
  case whole => exact inOrder.whole
  case atHand =>
    intro hand leaves
    have holds := inOrder.holds Nat.one_pos holds_nil leaves
    exact ⟨holds.distinct, holds.nonzero⟩

/-! A channel is built with a type, a field of it, a bridge and a statement. -/

def channelField : Member :=
  ⟨⟨2⟩, "value", channelType 1 1 "Blob", channelLine 1⟩

def channelBridges : Bridges :=
  ⟨⟨5⟩, ⟨⟨3⟩, "PHost", channelLine 1⟩, ⟨⟨4⟩, "PGuest", channelLine 1⟩, channelLine 1⟩

def channelSource : State := ⟨⟨6⟩, "Idle", true, channelLine 9⟩

def channelStep : Transition :=
  ⟨⟨8⟩, some .send, some "Close", [⟨⟨7⟩, "Busy", false, channelLine 9⟩, .dead], channelLine 9⟩

def channelCalls : List Call :=
  [.typeRef "Blob", .member (channelType 1 1 "Blob") "value", .bridges "PHost" "PGuest",
    .atLine 9, .state "Idle" true, .transition .send "Close" ["Busy", "[dead]"],
    .statement channelSource [channelStep]]

def channelHand : List Piece :=
  [.member channelField, .bridges channelBridges,
    .statement ⟨⟨9⟩, channelSource, [channelStep], channelLine 9⟩]

theorem channelCalls_leave : Leaves [] channelCalls (madeBy "PChannel.ipdl" channelCalls)
    channelHand := by
  have made : madeBy "PChannel.ipdl" channelCalls =
      [⟨[], some (.typeRef (channelType 1 1 "Blob"))⟩,
        ⟨[], some (.member channelField)⟩,
        ⟨[.ident channelBridges.parent, .ident channelBridges.child],
          some (.bridges channelBridges)⟩,
        ⟨[], none⟩,
        ⟨[], some (.state channelSource)⟩,
        ⟨channelStep.destinations.map .state, some (.transition channelStep)⟩,
        ⟨[], some (.statement ⟨⟨9⟩, channelSource, [channelStep], channelLine 9⟩)⟩] := by
    decide +kernel
  rw [made]
  exact .call [] (by decide) <| .call [] (by decide) <|
    .call [.member channelField] (by decide) <|
    .call [.member channelField, .bridges channelBridges] (by decide) <|
    .call [.member channelField, .bridges channelBridges] (by decide) <|
    .call [.member channelField, .bridges channelBridges, .state channelSource] (by decide) <|
    .call [.member channelField, .bridges channelBridges] (by decide) <|
    .done _

theorem channel_numbers_apart :
    allocations channelCalls < UInt32.size - 1 ∧
      Leaves [] channelCalls (madeBy "PChannel.ipdl" channelCalls) channelHand ∧
      (idsOf channelHand).Nodup ∧
      NumbersApart channelCalls (madeBy "PChannel.ipdl" channelCalls) := by
  have few : allocations channelCalls < UInt32.size - 1 := by decide
  have apart := calls_number_apart "PChannel.ipdl" channelCalls few
  exact ⟨few, channelCalls_leave, (apart.atHand channelHand channelCalls_leave).1, apart⟩

end Build

end ActorProtocol
