import ActorProtocol.Proofs.Source.UnitWording

/-!
# Words that can be read back

Types, members, messages and actions are read back from their words, each from the first
word on. Names may be keywords, so what comes next is told from where it stands: the type
named `nullable` from a nullable type by what is left up to the next mark, and the state
named `or` from the word between states by its turn.
-/

namespace ActorProtocol

set_option autoImplicit false

theorem Semantics.name_injective : Function.Injective Semantics.name := by
  intro left right same
  revert same
  cases left <;> cases right <;> decide

theorem Trigger.name_injective : Function.Injective Trigger.name := by
  intro left right same
  revert same
  cases left <;> cases right <;> decide

theorem Side.name_injective : Function.Injective Side.name := by
  intro left right same
  revert same
  cases left <;> cases right <;> decide

theorem Direction.label_injective : Function.Injective Direction.label := by
  intro left right same
  revert same
  cases left <;> cases right <;> decide

namespace TypeOutline

variable {type other : TypeOutline}

theorem WellNamed.opens (named : type.WellNamed) : Opens IsWord type.wording := by
  unfold wording
  split
  · simp [IsWord, IsPlain, separators, marks]
  · exact opens_cons.mpr named.isWord

theorem eq_of_annotated (named : type.WellNamed) (named' : other.WellNamed)
    (nullable : type.nullable = other.nullable) (same : type.annotated = other.annotated) :
    type = other := by
  obtain ⟨spelling, state, array⟩ := named.annotated_inj named' same
  cases type
  cases other
  simp_all

theorem read_of_nullable {rest later : List String} (named : type.WellNamed)
    (named' : other.WellNamed) (nullable : type.nullable = other.nullable)
    (same : type.wording ++ rest = other.wording ++ later) : type = other ∧ rest = later := by
  have heads : type.annotated = other.annotated ∧ rest = later := by
    unfold wording at same
    rw [nullable] at same
    cases written : other.nullable <;> simpa [written] using same
  exact ⟨eq_of_annotated named named' nullable heads.1, heads.2⟩

/-- A type named `nullable` is not taken for a nullable type, unless the words go on as
those of the other type would. -/
theorem nullable_eq {rest later : List String}
    (same : type.wording ++ rest = other.wording ++ later)
    (apart : rest ≠ other.annotated :: later) (apart' : later ≠ type.annotated :: rest) :
    type.nullable = other.nullable := by
  unfold wording at same
  cases written : type.nullable <;> cases written' : other.nullable
  · rfl
  · simp only [written, written', Bool.false_eq_true, if_false, if_true, List.cons_append,
      List.nil_append, List.cons.injEq] at same
    exact absurd same.2 apart
  · simp only [written, written', Bool.false_eq_true, if_false, if_true, List.cons_append,
      List.nil_append, List.cons.injEq] at same
    exact absurd same.2.symm apart'
  · rfl

theorem readable : Readable wording WellNamed IsMark where
  read := by
    intro left right rest later named named' ends ends' same
    have nullable : left.nullable = right.nullable := by
      apply nullable_eq same
      · intro longer
        rw [longer, begins_cons] at ends
        exact named'.isWord.not_isMark ends
      · intro longer
        rw [longer, begins_cons] at ends'
        exact named.isWord.not_isMark ends'
    exact read_of_nullable named named' nullable same

end TypeOutline

theorem isMark_comma : IsMark "," := ⟨',', by decide, rfl⟩

theorem isMark_semicolon : IsMark ";" := ⟨';', by decide, rfl⟩

theorem isMark_parenthesis : IsMark ")" := ⟨')', by decide, rfl⟩

theorem isMark_closeBrace : IsMark closeBrace := ⟨'}', by decide, rfl⟩

namespace MemberOutline

variable {member : MemberOutline}

theorem WellNamed.opens (named : member.WellNamed) : Opens IsWord member.wording := by
  obtain ⟨word, later, written, fits⟩ := named.type.opens
  exact ⟨word, later ++ [member.name], by simp [wording, written], fits⟩

/-- Two words before a mark are a type and a name, and three a nullable type and a name. -/
theorem readable : Readable wording WellNamed IsMark where
  read := by
    intro left right rest later named named' ends ends' same
    obtain ⟨name, type⟩ := left
    obtain ⟨name', type'⟩ := right
    simp only [wording, List.append_assoc, List.cons_append, List.nil_append] at same
    have nullable : type.nullable = type'.nullable := by
      apply TypeOutline.nullable_eq same
      · intro longer
        rw [(List.cons.inj longer).2, begins_cons] at ends
        exact named'.name.isWord.not_isMark ends
      · intro longer
        rw [(List.cons.inj longer).2, begins_cons] at ends'
        exact named.name.isWord.not_isMark ends'
    have read := TypeOutline.read_of_nullable named.type named'.type nullable same
    simp_all

end MemberOutline

/-- What is read up to a mark may be listed up to another mark. -/
theorem Readable.marked {Item : Type} {write : Item → List String} {fit : Item → Prop}
    (readable : Readable write fit IsMark) (opened : ∀ item, fit item → Opens IsWord (write item)) :
    Readable (List.flatMap fun item => write item ++ [";"]) (fun items => ∀ item ∈ items, fit item)
      (fun word => word = closeBrace) := by
  apply (readable.closed isMark_semicolon).list
  · intro item fits
    obtain ⟨word, later, written, isWord⟩ := opened item fits
    rw [written, List.cons_append, opens_cons]
    exact ⟨trivial, fun same => isWord.not_isMark (same ▸ isMark_closeBrace)⟩
  · intro word _
    trivial

theorem paramsWording_readable :
    Readable paramsWording (fun params => ∀ param ∈ params, param.WellNamed)
      (fun word => word = ")") := by
  apply MemberOutline.readable.separated
  · intro param named
    apply named.opens.mono
    intro word isWord same
    exact isWord.not_isMark (same ▸ isMark_parenthesis)
  · exact isMark_comma
  · exact isMark_parenthesis
  · decide

theorem BodyOutline.read {name other : String} {body body' : BodyOutline}
    {rest later : List String} (named : body.WellNamed) (named' : body'.WellNamed)
    (same : body.wording name ++ rest = body'.wording other ++ later) :
    name = other ∧ body = body' ∧ rest = later := by
  have fields_readable := MemberOutline.readable.marked fun _ named => named.opens
  have components_readable := TypeOutline.readable.marked fun _ named => named.opens
  cases body with
  | struct fields =>
      cases body' with
      | struct fields' =>
          simp only [wording, List.cons_append, List.append_assoc, List.cons.injEq,
            true_and] at same
          have fields := fields_readable.read named named' (begins_cons.mpr rfl)
            (begins_cons.mpr rfl) same.2
          simp only [List.cons.injEq, List.nil_append, true_and] at fields
          exact ⟨same.1, congrArg struct fields.1, fields.2⟩
      | union components' => simp [wording] at same
  | union components =>
      cases body' with
      | struct fields' => simp [wording] at same
      | union components' =>
          simp only [wording, List.cons_append, List.append_assoc, List.cons.injEq,
            true_and] at same
          have components := components_readable.read named named' (begins_cons.mpr rfl)
            (begins_cons.mpr rfl) same.2
          simp only [List.cons.injEq, List.nil_append, true_and] at components
          exact ⟨same.1, congrArg union components.1, components.2⟩

theorem resultsWording_readable (hasReply : Bool) :
    Readable (resultsWording hasReply) (fun params => ∀ param ∈ params, param.WellNamed)
      (fun _ => True) where
  read := by
    intro left right rest later named named' _ _ same
    unfold resultsWording at same
    by_cases written : hasReply || !left.isEmpty
    · by_cases written' : hasReply || !right.isEmpty
      · simp only [written, written', if_true, List.cons_append, List.append_assoc,
          List.cons.injEq, true_and] at same
        have results := paramsWording_readable.read named named' (begins_cons.mpr rfl)
          (begins_cons.mpr rfl) same
        simp only [List.cons.injEq, List.nil_append, true_and] at results
        exact results
      · simp [written, written'] at same
    · by_cases written' : hasReply || !right.isEmpty
      · simp [written, written'] at same
      · simp only [Bool.or_eq_true, Bool.not_eq_true', not_or, Bool.not_eq_false,
          List.isEmpty_iff] at written written'
        simpa [written, written'] using same

/-- A message is read back once its direction is known. -/
theorem MessageOutline.readable (direction : Direction) :
    Readable wording (fun message => message.WellNamed ∧ message.direction = direction)
      (fun _ => True) where
  read := by
    intro left right rest later fits fits' _ _ same
    obtain ⟨name, semantics, direction, inParams, outParams⟩ := left
    obtain ⟨name', semantics', direction', inParams', outParams'⟩ := right
    obtain ⟨named, rfl⟩ := fits
    obtain ⟨named', alike⟩ := fits'
    simp only [wording, List.cons_append, List.append_assoc, List.cons.injEq, true_and] at same
    have semantics_same := Semantics.name_injective same.1
    have params := paramsWording_readable.read named.inParams named'.inParams
      (begins_cons.mpr rfl) (begins_cons.mpr rfl) same.2.2
    rw [semantics_same, List.cons.injEq] at params
    have results := (resultsWording_readable semantics'.hasReply).read named.outParams
      named'.outParams Begins.any Begins.any params.2.2
    simp_all

theorem IsStateName.readable : Readable (fun name => [name]) IsStateName (fun _ => True) where
  read := by
    intro left right rest later _ _ _ _ same
    simpa using same

theorem destinations_readable :
    Readable (fun destinations : List String =>
        separated "or" (destinations.map fun destination => [destination]))
      (fun destinations => ∀ destination ∈ destinations, IsStateName destination)
      (fun word => word = ";") := by
  apply IsStateName.readable.separated
  · intro destination named
    rw [opens_cons]
    intro same
    exact named.isWord.not_isMark (same ▸ isMark_semicolon)
  · trivial
  · trivial
  · decide

theorem ActionOutline.readable : Readable wording WellNamed (fun _ => True) where
  read := by
    intro left right rest later named named' _ _ same
    obtain ⟨trigger, message, destinations⟩ := left
    obtain ⟨trigger', message', destinations'⟩ := right
    simp only [wording, List.cons_append, List.append_assoc, List.cons.injEq, true_and] at same
    have trigger_same := Trigger.name_injective same.1
    have list := destinations_readable.read named.destinations named'.destinations
      (begins_cons.mpr rfl) (begins_cons.mpr rfl) same.2.2
    simp_all

end ActorProtocol
