import ActorProtocol.Proofs.Naming.Spelling

/-!
# Names that are read back

The text of a name reads as the name again unless a separator can be found in it that
does not stand between two segments, or that begins before the end of the one ahead of it.
The first is so if a segment holds two colons in a row. The second is so if a qualifier
ends with a colon, which is then taken for the first colon of the separator. A base name
may end with a colon, since nothing follows it, and every segment may begin with one.
-/

namespace ActorProtocol

set_option autoImplicit false

namespace QualifiedName

/-! ## Where letters are cut -/

/-- Letters are cut exactly if they hold a separator. -/
theorem cut_later_eq_nil_iff (letters : List Char) :
    (cut letters).2 = [] ↔ ¬ [':', ':'] <:+: letters := by
  induction letters using cut.induct with
  | case1 rest first later parts ih =>
      rw [cut, parts]
      exact iff_of_false (List.cons_ne_nil _ _) (not_not_intro ⟨[], rest, rfl⟩)
  | case2 letter rest single first later parts ih =>
      rw [parts] at ih
      rw [cut.eq_2 letter rest single, parts, List.infix_cons_iff, not_or]
      have notHere : ¬ [':', ':'] <+: letter :: rest := by
        rintro ⟨after, starts⟩
        obtain ⟨colon, rest⟩ := List.cons.inj starts
        exact single after colon.symm rest.symm
      exact ih.trans ⟨fun notLater => ⟨notHere, notLater⟩, And.right⟩
  | case3 => exact iff_of_true rfl (by simp)

theorem cut_of_uncut {letters : List Char} (uncut : (cut letters).2 = []) :
    cut letters = (letters, []) := by
  have whole := cut_separated letters
  rw [uncut] at whole
  exact Prod.ext ((List.append_nil _).symm.trans whole) uncut

/-- A separator behind letters that neither hold one nor end with a colon is the first. -/
theorem cut_before_separator {letters : List Char} (rest : List Char)
    (whole : ¬ [':', ':'] <:+: letters) (closed : ¬ [':'] <:+ letters) :
    cut (letters ++ ':' :: ':' :: rest) = (letters, (cut rest).1 :: (cut rest).2) := by
  induction letters with
  | nil => rfl
  | cons letter letters ih =>
      rw [List.infix_cons_iff, not_or] at whole
      rw [List.suffix_cons_iff, not_or] at closed
      have single : ∀ after, letter = ':' →
          letters ++ ':' :: ':' :: rest = ':' :: after → False := by
        intro after colon starts
        cases letters with
        | nil => exact closed.1 (congrArg (fun first => [first]) colon.symm)
        | cons next letters =>
            apply whole.1
            rw [colon, (List.cons.inj starts).1]
            exact ⟨letters, rfl⟩
      rw [List.cons_append, cut.eq_2 letter _ single, ih whole.2 closed.2]

/-- No segment with one behind it ends with a colon: the separator would begin there. -/
theorem cut_closed (letters : List Char) :
    ∀ segment ∈ ((cut letters).1 :: (cut letters).2).dropLast, ¬ [':'] <:+ segment := by
  induction letters using cut.induct with
  | case1 rest first later parts ih =>
      rw [parts] at ih
      rw [cut, parts, List.dropLast_cons_cons]
      intro segment member
      rcases List.mem_cons.mp member with rfl | inside
      · simp
      · exact ih segment inside
  | case2 letter rest single first later parts ih =>
      have whole := cut_separated rest
      rw [parts] at ih whole
      rw [cut.eq_2 letter rest single, parts]
      cases later with
      | nil => exact fun segment member => absurd member List.not_mem_nil
      | cons next later =>
          rw [List.dropLast_cons_cons] at ih ⊢
          intro segment member
          rcases List.mem_cons.mp member with rfl | inside
          · rw [List.suffix_cons_iff, not_or]
            refine ⟨?_, ih first List.mem_cons_self⟩
            intro alone
            obtain ⟨colon, empty⟩ := List.cons.inj alone
            rw [← empty] at whole
            exact single _ colon.symm whole.symm
          · exact ih segment (List.mem_cons_of_mem _ inside)
  | case3 => exact fun segment member => absurd member List.not_mem_nil

/-! ## What a spelling reads as -/

/-- The qualifiers and the base, as they stand in the text. -/
def segments (name : QualifiedName) : List String :=
  name.qualifiers ++ [name.base]

theorem segments_ofSegments (first : String) (later : List String) :
    (ofSegments first later).segments = first :: later := by
  induction later generalizing first with
  | nil => rfl
  | cons next later ih => exact congrArg (first :: ·) (ih next)

theorem segments_parse (spelling : String) :
    (parse spelling).segments =
      ((cut spelling.toList).1 :: (cut spelling.toList).2).map String.ofList :=
  segments_ofSegments _ _

/-- No separator is left in a name that was read. -/
theorem segment_of_parse {spelling segment : String}
    (member : segment ∈ (parse spelling).segments) :
    ¬ [':', ':'] <:+: segment.toList := by
  rw [segments_parse] at member
  obtain ⟨letters, inside, rfl⟩ := List.mem_map.mp member
  rw [String.toList_ofList]
  apply (cut_later_eq_nil_iff letters).mp
  rw [cut_segment spelling.toList letters inside]

theorem qualifier_of_parse {spelling qualifier : String}
    (member : qualifier ∈ (parse spelling).qualifiers) : ¬ [':'] <:+ qualifier.toList := by
  have qualifiers : (parse spelling).qualifiers =
      (((cut spelling.toList).1 :: (cut spelling.toList).2).dropLast).map String.ofList := by
    rw [List.map_dropLast, ← segments_parse, segments, List.dropLast_concat]
  rw [qualifiers] at member
  obtain ⟨letters, inside, rfl⟩ := List.mem_map.mp member
  rw [String.toList_ofList]
  exact cut_closed spelling.toList letters inside

theorem parse_unqualified {base : String} (whole : ¬ [':', ':'] <:+: base.toList) :
    parse base = ⟨[], base⟩ := by
  unfold parse
  rw [cut_of_uncut ((cut_later_eq_nil_iff _).mpr whole)]
  exact congrArg (QualifiedName.mk []) String.ofList_toList

theorem parse_qualified {qualifier : String} (spelling : String)
    (whole : ¬ [':', ':'] <:+: qualifier.toList) (closed : ¬ [':'] <:+ qualifier.toList) :
    parse (qualifier ++ "::" ++ spelling) =
      ⟨qualifier :: (parse spelling).qualifiers, (parse spelling).base⟩ := by
  have letters : (qualifier ++ "::" ++ spelling).toList =
      qualifier.toList ++ ':' :: ':' :: spelling.toList := by
    simp
  unfold parse
  rw [letters, cut_before_separator _ whole closed]
  dsimp only
  rw [String.ofList_toList]
  rfl

theorem parse_join {qualifiers : List String} {base : String}
    (whole : ∀ segment ∈ segments ⟨qualifiers, base⟩, ¬ [':', ':'] <:+: segment.toList)
    (closed : ∀ qualifier ∈ qualifiers, ¬ [':'] <:+ qualifier.toList) :
    parse (join qualifiers base) = ⟨qualifiers, base⟩ := by
  induction qualifiers with
  | nil => exact parse_unqualified (whole base List.mem_cons_self)
  | cons qualifier rest ih =>
      have inner := ih (fun segment member => whole segment (List.mem_cons_of_mem _ member))
        (fun later member => closed later (List.mem_cons_of_mem _ member))
      rw [join_cons, parse_qualified _ (whole qualifier List.mem_cons_self)
        (closed qualifier List.mem_cons_self), inner]

/-- Spellings are given back; names are, exactly if nothing in their text is a separator but
what was put between their segments; and a name grows by its new base alone. -/
theorem reads_back :
    (∀ spelling : String, (parse spelling).text = spelling) ∧
      (∀ name : QualifiedName, parse name.text = name ↔
        (∀ segment ∈ name.segments, ¬ [':', ':'] <:+: segment.toList) ∧
          ∀ qualifier ∈ name.qualifiers, ¬ [':'] <:+ qualifier.toList) ∧
      ∀ (name : QualifiedName) (base : String),
        (name.qualify base).text = name.text ++ "::" ++ base := by
  refine ⟨text_parse, ?_, text_qualify⟩
  intro name
  constructor
  · intro back
    rw [← back]
    exact ⟨fun _ => segment_of_parse, fun _ => qualifier_of_parse⟩
  · rintro ⟨whole, closed⟩
    exact parse_join whole closed

/-- A colon at the end of a qualifier moves to the front of what comes after it. -/
example : parse (text ⟨["net:"], "Header"⟩) = ⟨["net"], ":Header"⟩ := by
  decide

end QualifiedName

end ActorProtocol
