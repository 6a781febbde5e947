import ActorProtocol.QualifiedName

/-!
# Spellings

A spelling is given back by the name that it reads as. The short name of a full name,
written behind the part of the context that the full name begins with, is the full name
again, so it loses nothing but what it shares with the context. A segment that is read off
is cut no further, so a base name is a name without qualifiers. Elsewhere segments may hold
anything, and a name that is no spelling of its own, since a segment of it holds a
separator, is not said to be read back.
-/

namespace ActorProtocol

set_option autoImplicit false

namespace QualifiedName

/-- The letters of segments that follow others, each behind a separator. -/
def separated (segments : List (List Char)) : List Char :=
  segments.flatMap fun segment => ':' :: ':' :: segment

theorem cut_separated (letters : List Char) :
    (cut letters).1 ++ separated (cut letters).2 = letters := by
  induction letters using cut.induct with
  | case1 rest first later parts whole =>
      rw [parts] at whole
      rw [cut, parts]
      change ':' :: ':' :: (first ++ separated later) = _
      rw [whole]
  | case2 letter rest single first later parts whole =>
      rw [parts] at whole
      rw [cut.eq_2 letter rest single, parts]
      change letter :: (first ++ separated later) = _
      rw [whole]
  | case3 => rfl

theorem toList_text_ofSegments (first : String) (later : List (List Char)) :
    (ofSegments first (later.map String.ofList)).text.toList =
      first.toList ++ separated later := by
  induction later generalizing first with
  | nil => simp [ofSegments, text, separated]
  | cons segment later ih =>
      change (first ++ "::" ++
        (ofSegments (String.ofList segment) (later.map String.ofList)).text).toList = _
      rw [String.toList_append, String.toList_append, ih]
      simp [separated]

theorem text_parse (spelling : String) : (parse spelling).text = spelling := by
  apply String.toList_inj.mp
  change (ofSegments (String.ofList (cut spelling.toList).1)
    ((cut spelling.toList).2.map String.ofList)).text.toList = _
  rw [toList_text_ofSegments, String.toList_ofList]
  exact cut_separated spelling.toList

/-- A segment is cut nowhere when its separators are all used up. -/
theorem cut_segment (letters : List Char) :
    ∀ segment ∈ (cut letters).1 :: (cut letters).2, cut segment = (segment, []) := by
  induction letters using cut.induct with
  | case1 rest first later parts ih =>
      rw [parts] at ih
      rw [cut, parts]
      intro segment member
      rcases List.mem_cons.mp member with rfl | inside
      · rfl
      · exact ih segment inside
  | case2 letter rest single first later parts ih =>
      have whole := cut_separated rest
      rw [parts] at ih whole
      rw [cut.eq_2 letter rest single, parts]
      intro segment member
      rcases List.mem_cons.mp member with rfl | inside
      · rw [cut.eq_2 letter first, ih first List.mem_cons_self]
        -- the first letters of a segment are those of the spelling
        intro others colon start
        rw [start, List.cons_append] at whole
        exact single _ colon whole.symm
      · exact ih segment (List.mem_cons_of_mem _ inside)
  | case3 =>
      intro segment member
      rw [List.mem_singleton.mp member]
      rfl

theorem base_ofSegments (first : String) (later : List String) :
    (ofSegments first later).base ∈ first :: later := by
  induction later generalizing first with
  | nil => exact List.mem_cons_self
  | cons next later ih => exact List.mem_cons_of_mem _ (ih next)

/-- A base name that is read from a spelling is a spelling without qualifiers. -/
theorem parse_base (spelling : String) :
    parse (parse spelling).base = ⟨[], (parse spelling).base⟩ := by
  have base : (parse spelling).base ∈
      ((cut spelling.toList).1 :: (cut spelling.toList).2).map String.ofList :=
    base_ofSegments _ _
  rcases List.mem_map.mp base with ⟨segment, member, same⟩
  rw [← same]
  unfold parse
  rw [String.toList_ofList, cut_segment _ segment member]
  rfl

theorem length_join_cons (qualifier : String) (rest : List String) (name : String) :
    (join (qualifier :: rest) name).length = qualifier.length + 2 + (join rest name).length := by
  have separator : "::".length = 2 := rfl
  rw [join_cons, String.length_append, String.length_append, separator]

theorem length_join (qualifiers : List String) (name : String) :
    (join qualifiers name).length = (join qualifiers "").length + name.length := by
  induction qualifiers with
  | nil => exact (Nat.zero_add _).symm
  | cons qualifier rest ih =>
      rw [length_join_cons, length_join_cons, ih]
      omega

/-- Every further qualifier makes the text longer, whatever the qualifier is. -/
theorem length_join_lt (outer : List String) {inner : List String} (further : inner ≠ [])
    (name : String) : (join outer name).length < (join (outer ++ inner) name).length := by
  cases inner with
  | nil => exact absurd rfl further
  | cons qualifier rest =>
      rw [join_append, length_join outer name, length_join outer (join (qualifier :: rest) name),
        length_join_cons, length_join rest name]
      omega

theorem take_sharedLength (qualifiers context : List String) :
    context.take (sharedLength qualifiers context) =
      qualifiers.take (sharedLength qualifiers context) := by
  induction qualifiers generalizing context with
  | nil => cases context <;> rfl
  | cons qualifier rest ih =>
      cases context with
      | nil => rfl
      | cons outer context =>
          unfold sharedLength
          by_cases same : qualifier = outer
          · rw [if_pos same, List.take_succ_cons, List.take_succ_cons, ih, same]
          · rw [if_neg same]
            rfl

theorem join_shortName (fullName : String) (context : List String) :
    join (context.take (sharedLength (parse fullName).qualifiers context))
      (shortName fullName context) = fullName := by
  unfold shortName
  dsimp only
  rw [← join_append, take_sharedLength, List.take_append_drop]
  exact text_parse fullName

end QualifiedName

end ActorProtocol
