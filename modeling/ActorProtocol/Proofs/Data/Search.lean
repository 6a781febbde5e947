import Mathlib.Data.List.Nodup

/-!
# Searches by a key

A search by a key finds the same in every order of a list, if no two items have the key.
Where several items are accepted, one of them is the last.
-/

namespace ActorProtocol

set_option autoImplicit false

variable {Item : Type} {items others : List Item}

/-- A search by a key finds what has the key, if only one item does. -/
theorem find?_eq_some_iff_of_single (key : Item → String) {name : String}
    (single : ∀ first ∈ items, ∀ second ∈ items, key first = name → key second = name →
      first = second) {item : Item} :
    (items.find? fun item => key item == name) = some item ↔ item ∈ items ∧ key item = name := by
  constructor
  · intro found
    exact ⟨List.mem_of_find?_eq_some found, by simpa using List.find?_some found⟩
  · rintro ⟨member, named⟩
    cases found : items.find? fun item => key item == name with
    | none =>
        have missing := List.find?_eq_none.mp found item member
        simp [named] at missing
    | some other =>
        have known : key other = name := by simpa using List.find?_some found
        rw [single other (List.mem_of_find?_eq_some found) item member known named]

/-- Of items with distinct keys only one has a key. -/
theorem single_of_nodup (key : Item → String) (distinct : (items.map key).Nodup) (name : String) :
    ∀ first ∈ items, ∀ second ∈ items, key first = name → key second = name → first = second := by
  intro first one second two named named'
  exact List.inj_on_of_nodup_map distinct one two (named.trans named'.symm)

theorem find?_eq_some_iff_of_nodup (key : Item → String) (distinct : (items.map key).Nodup)
    {name : String} {item : Item} :
    (items.find? fun item => key item == name) = some item ↔ item ∈ items ∧ key item = name :=
  find?_eq_some_iff_of_single key (single_of_nodup key distinct name)

theorem find?_eq_of_perm (same : items.Perm others) (key : Item → String) {name : String}
    (single : ∀ first ∈ items, ∀ second ∈ items, key first = name → key second = name →
      first = second) :
    (items.find? fun item => key item == name) = others.find? fun item => key item == name := by
  have again : ∀ first ∈ others, ∀ second ∈ others, key first = name → key second = name →
      first = second := fun first one second two =>
    single first (same.mem_iff.mpr one) second (same.mem_iff.mpr two)
  apply Option.ext
  intro item
  rw [find?_eq_some_iff_of_single key single, find?_eq_some_iff_of_single key again, same.mem_iff]

theorem find?_eq_of_perm_of_nodup (same : items.Perm others) (key : Item → String)
    (distinct : (items.map key).Nodup) (name : String) :
    (items.find? fun item => key item == name) = others.find? fun item => key item == name :=
  find?_eq_of_perm same key (single_of_nodup key distinct name)

/-- A list with an item that is accepted can be cut at the last one. -/
theorem exists_last_of_mem (accepted : Item → Prop) {item : Item} (member : item ∈ items)
    (fits : accepted item) :
    ∃ before last after, items = before ++ last :: after ∧ accepted last ∧
      ∀ later ∈ after, ¬ accepted later := by
  induction items generalizing item with
  | nil => cases member
  | cons first rest ih =>
      by_cases again : ∃ later ∈ rest, accepted later
      · obtain ⟨later, inside, fitting⟩ := again
        obtain ⟨before, last, after, rfl, found, others⟩ := ih inside fitting
        exact ⟨first :: before, last, after, rfl, found, others⟩
      · have only : ∀ later ∈ rest, ¬ accepted later := by simpa using again
        rcases List.mem_cons.mp member with rfl | inside
        · exact ⟨[], item, rest, rfl, fits, only⟩
        · exact absurd fits (only item inside)

end ActorProtocol
