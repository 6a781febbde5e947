import ActorProtocol.Proofs.Source.Words

/-!
# Reading back

Items of a kind are written as words. They are readable when two items, each followed by
further words, are the same and are followed by the same whenever all the words are the
same. So no two items are written alike, and none as the beginning of another. It may
matter how the words go on, since some items end only where the next one begins.
-/

namespace ActorProtocol

set_option autoImplicit false

variable {Item : Type} {kind stop : String → Prop}

/-- The first word, if there is one, is of the kind. -/
def Begins (kind : String → Prop) (list : List String) : Prop :=
  ∀ word ∈ list.head?, kind word

/-- There is a first word, and it is of the kind. -/
def Opens (kind : String → Prop) (list : List String) : Prop :=
  ∃ word later, list = word :: later ∧ kind word

@[simp] theorem begins_nil (kind : String → Prop) : Begins kind [] := nofun

@[simp] theorem begins_cons {word : String} {list : List String} :
    Begins kind (word :: list) ↔ kind word := by
  simp [Begins]

@[simp] theorem opens_cons {word : String} {list : List String} :
    Opens kind (word :: list) ↔ kind word := by
  simp [Opens]

theorem Begins.mono {wider : String → Prop} {list : List String} (begins : Begins kind list)
    (wide : ∀ word, kind word → wider word) : Begins wider list :=
  fun word first => wide word (begins word first)

namespace Opens

theorem mono {wider : String → Prop} {list : List String} (opens : Opens kind list)
    (wide : ∀ word, kind word → wider word) : Opens wider list := by
  obtain ⟨word, later, written, fits⟩ := opens
  exact ⟨word, later, written, wide word fits⟩

theorem begins_append {list rest : List String} (opens : Opens kind list) :
    Begins kind (list ++ rest) := by
  obtain ⟨word, later, rfl, fits⟩ := opens
  exact begins_cons.mpr fits

/-- What goes on is not what stops. -/
theorem append_ne {list ahead stopping : List String} (opens : Opens (fun word => ¬ stop word) list)
    (stops : Begins stop stopping) : list ++ ahead ≠ stopping := by
  intro same
  obtain ⟨word, later, rfl, going⟩ := opens
  rw [← same] at stops
  exact going (begins_cons.mp stops)

end Opens

/-- Where every item begins with a word of the kind, so does any list of them. -/
theorem Begins.flatMap {write : Item → List String} {items : List Item} {rest : List String}
    (begins : Begins kind rest) (opened : ∀ item ∈ items, Opens kind (write item)) :
    Begins kind (items.flatMap write ++ rest) := by
  cases items with
  | nil => exact begins
  | cons item items =>
      rw [List.flatMap_cons, List.append_assoc]
      exact (opened item List.mem_cons_self).begins_append

/-- Items that fit are written so that they can be read back, as long as a word of the kind
comes next, or none. -/
structure Readable (write : Item → List String) (fit : Item → Prop) (next : String → Prop) :
    Prop where
  read : ∀ {left right : Item} {rest later : List String}, fit left → fit right →
    Begins next rest → Begins next later → write left ++ rest = write right ++ later →
      left = right ∧ rest = later

theorem Begins.any {list : List String} : Begins (fun _ => True) list :=
  fun _ _ => trivial

namespace Readable

variable {write : Item → List String} {fit : Item → Prop} {next : String → Prop}

/-- A list of items goes on until a word with which no item begins. -/
theorem list (readable : Readable write fit next)
    (opened : ∀ item, fit item → Opens (fun word => next word ∧ ¬ stop word) (write item))
    (stopped : ∀ word, stop word → next word) :
    Readable (List.flatMap write) (fun items => ∀ item ∈ items, fit item) stop where
  read := by
    intro left right rest later fits fits' stops stops' same
    have goesOn : ∀ (items : List Item) (rest : List String), (∀ item ∈ items, fit item) →
        Begins stop rest → Begins next (items.flatMap write ++ rest) := by
      intro items rest fits stops
      apply (stops.mono stopped).flatMap
      intro item member
      exact (opened item (fits item member)).mono fun word both => both.1
    have going := fun item fits => (opened item fits).mono fun word both => both.2
    induction left generalizing right with
    | nil =>
        cases right with
        | nil => exact ⟨rfl, same⟩
        | cons item right =>
            rw [List.flatMap_cons, List.append_assoc] at same
            exact absurd same.symm ((going item (fits' item List.mem_cons_self)).append_ne stops)
    | cons item left ih =>
        rw [List.flatMap_cons, List.append_assoc] at same
        have fitsItem := fits item List.mem_cons_self
        cases right with
        | nil => exact absurd same ((going item fitsItem).append_ne stops')
        | cons other right =>
            rw [List.flatMap_cons, List.append_assoc] at same
            have fitsLeft := fun one member => fits one (List.mem_cons_of_mem item member)
            have fitsRight := fun one member => fits' one (List.mem_cons_of_mem other member)
            have first := readable.read fitsItem (fits' other List.mem_cons_self)
              (goesOn left rest fitsLeft stops) (goesOn right later fitsRight stops') same
            have others := ih fitsLeft fitsRight first.2
            rw [first.1, others.1]
            exact ⟨rfl, others.2⟩

/-- A list with a word between its items ends at another word. -/
theorem separated {separator close : String} (readable : Readable write fit next)
    (opened : ∀ item, fit item → Opens (fun word => ¬ word = close) (write item))
    (parted : next separator) (closed : next close) (apart : separator ≠ close) :
    Readable (fun items : List Item => ActorProtocol.separated separator (items.map write))
      (fun items => ∀ item ∈ items, fit item) (fun word => word = close) where
  read := by
    have after : Readable (fun item => separator :: write item) fit next := by
      constructor
      intro left right rest later fits fits' follows follows' same
      exact readable.read fits fits' follows follows' (List.cons.inj same).2
    have others : Readable (List.flatMap fun item => separator :: write item)
        (fun items => ∀ item ∈ items, fit item) (fun word => word = close) := by
      apply after.list
      · intro item _
        exact opens_cons.mpr ⟨parted, apart⟩
      · intro word same
        exact same ▸ closed
    intro left right rest later fits fits' stops stops' same
    cases left with
    | nil =>
        cases right with
        | nil => exact ⟨rfl, same⟩
        | cons item right =>
            rw [List.map_cons, ActorProtocol.separated, List.append_assoc] at same
            exact absurd same.symm ((opened item (fits' item List.mem_cons_self)).append_ne stops)
    | cons item left =>
        cases right with
        | nil =>
            rw [List.map_cons, ActorProtocol.separated, List.append_assoc] at same
            exact absurd same ((opened item (fits item List.mem_cons_self)).append_ne stops')
        | cons other right =>
            -- With a separator in front too, both lists are the ones with one before every item.
            apply others.read fits fits' stops stops'
            simpa [ActorProtocol.separated, List.flatMap_map] using same

/-- A mark that ends an item may come after it, whatever may follow the mark. -/
theorem closed (readable : Readable write fit next) {mark : String} (ends : next mark) :
    Readable (fun item => write item ++ [mark]) fit (fun _ => True) where
  read := by
    intro left right rest later fits fits' _ _ same
    rw [List.append_assoc, List.append_assoc] at same
    have parts := readable.read fits fits' (begins_cons.mpr ends) (begins_cons.mpr ends) same
    exact ⟨parts.1, (List.cons.inj parts.2).2⟩

end Readable

/-- A section is readable, and where it may be empty what follows begins as it would. -/
structure Section (write : Item → List String) (fit : Item → Prop) (kind next : String → Prop) :
    Prop extends Readable write fit next where
  begins : ∀ {item : Item} {rest : List String}, fit item → Begins next rest →
    Begins kind (write item ++ rest)

/-- Items of which one may come after another make a section that ends at a word with which
none of them begins. -/
theorem Readable.section {write : Item → List String} {fit : Item → Prop} {next : String → Prop}
    (readable : Readable write fit next) (follows : ∀ word, kind word → next word)
    (opened : ∀ item, fit item → Opens (fun word => kind word ∧ ¬ stop word) (write item))
    (stopped : ∀ word, stop word → kind word) :
    Section (List.flatMap write) (fun items => ∀ item ∈ items, fit item) kind stop where
  toReadable := by
    apply readable.list
    · intro item fits
      exact (opened item fits).mono fun word both => ⟨follows word both.1, both.2⟩
    · intro word stops
      exact follows word (stopped word stops)
  begins := by
    intro items rest fits stops
    apply (stops.mono stopped).flatMap
    intro item member
    exact (opened item (fits item member)).mono fun word both => both.1

namespace Section

theorem append {Later : Type} {write : Item → List String} {fit : Item → Prop}
    {write' : Later → List String} {fit' : Later → Prop} {next : String → Prop}
    (first : Section write fit kind next) (second : Section write' fit' next stop) :
    Section (fun pair : Item × Later => write pair.1 ++ write' pair.2)
      (fun pair => fit pair.1 ∧ fit' pair.2) kind stop where
  read := by
    intro left right rest later fits fits' ends ends' same
    rw [List.append_assoc, List.append_assoc] at same
    have front := first.read fits.1 fits'.1 (second.begins fits.2 ends)
      (second.begins fits'.2 ends') same
    have back := second.read fits.2 fits'.2 ends ends' front.2
    exact ⟨Prod.ext front.1 back.1, back.2⟩
  begins := by
    intro pair rest fits ends
    rw [List.append_assoc]
    exact first.begins fits.1 (second.begins fits.2 ends)

end Section

end ActorProtocol
