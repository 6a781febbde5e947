/-!
# Maps in insertion order

A map is its list of entries with distinct keys, in the order in which the keys
first came in. Putting a key that is present replaces its value where it stands.
The lemmas give each operation through `find?` and `keys`.
-/

namespace ActorProtocol

set_option autoImplicit false

namespace OrderedMap

variable {Key Value : Type} [DecidableEq Key]

/-- Replaces the value of the key, or adds the entry at the end. -/
def putEntry (key : Key) (value : Value) : List (Key × Value) → List (Key × Value)
  | [] => [(key, value)]
  | entry :: rest =>
      if entry.1 = key then (key, value) :: rest else entry :: putEntry key value rest

def valueAt? (key : Key) : List (Key × Value) → Option Value
  | [] => none
  | entry :: rest => if entry.1 = key then some entry.2 else valueAt? key rest

theorem valueAt?_putEntry (key other : Key) (value : Value) (entries : List (Key × Value)) :
    valueAt? other (putEntry key value entries) =
      if key = other then some value else valueAt? other entries := by
  induction entries with
  | nil => simp [putEntry, valueAt?]
  | cons entry rest ih =>
      unfold putEntry
      split
      · rename_i same
        subst same
        by_cases named : entry.1 = other <;> simp [valueAt?, named]
      · rename_i differs
        by_cases named : entry.1 = other
        · have keyDiffers : key ≠ other := fun equal => differs (named.trans equal.symm)
          simp [valueAt?, named, keyDiffers]
        · simp [valueAt?, named, ih]

theorem valueAt?_isSome (key : Key) (entries : List (Key × Value)) :
    (valueAt? key entries).isSome = true ↔ key ∈ entries.map Prod.fst := by
  induction entries with
  | nil => simp [valueAt?]
  | cons entry rest ih =>
      by_cases named : entry.1 = key
      · simp [valueAt?, named]
      · have differs : ¬ key = entry.1 := fun equal => named equal.symm
        simp [valueAt?, named, differs, ih]

theorem keys_putEntry (key : Key) (value : Value) (entries : List (Key × Value)) :
    (putEntry key value entries).map Prod.fst =
      if key ∈ entries.map Prod.fst then entries.map Prod.fst
      else entries.map Prod.fst ++ [key] := by
  induction entries with
  | nil => simp [putEntry]
  | cons entry rest ih =>
      by_cases named : entry.1 = key
      · simp [putEntry, named]
      · have differs : ¬ key = entry.1 := fun equal => named equal.symm
        simp only [putEntry, named, if_false, List.map_cons, ih, List.mem_cons, differs, false_or]
        split <;> simp

theorem mem_putEntry {key : Key} {value : Value} {entries : List (Key × Value)}
    {entry : Key × Value} (member : entry ∈ putEntry key value entries) :
    entry = (key, value) ∨ entry ∈ entries := by
  induction entries with
  | nil => exact Or.inl (List.mem_singleton.mp member)
  | cons first rest ih =>
      unfold putEntry at member
      split at member
      · rcases List.mem_cons.mp member with same | later
        · exact Or.inl same
        · exact Or.inr (List.mem_cons_of_mem _ later)
      · rcases List.mem_cons.mp member with same | later
        · exact Or.inr (same ▸ List.mem_cons_self)
        · rcases ih later with put | earlier
          · exact Or.inl put
          · exact Or.inr (List.mem_cons_of_mem _ earlier)

theorem nodup_keys_putEntry (key : Key) (value : Value) {entries : List (Key × Value)}
    (distinct : (entries.map Prod.fst).Nodup) :
    ((putEntry key value entries).map Prod.fst).Nodup := by
  rw [keys_putEntry]
  split
  · exact distinct
  · rename_i absent
    rw [List.nodup_append]
    refine ⟨distinct, by simp, ?_⟩
    intro left leftMember right rightMember equal
    simp only [List.mem_singleton] at rightMember
    subst rightMember
    subst equal
    exact absent leftMember

end OrderedMap

structure OrderedMap (Key Value : Type) [DecidableEq Key] where
  entries : List (Key × Value)
  distinct : (entries.map Prod.fst).Nodup

namespace OrderedMap

variable {Key Value : Type} [DecidableEq Key]

def empty : OrderedMap Key Value := ⟨[], List.nodup_nil⟩

def insert (map : OrderedMap Key Value) (key : Key) (value : Value) : OrderedMap Key Value :=
  ⟨putEntry key value map.entries, nodup_keys_putEntry key value map.distinct⟩

def find? (map : OrderedMap Key Value) (key : Key) : Option Value :=
  valueAt? key map.entries

def contains (map : OrderedMap Key Value) (key : Key) : Bool :=
  (map.find? key).isSome

/-- Keeps the value of a key that is present. -/
def insertIfNew (map : OrderedMap Key Value) (key : Key) (value : Value) :
    OrderedMap Key Value :=
  if map.contains key then map else map.insert key value

def keys (map : OrderedMap Key Value) : List Key :=
  map.entries.map Prod.fst

def values (map : OrderedMap Key Value) : List Value :=
  map.entries.map Prod.snd

@[simp] theorem find?_empty (key : Key) :
    (empty : OrderedMap Key Value).find? key = none := rfl

theorem find?_insert (map : OrderedMap Key Value) (key other : Key) (value : Value) :
    (map.insert key value).find? other = if key = other then some value else map.find? other :=
  valueAt?_putEntry key other value map.entries

theorem find?_eq_none_iff (map : OrderedMap Key Value) (key : Key) :
    map.find? key = none ↔ map.contains key = false := by
  simp [contains]

theorem contains_of_find? {map : OrderedMap Key Value} {key : Key} {value : Value}
    (found : map.find? key = some value) : map.contains key = true := by
  simp [contains, found]

theorem contains_insert (map : OrderedMap Key Value) (key other : Key) (value : Value) :
    (map.insert key value).contains other = true ↔ key = other ∨ map.contains other = true := by
  unfold contains
  rw [find?_insert]
  by_cases same : key = other <;> simp [same]

theorem contains_insertIfNew (map : OrderedMap Key Value) (key other : Key) (value : Value) :
    (map.insertIfNew key value).contains other = true ↔
      key = other ∨ map.contains other = true := by
  unfold insertIfNew
  split
  · rename_i taken
    constructor
    · exact Or.inr
    · rintro (same | present)
      · exact same ▸ taken
      · exact present
  · exact map.contains_insert key other value

theorem mem_entries_insert {map : OrderedMap Key Value} {key : Key} {value : Value}
    {entry : Key × Value} (member : entry ∈ (map.insert key value).entries) :
    entry = (key, value) ∨ entry ∈ map.entries :=
  mem_putEntry member

theorem contains_iff_mem_keys (map : OrderedMap Key Value) (key : Key) :
    map.contains key = true ↔ key ∈ map.keys :=
  valueAt?_isSome key map.entries

theorem keys_insert (map : OrderedMap Key Value) (key : Key) (value : Value) :
    (map.insert key value).keys =
      if key ∈ map.keys then map.keys else map.keys ++ [key] :=
  keys_putEntry key value map.entries

end OrderedMap

end ActorProtocol
