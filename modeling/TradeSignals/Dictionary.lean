/-!
# Dictionaries in order of first entry

A dictionary keeps its keys in the order in which they were first put in. Putting a
key in again replaces what it stands for and leaves its place alone. The changes of a
validation, the columns of a table and the sections of a configuration are all kept
this way; they are short, so a search through the entries is good enough.
-/

namespace TradeSignals

/-- Entries with keys, in order of first entry. -/
structure Dictionary (α : Type) where
  /-- The entries. -/
  entries : List (String × α)
deriving DecidableEq

namespace Dictionary

variable {α : Type}

/-- The dictionary without entries. -/
def empty : Dictionary α := ⟨[]⟩

/-- Is there no entry? -/
def isEmpty (d : Dictionary α) : Bool := d.entries.isEmpty

/-- How many entries there are. -/
def size (d : Dictionary α) : Nat := d.entries.length

/-- The keys, in order of first entry. -/
def keys (d : Dictionary α) : List String := d.entries.map (·.1)

/-- What a key stands for. -/
def get? (d : Dictionary α) (key : String) : Option α := d.entries.lookup key

/-- Is there an entry with this key? -/
def contains (d : Dictionary α) (key : String) : Bool := (d.get? key).isSome

/-- The entries after one more has been put among them. -/
def putEntry (key : String) (value : α) : List (String × α) → List (String × α)
  | [] => [(key, value)]
  | (k, v) :: rest => if key = k then (k, value) :: rest else (k, v) :: putEntry key value rest

/-- **Puts an entry in:** in the place of the one with the same key, or else last. -/
def put (d : Dictionary α) (key : String) (value : α) : Dictionary α :=
  ⟨putEntry key value d.entries⟩

/-- A dictionary of several entries, put in one after the other. -/
def ofList (entries : List (String × α)) : Dictionary α :=
  entries.foldl (fun d e => d.put e.1 e.2) empty

/-- What is found after an entry was put among others. -/
theorem lookup_putEntry (key : String) (value : α) (entries : List (String × α))
    (other : String) : (putEntry key value entries).lookup other =
      if other = key then some value else entries.lookup other := by
  induction entries with
  | nil =>
    by_cases h : other = key
    · simp [putEntry, h]
    · simp [putEntry, List.lookup_cons, h, beq_eq_false_iff_ne.mpr h]
  | cons e rest ih =>
    obtain ⟨k, v⟩ := e
    by_cases hk : key = k
    · subst hk
      by_cases ho : other = key
      · simp [putEntry, ho]
      · simp [putEntry, List.lookup_cons, ho, beq_eq_false_iff_ne.mpr ho]
    · by_cases ho : other = k
      · simp [putEntry, hk, ho, Ne.symm hk]
      · simp [putEntry, List.lookup_cons, hk, beq_eq_false_iff_ne.mpr ho, ih]

/-- After putting an entry in, its key stands for its value and all others for what they
stood for. -/
theorem get?_put (d : Dictionary α) (key : String) (value : α) (other : String) :
    (d.put key value).get? other = if other = key then some value else d.get? other :=
  lookup_putEntry key value d.entries other

/-- A key that is there already keeps its place; a new one comes last. -/
theorem keys_putEntry (key : String) (value : α) (entries : List (String × α)) :
    (putEntry key value entries).map (·.1) =
      if key ∈ entries.map (·.1) then entries.map (·.1) else entries.map (·.1) ++ [key] := by
  induction entries with
  | nil => simp [putEntry]
  | cons e rest ih =>
    obtain ⟨k, v⟩ := e
    by_cases hk : key = k
    · simp [putEntry, hk]
    · by_cases hr : key ∈ rest.map (·.1) <;> simp_all [putEntry]

/-- The keys after putting an entry in. -/
theorem keys_put (d : Dictionary α) (key : String) (value : α) :
    (d.put key value).keys = if key ∈ d.keys then d.keys else d.keys ++ [key] :=
  keys_putEntry key value d.entries

/-- How many entries there are is how many keys there are. -/
theorem size_eq (d : Dictionary α) : d.size = d.keys.length :=
  (List.length_map _).symm

/-- A key stands for nothing if and only if it is not there. -/
theorem get?_eq_none_iff {d : Dictionary α} {key : String} : d.get? key = none ↔ key ∉ d.keys := by
  rw [get?, keys, List.lookup_eq_none_iff, List.mem_map]
  constructor
  · rintro h ⟨entry, hentry, rfl⟩
    exact bne_iff_ne.1 (h entry hentry) rfl
  · intro h entry hentry
    exact bne_iff_ne.2 fun heq => h ⟨entry, hentry, heq.symm⟩

/-- An entry is found if and only if its key is there. -/
theorem contains_iff {d : Dictionary α} {key : String} : d.contains key = true ↔ key ∈ d.keys := by
  rw [contains, Option.isSome_iff_ne_none, ne_eq, get?_eq_none_iff, Decidable.not_not]

/-- Where no key is there twice, a key stands for each value that is there with it. -/
theorem lookup_eq_some_iff_mem {entries : List (String × α)} (hkeys : (entries.map (·.1)).Nodup)
    {key : String} {value : α} : entries.lookup key = some value ↔ (key, value) ∈ entries := by
  induction entries with
  | nil => exact ⟨nofun, nofun⟩
  | cons entry entries ih =>
    obtain ⟨key', value'⟩ := entry
    rw [List.map_cons, List.nodup_cons] at hkeys
    rw [List.mem_cons, Prod.mk.injEq]
    by_cases hkey : key = key'
    · subst hkey
      have hnot : (key, value) ∉ entries := fun hmem => hkeys.1 (List.mem_map.2 ⟨_, hmem, rfl⟩)
      rw [List.lookup_cons_self, or_iff_left hnot, Option.some.injEq, and_iff_right rfl, eq_comm]
    · rw [List.lookup_cons, beq_eq_false_iff_ne.2 hkey, or_iff_right fun h => hkey h.1]
      exact ih hkeys.2

end Dictionary

end TradeSignals
