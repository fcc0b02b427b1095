/-!
# Entries in insertion order

An association list that keeps the place of a key when its value is replaced.
-/

namespace QueryAssist

/-- Values by key, in the order in which the keys were first added. -/
abbrev Entries (α : Type) := List (String × α)

namespace Entries

variable {α : Type}

/-- The value of a key. -/
def get? : Entries α → String → Option α
  | [], _ => none
  | (k, v) :: rest, key => if k = key then some v else get? rest key

/-- Whether the key has a value. -/
def has (entries : Entries α) (key : String) : Bool := (entries.get? key).isSome

/-- Sets the value of a key, at its place or else at the end. -/
def put : Entries α → String → α → Entries α
  | [], key, value => [(key, value)]
  | (k, v) :: rest, key, value =>
    if k = key then (k, value) :: rest else (k, v) :: put rest key value

/-- Adds a key at the end, unless it is there. -/
def putNew (entries : Entries α) (key : String) (value : α) : Entries α :=
  if entries.has key then entries else entries ++ [(key, value)]

/-- Changes the value of a key that is there. -/
def modify (f : α → α) : Entries α → String → Entries α
  | [], _ => []
  | (k, v) :: rest, key =>
    if k = key then (k, f v) :: rest else (k, v) :: modify f rest key

/-- The keys in order. -/
def keys (entries : Entries α) : List String := entries.map Prod.fst

/-- The values in order. -/
def values (entries : Entries α) : List α := entries.map Prod.snd

/-! ## Laws -/

@[simp]
theorem get?_nil (key : String) : get? ([] : Entries α) key = none := rfl

theorem get?_cons (k : String) (v : α) (rest : Entries α) (key : String) :
    get? ((k, v) :: rest) key = if k = key then some v else get? rest key := rfl

/-- A key reads back what was put there. -/
theorem get?_put_self (entries : Entries α) (key : String) (value : α) :
    (entries.put key value).get? key = some value := by
  induction entries with
  | nil => simp [put, get?]
  | cons e rest ih =>
    obtain ⟨k, v⟩ := e
    by_cases h : k = key
    · simp [put, get?, h]
    · simp [put, get?, h, ih]

/-- Other keys are not touched. -/
theorem get?_put_of_ne (entries : Entries α) {key other : String} (value : α)
    (h : key ≠ other) :
    (entries.put key value).get? other = entries.get? other := by
  induction entries with
  | nil => simp [put, get?, h]
  | cons e rest ih =>
    obtain ⟨k, v⟩ := e
    by_cases hk : k = key
    · subst hk; simp [put, get?, h]
    · by_cases ho : k = other
      · subst ho; simp [put, get?, hk]
      · simp [put, get?, hk, ho, ih]

/-- A known key keeps its place and a new one comes last. -/
theorem keys_put (entries : Entries α) (key : String) (value : α) :
    (entries.put key value).keys
      = if key ∈ entries.keys then entries.keys else entries.keys ++ [key] := by
  induction entries with
  | nil => simp [put, keys]
  | cons e rest ih =>
    obtain ⟨k, v⟩ := e
    by_cases h : k = key
    · simp [put, keys, h]
    · have hne : ¬ key = k := fun e => h e.symm
      simp only [keys] at ih
      by_cases hm : key ∈ List.map Prod.fst rest
      · simp_all [put, keys]
      · simp_all [put, keys]

/-- A key has a value iff it is one of the keys. -/
theorem isSome_get?_iff (entries : Entries α) (key : String) :
    (entries.get? key).isSome = true ↔ key ∈ entries.keys := by
  induction entries with
  | nil => simp [keys]
  | cons e rest ih =>
    obtain ⟨k, v⟩ := e
    by_cases h : k = key
    · simp [get?, keys, h]
    · have hne : ¬ key = k := fun e => h e.symm
      rw [get?_cons, if_neg h, ih]
      simp [keys, hne]

/-- The entry of a key reads back its value, where no key comes twice. -/
theorem get?_of_mem {entries : Entries α} (hnodup : entries.keys.Nodup)
    {key : String} {value : α} (h : (key, value) ∈ entries) :
    entries.get? key = some value := by
  induction entries with
  | nil => cases h
  | cons e rest ih =>
    obtain ⟨k, v⟩ := e
    obtain ⟨hfirst, hrest⟩ := List.nodup_cons.1 hnodup
    rcases List.mem_cons.1 h with heq | hmem
    · cases heq
      simp [get?]
    · have hkey : key ∈ keys rest := List.mem_map_of_mem (f := Prod.fst) hmem
      have hne : k ≠ key := fun e => hfirst (e ▸ hkey)
      rw [get?_cons, if_neg hne]
      exact ih hrest hmem

/-- The values are what the keys read, in the same order. -/
theorem map_get?_keys {entries : Entries α} (hnodup : entries.keys.Nodup) :
    entries.keys.map entries.get? = entries.values.map some := by
  rw [keys, values, List.map_map, List.map_map]
  apply List.map_congr_left
  intro e he
  exact get?_of_mem hnodup he

/-- What is changed under a key is its value. -/
theorem get?_modify (f : α → α) (entries : Entries α) (key other : String) :
    (entries.modify f key).get? other
      = if other = key then (entries.get? other).map f
        else entries.get? other := by
  induction entries with
  | nil => simp [modify]
  | cons e rest ih =>
    obtain ⟨k, v⟩ := e
    by_cases hk : k = key
    · subst hk
      by_cases ho : other = k
      · simp [modify, get?, ho]
      · have hne : ¬ k = other := fun e => ho e.symm
        simp [modify, get?, ho, hne]
    · rw [modify, if_neg hk, get?_cons, get?_cons, ih]
      by_cases ho : k = other
      · have hne : ¬ other = key := fun e => hk (ho.trans e)
        simp [ho, hne]
      · simp [ho]

theorem keys_modify (f : α → α) (entries : Entries α) (key : String) :
    (entries.modify f key).keys = entries.keys := by
  induction entries with
  | nil => rfl
  | cons e rest ih =>
    obtain ⟨k, v⟩ := e
    by_cases hk : k = key
    · simp [modify, keys, hk]
    · simp only [keys] at ih
      simp [modify, keys, hk, ih]

end Entries

end QueryAssist
