namespace TileTracer

structure Table (α : Type) where
  entries : List (String × α)
  deriving Repr

namespace Table

variable {α : Type}

def empty : Table α := ⟨[]⟩

instance : Inhabited (Table α) := ⟨empty⟩

def get? (t : Table α) (name : String) : Option α := t.entries.lookup name

def contains (t : Table α) (name : String) : Bool := (t.get? name).isSome

/-- Replaces the value of the first entry with the name, or adds an entry at the end. -/
def setIn (name : String) (value : α) : List (String × α) → List (String × α)
  | [] => [(name, value)]
  | (k, v) :: rest => if k = name then (k, value) :: rest else (k, v) :: setIn name value rest

def set (t : Table α) (name : String) (value : α) : Table α := ⟨setIn name value t.entries⟩

def erase (t : Table α) (name : String) : Table α := ⟨t.entries.filter fun e => e.1 ≠ name⟩

def ofList (entries : List (String × α)) : Table α :=
  entries.foldl (fun t e => t.set e.1 e.2) empty

def size (t : Table α) : Nat := t.entries.length

def isEmpty (t : Table α) : Bool := t.entries.isEmpty

def sortedNames (t : Table α) : List String :=
  (t.entries.map (·.1)).mergeSort fun a b => decide (a ≤ b)

@[simp] theorem get?_empty (name : String) : (empty : Table α).get? name = none := rfl

theorem lookup_setIn (name key : String) (value : α) (entries : List (String × α)) :
    (setIn name value entries).lookup key =
      if key = name then some value else entries.lookup key := by
  induction entries with
  | nil =>
    by_cases h : key = name
    · subst h
      simp [setIn]
    · have hb : (key == name) = false := by simpa using h
      simp [setIn, List.lookup_cons, hb, h]
  | cons e rest ih =>
    obtain ⟨k, v⟩ := e
    unfold setIn
    by_cases hk : k = name
    · subst hk
      by_cases h : key = k
      · subst h
        simp
      · have hb : (key == k) = false := by simpa using h
        simp [List.lookup_cons, hb, h]
    · rw [if_neg hk]
      by_cases h : key = k
      · subst h
        simp [hk]
      · have hb : (key == k) = false := by simpa using h
        simp only [List.lookup_cons, hb, ih]

theorem get?_set (t : Table α) (name key : String) (value : α) :
    (t.set name value).get? key = if key = name then some value else t.get? key :=
  lookup_setIn name key value t.entries

end Table

end TileTracer
