/-!
# Dictionaries

Finite maps from names to values, kept as lists of entries in increasing order of their names.
Names are ordered by code point.

- `Dict.get?` is the view of a dictionary: what each name is bound to,
- `Dict.insert`, `Dict.erase`, `Dict.ofList` keep the entries in order,
- `Dict.Sorted` says that they are.
-/

namespace StoryPlayer

/-- Entries of a finite map, one for each name, in increasing order of the names. -/
abbrev Dict (α : Type) := List (String × α)

namespace Dict

variable {α β : Type}

def Sorted (d : Dict α) : Prop :=
  d.Pairwise fun a b => a.1 < b.1

def keys (d : Dict α) : List String :=
  d.map Prod.fst

def values (d : Dict α) : List α :=
  d.map Prod.snd

def get? : Dict α → String → Option α
  | [], _ => none
  | (name, value) :: rest, key => if name = key then some value else get? rest key

def contains (d : Dict α) (key : String) : Bool :=
  (get? d key).isSome

def insert : Dict α → String → α → Dict α
  | [], key, value => [(key, value)]
  | (name, old) :: rest, key, value =>
    if key < name then (key, value) :: (name, old) :: rest
    else if name = key then (key, value) :: rest
    else (name, old) :: insert rest key value

def erase : Dict α → String → Dict α
  | [], _ => []
  | (name, value) :: rest, key =>
    if name = key then rest else (name, value) :: erase rest key

/-- The dictionary of a list of bindings; of two bindings of one name the later counts. -/
def ofList (bindings : List (String × α)) : Dict α :=
  bindings.foldl (fun d binding => insert d binding.1 binding.2) []

@[simp] theorem get?_nil (key : String) : get? ([] : Dict α) key = none := rfl

@[simp] theorem insert_nil (key : String) (value : α) :
    insert ([] : Dict α) key value = [(key, value)] := rfl

/-- A bound name is read back, and no other name is touched. -/
theorem get?_insert (d : Dict α) (key other : String) (value : α) :
    get? (insert d key value) other = if key = other then some value else get? d other := by
  induction d with
  | nil => simp [get?]
  | cons entry rest ih =>
    obtain ⟨name, old⟩ := entry
    simp only [insert]
    split
    · by_cases h : key = other <;> simp [get?, h]
    · split
      · next h => subst h; by_cases h : name = other <;> simp [get?, h]
      · next h =>
        by_cases h' : name = other
        · subst h'; simp [get?, Ne.symm h]
        · simp [get?, h', ih]

end Dict
end StoryPlayer
