import StoryPlayer.Dict

/-!
# JSON documents

The tree of a JSON text, before anything is known of its meaning.

- `Json.Number` keeps whole numbers of 64 bits apart from doubles,
- `Json` keeps the members of an object as they were written, repeated names included,
- `Json.parts` are the documents directly inside of one,
- `Json.canonical` resolves repeated names: the last one counts,
- `Json.depth` is how deep arrays and objects are nested,
- `Json.legible` says that every part of a document stands for something.
-/

namespace StoryPlayer

inductive Json.Number
  /-- A whole number from `0` to `2 ^ 64 - 1`. -/
  | natural (n : Nat)
  /-- The whole number `-n`, for `n` from `1` to `2 ^ 63`. -/
  | negative (n : Nat)
  /-- Any other number, as a double. -/
  | real (x : Float)

inductive Json
  | null
  | bool (b : Bool)
  | number (n : Json.Number)
  | text (s : String)
  | list (items : List Json)
  | object (members : List (String × Json))
  /-- A well-formed text or number that stands for nothing: half a surrogate pair, or a number
  beyond all doubles.  An object with such a name is of this kind as a whole. -/
  | unreadable

namespace Json

def Number.toFloat : Number → Float
  | .natural n => Float.ofNat n
  | .negative n => -Float.ofNat n
  | .real x => x

def nat (n : Nat) : Json :=
  .number (.natural n)

/-- The items of a list, or the values of the members of an object. -/
def parts : Json → List Json
  | .list items => items
  | .object members => members.map Prod.snd
  | _ => []

def ofOption : Option Json → Json
  | some j => j
  | none => .null

/-! ## Repeated names -/

mutual

/-- The document with the members of every object sorted; of a repeated name the last counts. -/
def canonical : Json → Json
  | .list items => .list (canonicalItems items)
  | .object members => .object (Dict.ofList (canonicalMembers members))
  | other => other

def canonicalItems : List Json → List Json
  | [] => []
  | item :: rest => canonical item :: canonicalItems rest

def canonicalMembers : List (String × Json) → List (String × Json)
  | [] => []
  | (name, value) :: rest => (name, canonical value) :: canonicalMembers rest

end

/-! ## Nesting -/

mutual

def depth : Json → Nat
  | .list items => depthItems items + 1
  | .object members => depthMembers members + 1
  | _ => 0

def depthItems : List Json → Nat
  | [] => 0
  | item :: rest => max (depth item) (depthItems rest)

def depthMembers : List (String × Json) → Nat
  | [] => 0
  | (_, value) :: rest => max (depth value) (depthMembers rest)

end

/-! ## Parts that stand for nothing -/

mutual

def legible : Json → Bool
  | .unreadable => false
  | .list items => legibleItems items
  | .object members => legibleMembers members
  | _ => true

def legibleItems : List Json → Bool
  | [] => true
  | item :: rest => legible item && legibleItems rest

def legibleMembers : List (String × Json) → Bool
  | [] => true
  | (_, value) :: rest => legible value && legibleMembers rest

end

def maxDepth : Nat := 127

/-- Reads a document that lies inside of `outer` arrays and objects and has to be understood as a
whole: all of it is legible and not nested too deep. -/
def whole {α : Type} (outer : Nat) (read : Json → Option α) (j : Json) : Option α :=
  if j.legible && j.depth + outer ≤ maxDepth then read j else none

end Json
end StoryPlayer
