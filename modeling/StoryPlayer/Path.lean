import StoryPlayer.Fault
import StoryPlayer.Globals
import StoryPlayer.Text.Blank

/-!
# Paths to values

A path is a variable and the names that lead into the maps it holds, separated by full stops.

- `Path.parse` reads a path,
- `Value.lookup` follows names into a value, `Value.assign` replaces what they lead to,
- `Obstacle` says why that is not possible.
-/

namespace StoryPlayer

structure Path where
  root : String
  rest : List String
  deriving DecidableEq, Repr

namespace Path

def pieces : List Char → List (List Char)
  | [] => [[]]
  | c :: rest =>
    match pieces rest with
    | [] => [[c]]
    | piece :: others =>
      if c == '.' then [] :: piece :: others else (c :: piece) :: others

def segments (s : String) : List String :=
  (pieces s.toList).map fun piece => Text.trim (String.ofList piece)

def parse? (s : String) : Option Path :=
  match segments s with
  | [] => none
  | root :: rest => if (root :: rest).any String.isEmpty then none else some ⟨root, rest⟩

def parse (s : String) : Except Fault Path :=
  match parse? s with
  | some path => .ok path
  | none => .error (.pathInvalid s)

end Path

inductive Obstacle
  | missingKey (key : String)
  /-- The name is looked up in a value that is no map. -/
  | notMap (key : String)
  /-- A value that is no map should take up a name. -/
  | notTarget
  deriving DecidableEq, Repr

def Obstacle.reason : Obstacle → String
  | .missingKey key => "missing key " ++ Fault.named key
  | .notMap key => Fault.named key ++ " is read from a non-map value"
  | .notTarget => "target is not an object/map"

namespace Value

def lookup : Value → List String → Except Obstacle Value
  | value, [] => .ok value
  | .map entries, key :: rest =>
    match Dict.get? entries key with
    | some inner => lookup inner rest
    | none => .error (.missingKey key)
  | _, key :: _ => .error (.notMap key)

/-- The value with another one in the place that names lead to.  The last map takes up a new name;
the maps on the way must be there. -/
def assign : Value → List String → Value → Except Obstacle Value
  | _, [], new => .ok new
  | .map entries, [key], new => .ok (.map (Dict.insert entries key new))
  | .map entries, key :: next :: rest, new =>
    match Dict.get? entries key with
    | some inner =>
      match assign inner (next :: rest) new with
      | .ok inner => .ok (.map (Dict.insert entries key inner))
      | .error obstacle => .error obstacle
    | none => .error (.missingKey key)
  | _, _ :: _, _ => .error .notTarget

end Value
end StoryPlayer
