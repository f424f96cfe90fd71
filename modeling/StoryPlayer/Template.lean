/-!
# Templates

A text with holes: `$` and braces around the source of an expression.  A hole is not empty and has
no brace inside; anything else stands for itself.

- `Template` is a text cut into what stands for itself and the holes between,
- `Template.parse` cuts a text, `Template.source` puts it together again.
-/

namespace StoryPlayer

/-- A text before the first hole, and each hole with the text that follows it. -/
structure Template where
  lead : String
  holes : List (String × String)
  deriving DecidableEq, Repr

namespace Template

def openBrace : Char := '\x7b'

def closeBrace : Char := '\x7d'

def isInner (c : Char) : Bool :=
  c != openBrace && c != closeBrace

def hole? (cs : List Char) : Option (List Char × List Char) :=
  match cs with
  | '$' :: c :: rest =>
    let source := rest.takeWhile isInner
    match rest.dropWhile isInner with
    | last :: after =>
      if c == openBrace && last == closeBrace && !source.isEmpty then some (source, after) else none
    | [] => none
  | _ => none

/-- Cuts the characters from left to right; `fuel` is at least their number. -/
def cut : Nat → List Char → List Char × List (List Char × List Char)
  | 0, cs => (cs, [])
  | _, [] => ([], [])
  | fuel + 1, c :: rest =>
    match hole? (c :: rest) with
    | some (source, after) =>
      let (lead, holes) := cut fuel after
      ([], (source, lead) :: holes)
    | none =>
      let (lead, holes) := cut fuel rest
      (c :: lead, holes)

def parse (s : String) : Template :=
  let (lead, holes) := cut s.length s.toList
  ⟨String.ofList lead, holes.map fun hole => (String.ofList hole.1, String.ofList hole.2)⟩

def holeText (hole : String × String) : String :=
  "$\x7b" ++ hole.1 ++ "\x7d" ++ hole.2

def source (t : Template) : String :=
  t.lead ++ String.join (t.holes.map holeText)

end Template
end StoryPlayer
