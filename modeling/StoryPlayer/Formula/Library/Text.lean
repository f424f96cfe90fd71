import StoryPlayer.Formula.Library.Basic
import StoryPlayer.Text.Blank
import StoryPlayer.Text.LetterCase

/-!
# Functions on texts

Positions in texts count characters.

- `Library.findChars` looks for one text in another,
- `Library.splitChars` cuts a text at a separator,
- `Library.texts` are the functions.
-/

namespace StoryPlayer
namespace Formula
namespace Library

/-! ## Searching and cutting -/

/-- Where `part` first occurs in the characters, counted from `index`. -/
def findChars (part : List Char) : Nat → List Char → Option Nat
  | index, [] => if part.isEmpty then some index else none
  | index, c :: rest =>
    if part.isPrefixOf (c :: rest) then some index else findChars part (index + 1) rest

/-- The pieces between the occurrences of a separator that is not empty.  `piece` is the piece
begun, last character first. -/
def splitChars (separator : List Char) : Nat → List Char → List Char → List (List Char)
  | 0, piece, _ => [piece.reverse]
  | _, piece, [] => [piece.reverse]
  | fuel + 1, piece, c :: rest =>
    if separator.isPrefixOf (c :: rest) then
      piece.reverse :: splitChars separator fuel [] ((c :: rest).drop separator.length)
    else splitChars separator fuel (c :: piece) rest

/-- The pieces of a text; without a separator every character, between empty pieces. -/
def splitText (s separator : String) : List String :=
  if separator.isEmpty then [""] ++ s.toList.map Char.toString ++ [""]
  else (splitChars separator.toList (s.length + 1) [] s.toList).map String.ofList

/-- At most a number of pieces; the last of them keeps its separators. -/
def atMost (limit : Int) (separator : String) (pieces : List String) : List String :=
  if limit < 1 then [""]
  else if pieces.length ≤ limit.toNat then pieces
  else
    pieces.take (limit.toNat - 1) ++ [separator.intercalate (pieces.drop (limit.toNat - 1))]

/-- Where a position cuts a text in two; without a positive position it is counted from the end. -/
def cut (size : Nat) (position : Int) : Nat :=
  if 0 < position then min position.toNat size else size - position.natAbs

def splitBlank (s : String) : List String :=
  ((s.toList.splitBy fun a b => Text.isBlank a == Text.isBlank b).filter fun piece =>
    !(piece.head?.any Text.isBlank)).map String.ofList

/-- The part of a text from a position on, at most `size` characters. -/
def subText (s : String) (start size : Int) : String :=
  String.ofList ((s.toList.drop (clamped s.length start)).take size.toNat)

def textOf? : Datum → Option String
  | .text s => some s
  | .char c => some c.toString
  | _ => none

/-! ## Functions -/

/-- The character that stands for a character, which stays if there are several. -/
def single (c : Char) : List Char → Char
  | [d] => d
  | _ => c

def letters (ofText : String → String) (ofChar : Char → List Char) : Native
  | [.text s] => give (.text (ofText s))
  | [.char c] => give (.char (single c (ofChar c)))
  | _ => none

def textContains : Native
  | [.text s, part] => (textOf? part).bind fun part =>
    give (.bool (findChars part.toList 0 s.toList).isSome)
  | _ => none

def testEnd (p : List Char → List Char → Bool) : Native
  | [.text s, .text part] => give (.bool (p part.toList s.toList))
  | _ => none

def textLen : Native
  | [.text s] => give (.int s.length)
  | _ => none

def textIsEmpty : Native
  | [.text s] => give (.bool s.isEmpty)
  | _ => none

/-- The position of a part in a text, or a negative number; nothing is found behind the end. -/
def textIndexOf : Native
  | .text s :: part :: rest =>
    (textOf? part).bind fun part =>
      (start? s.length rest).bind fun start =>
        if s.length ≤ start then give (.int (-1))
        else
          match findChars part.toList start (s.toList.drop start) with
          | some index => give (.int index)
          | none => give (.int (-1))
  | _ => none

/-- A part of a text, given by its start and its size or by a range. -/
def subString : Native
  | [.text s, .int start] => give (.text (subText s start s.length))
  | [.text s, .int start, .int size] => give (.text (subText s start size))
  | [.text s, .range low high inclusive] =>
    let start := max low 0
    give (.text (subText s start (max high start - start + if inclusive then 1 else 0)))
  | _ => none

/-- The pieces of a text: its words, the two sides of a position, or what separators divide, which
may be limited in number. -/
def split : Native
  | [.text s] => give (.ofList ((splitBlank s).map .text))
  | [.text s, .int position] =>
    let (before, after) := s.toList.splitAt (cut s.length position)
    give (.ofList [.text (String.ofList before), .text (String.ofList after)])
  | [.text s, separator] => (textOf? separator).bind fun separator =>
    give (.ofList ((splitText s separator).map .text))
  | [.text s, separator, .int limit] => (textOf? separator).bind fun separator =>
    give (.ofList ((atMost limit separator (splitText s separator)).map .text))
  | _ => none

def textClear : Native
  | [.text _] => change (.text "")
  | _ => none

/-- Takes all occurrences of a part out of a text. -/
def textRemove : Native
  | [.text s, part] => (textOf? part).bind fun part => change (.text (Operator.without s part))
  | _ => none

/-- Takes the last character off a text, or the last few as a text. -/
def textPop : Native
  | [.text s] =>
    match s.toList.getLast? with
    | some c => some (.ok (.both (.char c) (.text (String.ofList s.toList.dropLast))))
    | none => some (.ok (.both .unit (.text s)))
  | [.text s, .int count] =>
    let (kept, taken) := s.toList.splitAt (s.length - count.toNat)
    some (.ok (.both (.text (String.ofList taken)) (.text (String.ofList kept))))
  | _ => none

def texts : Library :=
  [("len", textLen), ("is_empty", textIsEmpty),
    ("contains", textContains), ("starts_with", testEnd List.isPrefixOf),
    ("ends_with", testEnd List.isSuffixOf), ("index_of", textIndexOf),
    ("to_upper", letters Text.toUpper Text.upperChar),
    ("to_lower", letters Text.toLower Text.lowerChar), ("sub_string", subString), ("split", split),
    ("remove", textRemove), ("clear", textClear), ("pop", textPop)]

end Library
end Formula
end StoryPlayer
