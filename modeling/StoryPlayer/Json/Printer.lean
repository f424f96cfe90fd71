import StoryPlayer.Decimal.Layout
import StoryPlayer.Json.Basic
import StoryPlayer.Text.Quoted

/-!
# Printing JSON

The shortest form of a document: no blanks, members in the order of the tree, numbers in the
document layout, and only the characters escaped that must be.

- `printText` writes a text between quotes,
- `Json.print` writes a document.
-/

namespace StoryPlayer
namespace Json

/-- The number `n < 256` as two hexadecimal digits. -/
def twoHexDigits (n : Nat) : String :=
  String.ofList [Nat.digitChar (n / 16), Nat.digitChar (n % 16)]

def printChar (c : Char) : String :=
  if c == Text.doubleQuote || c == Text.backslash then "\\" ++ c.toString
  else if c == '\n' then "\\n"
  else if c == '\r' then "\\r"
  else if c == '\t' then "\\t"
  else if c.toNat == 8 then "\\b"
  else if c.toNat == 12 then "\\f"
  else if c.toNat < 0x20 then "\\u00" ++ twoHexDigits c.toNat
  else c.toString

def printText (s : String) : String :=
  "\"" ++ String.join (s.toList.map printChar) ++ "\""

/-- A double; numbers that are not finite have no spelling and become `null`. -/
def printFloat (x : Float) : String :=
  if x.isFinite then Decimal.Layout.document.write x else "null"

def printNumber : Number → String
  | .natural n => String.ofList (Decimal.digitChars n)
  | .negative n => "-" ++ String.ofList (Decimal.digitChars n)
  | .real x => printFloat x

mutual

/-- The text of a document; a number beyond all doubles is written for what stands for nothing. -/
def print : Json → String
  | .null => "null"
  | .bool true => "true"
  | .bool false => "false"
  | .number n => printNumber n
  | .text s => printText s
  | .list items => "[" ++ ",".intercalate (printItems items) ++ "]"
  | .object members => "\x7b" ++ ",".intercalate (printMembers members) ++ "\x7d"
  | .unreadable => "1e999"

def printItems : List Json → List String
  | [] => []
  | item :: rest => print item :: printItems rest

def printMembers : List (String × Json) → List String
  | [] => []
  | (name, value) :: rest => (printText name ++ ":" ++ print value) :: printMembers rest

end

end Json
end StoryPlayer
