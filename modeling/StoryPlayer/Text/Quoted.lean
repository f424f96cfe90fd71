import StoryPlayer.Text.Invisible

/-!
# Quoted text

How a text is written inside a list or a map: between double quotes, with marks for the characters
that would be misread and code points for those that leave no mark.

- `escapeChar` spells one character,
- `quote` spells a whole text,
- `hexDigits` writes a number in lower-case hexadecimal.
-/

namespace StoryPlayer
namespace Text

def hexDigits (n : Nat) : String :=
  String.ofList (Nat.toDigits 16 n)

def doubleQuote : Char := Char.ofNat 34

def backslash : Char := Char.ofNat 92

def apostrophe : Char := Char.ofNat 39

def codePoint (c : Char) : String :=
  "\\u\x7b" ++ hexDigits c.toNat ++ "\x7d"

def escapeChar (mark c : Char) : String :=
  if c == mark || c == backslash then "\\" ++ c.toString
  else if c.toNat == 0 then "\\0"
  else if c == '\t' then "\\t"
  else if c == '\n' then "\\n"
  else if c == '\r' then "\\r"
  else if c.toNat < 0x20 || c.toNat == 0x7f then codePoint c
  else if c.toNat < 0x7f then c.toString
  else if isInvisible c then codePoint c
  else c.toString

def quoteWith (mark : Char) (cs : List Char) : String :=
  mark.toString ++ String.join (cs.map (escapeChar mark)) ++ mark.toString

def quote (s : String) : String :=
  quoteWith doubleQuote s.toList

end Text
end StoryPlayer
