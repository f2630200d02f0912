import Reckoner.Text.DefaultIgnorable
import Reckoner.Text.GraphemeExtend
import Reckoner.Text.Unprintable

/-!
# Quoted text

`quote` writes a text so that every character of it can be told: in double quotes, with an escape
for each character that would end the quotes, that has no visible form, or that is drawn onto the
character before it. A single quote stands for itself.
-/

namespace Reckoner.Text

/-- A character by its code point in lower-case hexadecimal digits. -/
def escapeCodePoint (c : Char) : List Char :=
  ['\\', 'u', '\x7b'] ++ Nat.toDigits 16 c.toNat ++ ['\x7d']

/-- The character has a form of its own, in a place of its own. -/
def isLegible (c : Char) : Bool :=
  !(isUnprintable c || isDefaultIgnorable c || isDrawnOnto c)

/-- How a character is written between quotes. -/
def escape (c : Char) : List Char :=
  if c = '\"' then ['\\', '\"']
  else if c = '\\' then ['\\', '\\']
  else if c = '\x00' then ['\\', '0']
  else if c = '\t' then ['\\', 't']
  else if c = '\n' then ['\\', 'n']
  else if c = '\r' then ['\\', 'r']
  else if isLegible c then [c]
  else escapeCodePoint c

/-- A text in double quotes. -/
def quote (text : String) : String :=
  String.ofList ('\"' :: text.toList.flatMap escape ++ ['\"'])

example : quote "it's \"a\"\t\u0301" = "\"it's \\\"a\\\"\\t\\u\x7b301\x7d\"" := by decide +kernel

-- A Hangul filler is escaped, and a halfwidth sound mark stands.
example : quote "\u3164\uff9e" = "\"\\u\x7b3164\x7d\uff9e\"" := by decide +kernel

end Reckoner.Text
