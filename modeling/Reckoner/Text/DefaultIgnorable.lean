/-!
# Characters that a display leaves out

`defaultIgnorableRanges` lists the characters with the Unicode property
Default_Ignorable_Code_Point: joiners, selectors and fillers, which steer how their neighbours are
drawn and show nothing themselves. Most are format characters or marks; the Hangul fillers are
letters, and only this property tells them from letters with a form.
-/

namespace Reckoner.Text

/-- The first and last code points of each range of characters with the property, in ascending
order. Assignments are those of Unicode 17.0. -/
def defaultIgnorableRanges : List (Nat × Nat) :=
  [(0xad, 0xad), (0x34f, 0x34f), (0x61c, 0x61c), (0x115f, 0x1160), (0x17b4, 0x17b5),
   (0x180b, 0x180f), (0x200b, 0x200f), (0x202a, 0x202e), (0x2060, 0x206f), (0x3164, 0x3164),
   (0xfe00, 0xfe0f), (0xfeff, 0xfeff), (0xffa0, 0xffa0), (0xfff0, 0xfff8), (0x1bca0, 0x1bca3),
   (0x1d173, 0x1d17a), (0xe0000, 0xe0fff)]

/-- A display leaves the character out. -/
def isDefaultIgnorable (c : Char) : Bool :=
  defaultIgnorableRanges.any fun (first, last) => first ≤ c.toNat && c.toNat ≤ last

example : (['\u115f', '\u1160', '\u3164', '\uffa0'].all isDefaultIgnorable) = true := by
  decide +kernel

end Reckoner.Text
