/-!
# Folding letters

Words are compared without regard to case and to the accents of Latin letters: a capital is folded
to its small letter, and then a small letter with an accent to the letter without it.
-/

namespace MetadataCatalog.Text

/-! ## §1 Case -/

/-- Every `stride`-th code point from `first` to `last` is a capital whose small letter stands
`shift` further. -/
structure CaseRun where
  first : Nat
  last : Nat
  stride : Nat
  shift : Int

/-- The runs of capitals, ascending. -/
def caseRuns : List CaseRun :=
  [⟨0x41, 0x5A, 1, 32⟩, ⟨0xB5, 0xB5, 1, 775⟩, ⟨0xC0, 0xD6, 1, 32⟩, ⟨0xD8, 0xDE, 1, 32⟩,
   ⟨0x100, 0x12E, 2, 1⟩, ⟨0x132, 0x136, 2, 1⟩, ⟨0x139, 0x147, 2, 1⟩, ⟨0x14A, 0x176, 2, 1⟩,
   ⟨0x178, 0x178, 1, -121⟩, ⟨0x179, 0x17D, 2, 1⟩, ⟨0x17F, 0x17F, 1, -268⟩, ⟨0x181, 0x181, 1, 210⟩,
   ⟨0x182, 0x184, 2, 1⟩, ⟨0x186, 0x186, 1, 206⟩, ⟨0x187, 0x187, 1, 1⟩, ⟨0x189, 0x18A, 1, 205⟩,
   ⟨0x18B, 0x18B, 1, 1⟩, ⟨0x18E, 0x18E, 1, 79⟩, ⟨0x18F, 0x18F, 1, 202⟩, ⟨0x190, 0x190, 1, 203⟩,
   ⟨0x191, 0x191, 1, 1⟩, ⟨0x193, 0x193, 1, 205⟩, ⟨0x194, 0x194, 1, 207⟩, ⟨0x196, 0x196, 1, 211⟩,
   ⟨0x197, 0x197, 1, 209⟩, ⟨0x198, 0x198, 1, 1⟩, ⟨0x19C, 0x19C, 1, 211⟩, ⟨0x19D, 0x19D, 1, 213⟩,
   ⟨0x19F, 0x19F, 1, 214⟩, ⟨0x1A0, 0x1A4, 2, 1⟩, ⟨0x1A6, 0x1A6, 1, 218⟩, ⟨0x1A7, 0x1A7, 1, 1⟩,
   ⟨0x1A9, 0x1A9, 1, 218⟩, ⟨0x1AC, 0x1AC, 1, 1⟩, ⟨0x1AE, 0x1AE, 1, 218⟩, ⟨0x1AF, 0x1AF, 1, 1⟩,
   ⟨0x1B1, 0x1B2, 1, 217⟩, ⟨0x1B3, 0x1B5, 2, 1⟩, ⟨0x1B7, 0x1B7, 1, 219⟩, ⟨0x1B8, 0x1B8, 1, 1⟩,
   ⟨0x1BC, 0x1BC, 1, 1⟩, ⟨0x1C4, 0x1C4, 1, 2⟩, ⟨0x1C5, 0x1C5, 1, 1⟩, ⟨0x1C7, 0x1C7, 1, 2⟩,
   ⟨0x1C8, 0x1C8, 1, 1⟩, ⟨0x1CA, 0x1CA, 1, 2⟩, ⟨0x1CB, 0x1DB, 2, 1⟩, ⟨0x1DE, 0x1EE, 2, 1⟩,
   ⟨0x1F1, 0x1F1, 1, 2⟩, ⟨0x1F2, 0x1F4, 2, 1⟩, ⟨0x1F6, 0x1F6, 1, -97⟩, ⟨0x1F7, 0x1F7, 1, -56⟩,
   ⟨0x1F8, 0x21E, 2, 1⟩, ⟨0x220, 0x220, 1, -130⟩, ⟨0x222, 0x232, 2, 1⟩, ⟨0x23A, 0x23A, 1, 10795⟩,
   ⟨0x23B, 0x23B, 1, 1⟩, ⟨0x23D, 0x23D, 1, -163⟩, ⟨0x23E, 0x23E, 1, 10792⟩, ⟨0x241, 0x241, 1, 1⟩,
   ⟨0x243, 0x243, 1, -195⟩, ⟨0x244, 0x244, 1, 69⟩, ⟨0x245, 0x245, 1, 71⟩, ⟨0x246, 0x24E, 2, 1⟩,
   ⟨0x370, 0x372, 2, 1⟩, ⟨0x376, 0x376, 1, 1⟩, ⟨0x386, 0x386, 1, 38⟩, ⟨0x388, 0x38A, 1, 37⟩,
   ⟨0x38C, 0x38C, 1, 64⟩, ⟨0x38E, 0x38F, 1, 63⟩, ⟨0x391, 0x3A1, 1, 32⟩, ⟨0x3A3, 0x3AB, 1, 32⟩,
   ⟨0x3C2, 0x3C2, 1, 1⟩, ⟨0x3CF, 0x3CF, 1, 8⟩, ⟨0x3D0, 0x3D0, 1, -30⟩, ⟨0x3D1, 0x3D1, 1, -25⟩,
   ⟨0x3D5, 0x3D5, 1, -15⟩, ⟨0x3D6, 0x3D6, 1, -22⟩, ⟨0x3D8, 0x3EE, 2, 1⟩, ⟨0x3F0, 0x3F0, 1, -54⟩,
   ⟨0x3F1, 0x3F1, 1, -48⟩, ⟨0x3F4, 0x3F4, 1, -60⟩, ⟨0x3F5, 0x3F5, 1, -64⟩, ⟨0x3F7, 0x3F7, 1, 1⟩,
   ⟨0x3F9, 0x3F9, 1, -7⟩, ⟨0x3FA, 0x3FA, 1, 1⟩, ⟨0x3FD, 0x3FF, 1, -130⟩, ⟨0x400, 0x40F, 1, 80⟩,
   ⟨0x410, 0x42F, 1, 32⟩, ⟨0x460, 0x480, 2, 1⟩, ⟨0x48A, 0x4BE, 2, 1⟩, ⟨0x4C0, 0x4C0, 1, 15⟩,
   ⟨0x4C1, 0x4CD, 2, 1⟩, ⟨0x4D0, 0x526, 2, 1⟩, ⟨0x531, 0x556, 1, 48⟩, ⟨0x10A0, 0x10C5, 1, 7264⟩,
   ⟨0x10C7, 0x10C7, 1, 7264⟩, ⟨0x10CD, 0x10CD, 1, 7264⟩, ⟨0x1E00, 0x1E94, 2, 1⟩,
   ⟨0x1E9B, 0x1E9B, 1, -58⟩, ⟨0x1E9E, 0x1E9E, 1, -7615⟩, ⟨0x1EA0, 0x1EFE, 2, 1⟩,
   ⟨0x1F08, 0x1F0F, 1, -8⟩, ⟨0x1F18, 0x1F1D, 1, -8⟩, ⟨0x1F28, 0x1F2F, 1, -8⟩,
   ⟨0x1F38, 0x1F3F, 1, -8⟩, ⟨0x1F48, 0x1F4D, 1, -8⟩, ⟨0x1F59, 0x1F5F, 2, -8⟩,
   ⟨0x1F68, 0x1F6F, 1, -8⟩, ⟨0x1F88, 0x1F8F, 1, -8⟩, ⟨0x1F98, 0x1F9F, 1, -8⟩,
   ⟨0x1FA8, 0x1FAF, 1, -8⟩, ⟨0x1FB8, 0x1FB9, 1, -8⟩, ⟨0x1FBA, 0x1FBB, 1, -74⟩,
   ⟨0x1FBC, 0x1FBC, 1, -9⟩, ⟨0x1FBE, 0x1FBE, 1, -7173⟩, ⟨0x1FC8, 0x1FCB, 1, -86⟩,
   ⟨0x1FCC, 0x1FCC, 1, -9⟩, ⟨0x1FD8, 0x1FD9, 1, -8⟩, ⟨0x1FDA, 0x1FDB, 1, -100⟩,
   ⟨0x1FE8, 0x1FE9, 1, -8⟩, ⟨0x1FEA, 0x1FEB, 1, -112⟩, ⟨0x1FEC, 0x1FEC, 1, -7⟩,
   ⟨0x1FF8, 0x1FF9, 1, -128⟩, ⟨0x1FFA, 0x1FFB, 1, -126⟩, ⟨0x1FFC, 0x1FFC, 1, -9⟩,
   ⟨0x2126, 0x2126, 1, -7517⟩, ⟨0x212A, 0x212A, 1, -8383⟩, ⟨0x212B, 0x212B, 1, -8262⟩,
   ⟨0x2132, 0x2132, 1, 28⟩, ⟨0x2160, 0x216F, 1, 16⟩, ⟨0x2183, 0x2183, 1, 1⟩,
   ⟨0x2C00, 0x2C2E, 1, 48⟩, ⟨0x2C60, 0x2C60, 1, 1⟩, ⟨0x2C62, 0x2C62, 1, -10743⟩,
   ⟨0x2C63, 0x2C63, 1, -3814⟩, ⟨0x2C64, 0x2C64, 1, -10727⟩, ⟨0x2C67, 0x2C6B, 2, 1⟩,
   ⟨0x2C6D, 0x2C6D, 1, -10780⟩, ⟨0x2C6E, 0x2C6E, 1, -10749⟩, ⟨0x2C6F, 0x2C6F, 1, -10783⟩,
   ⟨0x2C70, 0x2C70, 1, -10782⟩, ⟨0x2C72, 0x2C72, 1, 1⟩, ⟨0x2C75, 0x2C75, 1, 1⟩,
   ⟨0x2C7E, 0x2C7F, 1, -10815⟩, ⟨0x2C80, 0x2CE2, 2, 1⟩, ⟨0x2CEB, 0x2CED, 2, 1⟩,
   ⟨0x2CF2, 0x2CF2, 1, 1⟩, ⟨0xA640, 0xA66C, 2, 1⟩, ⟨0xA680, 0xA696, 2, 1⟩, ⟨0xA722, 0xA72E, 2, 1⟩,
   ⟨0xA732, 0xA76E, 2, 1⟩, ⟨0xA779, 0xA77B, 2, 1⟩, ⟨0xA77D, 0xA77D, 1, -35332⟩,
   ⟨0xA77E, 0xA786, 2, 1⟩, ⟨0xA78B, 0xA78B, 1, 1⟩, ⟨0xA78D, 0xA78D, 1, -42280⟩,
   ⟨0xA790, 0xA792, 2, 1⟩, ⟨0xA7A0, 0xA7A8, 2, 1⟩, ⟨0xA7AA, 0xA7AA, 1, -42308⟩,
   ⟨0xFF21, 0xFF3A, 1, 32⟩, ⟨0x10400, 0x10427, 1, 40⟩]

/-- The code point of the small letter, by the given runs. -/
def lowerIn (n : Nat) : List CaseRun → Nat
  | [] => n
  | run :: rest =>
    if n < run.first then n
    else if n ≤ run.last then
      if (n - run.first) % run.stride = 0 then (n + run.shift).toNat else n
    else lowerIn n rest

/-! ## §2 Accents -/

/-- The small Latin letters with one accent, in ascending ranges, with the letter without it. -/
def accentRanges : List (Nat × Nat × Char) :=
  [(0xE0, 0xE5, 'a'), (0xE7, 0xE7, 'c'), (0xE8, 0xEB, 'e'), (0xEC, 0xEF, 'i'), (0xF1, 0xF1, 'n'),
   (0xF2, 0xF6, 'o'), (0xF9, 0xFC, 'u'), (0xFD, 0xFD, 'y'), (0xFF, 0xFF, 'y'), (0x101, 0x105, 'a'),
   (0x107, 0x10D, 'c'), (0x10F, 0x10F, 'd'), (0x113, 0x119, 'e'), (0x11B, 0x11B, 'e'),
   (0x11D, 0x123, 'g'), (0x125, 0x125, 'h'), (0x129, 0x130, 'i'), (0x135, 0x135, 'j'),
   (0x137, 0x137, 'k'), (0x13A, 0x13E, 'l'), (0x144, 0x148, 'n'), (0x14D, 0x151, 'o'),
   (0x155, 0x159, 'r'), (0x15B, 0x161, 's'), (0x163, 0x165, 't'), (0x169, 0x16F, 'u'),
   (0x171, 0x173, 'u'), (0x175, 0x175, 'w'), (0x177, 0x177, 'y'), (0x17A, 0x17E, 'z'),
   (0x1A1, 0x1A1, 'o'), (0x1B0, 0x1B0, 'u'), (0x1CE, 0x1CE, 'a'), (0x1D0, 0x1D0, 'i'),
   (0x1D2, 0x1D2, 'o'), (0x1D4, 0x1D4, 'u'), (0x1E7, 0x1E7, 'g'), (0x1E9, 0x1E9, 'k'),
   (0x1EB, 0x1EB, 'o'), (0x1F0, 0x1F0, 'j'), (0x1F5, 0x1F5, 'g'), (0x1F9, 0x1F9, 'n'),
   (0x201, 0x203, 'a'), (0x205, 0x207, 'e'), (0x209, 0x20B, 'i'), (0x20D, 0x20F, 'o'),
   (0x211, 0x213, 'r'), (0x215, 0x217, 'u'), (0x219, 0x219, 's'), (0x21B, 0x21B, 't'),
   (0x21F, 0x21F, 'h'), (0x227, 0x227, 'a'), (0x229, 0x229, 'e'), (0x22F, 0x22F, 'o'),
   (0x233, 0x233, 'y'), (0x1E01, 0x1E01, 'a'), (0x1E03, 0x1E07, 'b'), (0x1E0B, 0x1E11, 'd'),
   (0x1E13, 0x1E13, 'd'), (0x1E19, 0x1E1B, 'e'), (0x1E1F, 0x1E1F, 'f'), (0x1E21, 0x1E21, 'g'),
   (0x1E23, 0x1E29, 'h'), (0x1E2B, 0x1E2B, 'h'), (0x1E2D, 0x1E2D, 'i'), (0x1E31, 0x1E35, 'k'),
   (0x1E37, 0x1E37, 'l'), (0x1E3B, 0x1E3D, 'l'), (0x1E3F, 0x1E43, 'm'), (0x1E45, 0x1E4B, 'n'),
   (0x1E55, 0x1E57, 'p'), (0x1E59, 0x1E5B, 'r'), (0x1E5F, 0x1E5F, 'r'), (0x1E61, 0x1E63, 's'),
   (0x1E6B, 0x1E71, 't'), (0x1E73, 0x1E77, 'u'), (0x1E7D, 0x1E7F, 'v'), (0x1E81, 0x1E87, 'w'),
   (0x1E89, 0x1E89, 'w'), (0x1E8B, 0x1E8D, 'x'), (0x1E8F, 0x1E8F, 'y'), (0x1E91, 0x1E95, 'z'),
   (0x1E96, 0x1E96, 'h'), (0x1E97, 0x1E97, 't'), (0x1E98, 0x1E98, 'w'), (0x1E99, 0x1E99, 'y'),
   (0x1EA1, 0x1EA3, 'a'), (0x1EB9, 0x1EBD, 'e'), (0x1EC9, 0x1ECB, 'i'), (0x1ECD, 0x1ECF, 'o'),
   (0x1EE5, 0x1EE7, 'u'), (0x1EF3, 0x1EF9, 'y')]

/-- The code point of the letter without its accent, by the given ranges. -/
def bareIn (n : Nat) : List (Nat × Nat × Char) → Nat
  | [] => n
  | (first, last, letter) :: rest =>
    if n < first then n else if n ≤ last then letter.toNat else bareIn n rest

/-! ## §3 Folding -/

/-- A character folded to a small letter without accent. -/
def foldChar (c : Char) : Char :=
  Char.ofNat (bareIn (lowerIn c.toNat caseRuns) accentRanges)

end MetadataCatalog.Text
