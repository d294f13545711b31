/-!
# Word characters

The characters that words consist of: letters of every script, numbers, private-use characters, and
the code points without an assigned character. Punctuation, symbols, marks, separators and controls
stand between words. Some combining marks, which sit on the letter before them, may continue a word
but not begin one.
-/

namespace MetadataCatalog.Text

/-! ## §1 Ranges of code points -/

/-- Whether a number lies in one of the ranges, which ascend and include their ends. -/
def inRanges (n : Nat) : List (Nat × Nat) → Bool
  | [] => false
  | (first, last) :: rest =>
    if n < first then false else if n ≤ last then true else inRanges n rest

/-- The code points of the word characters. -/
def wordRanges : List (Nat × Nat) :=
  [(0x30, 0x39), (0x41, 0x5A), (0x61, 0x7A), (0xAA, 0xAA), (0xB2, 0xB3), (0xB5, 0xB5), (0xB9, 0xBA),
   (0xBC, 0xBE), (0xC0, 0xD6), (0xD8, 0xF6), (0xF8, 0x2C1), (0x2C6, 0x2D1), (0x2E0, 0x2E4),
   (0x2EC, 0x2EC), (0x2EE, 0x2EE), (0x370, 0x374), (0x376, 0x37D), (0x37F, 0x383), (0x386, 0x386),
   (0x388, 0x3F5), (0x3F7, 0x481), (0x48A, 0x559), (0x560, 0x588), (0x58B, 0x58E), (0x590, 0x590),
   (0x5C8, 0x5F2), (0x5F5, 0x5FF), (0x605, 0x605), (0x61C, 0x61D), (0x620, 0x64A), (0x660, 0x669),
   (0x66E, 0x66F), (0x671, 0x6D3), (0x6D5, 0x6D5), (0x6E5, 0x6E6), (0x6EE, 0x6FC), (0x6FF, 0x6FF),
   (0x70E, 0x70E), (0x710, 0x710), (0x712, 0x72F), (0x74B, 0x7A5), (0x7B1, 0x7EA), (0x7F4, 0x7F5),
   (0x7FA, 0x815), (0x81A, 0x81A), (0x824, 0x824), (0x828, 0x828), (0x82E, 0x82F), (0x83F, 0x858),
   (0x85C, 0x85D), (0x85F, 0x8E3), (0x8FF, 0x8FF), (0x904, 0x939), (0x93D, 0x93D), (0x950, 0x950),
   (0x958, 0x961), (0x966, 0x96F), (0x971, 0x980), (0x984, 0x9BB), (0x9BD, 0x9BD), (0x9C5, 0x9C6),
   (0x9C9, 0x9CA), (0x9CE, 0x9D6), (0x9D8, 0x9E1), (0x9E4, 0x9F1), (0x9F4, 0x9F9), (0x9FC, 0xA00),
   (0xA04, 0xA3B), (0xA3D, 0xA3D), (0xA43, 0xA46), (0xA49, 0xA4A), (0xA4E, 0xA50), (0xA52, 0xA6F),
   (0xA72, 0xA74), (0xA76, 0xA80), (0xA84, 0xABB), (0xABD, 0xABD), (0xAC6, 0xAC6), (0xACA, 0xACA),
   (0xACE, 0xAE1), (0xAE4, 0xAEF), (0xAF2, 0xB00), (0xB04, 0xB3B), (0xB3D, 0xB3D), (0xB45, 0xB46),
   (0xB49, 0xB4A), (0xB4E, 0xB55), (0xB58, 0xB61), (0xB64, 0xB6F), (0xB71, 0xB81), (0xB83, 0xBBD),
   (0xBC3, 0xBC5), (0xBC9, 0xBC9), (0xBCE, 0xBD6), (0xBD8, 0xBF2), (0xBFB, 0xC00), (0xC04, 0xC3D),
   (0xC45, 0xC45), (0xC49, 0xC49), (0xC4E, 0xC54), (0xC57, 0xC61), (0xC64, 0xC7E), (0xC80, 0xC81),
   (0xC84, 0xCBB), (0xCBD, 0xCBD), (0xCC5, 0xCC5), (0xCC9, 0xCC9), (0xCCE, 0xCD4), (0xCD7, 0xCE1),
   (0xCE4, 0xD01), (0xD04, 0xD3D), (0xD45, 0xD45), (0xD49, 0xD49), (0xD4E, 0xD56), (0xD58, 0xD61),
   (0xD64, 0xD78), (0xD7A, 0xD81), (0xD84, 0xDC9), (0xDCB, 0xDCE), (0xDD5, 0xDD5), (0xDD7, 0xDD7),
   (0xDE0, 0xDF1), (0xDF5, 0xE30), (0xE32, 0xE33), (0xE3B, 0xE3E), (0xE40, 0xE46), (0xE50, 0xE59),
   (0xE5C, 0xEB0), (0xEB2, 0xEB3), (0xEBA, 0xEBA), (0xEBD, 0xEC7), (0xECE, 0xF00), (0xF20, 0xF33),
   (0xF40, 0xF70), (0xF88, 0xF8C), (0xF98, 0xF98), (0xFBD, 0xFBD), (0xFCD, 0xFCD), (0xFDB, 0x102A),
   (0x103F, 0x1049), (0x1050, 0x1055), (0x105A, 0x105D), (0x1061, 0x1061), (0x1065, 0x1066),
   (0x106E, 0x1070), (0x1075, 0x1081), (0x108E, 0x108E), (0x1090, 0x1099), (0x10A0, 0x10FA),
   (0x10FC, 0x135C), (0x1369, 0x138F), (0x139A, 0x13FF), (0x1401, 0x166C), (0x166F, 0x167F),
   (0x1681, 0x169A), (0x169D, 0x16EA), (0x16EE, 0x1711), (0x1715, 0x1731), (0x1737, 0x1751),
   (0x1754, 0x1771), (0x1774, 0x17B3), (0x17D7, 0x17D7), (0x17DC, 0x17DC), (0x17DE, 0x17FF),
   (0x180F, 0x18A8), (0x18AA, 0x191F), (0x192C, 0x192F), (0x193C, 0x193F), (0x1941, 0x1943),
   (0x1946, 0x19AF), (0x19C1, 0x19C7), (0x19CA, 0x19DD), (0x1A00, 0x1A16), (0x1A1C, 0x1A1D),
   (0x1A20, 0x1A54), (0x1A5F, 0x1A5F), (0x1A7D, 0x1A7E), (0x1A80, 0x1A9F), (0x1AA7, 0x1AA7),
   (0x1AAE, 0x1AFF), (0x1B05, 0x1B33), (0x1B45, 0x1B59), (0x1B7D, 0x1B7F), (0x1B83, 0x1BA0),
   (0x1BAE, 0x1BE5), (0x1BF4, 0x1BFB), (0x1C00, 0x1C23), (0x1C38, 0x1C3A), (0x1C40, 0x1C7D),
   (0x1C80, 0x1CBF), (0x1CC8, 0x1CCF), (0x1CE9, 0x1CEC), (0x1CEE, 0x1CF1), (0x1CF5, 0x1DBF),
   (0x1DE7, 0x1DFB), (0x1E00, 0x1FBC), (0x1FBE, 0x1FBE), (0x1FC2, 0x1FCC), (0x1FD0, 0x1FDC),
   (0x1FE0, 0x1FEC), (0x1FF0, 0x1FFC), (0x1FFF, 0x1FFF), (0x2065, 0x2069), (0x2070, 0x2079),
   (0x207F, 0x2089), (0x208F, 0x209F), (0x20BA, 0x20CF), (0x20F1, 0x20FF), (0x2102, 0x2102),
   (0x2107, 0x2107), (0x210A, 0x2113), (0x2115, 0x2115), (0x2119, 0x211D), (0x2124, 0x2124),
   (0x2126, 0x2126), (0x2128, 0x2128), (0x212A, 0x212D), (0x212F, 0x2139), (0x213C, 0x213F),
   (0x2145, 0x2149), (0x214E, 0x214E), (0x2150, 0x218F), (0x23F4, 0x23FF), (0x2427, 0x243F),
   (0x244B, 0x249B), (0x24EA, 0x24FF), (0x2700, 0x2700), (0x2776, 0x2793), (0x2B4D, 0x2B4F),
   (0x2B5A, 0x2CE4), (0x2CEB, 0x2CEE), (0x2CF2, 0x2CF8), (0x2CFD, 0x2CFD), (0x2D00, 0x2D6F),
   (0x2D71, 0x2D7E), (0x2D80, 0x2DDF), (0x2E2F, 0x2E2F), (0x2E3C, 0x2E7F), (0x2E9A, 0x2E9A),
   (0x2EF4, 0x2EFF), (0x2FD6, 0x2FEF), (0x2FFC, 0x2FFF), (0x3005, 0x3007), (0x3021, 0x3029),
   (0x3031, 0x3035), (0x3038, 0x303C), (0x3040, 0x3098), (0x309D, 0x309F), (0x30A1, 0x30FA),
   (0x30FC, 0x318F), (0x3192, 0x3195), (0x31A0, 0x31BF), (0x31E4, 0x31FF), (0x321F, 0x3229),
   (0x3248, 0x324F), (0x3251, 0x325F), (0x3280, 0x3289), (0x32B1, 0x32BF), (0x32FF, 0x32FF),
   (0x3400, 0x4DBF), (0x4E00, 0xA48F), (0xA4C7, 0xA4FD), (0xA500, 0xA60C), (0xA610, 0xA66E),
   (0xA67F, 0xA69E), (0xA6A0, 0xA6EF), (0xA6F8, 0xA6FF), (0xA717, 0xA71F), (0xA722, 0xA788),
   (0xA78B, 0xA801), (0xA803, 0xA805), (0xA807, 0xA80A), (0xA80C, 0xA822), (0xA82C, 0xA835),
   (0xA83A, 0xA873), (0xA878, 0xA87F), (0xA882, 0xA8B3), (0xA8C5, 0xA8CD), (0xA8D0, 0xA8DF),
   (0xA8F2, 0xA8F7), (0xA8FB, 0xA925), (0xA930, 0xA946), (0xA954, 0xA95E), (0xA960, 0xA97F),
   (0xA984, 0xA9B2), (0xA9CE, 0xA9DD), (0xA9E0, 0xAA28), (0xAA37, 0xAA42), (0xAA44, 0xAA4B),
   (0xAA4E, 0xAA5B), (0xAA60, 0xAA76), (0xAA7A, 0xAA7A), (0xAA7C, 0xAAAF), (0xAAB1, 0xAAB1),
   (0xAAB5, 0xAAB6), (0xAAB9, 0xAABD), (0xAAC0, 0xAAC0), (0xAAC2, 0xAADD), (0xAAE0, 0xAAEA),
   (0xAAF2, 0xAAF4), (0xAAF7, 0xABE2), (0xABEE, 0xFB1D), (0xFB1F, 0xFB28), (0xFB2A, 0xFBB1),
   (0xFBC2, 0xFD3D), (0xFD40, 0xFDFB), (0xFDFE, 0xFDFF), (0xFE1A, 0xFE1F), (0xFE27, 0xFE2F),
   (0xFE53, 0xFE53), (0xFE67, 0xFE67), (0xFE6C, 0xFEFE), (0xFF00, 0xFF00), (0xFF10, 0xFF19),
   (0xFF21, 0xFF3A), (0xFF41, 0xFF5A), (0xFF66, 0xFFDF), (0xFFE7, 0xFFE7), (0xFFEF, 0xFFF8),
   (0x10000, 0x100FF), (0x10103, 0x10136), (0x10140, 0x10178), (0x1018A, 0x1018F),
   (0x1019C, 0x101CF), (0x101FE, 0x1039E), (0x103A0, 0x103CF), (0x103D1, 0x10856),
   (0x10858, 0x1091E), (0x10920, 0x1093E), (0x10940, 0x10A00), (0x10A04, 0x10A04),
   (0x10A07, 0x10A0B), (0x10A10, 0x10A37), (0x10A3B, 0x10A3E), (0x10A40, 0x10A4F),
   (0x10A59, 0x10A7E), (0x10A80, 0x10B38), (0x10B40, 0x10FFF), (0x11003, 0x11037),
   (0x1104E, 0x1107F), (0x11083, 0x110AF), (0x110C2, 0x110FF), (0x11103, 0x11126),
   (0x11135, 0x1113F), (0x11144, 0x1117F), (0x11183, 0x111B2), (0x111C1, 0x111C4),
   (0x111C9, 0x116AA), (0x116B8, 0x1246F), (0x12474, 0x16F50), (0x16F7F, 0x16F8E),
   (0x16F93, 0x1CFFF), (0x1D0F6, 0x1D0FF), (0x1D127, 0x1D128), (0x1D1DE, 0x1D1FF),
   (0x1D246, 0x1D2FF), (0x1D357, 0x1D6C0), (0x1D6C2, 0x1D6DA), (0x1D6DC, 0x1D6FA),
   (0x1D6FC, 0x1D714), (0x1D716, 0x1D734), (0x1D736, 0x1D74E), (0x1D750, 0x1D76E),
   (0x1D770, 0x1D788), (0x1D78A, 0x1D7A8), (0x1D7AA, 0x1D7C2), (0x1D7C4, 0x1EEEF),
   (0x1EEF2, 0x1EFFF), (0x1F02C, 0x1F02F), (0x1F094, 0x1F09F), (0x1F0AF, 0x1F0B0),
   (0x1F0BF, 0x1F0C0), (0x1F0D0, 0x1F0D0), (0x1F0E0, 0x1F10F), (0x1F12F, 0x1F12F),
   (0x1F16C, 0x1F16F), (0x1F19B, 0x1F1E5), (0x1F203, 0x1F20F), (0x1F23B, 0x1F23F),
   (0x1F249, 0x1F24F), (0x1F252, 0x1F2FF), (0x1F321, 0x1F32F), (0x1F336, 0x1F336),
   (0x1F37D, 0x1F37F), (0x1F394, 0x1F39F), (0x1F3C5, 0x1F3C5), (0x1F3CB, 0x1F3DF),
   (0x1F3F1, 0x1F3FF), (0x1F43F, 0x1F43F), (0x1F441, 0x1F441), (0x1F4F8, 0x1F4F8),
   (0x1F4FD, 0x1F4FF), (0x1F53E, 0x1F53F), (0x1F544, 0x1F54F), (0x1F568, 0x1F5FA),
   (0x1F641, 0x1F644), (0x1F650, 0x1F67F), (0x1F6C6, 0x1F6FF), (0x1F774, 0xE0000),
   (0xE0002, 0xE001F), (0xE0080, 0xE00FF), (0xE01F0, 0x10FFFF)]

/-- The code points of the combining marks that may continue a word. -/
def markRanges : List (Nat × Nat) :=
  [(0x300, 0x304), (0x306, 0x30C), (0x30F, 0x30F), (0x311, 0x311), (0x31B, 0x31B), (0x323, 0x328),
   (0x32D, 0x32E), (0x330, 0x331)]

/-! ## §2 The classes -/

/-- Whether a character can stand anywhere in a word. -/
def isWordChar (c : Char) : Bool :=
  inRanges c.toNat wordRanges

/-- Whether a character is a combining mark that may continue a word. -/
def isWordMark (c : Char) : Bool :=
  inRanges c.toNat markRanges

end MetadataCatalog.Text
