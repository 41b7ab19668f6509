/-
  Simple case mapping of Unicode 15.0, as `unicode.ToLower` and `unicode.ToUpper`
  compute it, and `unicode.IsSpace`.

  The mappings are tables of ranges of code points shifted by a constant, every
  code point of a range or every second one.

  * `toLowerRune_idem`: lower-casing twice is lower-casing once;
  * `isSpace_toLowerRune`: lower-casing neither makes nor removes white space.

  Both are properties of the table, checked range by range (`lowerRanges_ok`).
-/
import Mathlib.Data.Nat.Notation
import Mathlib.Tactic.Common

namespace Go

/-- The code points `lo, lo + stride, …, hi`, shifted by `up - down`. -/
structure CaseRange where
  lo : ℕ
  hi : ℕ
  stride : ℕ
  up : ℕ
  down : ℕ

/-- The range shifts the code point `n`. -/
def CaseRange.covers (r : CaseRange) (n : ℕ) : Bool :=
  r.lo ≤ n && n ≤ r.hi && (n - r.lo) % r.stride == 0

/-- The first range of the (ordered) table that covers `n` shifts it. -/
def mapCode : List CaseRange → ℕ → ℕ
  | [], n => n
  | r :: rs, n =>
    if n < r.lo then n else if r.covers n then n + r.up - r.down else mapCode rs n

/-- Map one rune by a table. -/
def mapRune (t : List CaseRange) (c : Char) : Char := Char.ofNat (mapCode t c.toNat)

/-- `unicode.IsSpace`. -/
def isSpace (c : Char) : Bool :=
  c.toNat ∈ [9, 10, 11, 12, 13, 32, 0x85, 0xA0, 0x1680, 0x2000, 0x2001, 0x2002, 0x2003, 0x2004,
    0x2005, 0x2006, 0x2007, 0x2008, 0x2009, 0x200A, 0x2028, 0x2029, 0x202F, 0x205F, 0x3000]

/-- The simple lower-case mappings. -/
def lowerRanges : List CaseRange :=
  [⟨65, 90, 1, 32, 0⟩, ⟨192, 214, 1, 32, 0⟩, ⟨216, 222, 1, 32, 0⟩, ⟨256, 302, 2, 1, 0⟩,
   ⟨304, 304, 1, 0, 199⟩, ⟨306, 310, 2, 1, 0⟩, ⟨313, 327, 2, 1, 0⟩, ⟨330, 374, 2, 1, 0⟩,
   ⟨376, 376, 1, 0, 121⟩, ⟨377, 381, 2, 1, 0⟩, ⟨385, 385, 1, 210, 0⟩, ⟨386, 388, 2, 1, 0⟩,
   ⟨390, 390, 1, 206, 0⟩, ⟨391, 391, 1, 1, 0⟩, ⟨393, 394, 1, 205, 0⟩, ⟨395, 395, 1, 1, 0⟩,
   ⟨398, 398, 1, 79, 0⟩, ⟨399, 399, 1, 202, 0⟩, ⟨400, 400, 1, 203, 0⟩, ⟨401, 401, 1, 1, 0⟩,
   ⟨403, 403, 1, 205, 0⟩, ⟨404, 404, 1, 207, 0⟩, ⟨406, 406, 1, 211, 0⟩, ⟨407, 407, 1, 209, 0⟩,
   ⟨408, 408, 1, 1, 0⟩, ⟨412, 412, 1, 211, 0⟩, ⟨413, 413, 1, 213, 0⟩, ⟨415, 415, 1, 214, 0⟩,
   ⟨416, 420, 2, 1, 0⟩, ⟨422, 422, 1, 218, 0⟩, ⟨423, 423, 1, 1, 0⟩, ⟨425, 425, 1, 218, 0⟩,
   ⟨428, 428, 1, 1, 0⟩, ⟨430, 430, 1, 218, 0⟩, ⟨431, 431, 1, 1, 0⟩, ⟨433, 434, 1, 217, 0⟩,
   ⟨435, 437, 2, 1, 0⟩, ⟨439, 439, 1, 219, 0⟩, ⟨440, 440, 1, 1, 0⟩, ⟨444, 444, 1, 1, 0⟩,
   ⟨452, 452, 1, 2, 0⟩, ⟨453, 453, 1, 1, 0⟩, ⟨455, 455, 1, 2, 0⟩, ⟨456, 456, 1, 1, 0⟩,
   ⟨458, 458, 1, 2, 0⟩, ⟨459, 475, 2, 1, 0⟩, ⟨478, 494, 2, 1, 0⟩, ⟨497, 497, 1, 2, 0⟩,
   ⟨498, 500, 2, 1, 0⟩, ⟨502, 502, 1, 0, 97⟩, ⟨503, 503, 1, 0, 56⟩, ⟨504, 542, 2, 1, 0⟩,
   ⟨544, 544, 1, 0, 130⟩, ⟨546, 562, 2, 1, 0⟩, ⟨570, 570, 1, 10795, 0⟩, ⟨571, 571, 1, 1, 0⟩,
   ⟨573, 573, 1, 0, 163⟩, ⟨574, 574, 1, 10792, 0⟩, ⟨577, 577, 1, 1, 0⟩, ⟨579, 579, 1, 0, 195⟩,
   ⟨580, 580, 1, 69, 0⟩, ⟨581, 581, 1, 71, 0⟩, ⟨582, 590, 2, 1, 0⟩, ⟨880, 882, 2, 1, 0⟩,
   ⟨886, 886, 1, 1, 0⟩, ⟨895, 895, 1, 116, 0⟩, ⟨902, 902, 1, 38, 0⟩, ⟨904, 906, 1, 37, 0⟩,
   ⟨908, 908, 1, 64, 0⟩, ⟨910, 911, 1, 63, 0⟩, ⟨913, 929, 1, 32, 0⟩, ⟨931, 939, 1, 32, 0⟩,
   ⟨975, 975, 1, 8, 0⟩, ⟨984, 1006, 2, 1, 0⟩, ⟨1012, 1012, 1, 0, 60⟩, ⟨1015, 1015, 1, 1, 0⟩,
   ⟨1017, 1017, 1, 0, 7⟩, ⟨1018, 1018, 1, 1, 0⟩, ⟨1021, 1023, 1, 0, 130⟩, ⟨1024, 1039, 1, 80, 0⟩,
   ⟨1040, 1071, 1, 32, 0⟩, ⟨1120, 1152, 2, 1, 0⟩, ⟨1162, 1214, 2, 1, 0⟩, ⟨1216, 1216, 1, 15, 0⟩,
   ⟨1217, 1229, 2, 1, 0⟩, ⟨1232, 1326, 2, 1, 0⟩, ⟨1329, 1366, 1, 48, 0⟩,
   ⟨4256, 4293, 1, 7264, 0⟩, ⟨4295, 4295, 1, 7264, 0⟩, ⟨4301, 4301, 1, 7264, 0⟩,
   ⟨5024, 5103, 1, 38864, 0⟩, ⟨5104, 5109, 1, 8, 0⟩, ⟨7312, 7354, 1, 0, 3008⟩,
   ⟨7357, 7359, 1, 0, 3008⟩, ⟨7680, 7828, 2, 1, 0⟩, ⟨7838, 7838, 1, 0, 7615⟩,
   ⟨7840, 7934, 2, 1, 0⟩, ⟨7944, 7951, 1, 0, 8⟩, ⟨7960, 7965, 1, 0, 8⟩, ⟨7976, 7983, 1, 0, 8⟩,
   ⟨7992, 7999, 1, 0, 8⟩, ⟨8008, 8013, 1, 0, 8⟩, ⟨8025, 8031, 2, 0, 8⟩, ⟨8040, 8047, 1, 0, 8⟩,
   ⟨8072, 8079, 1, 0, 8⟩, ⟨8088, 8095, 1, 0, 8⟩, ⟨8104, 8111, 1, 0, 8⟩, ⟨8120, 8121, 1, 0, 8⟩,
   ⟨8122, 8123, 1, 0, 74⟩, ⟨8124, 8124, 1, 0, 9⟩, ⟨8136, 8139, 1, 0, 86⟩, ⟨8140, 8140, 1, 0, 9⟩,
   ⟨8152, 8153, 1, 0, 8⟩, ⟨8154, 8155, 1, 0, 100⟩, ⟨8168, 8169, 1, 0, 8⟩,
   ⟨8170, 8171, 1, 0, 112⟩, ⟨8172, 8172, 1, 0, 7⟩, ⟨8184, 8185, 1, 0, 128⟩,
   ⟨8186, 8187, 1, 0, 126⟩, ⟨8188, 8188, 1, 0, 9⟩, ⟨8486, 8486, 1, 0, 7517⟩,
   ⟨8490, 8490, 1, 0, 8383⟩, ⟨8491, 8491, 1, 0, 8262⟩, ⟨8498, 8498, 1, 28, 0⟩,
   ⟨8544, 8559, 1, 16, 0⟩, ⟨8579, 8579, 1, 1, 0⟩, ⟨9398, 9423, 1, 26, 0⟩,
   ⟨11264, 11311, 1, 48, 0⟩, ⟨11360, 11360, 1, 1, 0⟩, ⟨11362, 11362, 1, 0, 10743⟩,
   ⟨11363, 11363, 1, 0, 3814⟩, ⟨11364, 11364, 1, 0, 10727⟩, ⟨11367, 11371, 2, 1, 0⟩,
   ⟨11373, 11373, 1, 0, 10780⟩, ⟨11374, 11374, 1, 0, 10749⟩, ⟨11375, 11375, 1, 0, 10783⟩,
   ⟨11376, 11376, 1, 0, 10782⟩, ⟨11378, 11378, 1, 1, 0⟩, ⟨11381, 11381, 1, 1, 0⟩,
   ⟨11390, 11391, 1, 0, 10815⟩, ⟨11392, 11490, 2, 1, 0⟩, ⟨11499, 11501, 2, 1, 0⟩,
   ⟨11506, 11506, 1, 1, 0⟩, ⟨42560, 42604, 2, 1, 0⟩, ⟨42624, 42650, 2, 1, 0⟩,
   ⟨42786, 42798, 2, 1, 0⟩, ⟨42802, 42862, 2, 1, 0⟩, ⟨42873, 42875, 2, 1, 0⟩,
   ⟨42877, 42877, 1, 0, 35332⟩, ⟨42878, 42886, 2, 1, 0⟩, ⟨42891, 42891, 1, 1, 0⟩,
   ⟨42893, 42893, 1, 0, 42280⟩, ⟨42896, 42898, 2, 1, 0⟩, ⟨42902, 42920, 2, 1, 0⟩,
   ⟨42922, 42922, 1, 0, 42308⟩, ⟨42923, 42923, 1, 0, 42319⟩, ⟨42924, 42924, 1, 0, 42315⟩,
   ⟨42925, 42925, 1, 0, 42305⟩, ⟨42926, 42926, 1, 0, 42308⟩, ⟨42928, 42928, 1, 0, 42258⟩,
   ⟨42929, 42929, 1, 0, 42282⟩, ⟨42930, 42930, 1, 0, 42261⟩, ⟨42931, 42931, 1, 928, 0⟩,
   ⟨42932, 42946, 2, 1, 0⟩, ⟨42948, 42948, 1, 0, 48⟩, ⟨42949, 42949, 1, 0, 42307⟩,
   ⟨42950, 42950, 1, 0, 35384⟩, ⟨42951, 42953, 2, 1, 0⟩, ⟨42960, 42960, 1, 1, 0⟩,
   ⟨42966, 42968, 2, 1, 0⟩, ⟨42997, 42997, 1, 1, 0⟩, ⟨65313, 65338, 1, 32, 0⟩,
   ⟨66560, 66599, 1, 40, 0⟩, ⟨66736, 66771, 1, 40, 0⟩, ⟨66928, 66938, 1, 39, 0⟩,
   ⟨66940, 66954, 1, 39, 0⟩, ⟨66956, 66962, 1, 39, 0⟩, ⟨66964, 66965, 1, 39, 0⟩,
   ⟨68736, 68786, 1, 64, 0⟩, ⟨71840, 71871, 1, 32, 0⟩, ⟨93760, 93791, 1, 32, 0⟩,
   ⟨125184, 125217, 1, 34, 0⟩]

/-- The simple upper-case mappings. -/
def upperRanges : List CaseRange :=
  [⟨97, 122, 1, 0, 32⟩, ⟨181, 181, 1, 743, 0⟩, ⟨224, 246, 1, 0, 32⟩, ⟨248, 254, 1, 0, 32⟩,
   ⟨255, 255, 1, 121, 0⟩, ⟨257, 303, 2, 0, 1⟩, ⟨305, 305, 1, 0, 232⟩, ⟨307, 311, 2, 0, 1⟩,
   ⟨314, 328, 2, 0, 1⟩, ⟨331, 375, 2, 0, 1⟩, ⟨378, 382, 2, 0, 1⟩, ⟨383, 383, 1, 0, 300⟩,
   ⟨384, 384, 1, 195, 0⟩, ⟨387, 389, 2, 0, 1⟩, ⟨392, 392, 1, 0, 1⟩, ⟨396, 396, 1, 0, 1⟩,
   ⟨402, 402, 1, 0, 1⟩, ⟨405, 405, 1, 97, 0⟩, ⟨409, 409, 1, 0, 1⟩, ⟨410, 410, 1, 163, 0⟩,
   ⟨414, 414, 1, 130, 0⟩, ⟨417, 421, 2, 0, 1⟩, ⟨424, 424, 1, 0, 1⟩, ⟨429, 429, 1, 0, 1⟩,
   ⟨432, 432, 1, 0, 1⟩, ⟨436, 438, 2, 0, 1⟩, ⟨441, 441, 1, 0, 1⟩, ⟨445, 445, 1, 0, 1⟩,
   ⟨447, 447, 1, 56, 0⟩, ⟨453, 453, 1, 0, 1⟩, ⟨454, 454, 1, 0, 2⟩, ⟨456, 456, 1, 0, 1⟩,
   ⟨457, 457, 1, 0, 2⟩, ⟨459, 459, 1, 0, 1⟩, ⟨460, 460, 1, 0, 2⟩, ⟨462, 476, 2, 0, 1⟩,
   ⟨477, 477, 1, 0, 79⟩, ⟨479, 495, 2, 0, 1⟩, ⟨498, 498, 1, 0, 1⟩, ⟨499, 499, 1, 0, 2⟩,
   ⟨501, 501, 1, 0, 1⟩, ⟨505, 543, 2, 0, 1⟩, ⟨547, 563, 2, 0, 1⟩, ⟨572, 572, 1, 0, 1⟩,
   ⟨575, 576, 1, 10815, 0⟩, ⟨578, 578, 1, 0, 1⟩, ⟨583, 591, 2, 0, 1⟩, ⟨592, 592, 1, 10783, 0⟩,
   ⟨593, 593, 1, 10780, 0⟩, ⟨594, 594, 1, 10782, 0⟩, ⟨595, 595, 1, 0, 210⟩,
   ⟨596, 596, 1, 0, 206⟩, ⟨598, 599, 1, 0, 205⟩, ⟨601, 601, 1, 0, 202⟩, ⟨603, 603, 1, 0, 203⟩,
   ⟨604, 604, 1, 42319, 0⟩, ⟨608, 608, 1, 0, 205⟩, ⟨609, 609, 1, 42315, 0⟩,
   ⟨611, 611, 1, 0, 207⟩, ⟨613, 613, 1, 42280, 0⟩, ⟨614, 614, 1, 42308, 0⟩,
   ⟨616, 616, 1, 0, 209⟩, ⟨617, 617, 1, 0, 211⟩, ⟨618, 618, 1, 42308, 0⟩,
   ⟨619, 619, 1, 10743, 0⟩, ⟨620, 620, 1, 42305, 0⟩, ⟨623, 623, 1, 0, 211⟩,
   ⟨625, 625, 1, 10749, 0⟩, ⟨626, 626, 1, 0, 213⟩, ⟨629, 629, 1, 0, 214⟩,
   ⟨637, 637, 1, 10727, 0⟩, ⟨640, 640, 1, 0, 218⟩, ⟨642, 642, 1, 42307, 0⟩,
   ⟨643, 643, 1, 0, 218⟩, ⟨647, 647, 1, 42282, 0⟩, ⟨648, 648, 1, 0, 218⟩, ⟨649, 649, 1, 0, 69⟩,
   ⟨650, 651, 1, 0, 217⟩, ⟨652, 652, 1, 0, 71⟩, ⟨658, 658, 1, 0, 219⟩, ⟨669, 669, 1, 42261, 0⟩,
   ⟨670, 670, 1, 42258, 0⟩, ⟨837, 837, 1, 84, 0⟩, ⟨881, 883, 2, 0, 1⟩, ⟨887, 887, 1, 0, 1⟩,
   ⟨891, 893, 1, 130, 0⟩, ⟨940, 940, 1, 0, 38⟩, ⟨941, 943, 1, 0, 37⟩, ⟨945, 961, 1, 0, 32⟩,
   ⟨962, 962, 1, 0, 31⟩, ⟨963, 971, 1, 0, 32⟩, ⟨972, 972, 1, 0, 64⟩, ⟨973, 974, 1, 0, 63⟩,
   ⟨976, 976, 1, 0, 62⟩, ⟨977, 977, 1, 0, 57⟩, ⟨981, 981, 1, 0, 47⟩, ⟨982, 982, 1, 0, 54⟩,
   ⟨983, 983, 1, 0, 8⟩, ⟨985, 1007, 2, 0, 1⟩, ⟨1008, 1008, 1, 0, 86⟩, ⟨1009, 1009, 1, 0, 80⟩,
   ⟨1010, 1010, 1, 7, 0⟩, ⟨1011, 1011, 1, 0, 116⟩, ⟨1013, 1013, 1, 0, 96⟩, ⟨1016, 1016, 1, 0, 1⟩,
   ⟨1019, 1019, 1, 0, 1⟩, ⟨1072, 1103, 1, 0, 32⟩, ⟨1104, 1119, 1, 0, 80⟩, ⟨1121, 1153, 2, 0, 1⟩,
   ⟨1163, 1215, 2, 0, 1⟩, ⟨1218, 1230, 2, 0, 1⟩, ⟨1231, 1231, 1, 0, 15⟩, ⟨1233, 1327, 2, 0, 1⟩,
   ⟨1377, 1414, 1, 0, 48⟩, ⟨4304, 4346, 1, 3008, 0⟩, ⟨4349, 4351, 1, 3008, 0⟩,
   ⟨5112, 5117, 1, 0, 8⟩, ⟨7296, 7296, 1, 0, 6254⟩, ⟨7297, 7297, 1, 0, 6253⟩,
   ⟨7298, 7298, 1, 0, 6244⟩, ⟨7299, 7300, 1, 0, 6242⟩, ⟨7301, 7301, 1, 0, 6243⟩,
   ⟨7302, 7302, 1, 0, 6236⟩, ⟨7303, 7303, 1, 0, 6181⟩, ⟨7304, 7304, 1, 35266, 0⟩,
   ⟨7545, 7545, 1, 35332, 0⟩, ⟨7549, 7549, 1, 3814, 0⟩, ⟨7566, 7566, 1, 35384, 0⟩,
   ⟨7681, 7829, 2, 0, 1⟩, ⟨7835, 7835, 1, 0, 59⟩, ⟨7841, 7935, 2, 0, 1⟩, ⟨7936, 7943, 1, 8, 0⟩,
   ⟨7952, 7957, 1, 8, 0⟩, ⟨7968, 7975, 1, 8, 0⟩, ⟨7984, 7991, 1, 8, 0⟩, ⟨8000, 8005, 1, 8, 0⟩,
   ⟨8017, 8023, 2, 8, 0⟩, ⟨8032, 8039, 1, 8, 0⟩, ⟨8048, 8049, 1, 74, 0⟩, ⟨8050, 8053, 1, 86, 0⟩,
   ⟨8054, 8055, 1, 100, 0⟩, ⟨8056, 8057, 1, 128, 0⟩, ⟨8058, 8059, 1, 112, 0⟩,
   ⟨8060, 8061, 1, 126, 0⟩, ⟨8064, 8071, 1, 8, 0⟩, ⟨8080, 8087, 1, 8, 0⟩, ⟨8096, 8103, 1, 8, 0⟩,
   ⟨8112, 8113, 1, 8, 0⟩, ⟨8115, 8115, 1, 9, 0⟩, ⟨8126, 8126, 1, 0, 7205⟩, ⟨8131, 8131, 1, 9, 0⟩,
   ⟨8144, 8145, 1, 8, 0⟩, ⟨8160, 8161, 1, 8, 0⟩, ⟨8165, 8165, 1, 7, 0⟩, ⟨8179, 8179, 1, 9, 0⟩,
   ⟨8526, 8526, 1, 0, 28⟩, ⟨8560, 8575, 1, 0, 16⟩, ⟨8580, 8580, 1, 0, 1⟩, ⟨9424, 9449, 1, 0, 26⟩,
   ⟨11312, 11359, 1, 0, 48⟩, ⟨11361, 11361, 1, 0, 1⟩, ⟨11365, 11365, 1, 0, 10795⟩,
   ⟨11366, 11366, 1, 0, 10792⟩, ⟨11368, 11372, 2, 0, 1⟩, ⟨11379, 11379, 1, 0, 1⟩,
   ⟨11382, 11382, 1, 0, 1⟩, ⟨11393, 11491, 2, 0, 1⟩, ⟨11500, 11502, 2, 0, 1⟩,
   ⟨11507, 11507, 1, 0, 1⟩, ⟨11520, 11557, 1, 0, 7264⟩, ⟨11559, 11559, 1, 0, 7264⟩,
   ⟨11565, 11565, 1, 0, 7264⟩, ⟨42561, 42605, 2, 0, 1⟩, ⟨42625, 42651, 2, 0, 1⟩,
   ⟨42787, 42799, 2, 0, 1⟩, ⟨42803, 42863, 2, 0, 1⟩, ⟨42874, 42876, 2, 0, 1⟩,
   ⟨42879, 42887, 2, 0, 1⟩, ⟨42892, 42892, 1, 0, 1⟩, ⟨42897, 42899, 2, 0, 1⟩,
   ⟨42900, 42900, 1, 48, 0⟩, ⟨42903, 42921, 2, 0, 1⟩, ⟨42933, 42947, 2, 0, 1⟩,
   ⟨42952, 42954, 2, 0, 1⟩, ⟨42961, 42961, 1, 0, 1⟩, ⟨42967, 42969, 2, 0, 1⟩,
   ⟨42998, 42998, 1, 0, 1⟩, ⟨43859, 43859, 1, 0, 928⟩, ⟨43888, 43967, 1, 0, 38864⟩,
   ⟨65345, 65370, 1, 0, 32⟩, ⟨66600, 66639, 1, 0, 40⟩, ⟨66776, 66811, 1, 0, 40⟩,
   ⟨66967, 66977, 1, 0, 39⟩, ⟨66979, 66993, 1, 0, 39⟩, ⟨66995, 67001, 1, 0, 39⟩,
   ⟨67003, 67004, 1, 0, 39⟩, ⟨68800, 68850, 1, 0, 64⟩, ⟨71872, 71903, 1, 0, 32⟩,
   ⟨93792, 93823, 1, 0, 32⟩, ⟨125218, 125251, 1, 0, 34⟩]

/-- `unicode.ToLower`. -/
def toLowerRune : Char → Char := mapRune lowerRanges

/-- `unicode.ToUpper`. -/
def toUpperRune : Char → Char := mapRune upperRanges

/-! ## Properties of the tables -/

/-- The image of `r` avoids `q`: it lies before `q`, after `q`, or between the
    code points of `q`. -/
def CaseRange.avoids (r q : CaseRange) : Bool :=
  r.hi + r.up - r.down < q.lo || q.hi < r.lo + r.up - r.down ||
    ((r.stride == 2 || r.lo == r.hi) && q.stride == 2 &&
      (r.lo + r.up - r.down + q.lo) % 2 == 1)

/-- The image of `r` consists of valid code points. -/
def CaseRange.valid (r : CaseRange) : Bool :=
  r.down ≤ r.lo && (r.hi + r.up - r.down < 0xD800 ||
    (0xDFFF < r.lo + r.up - r.down && r.hi + r.up - r.down < 0x110000))

/-- The white space, as ranges. -/
def spaceRanges : List CaseRange :=
  [⟨9, 13, 1, 0, 0⟩, ⟨32, 32, 1, 0, 0⟩, ⟨0x85, 0x85, 1, 0, 0⟩, ⟨0xA0, 0xA0, 1, 0, 0⟩,
   ⟨0x1680, 0x1680, 1, 0, 0⟩, ⟨0x2000, 0x200A, 1, 0, 0⟩, ⟨0x2028, 0x2029, 1, 0, 0⟩,
   ⟨0x202F, 0x202F, 1, 0, 0⟩, ⟨0x205F, 0x205F, 1, 0, 0⟩, ⟨0x3000, 0x3000, 1, 0, 0⟩]

/-- What the tables are checked for. -/
def tableOk (t : List CaseRange) : Bool :=
  t.all fun r => r.valid && t.all r.avoids && spaceRanges.all fun q => r.avoids q && q.avoids r

theorem lowerRanges_ok : tableOk lowerRanges = true := by decide +kernel

theorem mapCode_cases (t : List CaseRange) (n : ℕ) :
    mapCode t n = n ∨ ∃ r ∈ t, r.covers n ∧ mapCode t n = n + r.up - r.down := by
  induction t with
  | nil => exact Or.inl rfl
  | cons r rs ih =>
    unfold mapCode
    split_ifs with h₁ h₂
    · exact Or.inl rfl
    · exact Or.inr ⟨r, by simp, h₂, rfl⟩
    · rcases ih with h | ⟨q, hq, hc, he⟩
      · exact Or.inl h
      · exact Or.inr ⟨q, by simp [hq], hc, he⟩

/-- The image of `r` avoids the code points of a range it was checked against. -/
theorem CaseRange.avoids_spec {r q : CaseRange} (hv : r.valid) (h : r.avoids q) {n : ℕ}
    (hn : r.covers n) : ¬ q.covers (n + r.up - r.down) := by
  simp only [CaseRange.avoids, CaseRange.covers, CaseRange.valid, Bool.or_eq_true,
    Bool.and_eq_true, decide_eq_true_eq, beq_iff_eq] at *
  rcases h with (h | h) | ⟨⟨h₁, h₂⟩, h₃⟩
  · omega
  · omega
  · rintro ⟨⟨h₄, h₅⟩, h₆⟩
    rw [h₂] at h₆
    rcases h₁ with h₁ | h₁
    · rw [h₁] at hn; omega
    · omega

theorem CaseRange.valid_spec {r : CaseRange} (hv : r.valid) {n : ℕ} (hn : r.covers n) :
    (n + r.up - r.down).isValidChar := by
  simp only [CaseRange.covers, CaseRange.valid, Bool.or_eq_true, Bool.and_eq_true,
    decide_eq_true_eq, beq_iff_eq, Nat.isValidChar] at *
  omega

section
variable {t : List CaseRange} (ht : tableOk t)
include ht

theorem tableOk_spec {r : CaseRange} (hr : r ∈ t) :
    r.valid ∧ (∀ q ∈ t, r.avoids q) ∧ ∀ q ∈ spaceRanges, r.avoids q ∧ q.avoids r := by
  have h := List.all_eq_true.1 ht r hr
  simpa only [Bool.and_eq_true, List.all_eq_true, and_assoc] using h

theorem mapCode_idem (n : ℕ) : mapCode t (mapCode t n) = mapCode t n := by
  rcases mapCode_cases t n with h | ⟨r, hr, hn, he⟩
  · rw [h, h]
  · rcases mapCode_cases t (mapCode t n) with h | ⟨q, hq, hm, -⟩
    · exact h
    · rw [he] at hm
      obtain ⟨hv, ha, -⟩ := tableOk_spec ht hr
      exact absurd hm (CaseRange.avoids_spec hv (ha q hq) hn)

theorem mapCode_valid {n : ℕ} (hn : n.isValidChar) : (mapCode t n).isValidChar := by
  rcases mapCode_cases t n with h | ⟨r, hr, hc, he⟩
  · rwa [h]
  · rw [he]; exact CaseRange.valid_spec (tableOk_spec ht hr).1 hc

theorem toNat_mapRune (c : Char) : (mapRune t c).toNat = mapCode t c.toNat := by
  have hv : (mapCode t c.toNat).isValidChar := mapCode_valid ht c.valid
  rw [mapRune, Char.ofNat, dif_pos hv]
  rfl

theorem mapRune_idem (c : Char) : mapRune t (mapRune t c) = mapRune t c := by
  rw [mapRune, toNat_mapRune ht, mapCode_idem ht, mapRune]

end

theorem isSpace_iff (c : Char) : isSpace c ↔ ∃ q ∈ spaceRanges, q.covers c.toNat := by
  simp only [isSpace, spaceRanges, CaseRange.covers, List.mem_cons, List.not_mem_nil, or_false,
    exists_eq_or_imp, exists_eq_left, Bool.and_eq_true, decide_eq_true_eq, beq_iff_eq, Nat.mod_one,
    and_true]
  omega

/-- Mapping by a checked table neither makes nor removes code points of a range that it avoids. -/
theorem CaseRange.covers_mapRune {t : List CaseRange} (ht : tableOk t) {q : CaseRange}
    (hv : q.valid) (hfix : q.up = 0 ∧ q.down = 0) (h : ∀ r ∈ t, r.avoids q ∧ q.avoids r)
    (c : Char) : q.covers (mapRune t c).toNat ↔ q.covers c.toNat := by
  rw [toNat_mapRune ht]
  rcases mapCode_cases t c.toNat with he | ⟨r, hr, hn, he⟩
  · rw [he]
  · rw [he]
    refine ⟨fun hc => absurd hc (avoids_spec (tableOk_spec ht hr).1 (h r hr).1 hn), fun hc => ?_⟩
    -- a code point of `q` is its own image, and `r` avoids it
    have hnot := avoids_spec hv (h r hr).2 hc
    rw [hfix.1, hfix.2] at hnot
    exact absurd hn hnot

/-- Mapping by a checked table neither makes nor removes white space. -/
theorem isSpace_mapRune {t : List CaseRange} (ht : tableOk t) (c : Char) :
    isSpace (mapRune t c) = isSpace c := by
  rw [Bool.eq_iff_iff, isSpace_iff, isSpace_iff]
  refine exists_congr fun q => and_congr_right fun hq => ?_
  have hfix : q.valid ∧ q.up = 0 ∧ q.down = 0 := by
    revert hq
    simp only [spaceRanges, List.mem_cons, List.not_mem_nil, or_false]
    rintro (rfl | rfl | rfl | rfl | rfl | rfl | rfl | rfl | rfl | rfl) <;> exact ⟨rfl, rfl, rfl⟩
  exact CaseRange.covers_mapRune ht hfix.1 hfix.2 (fun r hr => (tableOk_spec ht hr).2.2 q hq) c

/-- **Lower-casing is idempotent.** -/
theorem toLowerRune_idem (c : Char) : toLowerRune (toLowerRune c) = toLowerRune c :=
  mapRune_idem lowerRanges_ok c

theorem isSpace_toLowerRune (c : Char) : isSpace (toLowerRune c) = isSpace c :=
  isSpace_mapRune lowerRanges_ok c

/-- The decimal digits, as a range. -/
def digitRange : CaseRange := ⟨48, 57, 1, 0, 0⟩

set_option maxRecDepth 10000 in
theorem lowerRanges_avoid_digits :
    ∀ r ∈ lowerRanges, r.avoids digitRange ∧ digitRange.avoids r := by decide

/-- Lower-casing makes no digits of other characters, and changes none. -/
theorem toLowerRune_eq_digit {c d : Char} (hd : digitRange.covers d.toNat) :
    toLowerRune c = d ↔ c = d := by
  have hcovers := CaseRange.covers_mapRune lowerRanges_ok (q := digitRange) rfl ⟨rfl, rfl⟩
    lowerRanges_avoid_digits
  have hself : ∀ {c : Char}, digitRange.covers c.toNat → toLowerRune c = c := by
    intro c hc
    rcases mapCode_cases lowerRanges c.toNat with he | ⟨r, hr, hn, -⟩
    · rw [toLowerRune, mapRune, he, Char.ofNat_toNat]
    · exact absurd hn
        (CaseRange.avoids_spec rfl (lowerRanges_avoid_digits r hr).2 hc)
  constructor
  · rintro rfl
    exact (hself ((hcovers c).1 hd)).symm
  · rintro rfl
    exact hself hd

end Go
