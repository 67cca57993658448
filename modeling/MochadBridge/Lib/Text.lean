import Mathlib.Data.List.DropRight
import Mathlib.Data.List.Forall2

/-!
# Text operations of Python strings

`str.strip`, `str.upper`, `str.split` and the conversion `int(str)`, as Python
documents them on sequences of Unicode code points. `upper` is the full
Unicode mapping, which is not one character to one: `ß` becomes `SS` and the
dotless `ı` becomes `I`. `int` accepts any Unicode decimal digit and single
underscores between digits.

Results: `strip` leaves a text that begins and ends without white space
(`head_trim`, `getLast_trim`) and is idempotent (`trim_trim`); `upper` is
idempotent and creates no white space and within ASCII only letters (`upper_upper`,
`isSpace_of_mem_upperChar`, `eq_or_letter_of_mem_upperChar`), so that `strip` followed by `upper` is idempotent
too (`upper_strip_idem`).
-/

namespace Py

/-! ## Character classes -/

/-- The code points of the white space characters. -/
def spaceCodes : List Nat :=
  [9, 10, 11, 12, 13, 28, 29, 30, 31, 32, 133, 160, 5760, 8192, 8193, 8194, 8195, 8196, 8197,
   8198, 8199, 8200, 8201, 8202, 8232, 8233, 8239, 8287, 12288]

/-- `str.isspace` of one character: the class that `str.strip()` removes and
that `\s` matches. -/
def isSpace (c : Char) : Bool := spaceCodes.contains c.toNat

/-- The code points of the digit zero in every Unicode block of decimal digits;
the other nine digits of a block follow it. -/
def digitZeros : List Nat :=
  [48, 1632, 1776, 1984, 2406, 2534, 2662, 2790, 2918, 3046, 3174, 3302, 3430, 3558, 3664, 3792,
   3872, 4160, 4240, 6112, 6160, 6470, 6608, 6784, 6800, 6992, 7088, 7232, 7248, 42528, 43216,
   43264, 43472, 43504, 43600, 44016, 65296, 66720, 68912, 69734, 69872, 69942, 70096, 70384,
   70736, 70864, 71248, 71360, 71472, 71904, 72016, 72784, 73040, 73120, 92768, 92864, 93008,
   120782, 120792, 120802, 120812, 120822, 123200, 123632, 125264, 130032]

/-- The value of a Unicode decimal digit, the class `\d` matches. -/
def digitValue (c : Char) : Option Nat :=
  (digitZeros.find? fun z => z ≤ c.toNat && c.toNat ≤ z + 9).map fun z => c.toNat - z

/-! ## Upper case -/

/-- The code points `lo, lo + step, …, hi` have the upper case
`target, target + step, …`. -/
structure CaseRun where
  lo : Nat
  hi : Nat
  step : Nat
  target : Nat

/-- The code points above ASCII whose upper case is one other code point. -/
def upperRuns : List CaseRun :=
  [⟨181, 181, 2, 924⟩, ⟨224, 246, 1, 192⟩, ⟨248, 254, 1, 216⟩, ⟨255, 255, 2, 376⟩,
   ⟨257, 303, 2, 256⟩, ⟨305, 305, 2, 73⟩, ⟨307, 311, 2, 306⟩, ⟨314, 328, 2, 313⟩,
   ⟨331, 375, 2, 330⟩, ⟨378, 382, 2, 377⟩, ⟨383, 383, 2, 83⟩, ⟨384, 384, 2, 579⟩,
   ⟨387, 389, 2, 386⟩, ⟨392, 392, 2, 391⟩, ⟨396, 396, 2, 395⟩, ⟨402, 402, 2, 401⟩,
   ⟨405, 405, 2, 502⟩, ⟨409, 409, 2, 408⟩, ⟨410, 410, 2, 573⟩, ⟨414, 414, 2, 544⟩,
   ⟨417, 421, 2, 416⟩, ⟨424, 424, 2, 423⟩, ⟨429, 429, 2, 428⟩, ⟨432, 432, 2, 431⟩,
   ⟨436, 438, 2, 435⟩, ⟨441, 441, 2, 440⟩, ⟨445, 445, 2, 444⟩, ⟨447, 447, 2, 503⟩,
   ⟨453, 453, 2, 452⟩, ⟨454, 454, 2, 452⟩, ⟨456, 456, 2, 455⟩, ⟨457, 457, 2, 455⟩,
   ⟨459, 459, 2, 458⟩, ⟨460, 460, 2, 458⟩, ⟨462, 476, 2, 461⟩, ⟨477, 477, 2, 398⟩,
   ⟨479, 495, 2, 478⟩, ⟨498, 498, 2, 497⟩, ⟨499, 499, 2, 497⟩, ⟨501, 501, 2, 500⟩,
   ⟨505, 543, 2, 504⟩, ⟨547, 563, 2, 546⟩, ⟨572, 572, 2, 571⟩, ⟨575, 576, 1, 11390⟩,
   ⟨578, 578, 2, 577⟩, ⟨583, 591, 2, 582⟩, ⟨592, 592, 2, 11375⟩, ⟨593, 593, 2, 11373⟩,
   ⟨594, 594, 2, 11376⟩, ⟨595, 595, 2, 385⟩, ⟨596, 596, 2, 390⟩, ⟨598, 599, 1, 393⟩,
   ⟨601, 601, 2, 399⟩, ⟨603, 603, 2, 400⟩, ⟨604, 604, 2, 42923⟩, ⟨608, 608, 2, 403⟩,
   ⟨609, 609, 2, 42924⟩, ⟨611, 611, 2, 404⟩, ⟨613, 613, 2, 42893⟩, ⟨614, 614, 2, 42922⟩,
   ⟨616, 616, 2, 407⟩, ⟨617, 617, 2, 406⟩, ⟨618, 618, 2, 42926⟩, ⟨619, 619, 2, 11362⟩,
   ⟨620, 620, 2, 42925⟩, ⟨623, 623, 2, 412⟩, ⟨625, 625, 2, 11374⟩, ⟨626, 626, 2, 413⟩,
   ⟨629, 629, 2, 415⟩, ⟨637, 637, 2, 11364⟩, ⟨640, 640, 2, 422⟩, ⟨642, 642, 2, 42949⟩,
   ⟨643, 643, 2, 425⟩, ⟨647, 647, 2, 42929⟩, ⟨648, 648, 2, 430⟩, ⟨649, 649, 2, 580⟩,
   ⟨650, 651, 1, 433⟩, ⟨652, 652, 2, 581⟩, ⟨658, 658, 2, 439⟩, ⟨669, 669, 2, 42930⟩,
   ⟨670, 670, 2, 42928⟩, ⟨837, 837, 2, 921⟩, ⟨881, 883, 2, 880⟩, ⟨887, 887, 2, 886⟩,
   ⟨891, 893, 1, 1021⟩, ⟨940, 940, 2, 902⟩, ⟨941, 943, 1, 904⟩, ⟨945, 961, 1, 913⟩,
   ⟨962, 962, 2, 931⟩, ⟨963, 971, 1, 931⟩, ⟨972, 972, 2, 908⟩, ⟨973, 974, 1, 910⟩,
   ⟨976, 976, 2, 914⟩, ⟨977, 977, 2, 920⟩, ⟨981, 981, 2, 934⟩, ⟨982, 982, 2, 928⟩,
   ⟨983, 983, 2, 975⟩, ⟨985, 1007, 2, 984⟩, ⟨1008, 1008, 2, 922⟩, ⟨1009, 1009, 2, 929⟩,
   ⟨1010, 1010, 2, 1017⟩, ⟨1011, 1011, 2, 895⟩, ⟨1013, 1013, 2, 917⟩, ⟨1016, 1016, 2, 1015⟩,
   ⟨1019, 1019, 2, 1018⟩, ⟨1072, 1103, 1, 1040⟩, ⟨1104, 1119, 1, 1024⟩, ⟨1121, 1153, 2, 1120⟩,
   ⟨1163, 1215, 2, 1162⟩, ⟨1218, 1230, 2, 1217⟩, ⟨1231, 1231, 2, 1216⟩, ⟨1233, 1327, 2, 1232⟩,
   ⟨1377, 1414, 1, 1329⟩, ⟨4304, 4346, 1, 7312⟩, ⟨4349, 4351, 1, 7357⟩, ⟨5112, 5117, 1, 5104⟩,
   ⟨7296, 7296, 2, 1042⟩, ⟨7297, 7297, 2, 1044⟩, ⟨7298, 7298, 2, 1054⟩, ⟨7299, 7300, 1, 1057⟩,
   ⟨7301, 7301, 2, 1058⟩, ⟨7302, 7302, 2, 1066⟩, ⟨7303, 7303, 2, 1122⟩, ⟨7304, 7304, 2, 42570⟩,
   ⟨7545, 7545, 2, 42877⟩, ⟨7549, 7549, 2, 11363⟩, ⟨7566, 7566, 2, 42950⟩, ⟨7681, 7829, 2, 7680⟩,
   ⟨7835, 7835, 2, 7776⟩, ⟨7841, 7935, 2, 7840⟩, ⟨7936, 7943, 1, 7944⟩, ⟨7952, 7957, 1, 7960⟩,
   ⟨7968, 7975, 1, 7976⟩, ⟨7984, 7991, 1, 7992⟩, ⟨8000, 8005, 1, 8008⟩, ⟨8017, 8023, 2, 8025⟩,
   ⟨8032, 8039, 1, 8040⟩, ⟨8048, 8049, 1, 8122⟩, ⟨8050, 8053, 1, 8136⟩, ⟨8054, 8055, 1, 8154⟩,
   ⟨8056, 8057, 1, 8184⟩, ⟨8058, 8059, 1, 8170⟩, ⟨8060, 8061, 1, 8186⟩, ⟨8112, 8113, 1, 8120⟩,
   ⟨8126, 8126, 2, 921⟩, ⟨8144, 8145, 1, 8152⟩, ⟨8160, 8161, 1, 8168⟩, ⟨8165, 8165, 2, 8172⟩,
   ⟨8526, 8526, 2, 8498⟩, ⟨8560, 8575, 1, 8544⟩, ⟨8580, 8580, 2, 8579⟩, ⟨9424, 9449, 1, 9398⟩,
   ⟨11312, 11359, 1, 11264⟩, ⟨11361, 11361, 2, 11360⟩, ⟨11365, 11365, 2, 570⟩,
   ⟨11366, 11366, 2, 574⟩, ⟨11368, 11372, 2, 11367⟩, ⟨11379, 11379, 2, 11378⟩,
   ⟨11382, 11382, 2, 11381⟩, ⟨11393, 11491, 2, 11392⟩, ⟨11500, 11502, 2, 11499⟩,
   ⟨11507, 11507, 2, 11506⟩, ⟨11520, 11557, 1, 4256⟩, ⟨11559, 11559, 2, 4295⟩,
   ⟨11565, 11565, 2, 4301⟩, ⟨42561, 42605, 2, 42560⟩, ⟨42625, 42651, 2, 42624⟩,
   ⟨42787, 42799, 2, 42786⟩, ⟨42803, 42863, 2, 42802⟩, ⟨42874, 42876, 2, 42873⟩,
   ⟨42879, 42887, 2, 42878⟩, ⟨42892, 42892, 2, 42891⟩, ⟨42897, 42899, 2, 42896⟩,
   ⟨42900, 42900, 2, 42948⟩, ⟨42903, 42921, 2, 42902⟩, ⟨42933, 42947, 2, 42932⟩,
   ⟨42952, 42954, 2, 42951⟩, ⟨42961, 42961, 2, 42960⟩, ⟨42967, 42969, 2, 42966⟩,
   ⟨42998, 42998, 2, 42997⟩, ⟨43859, 43859, 2, 42931⟩, ⟨43888, 43967, 1, 5024⟩,
   ⟨65345, 65370, 1, 65313⟩, ⟨66600, 66639, 1, 66560⟩, ⟨66776, 66811, 1, 66736⟩,
   ⟨66967, 66977, 1, 66928⟩, ⟨66979, 66993, 1, 66940⟩, ⟨66995, 67001, 1, 66956⟩,
   ⟨67003, 67004, 1, 66964⟩, ⟨68800, 68850, 1, 68736⟩, ⟨71872, 71903, 1, 71840⟩,
   ⟨93792, 93823, 1, 93760⟩, ⟨125218, 125251, 1, 125184⟩]

/-- The code points whose upper case is several code points. -/
def upperSpecials : List (Nat × List Nat) :=
  [(223, [83, 83]), (329, [700, 78]), (496, [74, 780]), (912, [921, 776, 769]),
   (944, [933, 776, 769]), (1415, [1333, 1362]), (7830, [72, 817]), (7831, [84, 776]),
   (7832, [87, 778]), (7833, [89, 778]), (7834, [65, 702]), (8016, [933, 787]),
   (8018, [933, 787, 768]), (8020, [933, 787, 769]), (8022, [933, 787, 834]), (8064, [7944, 921]),
   (8065, [7945, 921]), (8066, [7946, 921]), (8067, [7947, 921]), (8068, [7948, 921]),
   (8069, [7949, 921]), (8070, [7950, 921]), (8071, [7951, 921]), (8072, [7944, 921]),
   (8073, [7945, 921]), (8074, [7946, 921]), (8075, [7947, 921]), (8076, [7948, 921]),
   (8077, [7949, 921]), (8078, [7950, 921]), (8079, [7951, 921]), (8080, [7976, 921]),
   (8081, [7977, 921]), (8082, [7978, 921]), (8083, [7979, 921]), (8084, [7980, 921]),
   (8085, [7981, 921]), (8086, [7982, 921]), (8087, [7983, 921]), (8088, [7976, 921]),
   (8089, [7977, 921]), (8090, [7978, 921]), (8091, [7979, 921]), (8092, [7980, 921]),
   (8093, [7981, 921]), (8094, [7982, 921]), (8095, [7983, 921]), (8096, [8040, 921]),
   (8097, [8041, 921]), (8098, [8042, 921]), (8099, [8043, 921]), (8100, [8044, 921]),
   (8101, [8045, 921]), (8102, [8046, 921]), (8103, [8047, 921]), (8104, [8040, 921]),
   (8105, [8041, 921]), (8106, [8042, 921]), (8107, [8043, 921]), (8108, [8044, 921]),
   (8109, [8045, 921]), (8110, [8046, 921]), (8111, [8047, 921]), (8114, [8122, 921]),
   (8115, [913, 921]), (8116, [902, 921]), (8118, [913, 834]), (8119, [913, 834, 921]),
   (8124, [913, 921]), (8130, [8138, 921]), (8131, [919, 921]), (8132, [905, 921]),
   (8134, [919, 834]), (8135, [919, 834, 921]), (8140, [919, 921]), (8146, [921, 776, 768]),
   (8147, [921, 776, 769]), (8150, [921, 834]), (8151, [921, 776, 834]), (8162, [933, 776, 768]),
   (8163, [933, 776, 769]), (8164, [929, 787]), (8166, [933, 834]), (8167, [933, 776, 834]),
   (8178, [8186, 921]), (8179, [937, 921]), (8180, [911, 921]), (8182, [937, 834]),
   (8183, [937, 834, 921]), (8188, [937, 921]), (64256, [70, 70]), (64257, [70, 73]),
   (64258, [70, 76]), (64259, [70, 70, 73]), (64260, [70, 70, 76]), (64261, [83, 84]),
   (64262, [83, 84]), (64275, [1348, 1350]), (64276, [1348, 1333]), (64277, [1348, 1339]),
   (64278, [1358, 1350]), (64279, [1348, 1341])]

/-- Whether the code point `n` belongs to a run. -/
def CaseRun.covers (r : CaseRun) (n : Nat) : Bool :=
  r.lo ≤ n && n ≤ r.hi && (n - r.lo) % r.step == 0

/-- The upper case of a code point above ASCII. -/
def upperCode (n : Nat) : List Nat :=
  match upperSpecials.lookup n with
  | some l => l
  | none =>
    match upperRuns.find? (CaseRun.covers · n) with
    | some r => [r.target + (n - r.lo)]
    | none => [n]

/-- The upper case of one character. -/
def upperChar (c : Char) : List Char :=
  if c.toNat < 128 then [c.toUpper] else (upperCode c.toNat).map Char.ofNat

/-- `s.upper()`. -/
def upper (s : String) : String := String.ofList (s.toList.flatMap upperChar)

/-- The lower case of one character. Every character above ASCII other than
U+0130 and U+212A has a lower case without ASCII characters, and no text it is
compared with has any other, so it stays as it is. -/
def lowerChar (c : Char) : List Char :=
  if c.toNat < 128 then [c.toLower]
  else if c.toNat == 0x212A then ['k']
  else if c.toNat == 0x130 then ['i', Char.ofNat 0x307]
  else [c]

/-- `s.lower()`, for comparison with ASCII text. -/
def lower (s : String) : String := String.ofList (s.toList.flatMap lowerChar)

/-! ## Strip and split -/

/-- Remove the characters of a class from both ends. -/
def trim (p : Char → Bool) (l : List Char) : List Char := (l.dropWhile p).rdropWhile p

/-- `s.strip()`. -/
def strip (s : String) : String := String.ofList (trim isSpace s.toList)

/-- `s.strip(chars)`. -/
def stripChars (chars : List Char) (s : String) : String :=
  String.ofList (trim (chars.contains ·) s.toList)

/-- `s.split(sep)` for a separator of one character. -/
def split (s : String) (sep : Char) : List String := (s.toList.splitOn sep).map String.ofList

/-- `s.split()`: the runs of characters between white space. -/
def words (s : String) : List String :=
  ((s.toList.splitOnP isSpace).filter (! ·.isEmpty)).map String.ofList

/-- `s.startswith(prefix)`. -/
def startsWith (s p : String) : Bool := p.toList.isPrefixOf s.toList

/-- `s.replace(a, b)` for single characters. -/
def replaceChar (a b : Char) (s : String) : String :=
  String.ofList (s.toList.map fun c => if c = a then b else c)

/-! ## `int(str)` -/

/-- Digits with single underscores between them, read from the left; `none` as
soon as something else stands there. -/
def readDigits : Nat → List Char → Option Nat
  | acc, [] => some acc
  | acc, '_' :: c :: rest => do
    let d ← digitValue c
    readDigits (acc * 10 + d) rest
  | acc, c :: rest => do
    let d ← digitValue c
    readDigits (acc * 10 + d) rest

/-- `int(s)`, or `none` where it raises `ValueError`. -/
def int? (s : String) : Option Int :=
  match trim isSpace s.toList with
  | [] => none
  | '-' :: c :: rest => do
    let d ← digitValue c
    (readDigits d rest).map fun n => -(n : Int)
  | '+' :: c :: rest => do
    let d ← digitValue c
    (readDigits d rest).map Int.ofNat
  | c :: rest => do
    let d ← digitValue c
    (readDigits d rest).map Int.ofNat

/-! ## Upper case is idempotent

The table is checked once, run against run: no upper case of a run lies in the
domain of another run. -/

/-- No upper case of the run `r` is the code point `n`. -/
def CaseRun.avoids (r : CaseRun) (n : Nat) : Bool :=
  r.target + (r.hi - r.lo) < n || n < r.target || (r.step == 2 && (r.target + n) % 2 == 1)

/-- No upper case of the run `r` is in the domain of the run `q`. -/
def CaseRun.misses (r q : CaseRun) : Bool :=
  r.target + (r.hi - r.lo) < q.lo || q.hi < r.target ||
    (r.step == 2 && q.step == 2 && (r.target + q.lo) % 2 == 1)

/-- `n` is a character, its own upper case and no white space. -/
def settled (n : Nat) : Bool :=
  (if n < 128 then (Char.ofNat n).toUpper == Char.ofNat n else upperCode n == [n]) &&
    !spaceCodes.contains n && (n < 0xD800 || (0xDFFF < n && n < 0x110000))

/-- The run `r` leaves the other runs, the special code points and the white space
alone; its upper cases are characters, and beyond ASCII but for a settled one. -/
def CaseRun.apart (r : CaseRun) : Bool :=
  upperRuns.all (fun q => r.misses q) && upperSpecials.all (fun e => r.avoids e.1) &&
    spaceCodes.all (fun z => r.avoids z) &&
    (r.target + (r.hi - r.lo) < 0xD800 ||
      (0xDFFF < r.target && r.target + (r.hi - r.lo) < 0x110000)) &&
    (128 ≤ r.target || (r.lo == r.hi && settled r.target))

theorem upperRuns_apart : (upperRuns.all CaseRun.apart &&
    upperSpecials.all fun e => !e.2.isEmpty && e.2.all settled) = true := by
  decide +kernel

/-- What the check of a special code point says. -/
theorem settled_of_special {e : Nat × List Nat} (he : e ∈ upperSpecials) :
    e.2 ≠ [] ∧ ∀ m ∈ e.2, settled m = true := by
  have h := List.all_eq_true.mp ((Bool.and_eq_true _ _).mp upperRuns_apart).2 e he
  simpa only [Bool.and_eq_true, Bool.not_eq_true', List.isEmpty_eq_false_iff, ne_eq,
    List.all_eq_true] using h

theorem not_covers_of_misses {r q : CaseRun} {n : Nat} (hm : r.misses q = true)
    (hc : r.covers n = true) : q.covers (r.target + (n - r.lo)) = false := by
  obtain ⟨lo, hi, step, t⟩ := r
  obtain ⟨lo', hi', step', t'⟩ := q
  simp only [CaseRun.misses, CaseRun.covers, Bool.or_eq_true, Bool.and_eq_true, beq_iff_eq,
    decide_eq_true_eq] at hm hc
  rw [Bool.eq_false_iff]
  intro h
  simp only [CaseRun.covers, Bool.and_eq_true, beq_iff_eq, decide_eq_true_eq] at h
  rcases hm with (hm | hm) | ⟨⟨rfl, rfl⟩, hm⟩ <;> omega

theorem ne_of_avoids {r : CaseRun} {n z : Nat} (ha : r.avoids z = true)
    (hc : r.covers n = true) : r.target + (n - r.lo) ≠ z := by
  obtain ⟨lo, hi, step, t⟩ := r
  simp only [CaseRun.avoids, CaseRun.covers, Bool.or_eq_true, Bool.and_eq_true, beq_iff_eq,
    decide_eq_true_eq] at ha hc ⊢
  rcases ha with (ha | ha) | ⟨rfl, ha⟩ <;> omega

theorem lookup_eq_none_of_forall_ne {l : List (Nat × List Nat)} {n : Nat}
    (h : ∀ e ∈ l, n ≠ e.1) : l.lookup n = none := by
  induction l with
  | nil => rfl
  | cons e l ih =>
    have hne : (n == e.1) = false := beq_eq_false_iff_ne.mpr (h e List.mem_cons_self)
    rw [List.lookup_cons, hne]
    exact ih fun e' he' => h e' (List.mem_cons_of_mem _ he')

theorem mem_of_lookup {l : List (Nat × List Nat)} {n : Nat} {x : List Nat}
    (h : l.lookup n = some x) : (n, x) ∈ l := by
  induction l with
  | nil => simp at h
  | cons e l ih =>
    rw [List.lookup_cons] at h
    cases hb : n == e.1 with
    | true =>
      rw [hb] at h
      cases h
      rw [beq_iff_eq.mp hb]
      exact List.mem_cons_self
    | false =>
      rw [hb] at h
      exact List.mem_cons_of_mem _ (ih h)

/-- The upper case of a covered code point is settled: the run check excludes
every other run, every special code point and the white space. -/
theorem settled_of_covers {r : CaseRun} {n : Nat} (hr : r ∈ upperRuns) (hc : r.covers n = true) :
    settled (r.target + (n - r.lo)) = true := by
  have hapart := List.all_eq_true.mp ((Bool.and_eq_true _ _).mp upperRuns_apart).1 r hr
  simp only [CaseRun.apart, Bool.and_eq_true, List.all_eq_true, Bool.or_eq_true,
    decide_eq_true_eq, beq_iff_eq] at hapart
  obtain ⟨⟨⟨⟨hmiss, havoid⟩, hspace⟩, hvalid⟩, hascii⟩ := hapart
  have hbound : n - r.lo ≤ r.hi - r.lo := by
    simp only [CaseRun.covers, Bool.and_eq_true, decide_eq_true_eq] at hc
    omega
  rcases hascii with hbig | ⟨hone, hset⟩
  · have hcode : upperCode (r.target + (n - r.lo)) = [r.target + (n - r.lo)] := by
      have hnone := lookup_eq_none_of_forall_ne fun e he => ne_of_avoids (havoid e he) hc
      have hfind : upperRuns.find? (CaseRun.covers · (r.target + (n - r.lo))) = none :=
        List.find?_eq_none.mpr fun q hq => by simp [not_covers_of_misses (hmiss q hq) hc]
      simp only [upperCode, hnone, hfind]
    have hns : r.target + (n - r.lo) ∉ spaceCodes := fun hz => ne_of_avoids (hspace _ hz) hc rfl
    simp only [settled, Bool.and_eq_true, Bool.or_eq_true, decide_eq_true_eq, hcode,
      show ¬ r.target + (n - r.lo) < 128 by omega, if_false, beq_self_eq_true, true_and,
      Bool.not_eq_true', List.contains_eq_mem, decide_eq_false_iff_not]
    exact ⟨hns, by omega⟩
  · have : n - r.lo = 0 := by omega
    rw [this, Nat.add_zero]
    exact hset

theorem settled_of_mem_upperCode {n m : Nat} (h : m ∈ upperCode n) (hne : upperCode n ≠ [n]) :
    settled m = true := by
  unfold upperCode at h hne
  split at h
  · next l hl =>
    exact (settled_of_special (mem_of_lookup hl)).2 m h
  · next hl =>
    simp only [hl] at hne
    split at h
    · next r hr =>
      have hcov : r.covers n = true := by simpa using List.find?_some hr
      rw [List.mem_singleton.mp h]
      exact settled_of_covers (List.mem_of_find?_eq_some hr) hcov
    · next hr => simp [hr] at hne

theorem toNat_of_settled {m : Nat} (h : settled m = true) : (Char.ofNat m).toNat = m := by
  simp only [settled, Bool.and_eq_true, Bool.or_eq_true, decide_eq_true_eq] at h
  have hv : m.isValidChar := h.2.imp id fun h => ⟨h.1, h.2⟩
  rw [Char.ofNat, dif_pos hv]
  rfl

theorem settled_char {m : Nat} (h : settled m = true) :
    upperChar (Char.ofNat m) = [Char.ofNat m] ∧ isSpace (Char.ofNat m) = false := by
  have hm := toNat_of_settled h
  simp only [settled, Bool.and_eq_true, Bool.not_eq_true'] at h
  obtain ⟨⟨hcase, hspace⟩, _⟩ := h
  refine ⟨?_, by rw [isSpace, hm]; exact hspace⟩
  unfold upperChar
  rw [hm]
  split
  · next hlt => rw [if_pos hlt] at hcase; rw [beq_iff_eq.mp hcase]
  · next hlt => rw [if_neg hlt] at hcase; rw [beq_iff_eq.mp hcase]; rfl

/-- The upper case of a character above ASCII is itself, or the table has it. -/
theorem upperChar_cases {c : Char} (h : 128 ≤ c.toNat) : upperChar c = [c] ∨
    (∃ e ∈ upperSpecials, e.1 = c.toNat ∧ (upperChar c).map Char.toNat = e.2) ∨
    ∃ r ∈ upperRuns, r.covers c.toNat = true ∧
      (upperChar c).map Char.toNat = [r.target + (c.toNat - r.lo)] := by
  rw [upperChar, if_neg (Nat.not_lt.mpr h), upperCode]
  split
  · next l hl =>
    have he := mem_of_lookup hl
    have hcodes : ∀ m ∈ l, (Char.ofNat m).toNat = m := fun m hm =>
      toNat_of_settled ((settled_of_special he).2 m hm)
    refine .inr (.inl ⟨_, he, rfl, ?_⟩)
    rw [List.map_map]
    exact List.map_congr_left hcodes |>.trans (List.map_id l)
  · split
    · next r hr =>
      have hcov : r.covers c.toNat = true := by simpa using List.find?_some hr
      have hmem := List.mem_of_find?_eq_some hr
      refine .inr (.inr ⟨r, hmem, hcov, ?_⟩)
      rw [List.map_singleton, List.map_singleton, toNat_of_settled (settled_of_covers hmem hcov)]
    · rw [List.map_singleton, Char.ofNat_toNat]
      exact .inl rfl

theorem ascii_upper : ∀ n < 128, (Char.ofNat n).toUpper.toNat < 128 ∧
    (Char.ofNat n).toUpper.toUpper = (Char.ofNat n).toUpper ∧
    isSpace (Char.ofNat n).toUpper = isSpace (Char.ofNat n) := by
  decide

/-- What `str.upper` turns a character into is upper case. -/
theorem upperChar_of_mem {c d : Char} (h : d ∈ upperChar c) : upperChar d = [d] := by
  unfold upperChar at h
  split at h
  · next hlt =>
    obtain ⟨hascii, hup, _⟩ := ascii_upper c.toNat hlt
    rw [Char.ofNat_toNat] at hascii hup
    rw [List.mem_singleton.mp h, upperChar, if_pos hascii, hup]
  · next hlt =>
    obtain ⟨m, hm, rfl⟩ := List.mem_map.mp h
    by_cases hid : upperCode c.toNat = [c.toNat]
    · rw [hid, List.mem_singleton] at hm
      subst hm
      simp [upperChar, hlt, hid]
    · exact (settled_char (settled_of_mem_upperCode hm hid)).1

theorem ascii_upper_letter : ∀ n < 128, (Char.ofNat n).toUpper = Char.ofNat n ∨
    (65 ≤ (Char.ofNat n).toUpper.toNat ∧ (Char.ofNat n).toUpper.toNat ≤ 90) := by
  decide

theorem upperCases_ascii : (upperRuns.all (fun r => 128 ≤ r.target ||
      (65 ≤ r.target && r.target + (r.hi - r.lo) ≤ 90)) &&
    upperSpecials.all fun e => e.2.all fun m => 128 ≤ m || (65 ≤ m && m ≤ 90)) = true := by
  decide +kernel

/-- What `str.upper` makes within ASCII are letters. -/
theorem eq_or_letter_of_mem_upperChar {c d : Char} (h : d ∈ upperChar c) (hd : d.toNat < 128) :
    d = c ∨ (65 ≤ d.toNat ∧ d.toNat ≤ 90) := by
  obtain ⟨hruns, hspecials⟩ := (Bool.and_eq_true _ _).mp upperCases_ascii
  by_cases hc : c.toNat < 128
  · have hup := ascii_upper_letter c.toNat hc
    rw [Char.ofNat_toNat] at hup
    rw [upperChar, if_pos hc, List.mem_singleton] at h
    rwa [h]
  · have hmem := List.mem_map_of_mem (f := Char.toNat) h
    rcases upperChar_cases (Nat.not_lt.mp hc) with hself | ⟨e, he, _, hcodes⟩ | ⟨r, hr, hcov, hcodes⟩
    · rw [hself] at h
      exact .inl (List.mem_singleton.mp h)
    · rw [hcodes] at hmem
      have hcode := List.all_eq_true.mp (List.all_eq_true.mp hspecials e he) _ hmem
      simp only [Bool.or_eq_true, Bool.and_eq_true, decide_eq_true_eq] at hcode
      exact .inr (hcode.resolve_left (Nat.not_le.mpr hd))
    · rw [hcodes, List.mem_singleton] at hmem
      have hcode := List.all_eq_true.mp hruns r hr
      simp only [Bool.or_eq_true, Bool.and_eq_true, decide_eq_true_eq] at hcode
      simp only [CaseRun.covers, Bool.and_eq_true, decide_eq_true_eq] at hcov
      omega

/-- `str.upper` makes no white space. -/
theorem isSpace_of_mem_upperChar {c d : Char} (hc : isSpace c = false) (h : d ∈ upperChar c) :
    isSpace d = false := by
  unfold upperChar at h
  split at h
  · next hlt =>
    have hup := (ascii_upper c.toNat hlt).2.2
    rw [Char.ofNat_toNat] at hup
    rw [List.mem_singleton.mp h, hup, hc]
  · next hlt =>
    obtain ⟨m, hm, rfl⟩ := List.mem_map.mp h
    by_cases hid : upperCode c.toNat = [c.toNat]
    · rw [hid, List.mem_singleton] at hm
      rw [hm, Char.ofNat_toNat, hc]
    · exact (settled_char (settled_of_mem_upperCode hm hid)).2

theorem upperChar_ne_nil (c : Char) : upperChar c ≠ [] := by
  unfold upperChar upperCode
  split
  · simp
  · rw [ne_eq, List.map_eq_nil_iff]
    split
    · next l hl =>
      exact (settled_of_special (mem_of_lookup hl)).1
    · split <;> simp

@[simp] theorem toList_upper (s : String) : (upper s).toList = s.toList.flatMap upperChar :=
  String.toList_ofList

@[simp] theorem toList_strip (s : String) : (strip s).toList = trim isSpace s.toList :=
  String.toList_ofList

theorem flatMap_upperChar_idem (l : List Char) :
    (l.flatMap upperChar).flatMap upperChar = l.flatMap upperChar := by
  rw [List.flatMap_assoc]
  refine List.flatMap_congr fun c _ => ?_
  rw [List.flatMap_congr fun d hd => upperChar_of_mem hd, List.flatMap_singleton']

theorem upper_upper (s : String) : upper (upper s) = upper s := by
  rw [← String.toList_inj]
  simp only [toList_upper, flatMap_upperChar_idem]

/-! ## Trimming -/

section Trim
variable {p : Char → Bool}

theorem trim_eq_self {l : List Char} (hhead : ∀ c ∈ l.head?, p c = false)
    (hlast : ∀ c ∈ l.getLast?, p c = false) : trim p l = l := by
  have hdrop : l.dropWhile p = l := by
    cases l with
    | nil => rfl
    | cons c l => simp [List.dropWhile, hhead c (by simp)]
  rw [trim, hdrop, List.rdropWhile_eq_self_iff]
  intro hl
  simp [hlast _ (List.getLast?_eq_some_getLast hl)]

theorem head_trim (l : List Char) : ∀ c ∈ (trim p l).head?, p c = false := by
  intro c hc
  obtain ⟨t, ht⟩ : trim p l <+: l.dropWhile p := List.rdropWhile_prefix p _
  have hhead : (l.dropWhile p).head? = some c := by
    rw [← ht, List.head?_append, Option.mem_def.mp hc, Option.some_or]
  have hnot := List.head?_dropWhile_not p l
  rw [hhead] at hnot
  exact hnot

theorem getLast_trim (l : List Char) : ∀ c ∈ (trim p l).getLast?, p c = false := by
  intro c hc
  have hne : trim p l ≠ [] := fun h => by simp [h] at hc
  have hlast := List.rdropWhile_last_not p (l.dropWhile p) hne
  rw [Option.mem_def, List.getLast?_eq_some_getLast hne, Option.some.injEq] at hc
  rw [← hc]
  exact Bool.eq_false_iff.mpr hlast

theorem trim_trim (l : List Char) : trim p (trim p l) = trim p l :=
  trim_eq_self (head_trim l) (getLast_trim l)

theorem mem_of_mem_trim {l : List Char} {c : Char} (h : c ∈ trim p l) : c ∈ l :=
  (List.dropWhile_sublist p).subset ((List.rdropWhile_prefix p _).subset h)

/-- What is not to be trimmed stays. -/
theorem mem_trim_of_mem {l : List Char} {c : Char} (hc : c ∈ l) (hp : p c = false) :
    c ∈ trim p l := by
  have hkept : ∀ l : List Char, c ∈ l → c ∈ l.dropWhile p := by
    intro l hl
    rw [← List.takeWhile_append_dropWhile (p := p) (l := l)] at hl
    rcases List.mem_append.mp hl with hl | hl
    · rw [List.mem_takeWhile_imp hl] at hp
      cases hp
    · exact hl
  rw [trim, List.rdropWhile, List.mem_reverse]
  exact hkept _ (List.mem_reverse.mpr (hkept l hc))

theorem trim_ne_nil {l : List Char} {c : Char} (hc : c ∈ l) (hp : p c = false) :
    trim p l ≠ [] := by
  intro h
  have hall : ∀ x ∈ l.dropWhile p, p x = true := List.rdropWhile_eq_nil_iff.mp h
  cases hd : l.dropWhile p with
  | nil => rw [List.dropWhile_eq_nil_iff.mp hd c hc] at hp; cases hp
  | cons x rest =>
    have hx := List.head?_dropWhile_not p l
    simp only [hd, List.head?_cons, hall x (by simp [hd])] at hx
    cases hx

/-- Trimming keeps what ends in characters that stay. -/
theorem trim_append {l l' : List Char} (hne : l' ≠ []) (hhead : ∀ c, l'.head? = some c → p c = false)
    (hlast : ∀ c, l'.getLast? = some c → p c = false) :
    trim p (l ++ l') = l.dropWhile p ++ l' := by
  have hdrop : (l ++ l').dropWhile p = l.dropWhile p ++ l' := by
    rw [List.dropWhile_append]
    split
    · next hnil =>
      rw [List.isEmpty_iff.mp hnil, List.nil_append]
      cases l' with
      | nil => exact absurd rfl hne
      | cons c l' => simp [hhead c rfl]
    · rfl
  rw [trim, hdrop, List.rdropWhile_eq_self_iff]
  intro hne'
  have hget := List.getLast?_eq_some_getLast hne'
  rw [List.getLast?_append_of_ne_nil _ hne] at hget
  simp [hlast _ hget]

/-- Trimming takes away what is trimmed at both ends. -/
theorem trim_pad {a b : List Char} (ha : ∀ c ∈ a, p c = true) (hb : ∀ c ∈ b, p c = true)
    (l : List Char) : trim p (a ++ l ++ b) = trim p l := by
  have hright : ∀ l : List Char, (l ++ b).rdropWhile p = l.rdropWhile p := by
    intro l
    rw [List.rdropWhile, List.rdropWhile, List.reverse_append,
      List.dropWhile_append_of_pos fun c hc => hb c (List.mem_reverse.mp hc)]
  rw [trim, trim, List.append_assoc, List.dropWhile_append_of_pos ha, List.dropWhile_append]
  split
  · next hl =>
    rw [List.isEmpty_iff.mp hl, List.dropWhile_eq_nil_iff.mpr hb]
  · exact hright _

/-- Trimming takes away what is trimmed only. -/
theorem exists_trimmed (p : Char → Bool) (l : List Char) : ∃ a b, (∀ c ∈ a, p c = true) ∧
    (∀ c ∈ b, p c = true) ∧ l = a ++ trim p l ++ b := by
  refine ⟨l.takeWhile p, (l.dropWhile p).rtakeWhile p,
    fun c hc => List.mem_takeWhile_imp hc, fun c hc => List.mem_rtakeWhile_imp hc, ?_⟩
  rw [trim, List.append_assoc, List.rdropWhile_append_rtakeWhile, List.takeWhile_append_dropWhile]

end Trim

@[simp] theorem strip_strip (s : String) : strip (strip s) = strip s := by
  rw [← String.toList_inj]
  simp only [toList_strip, trim_trim]

/-! ## A number is read back from its digits -/

theorem digitValue_of_isDigit {c : Char} (h : c.isDigit = true) :
    digitValue c = some (c.toNat - 48) := by
  have hc : 48 ≤ c.toNat ∧ c.toNat ≤ 57 := Char.isDigit_iff_toNat.mp h
  have hfirst : (48 ≤ c.toNat && c.toNat ≤ 48 + 9) = true := by
    simp only [Bool.and_eq_true, decide_eq_true_eq]
    omega
  rw [digitValue, digitZeros, List.find?_cons, hfirst]
  rfl

theorem readDigits_of_isDigit {l : List Char} (h : ∀ c ∈ l, c.isDigit = true) (acc : Nat) :
    readDigits acc l = some (Nat.ofDigitChars 10 l acc) := by
  induction l generalizing acc with
  | nil => rw [readDigits, Nat.ofDigitChars_nil]
  | cons c l ih =>
    have hc := h c List.mem_cons_self
    rw [readDigits, digitValue_of_isDigit hc, Nat.ofDigitChars_cons]
    · show readDigits (acc * 10 + (c.toNat - 48)) l = _
      rw [ih fun x hx => h x (List.mem_cons_of_mem _ hx), Nat.mul_comm acc]
      rfl
    · rintro d rest rfl
      cases hc

theorem isSpace_of_isDigit {c : Char} (h : c.isDigit = true) : isSpace c = false := by
  have hc : 48 ≤ c.toNat ∧ c.toNat ≤ 57 := Char.isDigit_iff_toNat.mp h
  rw [Bool.eq_false_iff]
  intro hs
  simp only [isSpace, spaceCodes, List.contains_eq_mem, List.mem_cons, List.not_mem_nil, or_false,
    decide_eq_true_eq] at hs
  omega

/-- `int(str(n))` is `n`. -/
theorem int?_toString (n : Nat) : int? (toString (n : Int)) = some (n : Int) := by
  have hdigits : ∀ c ∈ Nat.toDigits 10 n, c.isDigit = true := fun c hc =>
    Nat.isDigit_of_mem_toDigits (by decide) (by decide) hc
  have htext : (toString (n : Int)).toList = Nat.toDigits 10 n := by
    show (Nat.repr n).toList = _
    exact Nat.toList_repr
  have htrim : trim isSpace (Nat.toDigits 10 n) = Nat.toDigits 10 n :=
    trim_eq_self (fun c hc => isSpace_of_isDigit (hdigits c (List.mem_of_mem_head? hc)))
      fun c hc => isSpace_of_isDigit (hdigits c (List.mem_of_getLast? hc))
  have hvalue : readDigits 0 (Nat.toDigits 10 n) = some n := by
    rw [readDigits_of_isDigit hdigits, Nat.ofDigitChars_ten_toDigits]
  rw [int?, htext, htrim]
  cases hl : Nat.toDigits 10 n with
  | nil => exact absurd hl Nat.toDigits_ne_nil
  | cons c rest =>
    rw [hl] at hdigits hvalue
    have hc := hdigits c List.mem_cons_self
    rw [readDigits, digitValue_of_isDigit hc] at hvalue
    · split
      · next he => cases he
      · next he =>
        cases he
        cases hc
      · next he =>
        cases he
        cases hc
      · next he =>
        cases he
        rw [digitValue_of_isDigit hc]
        show (readDigits (c.toNat - 48) rest).map Int.ofNat = some (n : Int)
        have hrest : readDigits (0 * 10 + (c.toNat - 48)) rest = some n := hvalue
        rw [Nat.zero_mul, Nat.zero_add] at hrest
        rw [hrest]
        rfl
    · rintro d rest rfl
      cases hc

/-- The text of a number is made of digits and a sign. -/
theorem mem_toString_int {n : Int} {c : Char} (hc : c ∈ (toString n).toList) :
    c.isDigit = true ∨ c = '-' := by
  have hdigits : ∀ m : Nat, c ∈ (Nat.repr m).toList → c.isDigit = true := by
    intro m hm
    rw [Nat.toList_repr] at hm
    exact Nat.isDigit_of_mem_toDigits (by decide) (by decide) hm
  cases n with
  | ofNat m => exact .inl (hdigits m hc)
  | negSucc m =>
    have htext : (toString (Int.negSucc m)).toList = '-' :: (Nat.repr (m + 1)).toList := by
      rw [show toString (Int.negSucc m) = "-" ++ Nat.repr (m + 1) from rfl, String.toList_append]
      rfl
    rw [htext] at hc
    rcases List.mem_cons.mp hc with rfl | hc
    · exact .inr rfl
    · exact .inl (hdigits _ hc)

theorem toString_int_ne_empty (n : Int) : toString n ≠ "" := by
  cases n with
  | ofNat m => exact Nat.repr_ne_empty
  | negSucc m =>
    intro h
    have hl := congrArg String.toList (show "-" ++ Nat.repr (m + 1) = "" from h)
    rw [String.toList_append] at hl
    cases hl

theorem strip_toString_int (n : Int) : strip (toString n) = toString n := by
  have hspace : ∀ c ∈ (toString n).toList, isSpace c = false := by
    intro c hc
    rcases mem_toString_int hc with hdigit | rfl
    · exact isSpace_of_isDigit hdigit
    · decide
  rw [← String.toList_inj, toList_strip]
  exact trim_eq_self (fun c hc => hspace c (List.mem_of_mem_head? hc))
    fun c hc => hspace c (List.mem_of_getLast? hc)

/-! ## Splitting a joined text -/

theorem split_eq_singleton {s : String} {sep : Char} (h : sep ∉ s.toList) : split s sep = [s] := by
  rw [split, List.splitOn_eq_singleton h, List.map_singleton, String.ofList_toList]

/-- No part of a split text holds the separator. -/
theorem not_mem_of_mem_split {s t : String} {sep : Char} (h : t ∈ split s sep) :
    sep ∉ t.toList := by
  obtain ⟨l, hl, rfl⟩ := List.mem_map.mp h
  clear h
  rw [String.toList_ofList]
  generalize s.toList = xs at hl
  induction xs generalizing l with
  | nil =>
    rw [List.splitOn_nil, List.mem_singleton] at hl
    rw [hl]
    exact List.not_mem_nil
  | cons x xs ih =>
    rw [List.splitOn_cons_eq_if_modifyHead] at hl
    split at hl
    · rcases List.mem_cons.mp hl with rfl | hl
      · exact List.not_mem_nil
      · exact ih _ hl
    · next hx =>
      cases hs : xs.splitOn sep with
      | nil => exact absurd hs (List.splitOn_ne_nil sep xs)
      | cons y ys =>
        rw [hs] at ih
        rw [hs, List.modifyHead_cons] at hl
        rcases List.mem_cons.mp hl with rfl | hl
        · rw [List.mem_cons, not_or]
          exact ⟨fun he => hx (by rw [he]; exact beq_self_eq_true _), ih y List.mem_cons_self⟩
        · exact ih _ (List.mem_cons_of_mem _ hl)

/-- The parts of a split text make the text again. -/
theorem intercalate_split (s : String) (sep : Char) :
    (String.singleton sep).intercalate (split s sep) = s := by
  have hid : (String.toList ∘ String.ofList) = id := by funext l; exact String.toList_ofList
  rw [← String.toList_inj, String.toList_intercalate, split, List.map_map, hid, List.map_id,
    String.toList_singleton, List.intercalate_splitOn]

theorem toList_intercalate_cons (sep s t : String) (l : List String) :
    (sep.intercalate (s :: t :: l)).toList =
      s.toList ++ sep.toList ++ (sep.intercalate (t :: l)).toList := by
  simp [String.toList_intercalate, List.intercalate]

/-- A join holds the characters of its parts and of the separator. -/
theorem not_mem_intercalate {c : Char} {sep : String} (hsep : c ∉ sep.toList) {l : List String}
    (hl : ∀ t ∈ l, c ∉ t.toList) : c ∉ (sep.intercalate l).toList := by
  induction l with
  | nil => simp
  | cons s l ih =>
    cases l with
    | nil =>
      have hs := hl s List.mem_cons_self
      simpa [String.toList_intercalate, List.intercalate] using hs
    | cons t l =>
      rw [toList_intercalate_cons, List.mem_append, List.mem_append, not_or, not_or]
      exact ⟨⟨hl s List.mem_cons_self, hsep⟩, ih fun u hu => hl u (List.mem_cons_of_mem _ hu)⟩

theorem mem_intercalate {c : Char} {sep t : String} {l : List String} (ht : t ∈ l)
    (hc : c ∈ t.toList) : c ∈ (sep.intercalate l).toList := by
  obtain ⟨i, hi⟩ := List.mem_iff_getElem?.mp (List.mem_map_of_mem (f := String.toList) ht)
  rw [String.toList_intercalate, List.intercalate]
  refine List.mem_flatten.mpr ⟨t.toList, List.mem_of_getElem? (i := 2 * i) ?_, hc⟩
  rw [List.getElem?_intersperse_two_mul]
  exact hi

/-- A join of several parts is not empty. -/
theorem intercalate_ne_empty (s t : String) (l : List String) :
    "/".intercalate (s :: t :: l) ≠ "" := by
  intro h
  have hl := congrArg String.toList h
  rw [toList_intercalate_cons] at hl
  simp at hl

/-- A text joined with a separator falls apart at it, and so does its first
part. -/
theorem split_intercalate (s : String) {l : List String} {sep : Char}
    (hl : ∀ t ∈ l, sep ∉ t.toList) :
    split ((String.singleton sep).intercalate (s :: l)) sep = split s sep ++ l := by
  induction l generalizing s with
  | nil => simp
  | cons t l ih =>
    have htail := ih t fun t' ht' => hl t' (List.mem_cons_of_mem _ ht')
    rw [split_eq_singleton (hl t List.mem_cons_self)] at htail
    rw [split, toList_intercalate_cons, String.toList_singleton, List.append_assoc,
      List.singleton_append, List.splitOn_append_cons_self, List.map_append]
    exact congrArg (split s sep ++ ·) htail

section Pad
variable {p : Char → Bool}

/-- The parts of a text with an end that is trimmed have it at most. -/
theorem splitOn_append_pad {b : List Char} {sep : Char} (hb : sep ∉ b) (l : List Char) :
    List.Forall₂ (fun u v => u = v ∨ u = v ++ b) ((l ++ b).splitOn sep) (l.splitOn sep) := by
  induction l with
  | nil =>
    rw [List.nil_append, List.splitOn_eq_singleton hb, List.splitOn_nil]
    exact .cons (.inr rfl) .nil
  | cons c l ih =>
    rw [List.cons_append, List.splitOn_cons_eq_if_modifyHead, List.splitOn_cons_eq_if_modifyHead]
    split
    · exact .cons (.inl rfl) ih
    · cases hl : l.splitOn sep with
      | nil => exact absurd hl (List.splitOn_ne_nil sep l)
      | cons v parts =>
        rw [hl] at ih
        obtain ⟨u, parts', hu, hparts, hsplit⟩ := List.forall₂_cons_right_iff.mp ih
        rw [hsplit, List.modifyHead_cons, List.modifyHead_cons]
        refine .cons ?_ hparts
        rcases hu with rfl | rfl
        · exact .inl rfl
        · exact .inr rfl

/-- What is trimmed at the ends of a text does not count for its trimmed parts. -/
theorem map_trim_splitOn_pad {a b : List Char} {sep : Char} (ha : ∀ c ∈ a, p c = true)
    (hb : ∀ c ∈ b, p c = true) (hsep : p sep = false) (l : List Char) :
    ((a ++ l ++ b).splitOn sep).map (trim p) = (l.splitOn sep).map (trim p) := by
  have hnot : ∀ c, p c = true → c ≠ sep := by
    rintro c hc rfl
    rw [hsep] at hc
    cases hc
  have hright : ((l ++ b).splitOn sep).map (trim p) = (l.splitOn sep).map (trim p) := by
    have hpad := splitOn_append_pad (fun h => hnot sep (hb sep h) rfl) l
    rw [← List.forall₂_eq_eq_eq, List.forall₂_map_left_iff, List.forall₂_map_right_iff]
    refine hpad.imp fun u v huv => ?_
    rcases huv with rfl | rfl
    · rfl
    · simpa using trim_pad (List.forall_mem_nil fun c => p c = true) hb v
  rw [← hright, List.append_assoc]
  induction a with
  | nil => rfl
  | cons c a ih =>
    have hc := ha c List.mem_cons_self
    rw [List.cons_append, List.splitOn_cons_eq_if_modifyHead,
      if_neg (by simpa using hnot c hc), ← ih fun d hd => ha d (List.mem_cons_of_mem _ hd)]
    cases (a ++ (l ++ b)).splitOn sep with
    | nil => rfl
    | cons u parts =>
      have hu := trim_pad (a := [c]) (b := []) (by simpa using hc) (by simp) u
      rw [List.modifyHead_cons, List.map_cons, List.map_cons]
      simpa using hu

end Pad

/-- White space around a text does not count for its stripped parts. -/
theorem map_strip_split_strip {sep : Char} (hsep : isSpace sep = false) (s : String) :
    (split (strip s) sep).map strip = (split s sep).map strip := by
  have hstrip : ∀ L : List (List Char),
      (L.map String.ofList).map strip = (L.map (trim isSpace)).map String.ofList := by
    intro L
    rw [List.map_map, List.map_map]
    exact List.map_congr_left fun l _ => by simp [strip, String.toList_ofList]
  obtain ⟨a, b, ha, hb, hs⟩ := exists_trimmed isSpace s.toList
  rw [split, split, hstrip, hstrip, toList_strip]
  conv_rhs => rw [hs]
  rw [map_trim_splitOn_pad ha hb hsep]

/-! ## Settled texts -/

theorem isSpace_head_flatMap {l : List Char} (h : ∀ c ∈ l.head?, isSpace c = false) :
    ∀ d ∈ (l.flatMap upperChar).head?, isSpace d = false := by
  intro d hd
  cases l with
  | nil => simp at hd
  | cons c l =>
    obtain ⟨x, xs, hx⟩ := List.exists_cons_of_ne_nil (upperChar_ne_nil c)
    simp only [List.flatMap_cons, hx, List.cons_append, List.head?_cons, Option.mem_def,
      Option.some.injEq] at hd
    exact isSpace_of_mem_upperChar (h c (by simp)) (by rw [hx, ← hd]; exact List.mem_cons_self)

theorem isSpace_getLast_flatMap {l : List Char} (h : ∀ c ∈ l.getLast?, isSpace c = false) :
    ∀ d ∈ (l.flatMap upperChar).getLast?, isSpace d = false := by
  intro d hd
  rcases List.eq_nil_or_concat l with rfl | ⟨l, c, rfl⟩
  · simp at hd
  · rw [List.concat_eq_append] at h hd
    rw [List.flatMap_append, List.flatMap_singleton,
      List.getLast?_append_of_ne_nil _ (upperChar_ne_nil c)] at hd
    exact isSpace_of_mem_upperChar (h c (by simp)) (List.mem_of_getLast? hd)

/-- The upper case of a stripped text has no white space at its ends. -/
theorem strip_upper_strip (s : String) : strip (upper (strip s)) = upper (strip s) := by
  rw [← String.toList_inj]
  simp only [toList_upper, toList_strip]
  exact trim_eq_self (isSpace_head_flatMap (head_trim _)) (isSpace_getLast_flatMap (getLast_trim _))

/-- `strip` and then `upper` settles a text: doing both again changes nothing. -/
theorem upper_strip_idem (s : String) : upper (strip (upper (strip s))) = upper (strip s) := by
  rw [strip_upper_strip, upper_upper]

end Py
