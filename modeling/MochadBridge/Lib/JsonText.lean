import MochadBridge.Lib.Dict
import MochadBridge.Lib.Json

/-!
# JSON texts

`loads` reads a JSON text the way `json.loads` does: `NaN` and the infinities
are numbers, a repeated key keeps its first place and its last value, control
characters must be escaped. The text of a number with a fraction or an exponent
is kept as it stands; half of a surrogate pair becomes U+FFFD.

The readers take a list of characters and return what they read with the rest.
Every level of nesting consumes a character, so the length of the text is
enough fuel for it. An interpreter limits the digits of an integer and the depth
of the nesting; `loads` reads without these limits.
-/

namespace Py.Json

/-! ## Strings -/

/-- The white space between tokens. -/
def isBlank (c : Char) : Bool := c == ' ' || c == '\t' || c == '\n' || c == '\r'

def skipBlanks (l : List Char) : List Char := l.dropWhile isBlank

/-- The value of a hexadecimal digit. -/
def hexDigit (c : Char) : Option Nat :=
  if '0' ≤ c ∧ c ≤ '9' then some (c.toNat - 48)
  else if 'a' ≤ c ∧ c ≤ 'f' then some (c.toNat - 87)
  else if 'A' ≤ c ∧ c ≤ 'F' then some (c.toNat - 55)
  else none

/-- The code unit of a `\uXXXX` escape. -/
def hexUnit (a b c d : Char) : Option Nat := do
  return ((← hexDigit a) * 16 + (← hexDigit b)) * 256 + (← hexDigit c) * 16 + (← hexDigit d)

/-- The character of a one-letter escape. -/
def escaped (c : Char) : Option Char :=
  [('"', '"'), ('\\', '\\'), ('/', '/'), ('b', '\x08'), ('f', '\x0c'), ('n', '\n'), ('r', '\r'),
    ('t', '\t')].lookup c

/-- The code units up to the closing quote. -/
def readUnits : List Char → Option (List Nat × List Char)
  | [] => none
  | '"' :: rest => some ([], rest)
  | '\\' :: 'u' :: a :: b :: c :: d :: rest => do
    let unit ← hexUnit a b c d
    let (units, rest) ← readUnits rest
    return (unit :: units, rest)
  | '\\' :: c :: rest => do
    let c ← escaped c
    let (units, rest) ← readUnits rest
    return (c.toNat :: units, rest)
  | c :: rest =>
    if c.toNat < 32 ∨ c = '\\' then none
    else do
      let (units, rest) ← readUnits rest
      return (c.toNat :: units, rest)

/-- The characters of code units, surrogate pairs joined. -/
def joinUnits : List Nat → List Char
  | [] => []
  | [unit] => [if 0xD800 ≤ unit ∧ unit < 0xE000 then '\uFFFD' else Char.ofNat unit]
  | unit :: low :: rest =>
    if 0xD800 ≤ unit ∧ unit < 0xDC00 ∧ 0xDC00 ≤ low ∧ low < 0xE000 then
      Char.ofNat (0x10000 + (unit - 0xD800) * 1024 + (low - 0xDC00)) :: joinUnits rest
    else
      (if 0xD800 ≤ unit ∧ unit < 0xE000 then '\uFFFD' else Char.ofNat unit) ::
        joinUnits (low :: rest)

/-- A string after its opening quote. -/
def readString (l : List Char) : Option (String × List Char) := do
  let (units, rest) ← readUnits l
  return (String.ofList (joinUnits units), rest)

/-! ## Numbers -/

def isDigit (c : Char) : Bool := '0' ≤ c && c ≤ '9'

/-- A run of digits and what follows it. -/
def spanDigits (l : List Char) : List Char × List Char := l.span isDigit

/-- `-?(0|[1-9]\d*)`. -/
def readInteger (l : List Char) : Option (List Char × List Char) :=
  let (sign, l) := match l with
    | '-' :: rest => (['-'], rest)
    | _ => ([], l)
  match l with
  | '0' :: rest => some (sign ++ ['0'], rest)
  | c :: rest =>
    if isDigit c then some (sign ++ c :: (spanDigits rest).1, (spanDigits rest).2) else none
  | [] => none

/-- `(\.\d+)?`. -/
def readFraction : List Char → List Char × List Char
  | '.' :: c :: rest =>
    if isDigit c then ('.' :: c :: (spanDigits rest).1, (spanDigits rest).2)
    else ([], '.' :: c :: rest)
  | l => ([], l)

/-- `([eE][-+]?\d+)?`. -/
def readExponent (l : List Char) : List Char × List Char :=
  match l with
  | e :: rest =>
    if e = 'e' ∨ e = 'E' then
      let (sign, digits) := match rest with
        | '+' :: rest => (['+'], rest)
        | '-' :: rest => (['-'], rest)
        | _ => ([], rest)
      match spanDigits digits with
      | ([], _) => ([], l)
      | (ds, rest) => (e :: sign ++ ds, rest)
    else ([], l)
  | [] => ([], l)

/-! ## Limits -/

/-- Why a text is not read: it is malformed, or it meets a limit of the
interpreter. -/
inductive Fault where
  | malformed
  | longInteger
  | tooDeep
  deriving DecidableEq, Repr

/-- The limits of the interpreter: how many digits it converts to an integer, and
how many levels of nesting it recurses into. -/
structure Limits where
  digits : Option Nat := none
  depth : Option Nat := none

/-- The limits inside one more array or object. -/
def Limits.inner (limits : Limits) : Except Fault Limits :=
  match limits.depth with
  | none => .ok limits
  | some 0 => .error .tooDeep
  | some (depth + 1) => .ok { limits with depth := some depth }

/-- The result of a reader that fails on malformed text only. -/
def orMalformed {α : Type} (result : Option α) : Except Fault α :=
  match result with
  | some r => .ok r
  | none => .error .malformed

/-- A number: an integer unless it has a fraction or an exponent. -/
def readNumber (limits : Limits) (l : List Char) : Except Fault (Json × List Char) := do
  let (digits, rest) ← orMalformed (readInteger l)
  let (fraction, rest) := readFraction rest
  let (exponent, rest) := readExponent rest
  if fraction ++ exponent = [] then
    if limits.digits.any (· < (digits.filter isDigit).length) then throw .longInteger
    let n ← orMalformed (int? (String.ofList digits))
    return (.int n, rest)
  else return (.float (String.ofList (digits ++ fraction ++ exponent)), rest)

/-! ## Values -/

/-- The constants of `json.loads`. -/
def constants : List (String × Json) :=
  [("null", .null), ("true", .bool true), ("false", .bool false), ("NaN", .float "nan"),
    ("Infinity", .float "inf"), ("-Infinity", .float "-inf")]

/-- A constant at the front of the text. -/
def readConstant (l : List Char) : Option (Json × List Char) := do
  let (name, value) ← constants.find? fun e => e.1.toList.isPrefixOf l
  return (value, l.drop name.length)

mutual
/-- One value. -/
def readValue : Limits → Nat → List Char → Except Fault (Json × List Char)
  | _, 0, _ => .error .malformed
  | limits, fuel + 1, l =>
    match l with
    | '"' :: rest => do
      let (s, rest) ← orMalformed (readString rest)
      return (.str s, rest)
    | '{' :: rest => do
      let limits ← limits.inner
      match skipBlanks rest with
      | '}' :: rest => return (.obj [], rest)
      | rest =>
        let (fields, rest) ← readFields limits fuel rest
        return (.obj (Dict.ofPairs fields).entries, rest)
    | '[' :: rest => do
      let limits ← limits.inner
      match skipBlanks rest with
      | ']' :: rest => return (.arr [], rest)
      | rest =>
        let (items, rest) ← readItems limits fuel rest
        return (.arr items, rest)
    | _ =>
      match readConstant l with
      | some r => .ok r
      | none => readNumber limits l

/-- The items of an array, up to its closing bracket. -/
def readItems : Limits → Nat → List Char → Except Fault (List Json × List Char)
  | _, 0, _ => .error .malformed
  | limits, fuel + 1, l => do
    let (item, rest) ← readValue limits fuel l
    match skipBlanks rest with
    | ']' :: rest => return ([item], rest)
    | ',' :: rest =>
      let (items, rest) ← readItems limits fuel (skipBlanks rest)
      return (item :: items, rest)
    | _ => throw .malformed

/-- The fields of an object, up to its closing brace. -/
def readFields : Limits → Nat → List Char → Except Fault (List (String × Json) × List Char)
  | _, 0, _ => .error .malformed
  | limits, fuel + 1, l =>
    match l with
    | '"' :: rest => do
      let (name, rest) ← orMalformed (readString rest)
      match skipBlanks rest with
      | ':' :: rest =>
        let (value, rest) ← readValue limits fuel (skipBlanks rest)
        match skipBlanks rest with
        | '}' :: rest => return ([(name, value)], rest)
        | ',' :: rest =>
          let (fields, rest) ← readFields limits fuel (skipBlanks rest)
          return ((name, value) :: fields, rest)
        | _ => throw .malformed
      | _ => throw .malformed
    | _ => .error .malformed
end

/-- `json.loads(text)` of an interpreter with limits. -/
def loadsWithin (limits : Limits) (text : String) : Except Fault Json := do
  let (value, rest) ← readValue limits (text.length + 1) (skipBlanks text.toList)
  if skipBlanks rest = [] then return value else throw .malformed

/-- `json.loads(text)`, `none` where it raises `JSONDecodeError`. -/
def loads (text : String) : Option Json := (loadsWithin {} text).toOption

example : loads "\x7b\"usb_connected\": true, \"uptime\": [1, -2.5e3, \"\\u00e9\\n\"]\x7d" =
    some (.obj [("usb_connected", .bool true),
      ("uptime", .arr [.int 1, .float "-2.5e3", .str "é\n"])]) := by
  decide +kernel

end Py.Json
