import MochadBridge.Lib.Text

/-!
# JSON values

The values `json.loads` returns and `json.dumps` takes. A float is kept by its
text, the fields of an object in their order. `pyStr` is `str(value)` of such a
value.
-/

namespace Py

/-- A JSON value. -/
inductive Json where
  | null
  | bool (b : Bool)
  | int (n : Int)
  | float (text : String)
  | str (s : String)
  | arr (items : List Json)
  | obj (fields : List (String × Json))

namespace Json

/-! ## Equality is decidable -/

mutual
def decEq : (a b : Json) → Decidable (a = b)
  | .null, .null => isTrue rfl
  | .bool a, .bool b =>
    if h : a = b then isTrue (by rw [h]) else isFalse (by simp [h])
  | .int a, .int b =>
    if h : a = b then isTrue (by rw [h]) else isFalse (by simp [h])
  | .float a, .float b =>
    if h : a = b then isTrue (by rw [h]) else isFalse (by simp [h])
  | .str a, .str b =>
    if h : a = b then isTrue (by rw [h]) else isFalse (by simp [h])
  | .arr a, .arr b =>
    match decEqItems a b with
    | isTrue h => isTrue (by rw [h])
    | isFalse h => isFalse (by simp [h])
  | .obj a, .obj b =>
    match decEqFields a b with
    | isTrue h => isTrue (by rw [h])
    | isFalse h => isFalse (by simp [h])
  | .null, .bool _ | .null, .int _ | .null, .float _ | .null, .str _ | .null, .arr _
  | .null, .obj _ | .bool _, .null | .bool _, .int _ | .bool _, .float _ | .bool _, .str _
  | .bool _, .arr _ | .bool _, .obj _ | .int _, .null | .int _, .bool _ | .int _, .float _
  | .int _, .str _ | .int _, .arr _ | .int _, .obj _ | .float _, .null | .float _, .bool _
  | .float _, .int _ | .float _, .str _ | .float _, .arr _ | .float _, .obj _ | .str _, .null
  | .str _, .bool _ | .str _, .int _ | .str _, .float _ | .str _, .arr _ | .str _, .obj _
  | .arr _, .null | .arr _, .bool _ | .arr _, .int _ | .arr _, .float _ | .arr _, .str _
  | .arr _, .obj _ | .obj _, .null | .obj _, .bool _ | .obj _, .int _ | .obj _, .float _
  | .obj _, .str _ | .obj _, .arr _ => isFalse (by simp)

def decEqItems : (a b : List Json) → Decidable (a = b)
  | [], [] => isTrue rfl
  | [], _ :: _ | _ :: _, [] => isFalse (by simp)
  | x :: a, y :: b =>
    match decEq x y, decEqItems a b with
    | isTrue h, isTrue h' => isTrue (by rw [h, h'])
    | isFalse h, _ => isFalse (by simp [h])
    | _, isFalse h => isFalse (by simp [h])

def decEqFields : (a b : List (String × Json)) → Decidable (a = b)
  | [], [] => isTrue rfl
  | [], _ :: _ | _ :: _, [] => isFalse (by simp)
  | (k, x) :: a, (l, y) :: b =>
    if hk : k = l then
      match decEq x y, decEqFields a b with
      | isTrue h, isTrue h' => isTrue (by rw [hk, h, h'])
      | isFalse h, _ => isFalse (by simp [h])
      | _, isFalse h => isFalse (by simp [h])
    else isFalse (by simp [hk])
end

instance : DecidableEq Json := decEq

/-! ## Access -/

/-- `payload.get(field)` of an object, `none` where the key is absent. -/
def field? (fields : List (String × Json)) (name : String) : Option Json := fields.lookup name

/-- `value is True`. -/
def isTrue : Json → Bool
  | .bool true => true
  | _ => false

/-- `value is False`. -/
def isFalse : Json → Bool
  | .bool false => true
  | _ => false

/-! ## `str(value)` -/

/-- The escape of one character inside a quoted string. -/
def escapeChar (quote c : Char) : List Char :=
  if c = quote ∨ c = '\\' then ['\\', c]
  else if c = '\n' then ['\\', 'n']
  else if c = '\r' then ['\\', 'r']
  else if c = '\t' then ['\\', 't']
  else if c.toNat < 32 ∨ c.toNat = 127 then
    ['\\', 'x', Nat.digitChar (c.toNat / 16), Nat.digitChar (c.toNat % 16)]
  else [c]

/-- `repr(s)`: double quotes only when the text has a single and no double one. -/
def reprStr (s : String) : String :=
  let quote := if '\'' ∈ s.toList ∧ '"' ∉ s.toList then '"' else '\''
  String.ofList (quote :: s.toList.flatMap (escapeChar quote) ++ [quote])

mutual
/-- `repr(value)`. -/
def pyRepr : Json → String
  | .null => "None"
  | .bool b => if b then "True" else "False"
  | .int n => toString n
  | .float text => text
  | .str s => reprStr s
  | .arr items => "[" ++ ", ".intercalate (reprItems items) ++ "]"
  | .obj fields => "\x7b" ++ ", ".intercalate (reprFields fields) ++ "\x7d"

def reprItems : List Json → List String
  | [] => []
  | x :: items => pyRepr x :: reprItems items

def reprFields : List (String × Json) → List String
  | [] => []
  | (k, x) :: fields => (reprStr k ++ ": " ++ pyRepr x) :: reprFields fields
end

/-- `str(value)`. -/
def pyStr : Json → String
  | .str s => s
  | v => pyRepr v

end Json

end Py
