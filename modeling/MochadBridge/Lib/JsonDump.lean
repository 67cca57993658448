import Mathlib.Data.List.TakeDrop
import MochadBridge.Lib.JsonText

/-!
# Writing JSON texts

`dumps` writes a value the way `json.dumps` does with an indent of two: ASCII
only, every other character as the escapes of its UTF-16 code units. The keys of
an object are written in the order they have.

Results:
1. `readString_write`: a written string is read back, whatever follows it.
2. `readsBack_arr`, `readsBack_obj`: so are arrays and objects, if their parts are.
3. `loadsWithin_dumps`: then `loads` gives the value back.
-/

namespace Py.Json

/-! ## Strings -/

/-- The escape of a code unit. -/
def unitEscape (unit : Nat) : List Char :=
  ['\\', 'u', Nat.digitChar (unit / 4096), Nat.digitChar (unit / 256 % 16),
    Nat.digitChar (unit / 16 % 16), Nat.digitChar (unit % 16)]

/-- The code units of a character. -/
def unitsOf (c : Char) : List Nat :=
  if c.toNat < 0x10000 then [c.toNat]
  else [0xD800 + (c.toNat - 0x10000) / 1024, 0xDC00 + (c.toNat - 0x10000) % 1024]

/-- The letter of a short escape. -/
def shortEscape (c : Char) : Option Char :=
  [('"', '"'), ('\\', '\\'), ('\n', 'n'), ('\r', 'r'), ('\t', 't'), ('\x08', 'b'),
    ('\x0c', 'f')].lookup c

/-- One character inside a string. -/
def writeChar (c : Char) : List Char :=
  match shortEscape c with
  | some letter => ['\\', letter]
  | none => if 32 ≤ c.toNat ∧ c.toNat < 127 then [c] else (unitsOf c).flatMap unitEscape

/-- A quoted string. -/
def writeString (s : String) : List Char := '"' :: s.toList.flatMap writeChar ++ ['"']

/-! ## Values -/

/-- The text of a float: the names of the constants, else its own. -/
def writeFloat (text : String) : List Char :=
  if text = "nan" then "NaN".toList
  else if text = "inf" then "Infinity".toList
  else if text = "-inf" then "-Infinity".toList
  else text.toList

/-- A line break and the indentation of a level. -/
def newline (level : Nat) : List Char := '\n' :: List.replicate (2 * level) ' '

mutual
/-- One value, its lines after the first indented. -/
def writeValue (level : Nat) : Json → List Char
  | .null => "null".toList
  | .bool b => if b then "true".toList else "false".toList
  | .int n => (toString n).toList
  | .float text => writeFloat text
  | .str s => writeString s
  | .arr [] => "[]".toList
  | .arr (item :: items) =>
    '[' :: newline (level + 1) ++ writeValue (level + 1) item ++ writeItems (level + 1) items ++
      newline level ++ [']']
  | .obj [] => "\x7b\x7d".toList
  | .obj ((key, value) :: fields) =>
    '{' :: newline (level + 1) ++ writeString key ++ [':', ' '] ++
      writeValue (level + 1) value ++ writeFields (level + 1) fields ++ newline level ++ ['}']

/-- The items after the first one. -/
def writeItems (level : Nat) : List Json → List Char
  | [] => []
  | item :: items => ',' :: newline level ++ writeValue level item ++ writeItems level items

/-- The fields after the first one. -/
def writeFields (level : Nat) : List (String × Json) → List Char
  | [] => []
  | (key, value) :: fields =>
    ',' :: newline level ++ writeString key ++ [':', ' '] ++ writeValue level value ++
      writeFields level fields
end

/-- `json.dumps(value, indent=2)`. -/
def dumps (value : Json) : String := String.ofList (writeValue 0 value)

example : dumps (.obj [("topics", .arr [.obj [("topic", .str "é\n")]]), ("version", .int 1)]) =
    "\x7b\n  \"topics\": [\n    \x7b\n      \"topic\": \"\\u00e9\\n\"\n    \x7d\n  ],\n" ++
      "  \"version\": 1\n\x7d" := by
  decide +kernel

/-! ## Reading strings back -/

theorem hexDigit_digitChar : ∀ n < 16, hexDigit (Nat.digitChar n) = some n := by decide

theorem hexUnit_escape {unit : Nat} (h : unit < 0x10000) :
    hexUnit (Nat.digitChar (unit / 4096)) (Nat.digitChar (unit / 256 % 16))
      (Nat.digitChar (unit / 16 % 16)) (Nat.digitChar (unit % 16)) = some unit := by
  simp only [hexUnit, hexDigit_digitChar _ (show unit / 4096 < 16 by omega),
    hexDigit_digitChar _ (show unit / 256 % 16 < 16 by omega),
    hexDigit_digitChar _ (show unit / 16 % 16 < 16 by omega),
    hexDigit_digitChar _ (show unit % 16 < 16 by omega)]
  show some _ = some unit
  rw [Option.some.injEq]
  omega

/-- The units of a text, put in front of what is read after them. -/
def after (units : List Nat) (result : Option (List Nat × List Char)) :
    Option (List Nat × List Char) :=
  result.map fun r => (units ++ r.1, r.2)

theorem readUnits_escape {unit : Nat} (h : unit < 0x10000) (rest : List Char) :
    readUnits (unitEscape unit ++ rest) = after [unit] (readUnits rest) := by
  simp only [unitEscape, List.cons_append, List.nil_append, readUnits, hexUnit_escape h]
  show (readUnits rest).bind _ = _
  cases readUnits rest <;> rfl

/-- The code points of characters leave out the surrogates. -/
theorem toNat_cases (c : Char) : c.toNat < 0xD800 ∨ 0xDFFF < c.toNat ∧ c.toNat < 0x110000 := c.valid

theorem unitsOf_lt (c : Char) : ∀ unit ∈ unitsOf c, unit < 0x10000 := by
  have hc := toNat_cases c
  unfold unitsOf
  split
  · simpa using ‹_›
  · simp only [List.mem_cons, List.not_mem_nil, or_false]
    rintro unit (h | h) <;> omega

theorem after_append (us vs : List Nat) (result : Option (List Nat × List Char)) :
    after us (after vs result) = after (us ++ vs) result := by
  cases result <;> simp [after]

theorem readUnits_escapes (units : List Nat) (h : ∀ unit ∈ units, unit < 0x10000)
    (rest : List Char) :
    readUnits (units.flatMap unitEscape ++ rest) = after units (readUnits rest) := by
  induction units with
  | nil => cases h : readUnits rest <;> simp [after, h]
  | cons unit units ih =>
    rw [List.flatMap_cons, List.append_assoc, readUnits_escape (h unit List.mem_cons_self),
      ih fun u hu => h u (List.mem_cons_of_mem _ hu), after_append]
    rfl

theorem readUnits_plain {c : Char} (hquote : c ≠ '"') (hslash : c ≠ '\\') (hc : 32 ≤ c.toNat)
    (rest : List Char) : readUnits (c :: rest) = after [c.toNat] (readUnits rest) := by
  have hplain : ¬ (c.toNat < 32 ∨ c = '\\') := by
    rintro (h | h)
    · omega
    · exact hslash h
  rw [readUnits]
  · rw [if_neg hplain]
    show (readUnits rest).bind _ = _
    cases readUnits rest <;> rfl
  all_goals simp [hquote, hslash]

theorem mem_of_shortEscape {c letter : Char} (h : shortEscape c = some letter) :
    (c, letter) ∈ [('"', '"'), ('\\', '\\'), ('\n', 'n'), ('\r', 'r'), ('\t', 't'),
      ('\x08', 'b'), ('\x0c', 'f')] := by
  obtain ⟨l₁, l₂, hlist, _⟩ := List.lookup_eq_some_iff.mp h
  rw [hlist]
  exact List.mem_append_right _ List.mem_cons_self

theorem readUnits_char (c : Char) (rest : List Char) :
    readUnits (writeChar c ++ rest) = after (unitsOf c) (readUnits rest) := by
  unfold writeChar
  cases hshort : shortEscape c with
  | some letter =>
    have hmem := mem_of_shortEscape hshort
    simp only [List.mem_cons, List.not_mem_nil, or_false, Prod.mk.injEq] at hmem
    have hescape : ∀ l : List Char, letter ≠ 'u' → escaped letter = some c →
        readUnits ('\\' :: letter :: l) = after [c.toNat] (readUnits l) := by
      intro l hu he
      rw [readUnits]
      · rw [he]
        show (readUnits l).bind _ = _
        cases readUnits l <;> rfl
      · simp [hu]
    have hunits : unitsOf c = [c.toNat] := by
      rcases hmem with h | h | h | h | h | h | h <;> rw [h.1] <;> rfl
    rw [hunits]
    refine hescape rest ?_ ?_ <;>
      rcases hmem with h | h | h | h | h | h | h <;> rw [h.2] <;> try rw [h.1]
    all_goals decide
  | none =>
    dsimp only
    split
    · next hascii =>
      have hquote : c ≠ '"' := by
        rintro rfl
        exact absurd hshort (by decide)
      have hslash : c ≠ '\\' := by
        rintro rfl
        exact absurd hshort (by decide)
      rw [List.singleton_append, readUnits_plain hquote hslash hascii.1, unitsOf,
        if_pos (by omega)]
    · exact readUnits_escapes _ (unitsOf_lt c) rest

/-! ### Joining units -/

theorem joinUnits_char (c : Char) (units : List Nat) :
    joinUnits (unitsOf c ++ units) = c :: joinUnits units := by
  have hc := toNat_cases c
  unfold unitsOf
  split
  · have hunit : ¬ (0xD800 ≤ c.toNat ∧ c.toNat < 0xE000) := by omega
    have hpair : ∀ low : Nat, ¬ (0xD800 ≤ c.toNat ∧ c.toNat < 0xDC00 ∧ 0xDC00 ≤ low ∧
        low < 0xE000) := by
      intro low
      omega
    rw [List.singleton_append]
    cases units with
    | nil => simp only [joinUnits, if_neg hunit, Char.ofNat_toNat]
    | cons low units => rw [joinUnits, if_neg (hpair low), if_neg hunit, Char.ofNat_toNat]
  · have hpair : 0x10000 + (0xD800 + (c.toNat - 0x10000) / 1024 - 0xD800) * 1024 +
        (0xDC00 + (c.toNat - 0x10000) % 1024 - 0xDC00) = c.toNat := by
      omega
    rw [List.cons_append, List.singleton_append, joinUnits, if_pos (by omega), hpair,
      Char.ofNat_toNat]

theorem joinUnits_unitsOf (l : List Char) : joinUnits (l.flatMap unitsOf) = l := by
  induction l with
  | nil => rfl
  | cons c l ih => rw [List.flatMap_cons, joinUnits_char, ih]

/-- A written string is read back. -/
theorem readString_write (s : String) (rest : List Char) :
    readString (s.toList.flatMap writeChar ++ '"' :: rest) = some (s, rest) := by
  have hunits : ∀ l : List Char, readUnits (l.flatMap writeChar ++ '"' :: rest) =
      some (l.flatMap unitsOf, rest) := by
    intro l
    induction l with
    | nil => rfl
    | cons c l ih =>
      rw [List.flatMap_cons, List.append_assoc, readUnits_char, ih]
      rfl
  rw [readString, hunits]
  show some (String.ofList (joinUnits (s.toList.flatMap unitsOf)), rest) = _
  rw [joinUnits_unitsOf, String.ofList_toList]

/-! ## Reading values back -/

theorem skipBlanks_newline (level : Nat) {c : Char} (hc : isBlank c = false) (rest : List Char) :
    skipBlanks (newline level ++ c :: rest) = c :: rest := by
  have hspaces : ∀ n : Nat, skipBlanks (List.replicate n ' ' ++ c :: rest) = c :: rest := by
    intro n
    induction n with
    | zero => exact List.dropWhile_cons_of_neg (by simp [hc])
    | succ n ih =>
      rw [List.replicate_succ, List.cons_append, skipBlanks, List.dropWhile_cons_of_pos (by decide)]
      exact ih
  rw [newline, List.cons_append, skipBlanks, List.dropWhile_cons_of_pos (by decide)]
  exact hspaces _

theorem skipBlanks_of_not {c : Char} (hc : isBlank c = false) (rest : List Char) :
    skipBlanks (c :: rest) = c :: rest :=
  List.dropWhile_cons_of_neg (by simp [hc])

section Steps
variable {limits limits' : Limits} {fuel : Nat} {l l₁ l₂ l₃ rest : List Char} {v : Json}

theorem readItems_last (hv : readValue limits fuel l = .ok (v, l₁))
    (hl : skipBlanks l₁ = ']' :: rest) : readItems limits (fuel + 1) l = .ok ([v], rest) := by
  simp only [readItems, hv, bind, Except.bind, hl, pure, Except.pure]

theorem readItems_more {items : List Json} (hv : readValue limits fuel l = .ok (v, l₁))
    (hl : skipBlanks l₁ = ',' :: l₂)
    (hrest : readItems limits fuel (skipBlanks l₂) = .ok (items, rest)) :
    readItems limits (fuel + 1) l = .ok (v :: items, rest) := by
  simp only [readItems, hv, bind, Except.bind, hl, hrest, pure, Except.pure]

theorem readValue_arr {items : List Json} {c : Char} (hinner : limits.inner = .ok limits')
    (hl : skipBlanks l = c :: l₁) (hc : c ≠ ']')
    (hitems : readItems limits' fuel (c :: l₁) = .ok (items, rest)) :
    readValue limits (fuel + 1) ('[' :: l) = .ok (.arr items, rest) := by
  simp only [readValue, hinner, bind, Except.bind, hl]
  split
  · next heq => exact absurd (List.cons.inj heq).1 hc
  · simp only [hitems, pure, Except.pure]

theorem readFields_last {key : String} (hkey : readString l = some (key, ':' :: l₁))
    (hv : readValue limits fuel (skipBlanks l₁) = .ok (v, l₂))
    (hl : skipBlanks l₂ = '}' :: rest) :
    readFields limits (fuel + 1) ('"' :: l) = .ok ([(key, v)], rest) := by
  have hcolon : skipBlanks (':' :: l₁) = ':' :: l₁ := List.dropWhile_cons_of_neg (by decide)
  simp only [readFields, hkey, orMalformed, bind, Except.bind, hcolon, hv, hl, pure, Except.pure]

theorem readFields_more {key : String} {fields : List (String × Json)}
    (hkey : readString l = some (key, ':' :: l₁))
    (hv : readValue limits fuel (skipBlanks l₁) = .ok (v, l₂))
    (hl : skipBlanks l₂ = ',' :: l₃)
    (hrest : readFields limits fuel (skipBlanks l₃) = .ok (fields, rest)) :
    readFields limits (fuel + 1) ('"' :: l) = .ok ((key, v) :: fields, rest) := by
  have hcolon : skipBlanks (':' :: l₁) = ':' :: l₁ := List.dropWhile_cons_of_neg (by decide)
  simp only [readFields, hkey, orMalformed, bind, Except.bind, hcolon, hv, hl, hrest, pure,
    Except.pure]

theorem readValue_obj {fields : List (String × Json)} (hinner : limits.inner = .ok limits')
    (hl : skipBlanks l = '"' :: l₁)
    (hfields : readFields limits' fuel ('"' :: l₁) = .ok (fields, rest)) :
    readValue limits (fuel + 1) ('{' :: l) = .ok (.obj (Dict.ofPairs fields).entries, rest) := by
  simp only [readValue, hinner, bind, Except.bind, hl]
  split
  · next heq => exact absurd (List.cons.inj heq).1 (by decide)
  · simp only [hfields, pure, Except.pure]

end Steps

/-- A number before the text ends there. -/
def Stops (rest : List Char) : Prop :=
  ∀ c ∈ rest.head?, isDigit c = false ∧ c ≠ '.' ∧ c ≠ 'e' ∧ c ≠ 'E'

theorem stops_cons {c : Char} (h : c ∈ [',', '\n']) (rest : List Char) : Stops (c :: rest) := by
  intro d hd
  rw [List.head?_cons, Option.mem_some_iff] at hd
  subst hd
  simp only [List.mem_cons, List.not_mem_nil, or_false] at h
  rcases h with rfl | rfl <;> decide

theorem spanDigits_stops {rest : List Char} (h : Stops rest) : spanDigits rest = ([], rest) := by
  cases rest with
  | nil => rfl
  | cons c rest =>
    have hc := (h c rfl).1
    simp only [spanDigits, List.span_eq_takeWhile_dropWhile, List.takeWhile_cons,
      List.dropWhile_cons, hc, Bool.false_eq_true, if_false]

theorem readFraction_stops {rest : List Char} (h : Stops rest) : readFraction rest = ([], rest) := by
  cases rest with
  | nil => rfl
  | cons c rest =>
    have hc := (h c rfl).2.1
    unfold readFraction
    split
    · next heq => exact absurd (List.cons.inj heq).1 hc
    · rfl

theorem readExponent_stops {rest : List Char} (h : Stops rest) : readExponent rest = ([], rest) := by
  cases rest with
  | nil => rfl
  | cons c rest =>
    obtain ⟨_, _, he, hE⟩ := h c rfl
    simp [readExponent, he, hE]

/-- A character of ASCII that is no carriage return. -/
def Plain (c : Char) : Prop := c.toNat < 128 ∧ c ≠ '\r'

instance (c : Char) : Decidable (Plain c) := inferInstanceAs (Decidable (_ ∧ _))

theorem plain_newline (level : Nat) : ∀ c ∈ newline level, Plain c := by
  intro c hc
  rcases List.mem_cons.mp hc with rfl | hc
  · decide
  · obtain rfl := List.eq_of_mem_replicate hc
    decide

theorem plain_digitChar : ∀ n < 16, Plain (Nat.digitChar n) := by decide

theorem plain_unitEscape {unit : Nat} (h : unit < 0x10000) : ∀ c ∈ unitEscape unit, Plain c := by
  intro c hc
  simp only [unitEscape, List.mem_cons, List.not_mem_nil, or_false] at hc
  rcases hc with rfl | rfl | rfl | rfl | rfl | rfl
  · decide
  · decide
  all_goals exact plain_digitChar _ (by omega)

theorem plain_writeChar (c : Char) : ∀ d ∈ writeChar c, Plain d := by
  intro d hd
  unfold writeChar at hd
  cases hshort : shortEscape c with
  | some letter =>
    have hmem := mem_of_shortEscape hshort
    rw [hshort] at hd
    simp only [List.mem_cons, List.not_mem_nil, or_false, Prod.mk.injEq] at hd hmem
    rcases hd with rfl | rfl
    · decide
    · rcases hmem with h | h | h | h | h | h | h <;> rw [h.2] <;> decide
  | none =>
    rw [hshort] at hd
    dsimp only at hd
    split at hd
    · next hascii =>
      obtain rfl := List.mem_singleton.mp hd
      refine ⟨by omega, ?_⟩
      rintro rfl
      exact absurd hascii.1 (by decide)
    · obtain ⟨unit, hunit, hd⟩ := List.mem_flatMap.mp hd
      exact plain_unitEscape (unitsOf_lt c unit hunit) d hd

theorem plain_writeString (s : String) : ∀ c ∈ writeString s, Plain c := by
  intro c hc
  simp only [writeString, List.mem_append, List.mem_cons, List.not_mem_nil, or_false,
    List.mem_flatMap] at hc
  rcases hc with (rfl | ⟨d, _, hc⟩) | rfl
  · decide
  · exact plain_writeChar d c hc
  · decide

/-- The text of the value is plain, begins like one, and is read back, unless what
follows goes on with a number. The length of the text is enough fuel. -/
structure ReadsBack (limits : Limits) (level : Nat) (v : Json) : Prop where
  plain : ∀ c ∈ writeValue level v, Plain c
  head : ∃ c l, writeValue level v = c :: l ∧ isBlank c = false ∧ c ≠ ']'
  read : ∀ fuel rest, (writeValue level v).length ≤ fuel → Stops rest →
    readValue limits fuel (writeValue level v ++ rest) = .ok (v, rest)

section Values
variable {limits limits' : Limits} {level : Nat}

/-- The value is read after a line break, too. -/
theorem ReadsBack.skip {v : Json} (h : ReadsBack limits level v) (n : Nat) (rest : List Char) :
    skipBlanks (newline n ++ (writeValue level v ++ rest)) = writeValue level v ++ rest := by
  obtain ⟨c, l, hwrite, hblank, _⟩ := h.head
  rw [hwrite, List.cons_append]
  exact skipBlanks_newline n hblank _

theorem readsBack_str (s : String) : ReadsBack limits level (.str s) where
  plain := plain_writeString s
  head := ⟨'"', _, rfl, by decide, by decide⟩
  read fuel rest hfuel _ := by
    have hread := readString_write s rest
    have hquoted : writeValue level (.str s) ++ rest =
        '"' :: (s.toList.flatMap writeChar ++ '"' :: rest) := by
      simp only [writeValue, writeString, List.cons_append, List.append_assoc, List.nil_append]
    cases fuel with
    | zero => exact absurd hfuel (by simp [writeValue, writeString])
    | succ fuel =>
      rw [hquoted, readValue, hread]
      rfl

theorem length_newline (n : Nat) : 1 ≤ (newline n).length := by
  rw [newline, List.length_cons]
  omega

/-- The items of an array after the first one, if each of them is read back. -/
theorem readItems_write {items : List Json} (h : ∀ v ∈ items, ReadsBack limits level v) {v : Json}
    (hv : ReadsBack limits level v) (fuel n : Nat) (rest : List Char)
    (hfuel : (writeValue level v).length + (writeItems level items).length + 1 ≤ fuel) :
    readItems limits fuel
      (writeValue level v ++ (writeItems level items ++ newline n ++ ']' :: rest)) =
      .ok (v :: items, rest) := by
  induction items generalizing v fuel with
  | nil =>
    obtain ⟨fuel, rfl⟩ := Nat.exists_eq_add_of_le' (Nat.le_of_add_left_le hfuel)
    refine readItems_last (hv.read fuel _ (by omega) (stops_cons (by simp) _)) ?_
    rw [writeItems, List.nil_append]
    exact skipBlanks_newline n (by decide) rest
  | cons w items ih =>
    have hw := h w List.mem_cons_self
    have hrest := @ih (fun u hu => h u (List.mem_cons_of_mem _ hu)) w hw
    obtain ⟨fuel, rfl⟩ := Nat.exists_eq_add_of_le' (Nat.le_of_add_left_le hfuel)
    have hnewline := length_newline level
    simp only [writeItems, List.length_append, List.length_cons] at hfuel
    set tail := writeItems level items ++ newline n ++ ']' :: rest with htail
    have hitems : writeItems level (w :: items) ++ newline n ++ ']' :: rest =
        ',' :: (newline level ++ (writeValue level w ++ tail)) := by
      simp only [writeItems, htail, List.append_assoc, List.cons_append]
    rw [hitems]
    refine readItems_more (hv.read fuel _ (by omega) (stops_cons (by simp) _))
      (List.dropWhile_cons_of_neg (by decide)) ?_
    rw [hw.skip, hrest fuel (by omega)]

theorem plain_writeItems {items : List Json} (h : ∀ v ∈ items, ReadsBack limits level v) :
    ∀ c ∈ writeItems level items, Plain c := by
  intro c hc
  induction items with
  | nil => exact absurd hc List.not_mem_nil
  | cons v items ih =>
    simp only [writeItems, List.mem_append, List.mem_cons] at hc
    rcases hc with ((rfl | hc) | hc) | hc
    · decide
    · exact plain_newline level c hc
    · exact (h v List.mem_cons_self).plain c hc
    · exact ih (fun w hw => h w (List.mem_cons_of_mem _ hw)) hc

/-- An array is read back if its items are. -/
theorem readsBack_arr {items : List Json} (hinner : limits.inner = .ok limits')
    (h : ∀ v ∈ items, ReadsBack limits' (level + 1) v) : ReadsBack limits level (.arr items) where
  plain := by
    cases items with
    | nil =>
      intro c hc
      have hbrackets : c ∈ ['[', ']'] := hc
      simp only [List.mem_cons, List.not_mem_nil, or_false] at hbrackets
      rcases hbrackets with rfl | rfl
      · decide
      · decide
    | cons v items =>
      intro c hc
      simp only [writeValue, List.mem_append, List.mem_cons, List.not_mem_nil, or_false] at hc
      rcases hc with ((((rfl | hc) | hc) | hc) | hc) | rfl
      · decide
      · exact plain_newline _ c hc
      · exact (h v List.mem_cons_self).plain c hc
      · exact plain_writeItems (fun w hw => h w (List.mem_cons_of_mem _ hw)) c hc
      · exact plain_newline _ c hc
      · decide
  head := by
    cases items with
    | nil => exact ⟨'[', _, rfl, by decide, by decide⟩
    | cons v items => exact ⟨'[', _, by rw [writeValue]; rfl, by decide, by decide⟩
  read fuel rest hfuel _ := by
    cases items with
    | nil =>
      cases fuel with
      | zero => exact absurd hfuel (by simp [writeValue])
      | succ fuel =>
        simp only [writeValue, readValue, hinner]
        rfl
    | cons v items =>
      have hv := h v List.mem_cons_self
      obtain ⟨c, l, hwrite, hblank, hne⟩ := hv.head
      have hitems := @readItems_write limits' _ _ (fun w hw => h w (List.mem_cons_of_mem _ hw)) _ hv
      have hskip := hv.skip (level + 1)
      have hnewline := length_newline level
      simp only [writeValue, List.length_append, List.length_cons, List.length_nil] at hfuel
      obtain ⟨fuel, rfl⟩ : ∃ n, fuel = n + 1 := ⟨fuel - 1, by omega⟩
      set body := writeItems (level + 1) items ++ newline level ++ ']' :: rest with hbody
      have htext : writeValue level (.arr (v :: items)) ++ rest =
          '[' :: (newline (level + 1) ++ (writeValue (level + 1) v ++ body)) := by
        simp only [writeValue, hbody, List.append_assoc, List.cons_append, List.nil_append]
      have hread := hitems fuel level rest (by omega)
      replace hskip := hskip body
      rw [← hbody] at hread
      rw [hwrite, List.cons_append] at hskip hread
      rw [htext, hwrite, List.cons_append]
      exact readValue_arr hinner hskip hne hread

theorem writeString_append (key : String) (l : List Char) : writeString key ++ l =
    '"' :: (key.toList.flatMap writeChar ++ '"' :: l) := by
  simp only [writeString, List.cons_append, List.append_assoc, List.nil_append]

theorem ReadsBack.skip_blank {v : Json} (h : ReadsBack limits level v) (l : List Char) :
    skipBlanks (' ' :: (writeValue level v ++ l)) = writeValue level v ++ l := by
  obtain ⟨c, l', hwrite, hblank, _⟩ := h.head
  rw [hwrite, List.cons_append, skipBlanks, List.dropWhile_cons_of_pos (by decide)]
  exact List.dropWhile_cons_of_neg (by simp [hblank])

/-- The fields of an object after the first one, if their values are read back. -/
theorem readFields_write {fields : List (String × Json)}
    (h : ∀ e ∈ fields, ReadsBack limits level e.2) {key : String} {v : Json}
    (hv : ReadsBack limits level v) (fuel n : Nat) (rest : List Char)
    (hfuel : (writeValue level v).length + (writeFields level fields).length + 1 ≤ fuel) :
    readFields limits fuel
      (writeString key ++ (':' :: ' ' :: (writeValue level v ++
        (writeFields level fields ++ newline n ++ '}' :: rest)))) =
      .ok ((key, v) :: fields, rest) := by
  induction fields generalizing key v fuel with
  | nil =>
    obtain ⟨fuel, rfl⟩ := Nat.exists_eq_add_of_le' (Nat.le_of_add_left_le hfuel)
    have hread := hv.read fuel (newline n ++ '}' :: rest) (by omega) (stops_cons (by simp) _)
    rw [writeString_append, writeFields, List.nil_append]
    refine readFields_last (readString_write key _) ?_ (skipBlanks_newline n (by decide) rest)
    rw [hv.skip_blank, hread]
  | cons e fields ih =>
    obtain ⟨key', w⟩ := e
    have hw := h (key', w) List.mem_cons_self
    have hrest := @ih (fun u hu => h u (List.mem_cons_of_mem _ hu)) key' w hw
    obtain ⟨fuel, rfl⟩ := Nat.exists_eq_add_of_le' (Nat.le_of_add_left_le hfuel)
    have hnewline := length_newline level
    simp only [writeFields, List.length_append, List.length_cons] at hfuel
    set tail := writeFields level fields ++ newline n ++ '}' :: rest with htail
    set next := writeString key' ++ (':' :: ' ' :: (writeValue level w ++ tail)) with hnext
    have hfields : writeFields level ((key', w) :: fields) ++ newline n ++ '}' :: rest =
        ',' :: (newline level ++ next) := by
      simp only [writeFields, htail, hnext, List.append_assoc, List.cons_append, List.nil_append]
    have hread := hv.read fuel (',' :: (newline level ++ next)) (by omega)
      (stops_cons (by simp) _)
    have hskip : skipBlanks (newline level ++ next) = next := by
      rw [hnext, writeString_append]
      exact skipBlanks_newline level (by decide) _
    rw [hfields, writeString_append]
    refine readFields_more (readString_write key _) ?_ (List.dropWhile_cons_of_neg (by decide))
      (by rw [hskip, hrest fuel (by omega)])
    rw [hv.skip_blank, hread]

theorem plain_writeFields {fields : List (String × Json)}
    (h : ∀ e ∈ fields, ReadsBack limits level e.2) : ∀ c ∈ writeFields level fields, Plain c := by
  intro c hc
  induction fields with
  | nil => exact absurd hc List.not_mem_nil
  | cons e fields ih =>
    simp only [writeFields, List.mem_append, List.mem_cons, List.not_mem_nil, or_false] at hc
    rcases hc with ((((rfl | hc) | hc) | hc) | hc) | hc
    · decide
    · exact plain_newline level c hc
    · exact plain_writeString e.1 c hc
    · rcases hc with rfl | rfl <;> decide
    · exact (h e List.mem_cons_self).plain c hc
    · exact ih (fun u hu => h u (List.mem_cons_of_mem _ hu)) hc

/-- An object with distinct keys is read back if the values of its fields are. -/
theorem readsBack_obj {fields : List (String × Json)} (hinner : limits.inner = .ok limits')
    (hkeys : (Dict.ofPairs fields).entries = fields) (hne : fields ≠ [])
    (h : ∀ e ∈ fields, ReadsBack limits' (level + 1) e.2) :
    ReadsBack limits level (.obj fields) := by
  obtain ⟨⟨key, v⟩, fields, rfl⟩ := List.exists_cons_of_ne_nil hne
  refine ⟨fun c hc => ?_, ⟨'{', _, by rw [writeValue]; rfl, by decide, by decide⟩,
    fun fuel rest hfuel _ => ?_⟩
  · simp only [writeValue, List.mem_append, List.mem_cons, List.not_mem_nil, or_false] at hc
    rcases hc with ((((((rfl | hc) | hc) | hc) | hc) | hc) | hc) | rfl
    · decide
    · exact plain_newline _ c hc
    · exact plain_writeString key c hc
    · rcases hc with rfl | rfl <;> decide
    · exact (h (key, v) List.mem_cons_self).plain c hc
    · exact plain_writeFields (fun e he => h e (List.mem_cons_of_mem _ he)) c hc
    · exact plain_newline _ c hc
    · decide
  have hv : ReadsBack limits' (level + 1) v := h (key, v) List.mem_cons_self
  have hfields := @readFields_write limits' _ _ (fun e he => h e (List.mem_cons_of_mem _ he)) key _ hv
  have hnewline := length_newline level
  simp only [writeValue, List.length_append, List.length_cons, List.length_nil] at hfuel
  obtain ⟨fuel, rfl⟩ : ∃ n, fuel = n + 1 := ⟨fuel - 1, by omega⟩
  have hread := hfields fuel level rest (by omega)
  set body := writeString key ++ (':' :: ' ' :: (writeValue (level + 1) v ++
    (writeFields (level + 1) fields ++ newline level ++ '}' :: rest))) with hbody
  have htext : writeValue level (.obj ((key, v) :: fields)) ++ rest =
      '{' :: (newline (level + 1) ++ body) := by
    simp only [writeValue, hbody, List.append_assoc, List.cons_append, List.nil_append]
  obtain ⟨l, hl⟩ : ∃ l, body = '"' :: l := ⟨_, writeString_append key _⟩
  rw [hl] at hread htext
  rw [htext, readValue_obj hinner (skipBlanks_newline _ (by decide) l) hread, hkeys]

theorem readsBack_one (hdigits : ∀ n, limits.digits = some n → 1 ≤ n) :
    ReadsBack limits level (.int 1) where
  plain := by
    intro c hc
    obtain rfl : c = '1' := List.mem_singleton.mp hc
    decide
  head := ⟨'1', [], rfl, by decide, by decide⟩
  read fuel rest hfuel hrest := by
    have htext : writeValue level (.int 1) ++ rest = '1' :: rest := rfl
    have hconstant : readConstant ('1' :: rest) = none := by
      simp [readConstant, constants, List.find?, List.isPrefixOf]
    have hlimit : limits.digits.any (· < 1) = false := by
      cases hd : limits.digits with
      | none => rfl
      | some n => simpa using Nat.one_le_iff_ne_zero.mp (hdigits n hd)
    have hinteger : readInteger ('1' :: rest) = some (['1'], rest) := by
      have hdigit : isDigit '1' = true := rfl
      show (if isDigit '1' = true then
        some (['1'] ++ (spanDigits rest).1, (spanDigits rest).2) else none) = _
      rw [if_pos hdigit, spanDigits_stops hrest]
      rfl
    have hnumber : readNumber limits ('1' :: rest) = .ok (.int 1, rest) := by
      simp only [readNumber, hinteger, orMalformed, bind, Except.bind, readFraction_stops hrest,
        readExponent_stops hrest]
      rw [if_pos (List.append_nil _), if_neg]
      · rfl
      · rw [Bool.not_eq_true]
        exact hlimit
    cases fuel with
    | zero => exact absurd hfuel (Nat.not_succ_le_zero 0)
    | succ fuel =>
      rw [htext, readValue]
      · simp only [hconstant, hnumber]
      all_goals simp

/-- A text that is written, with or without a final line break, is read back. -/
theorem loadsWithin_dumps {v : Json} (h : ReadsBack limits 0 v) :
    loadsWithin limits (dumps v ++ "\n") = .ok v := by
  obtain ⟨c, l, hwrite, hblank, _⟩ := h.head
  have htext : (dumps v ++ "\n").toList = writeValue 0 v ++ ['\n'] := by
    rw [dumps, String.toList_append, String.toList_ofList]
    rfl
  have hskip : skipBlanks (writeValue 0 v ++ ['\n']) = writeValue 0 v ++ ['\n'] := by
    rw [hwrite, List.cons_append]
    exact skipBlanks_of_not hblank _
  have hlength : (dumps v ++ "\n").length = (writeValue 0 v).length + 1 := by
    rw [← String.length_toList, htext, List.length_append]
    rfl
  have hread := h.read ((dumps v ++ "\n").length + 1) ['\n'] (by omega) (stops_cons (by simp) _)
  rw [loadsWithin, htext, hskip, hread]
  rfl

end Values

end Py.Json
