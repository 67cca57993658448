import Mathlib.Data.List.Sort
import Mathlib.Data.String.Basic
import MochadBridge.Lib.JsonDump

/-!
# Compact JSON texts

`dumpsSorted` writes a value the way `json.dumps` does with sorted keys and without blanks.
`WellFormed` names the values that have a text: the keys of an object are distinct, and a
float has the text of a number.

Results:
1. `wellFormed_of_loads`: what `loads` gives is well-formed.
2. `rereads_of_wellFormed`: a well-formed value is read back from its text.
3. `loads_dumpsSorted`: its sorted text gives it back with sorted keys, which have the
   values they had (`field?_sortFields`).
-/

namespace Py.Json

/-! ## Writing -/

mutual
/-- One value without blanks. -/
def compact : Json → List Char
  | .null => "null".toList
  | .bool b => if b then "true".toList else "false".toList
  | .int n => (toString n).toList
  | .float text => writeFloat text
  | .str s => writeString s
  | .arr [] => "[]".toList
  | .arr (item :: items) => '[' :: compact item ++ compactItems items
  | .obj [] => "\x7b\x7d".toList
  | .obj ((key, value) :: fields) =>
    '{' :: writeString key ++ ':' :: compact value ++ compactFields fields

/-- The items after the first one, and the bracket that closes them. -/
def compactItems : List Json → List Char
  | [] => [']']
  | item :: items => ',' :: compact item ++ compactItems items

/-- The fields after the first one, and the brace that closes them. -/
def compactFields : List (String × Json) → List Char
  | [] => ['}']
  | (key, value) :: fields => ',' :: writeString key ++ ':' :: compact value ++ compactFields fields
end

mutual
/-- The value with the keys of its objects in order. -/
def sortKeys : Json → Json
  | .arr items => .arr (sortItems items)
  | .obj fields => .obj ((sortFields fields).insertionSort (·.1 ≤ ·.1))
  | v => v

def sortItems : List Json → List Json
  | [] => []
  | item :: items => sortKeys item :: sortItems items

/-- The fields in their own order, the values sorted. -/
def sortFields : List (String × Json) → List (String × Json)
  | [] => []
  | (key, value) :: fields => (key, sortKeys value) :: sortFields fields
end

/-- `json.dumps(value, sort_keys=True, separators=(",", ":"))`. -/
def dumpsSorted (value : Json) : String := String.ofList (compact (sortKeys value))

example : dumpsSorted (.obj [("retain", .bool true), ("items", .arr [.int (-2), .null, .str "é"])]) =
    "\x7b\"items\":[-2,null,\"\\u00e9\"],\"retain\":true\x7d" := by
  decide +kernel

/-! ## Numbers -/

/-- `-?(0|[1-9]\d*)`. -/
def IsInteger (l : List Char) : Prop :=
  ∃ sign ∈ [[], ['-']], l = sign ++ ['0'] ∨
    ∃ d ds, l = sign ++ d :: ds ∧ d ≠ '0' ∧ ∀ c ∈ d :: ds, isDigit c = true

/-- `(\.\d+)?`. -/
def IsFraction (l : List Char) : Prop :=
  l = [] ∨ ∃ d ds, l = '.' :: d :: ds ∧ ∀ c ∈ d :: ds, isDigit c = true

/-- `([eE][-+]?\d+)?`. -/
def IsExponent (l : List Char) : Prop :=
  l = [] ∨ ∃ e ∈ ['e', 'E'], ∃ sign ∈ [[], ['+'], ['-']], ∃ d ds,
    l = e :: (sign ++ d :: ds) ∧ ∀ c ∈ d :: ds, isDigit c = true

/-- The text is that of a float: a constant, or a number with a fraction or an exponent. -/
def IsFloat (text : String) : Prop :=
  text ∈ ["nan", "inf", "-inf"] ∨ ∃ digits fraction exponent,
    text.toList = digits ++ fraction ++ exponent ∧ IsInteger digits ∧ IsFraction fraction ∧
      IsExponent exponent ∧ fraction ++ exponent ≠ []

section Numbers
variable {l rest : List Char}

/-- The text does not go on with a digit. -/
def NoDigit (rest : List Char) : Prop := ∀ c ∈ rest.head?, isDigit c = false

theorem spanDigits_append {ds : List Char} (hds : ∀ c ∈ ds, isDigit c = true)
    (hrest : NoDigit rest) : spanDigits (ds ++ rest) = (ds, rest) := by
  induction ds with
  | nil =>
    cases rest with
    | nil => rfl
    | cons c rest =>
      have hc := hrest c rfl
      simp only [spanDigits, List.nil_append, List.span_eq_takeWhile_dropWhile, List.takeWhile_cons,
        List.dropWhile_cons, hc, Bool.false_eq_true, if_false]
  | cons d ds ih =>
    have hd := hds d List.mem_cons_self
    have htail := ih fun c hc => hds c (List.mem_cons_of_mem _ hc)
    simp only [spanDigits, List.span_eq_takeWhile_dropWhile, Prod.mk.injEq] at htail
    simp only [spanDigits, List.span_eq_takeWhile_dropWhile, List.cons_append, List.takeWhile_cons,
      List.dropWhile_cons, hd, if_true, htail.1, htail.2]

theorem spanDigits_digits (l : List Char) : ∀ c ∈ (spanDigits l).1, isDigit c = true := by
  intro c hc
  rw [spanDigits, List.span_eq_takeWhile_dropWhile] at hc
  exact List.mem_takeWhile_imp hc

/-- An integer starts with a digit, a sign aside. -/
theorem integer_cases (h : IsInteger l) :
    ∃ d ds, isDigit d = true ∧ (l = d :: ds ∨ l = '-' :: d :: ds) := by
  obtain ⟨sign, hsign, hl⟩ := h
  simp only [List.mem_cons, List.not_mem_nil, or_false] at hsign
  obtain ⟨d, ds, hl, hd⟩ : ∃ d ds, l = sign ++ d :: ds ∧ isDigit d = true := by
    rcases hl with hl | ⟨d, ds, hl, _, hdigits⟩
    · exact ⟨'0', [], hl, by decide⟩
    · exact ⟨d, ds, hl, hdigits d List.mem_cons_self⟩
  rcases hsign with rfl | rfl
  · exact ⟨d, ds, hd, .inl hl⟩
  · exact ⟨d, ds, hd, .inr hl⟩

theorem readInteger_append (h : IsInteger l) (hrest : NoDigit rest) :
    readInteger (l ++ rest) = some (l, rest) := by
  obtain ⟨sign, hsign, rfl | ⟨d, ds, rfl, hd, hdigits⟩⟩ := h
  · simp only [List.mem_cons, List.not_mem_nil, or_false] at hsign
    rcases hsign with rfl | rfl
    · rfl
    · rfl
  · have hspan := spanDigits_append (fun c hc => hdigits c (List.mem_cons_of_mem _ hc)) hrest
    have hdigit := hdigits d List.mem_cons_self
    have hminus : d ≠ '-' := by
      rintro rfl
      exact absurd hdigit (by decide)
    simp only [List.mem_cons, List.not_mem_nil, or_false] at hsign
    rcases hsign with rfl | rfl
    · simp [readInteger, hminus, hdigit, hspan]
    · simp [readInteger, hdigit, hspan]

/-- What is read of an integer, with what follows it. -/
theorem isInteger_of_read {digits : List Char} (h : readInteger l = some (digits, rest)) :
    IsInteger digits := by
  unfold readInteger at h
  split at h
  next sign m hsplit =>
    have hsign : sign ∈ [[], ['-']] := by
      split at hsplit
      · cases hsplit
        simp
      · cases hsplit
        simp
    -- a zero stands alone, any other digit starts a run
    split at h
    · cases h
      exact ⟨sign, hsign, .inl rfl⟩
    · next c tail hzero =>
      split at h
      · next hdigit =>
        cases h
        refine ⟨sign, hsign, .inr ⟨c, _, rfl, hzero, fun d hd => ?_⟩⟩
        rcases List.mem_cons.mp hd with rfl | hd
        · exact hdigit
        · exact spanDigits_digits _ d hd
      · cases h
    · cases h

theorem readFraction_append (h : IsFraction l) (hrest : NoDigit rest)
    (hpoint : l = [] → ∀ c ∈ rest.head?, c ≠ '.') : readFraction (l ++ rest) = (l, rest) := by
  rcases h with rfl | ⟨d, ds, rfl, hdigits⟩
  · cases rest with
    | nil => rfl
    | cons c rest =>
      have hc := hpoint rfl c rfl
      simp [readFraction, hc]
  · have hspan := spanDigits_append (fun c hc => hdigits c (List.mem_cons_of_mem _ hc)) hrest
    have hdigit := hdigits d List.mem_cons_self
    simp [readFraction, hdigit, hspan]

theorem isFraction_read (l : List Char) : IsFraction (readFraction l).1 := by
  unfold readFraction
  split
  · next c rest =>
    split
    · next hdigit =>
      refine .inr ⟨c, _, rfl, fun d hd => ?_⟩
      rcases List.mem_cons.mp hd with rfl | hd
      · exact hdigit
      · exact spanDigits_digits _ d hd
    · exact .inl rfl
  · exact .inl rfl

theorem readExponent_append (h : IsExponent l) (hrest : NoDigit rest)
    (hletter : l = [] → ∀ c ∈ rest.head?, c ≠ 'e' ∧ c ≠ 'E') :
    readExponent (l ++ rest) = (l, rest) := by
  rcases h with rfl | ⟨e, he, sign, hsign, d, ds, rfl, hdigits⟩
  · cases rest with
    | nil => rfl
    | cons c rest =>
      obtain ⟨he, hE⟩ := hletter rfl c rfl
      simp [readExponent, he, hE]
  · have hspan : spanDigits (d :: (ds ++ rest)) = (d :: ds, rest) :=
      spanDigits_append hdigits hrest
    have hdigit := hdigits d List.mem_cons_self
    have hplus : d ≠ '+' := by
      rintro rfl
      exact absurd hdigit (by decide)
    have hminus : d ≠ '-' := by
      rintro rfl
      exact absurd hdigit (by decide)
    have hcase : e = 'e' ∨ e = 'E' := by simpa using he
    simp only [List.mem_cons, List.not_mem_nil, or_false] at hsign
    rcases hsign with rfl | rfl | rfl
    · simp [readExponent, hcase, hspan, hplus, hminus]
    · simp [readExponent, hcase, hspan]
    · simp [readExponent, hcase, hspan]

theorem isExponent_read (l : List Char) : IsExponent (readExponent l).1 := by
  unfold readExponent
  split
  · next e rest =>
    split
    · next he =>
      split
      next sign digits hsplit =>
        have hsign : sign ∈ [[], ['+'], ['-']] := by
          split at hsplit
          all_goals
            cases hsplit
            simp
        have hdigits := spanDigits_digits digits
        -- without digits there is no exponent, and the letter is left where it was
        split
        · exact .inl rfl
        · next ds after hne hspan =>
          rw [hspan] at hdigits
          obtain ⟨d, ds, rfl⟩ : ∃ d ds', ds = d :: ds' := by
            cases ds with
            | nil => exact (hne rfl).elim
            | cons d ds => exact ⟨d, ds, rfl⟩
          exact .inr ⟨e, by simpa using he, sign, hsign, d, ds, rfl, hdigits⟩
    · exact .inl rfl
  · exact .inl rfl

theorem Stops.noDigit (h : Stops rest) : NoDigit rest := fun c hc => (h c hc).1

/-- A number other than zero does not start with a zero. -/
theorem head_toDigits {n : Nat} (h : n ≠ 0) : ∃ d ds, Nat.toDigits 10 n = d :: ds ∧ d ≠ '0' := by
  induction n using Nat.strongRecOn with
  | ind n ih =>
    by_cases hlt : n < 10
    · have hdigit : ∀ m < 10, m ≠ 0 → Nat.digitChar m ≠ '0' := by decide
      exact ⟨_, [], Nat.toDigits_of_lt_base hlt, hdigit n hlt h⟩
    · obtain ⟨d, ds, hdigits, hd⟩ := ih (n / 10) (by omega) (by omega)
      refine ⟨d, ds ++ [Nat.digitChar (n % 10)], ?_, hd⟩
      rw [Nat.toDigits_of_base_le (by decide) (Nat.le_of_not_lt hlt), hdigits, List.cons_append]

theorem isDigit_toDigits {n : Nat} : ∀ c ∈ Nat.toDigits 10 n, isDigit c = true := by
  intro c hc
  rw [isDigit, Bool.and_eq_true, decide_eq_true_iff, decide_eq_true_iff]
  exact Char.isDigit_iff_toNat.mp (Nat.isDigit_of_mem_toDigits (by decide) (by decide) hc)

theorem isInteger_toString (n : Int) : IsInteger (toString n).toList := by
  have hnat : ∀ sign ∈ [[], ['-']], ∀ m : Nat, IsInteger (sign ++ (Nat.repr m).toList) := by
    intro sign hsign m
    rw [Nat.toList_repr]
    by_cases hm : m = 0
    · exact ⟨sign, hsign, .inl (by rw [hm, Nat.toDigits_zero])⟩
    · obtain ⟨d, ds, hdigits, hd⟩ := head_toDigits hm
      refine ⟨sign, hsign, .inr ⟨d, ds, by rw [hdigits], hd, ?_⟩⟩
      rw [← hdigits]
      exact isDigit_toDigits
  cases n with
  | ofNat m => exact hnat [] (by simp) m
  | negSucc m =>
    rw [show toString (Int.negSucc m) = "-" ++ Nat.repr (m + 1) from rfl, String.toList_append]
    exact hnat ['-'] (by simp) (m + 1)

/-- `int(str(n))` is `n`, also for a negative number. -/
theorem int?_toString_int (n : Int) : int? (toString n) = some n := by
  cases n with
  | ofNat m => exact int?_toString m
  | negSucc m =>
    have hdigits : ∀ c ∈ Nat.toDigits 10 (m + 1), c.isDigit = true := fun c hc =>
      Nat.isDigit_of_mem_toDigits (by decide) (by decide) hc
    have htext : (toString (Int.negSucc m)).toList = '-' :: Nat.toDigits 10 (m + 1) := by
      rw [show toString (Int.negSucc m) = "-" ++ Nat.repr (m + 1) from rfl, String.toList_append,
        Nat.toList_repr]
      rfl
    have htrim : trim isSpace ('-' :: Nat.toDigits 10 (m + 1)) = '-' :: Nat.toDigits 10 (m + 1) := by
      rw [← htext, ← toList_strip, strip_toString_int]
    have hvalue : readDigits 0 (Nat.toDigits 10 (m + 1)) = some (m + 1) := by
      rw [readDigits_of_isDigit hdigits, Nat.ofDigitChars_ten_toDigits]
    obtain ⟨d, ds, hlist, _⟩ := head_toDigits (Nat.succ_ne_zero m)
    rw [int?, htext, htrim, hlist]
    rw [hlist] at hvalue hdigits
    have hd := digitValue_of_isDigit (hdigits d List.mem_cons_self)
    have hrest : readDigits (d.toNat - 48) ds = some (m + 1) := by
      rw [readDigits_of_isDigit hdigits, Nat.ofDigitChars_cons] at hvalue
      rw [readDigits_of_isDigit fun c hc => hdigits c (List.mem_cons_of_mem _ hc), ← hvalue]
      rw [Nat.mul_zero, Nat.zero_add]
      rfl
    show ((digitValue d).bind fun d => (readDigits d ds).map fun n => -(n : Int)) = _
    rw [hd, Option.bind_some, hrest]
    rfl

/-- An integer does not start like a constant. -/
theorem readConstant_integer (h : IsInteger l) (rest : List Char) :
    readConstant (l ++ rest) = none := by
  obtain ⟨d, ds, hd, hl⟩ := integer_cases h
  have hne : ∀ c ∈ ['n', 't', 'f', 'N', 'I', '-'], c ≠ d := by
    rintro c hc rfl
    simp only [List.mem_cons, List.not_mem_nil, or_false] at hc
    rcases hc with rfl | rfl | rfl | rfl | rfl | rfl <;> exact absurd hd (by decide)
  have hfind : constants.find? (fun e => e.1.toList.isPrefixOf (l ++ rest)) = none := by
    refine List.find?_eq_none.mpr fun e he => ?_
    simp only [constants, List.mem_cons, List.not_mem_nil, or_false] at he
    rcases hl with rfl | rfl <;> rcases he with rfl | rfl | rfl | rfl | rfl | rfl <;>
      simp [List.isPrefixOf, hne]
  rw [readConstant, hfind]
  rfl

theorem readNumber_int (n : Int) (hrest : Stops rest) :
    readNumber {} ((toString n).toList ++ rest) = .ok (.int n, rest) := by
  simp only [readNumber, readInteger_append (isInteger_toString n) hrest.noDigit, orMalformed, bind,
    Except.bind, readFraction_stops hrest, readExponent_stops hrest]
  rw [if_pos (List.append_nil _)]
  simp only [Option.any_none, Bool.false_eq_true, if_false, String.ofList_toList,
    int?_toString_int]
  rfl

theorem readNumber_float {digits fraction exponent : List Char} (hdigits : IsInteger digits)
    (hfraction : IsFraction fraction) (hexponent : IsExponent exponent)
    (hne : fraction ++ exponent ≠ []) (hrest : Stops rest) :
    readNumber {} (digits ++ fraction ++ exponent ++ rest) =
      .ok (.float (String.ofList (digits ++ fraction ++ exponent)), rest) := by
  have hafter : ∀ c ∈ (exponent ++ rest).head?, isDigit c = false ∧ c ≠ '.' := by
    intro c hc
    rcases hexponent with rfl | ⟨e, he, sign, _, d, ds, rfl, _⟩
    · exact ⟨(hrest c hc).1, (hrest c hc).2.1⟩
    · obtain rfl := Option.some.inj hc
      simp only [List.mem_cons, List.not_mem_nil, or_false] at he
      rcases he with rfl | rfl <;> decide
  have hbefore : NoDigit (fraction ++ (exponent ++ rest)) := by
    intro c hc
    rcases hfraction with rfl | ⟨d, ds, rfl, _⟩
    · exact (hafter c hc).1
    · obtain rfl := Option.some.inj hc
      decide
  have hread := readExponent_append hexponent hrest.noDigit fun _ c hc => (hrest c hc).2.2
  have hread' := readFraction_append hfraction (fun c hc => (hafter c hc).1)
    fun _ c hc => (hafter c hc).2
  rw [List.append_assoc, List.append_assoc]
  simp only [readNumber, readInteger_append hdigits hbefore, orMalformed, bind, Except.bind, hread',
    hread]
  rw [if_neg hne, List.append_assoc]
  rfl

end Numbers

/-! ## Values that have a text -/

/-- The keys of its objects are distinct, and its floats have the text of a number. -/
inductive WellFormed : Json → Prop
  | null : WellFormed .null
  | bool (b : Bool) : WellFormed (.bool b)
  | int (n : Int) : WellFormed (.int n)
  | float {text : String} (h : IsFloat text) : WellFormed (.float text)
  | str (s : String) : WellFormed (.str s)
  | arr {items : List Json} (h : ∀ v ∈ items, WellFormed v) : WellFormed (.arr items)
  | obj {fields : List (String × Json)} (hkeys : (fields.map Prod.fst).Nodup)
      (h : ∀ e ∈ fields, WellFormed e.2) : WellFormed (.obj fields)

section WellFormed
variable {items : List Json} {fields : List (String × Json)}

@[simp] theorem wellFormed_null : WellFormed .null := .null
@[simp] theorem wellFormed_bool (b : Bool) : WellFormed (.bool b) := .bool b
@[simp] theorem wellFormed_int (n : Int) : WellFormed (.int n) := .int n
@[simp] theorem wellFormed_str (s : String) : WellFormed (.str s) := .str s

@[simp] theorem wellFormed_arr : WellFormed (.arr items) ↔ ∀ v ∈ items, WellFormed v :=
  ⟨fun h => by cases h; assumption, .arr⟩

@[simp] theorem wellFormed_obj : WellFormed (.obj fields) ↔
    (fields.map Prod.fst).Nodup ∧ ∀ e ∈ fields, WellFormed e.2 :=
  ⟨fun h => by cases h; exact ⟨‹_›, ‹_›⟩, fun h => .obj h.1 h.2⟩

/-- A field that is read was written. -/
theorem wellFormed_field (h : ∀ e ∈ fields, WellFormed e.2) {key : String} {v : Json}
    (hv : field? fields key = some v) : WellFormed v := by
  obtain ⟨front, back, hfields, _⟩ := List.lookup_eq_some_iff.mp hv
  exact h (key, v) (by simp [hfields])

end WellFormed

/-- The text of the value is plain, begins like one, and is read back, unless what
follows goes on with a number. The length of the text is enough fuel. -/
structure Rereads (v : Json) : Prop where
  plain : ∀ c ∈ compact v, Plain c
  head : ∃ c l, compact v = c :: l ∧ isBlank c = false ∧ c ≠ ']'
  read : ∀ fuel rest, (compact v).length ≤ fuel → Stops rest →
    readValue {} fuel (compact v ++ rest) = .ok (v, rest)

theorem stops_after {c : Char} (h : c ∈ [',', ']', '}']) (rest : List Char) : Stops (c :: rest) := by
  intro d hd
  obtain rfl := Option.some.inj hd
  simp only [List.mem_cons, List.not_mem_nil, or_false] at h
  rcases h with rfl | rfl | rfl <;> decide

/-- A constant or a number. -/
def readLeaf (limits : Limits) (l : List Char) : Except Fault (Json × List Char) :=
  match readConstant l with
  | some r => .ok r
  | none => readNumber limits l

section Leaves
variable {v : Json} {c : Char} {l : List Char}

theorem readValue_leaf {limits : Limits} {fuel : Nat} (hc : c ∉ ['"', '{', '[']) :
    readValue limits (fuel + 1) (c :: l) = readLeaf limits (c :: l) := by
  simp only [List.mem_cons, List.not_mem_nil, or_false, not_or] at hc
  unfold readValue
  split
  · next heq => exact absurd (List.cons.inj heq).1 hc.1
  · next heq => exact absurd (List.cons.inj heq).1 hc.2.1
  · next heq => exact absurd (List.cons.inj heq).1 hc.2.2
  · rfl

theorem plain_of_all (h : l.all (fun c => decide (Plain c)) = true) : ∀ c ∈ l, Plain c :=
  fun c hc => of_decide_eq_true (List.all_eq_true.mp h c hc)

/-- A value that is read as a leaf is read back. -/
theorem rereads_leaf (hplain : ∀ d ∈ compact v, Plain d) (hwrite : compact v = c :: l)
    (hc : c ∉ ['"', '{', '[', ']'] ∧ isBlank c = false)
    (hread : ∀ rest, Stops rest → readLeaf {} (compact v ++ rest) = .ok (v, rest)) :
    Rereads v where
  plain := hplain
  head := ⟨c, l, hwrite, hc.2, fun h => hc.1 (by simp [h])⟩
  read fuel rest hfuel hrest := by
    have h := hread rest hrest
    rw [hwrite, List.cons_append] at h ⊢
    cases fuel with
    | zero => exact absurd hfuel (by simp [hwrite])
    | succ fuel =>
      rw [readValue_leaf fun hmem => hc.1 (List.mem_append_left [']'] hmem)]
      exact h

theorem readConstant_name {e : String × Json} (he : e ∈ constants) (rest : List Char) :
    readConstant (e.1.toList ++ rest) = some (e.2, rest) := by
  have hfind : constants.find? (fun d => d.1.toList.isPrefixOf (e.1.toList ++ rest)) = some e := by
    simp only [constants, List.mem_cons, List.not_mem_nil, or_false] at he
    rcases he with rfl | rfl | rfl | rfl | rfl | rfl <;> rfl
  rw [readConstant, hfind]
  show some (e.2, (e.1.toList ++ rest).drop e.1.length) = _
  rw [← String.length_toList, List.drop_left]

theorem rereads_constant {e : String × Json} (he : e ∈ constants)
    (hwrite : compact e.2 = e.1.toList) : Rereads e.2 := by
  have hread : ∀ rest, Stops rest → readLeaf {} (compact e.2 ++ rest) = .ok (e.2, rest) := by
    intro rest _
    rw [readLeaf, hwrite, readConstant_name he]
  have hplain : ∀ d ∈ compact e.2, Plain d := by
    rw [hwrite]
    simp only [constants, List.mem_cons, List.not_mem_nil, or_false] at he
    rcases he with rfl | rfl | rfl | rfl | rfl | rfl <;> exact plain_of_all (by decide)
  simp only [constants, List.mem_cons, List.not_mem_nil, or_false] at he
  rcases he with rfl | rfl | rfl | rfl | rfl | rfl <;>
    exact rereads_leaf hplain hwrite (by decide) hread

theorem rereads_number {n after : List Char} (hplain : ∀ c ∈ compact v, Plain c)
    (hn : IsInteger n) (hwrite : compact v = n ++ after)
    (hread : ∀ rest, Stops rest → readNumber {} (compact v ++ rest) = .ok (v, rest)) :
    Rereads v := by
  have hleaf : ∀ rest, Stops rest → readLeaf {} (compact v ++ rest) = .ok (v, rest) := by
    intro rest hrest
    have hnone : readConstant (compact v ++ rest) = none := by
      rw [hwrite, List.append_assoc]
      exact readConstant_integer hn _
    rw [readLeaf, hnone]
    exact hread rest hrest
  obtain ⟨d, ds, hd, rfl | rfl⟩ := integer_cases hn
  · have hne : ∀ c ∈ ['"', '{', '[', ']', ' ', '\t', '\n', '\r'], d ≠ c := by
      rintro c hc rfl
      simp only [List.mem_cons, List.not_mem_nil, or_false] at hc
      rcases hc with rfl | rfl | rfl | rfl | rfl | rfl | rfl | rfl <;> exact absurd hd (by decide)
    exact rereads_leaf hplain hwrite (by simp [isBlank, hne]) hleaf
  · exact rereads_leaf hplain hwrite (by decide) hleaf

theorem plain_digit {d : Char} (h : isDigit d = true) : Plain d := by
  rw [isDigit, Bool.and_eq_true, decide_eq_true_iff, decide_eq_true_iff] at h
  refine ⟨Nat.lt_of_le_of_lt (show d.toNat ≤ 57 from h.2) (by decide), ?_⟩
  rintro rfl
  exact absurd h.1 (by decide)

theorem plain_integer (h : IsInteger l) : ∀ c ∈ l, Plain c := by
  intro c hc
  have hsign : ∀ sign ∈ [[], ['-']], c ∈ sign → Plain c := by
    intro sign hmem hc
    simp only [List.mem_cons, List.not_mem_nil, or_false] at hmem
    rcases hmem with rfl | rfl
    · exact absurd hc List.not_mem_nil
    · exact List.mem_singleton.mp hc ▸ by decide
  obtain ⟨sign, hmem, rfl | ⟨d, ds, rfl, _, hdigits⟩⟩ := h
  · rcases List.mem_append.mp hc with hc | hc
    · exact hsign sign hmem hc
    · exact plain_digit (by rw [List.mem_singleton.mp hc]; decide)
  · rcases List.mem_append.mp hc with hc | hc
    · exact hsign sign hmem hc
    · exact plain_digit (hdigits c hc)

theorem plain_fraction (h : IsFraction l) : ∀ c ∈ l, Plain c := by
  intro c hc
  obtain rfl | ⟨d, ds, rfl, hdigits⟩ := h
  · exact absurd hc List.not_mem_nil
  · rcases List.mem_cons.mp hc with rfl | hc
    · decide
    · exact plain_digit (hdigits c hc)

theorem plain_exponent (h : IsExponent l) : ∀ c ∈ l, Plain c := by
  intro c hc
  obtain rfl | ⟨e, he, sign, hsign, d, ds, rfl, hdigits⟩ := h
  · exact absurd hc List.not_mem_nil
  · simp only [List.mem_cons, List.not_mem_nil, or_false] at he hsign
    rcases List.mem_cons.mp hc with rfl | hc
    · rcases he with rfl | rfl <;> decide
    · rcases List.mem_append.mp hc with hc | hc
      · rcases hsign with rfl | rfl | rfl
        · exact absurd hc List.not_mem_nil
        · exact List.mem_singleton.mp hc ▸ by decide
        · exact List.mem_singleton.mp hc ▸ by decide
      · exact plain_digit (hdigits c hc)

theorem rereads_int (n : Int) : Rereads (.int n) := by
  have hn := isInteger_toString n
  exact rereads_number (plain_integer hn) hn (List.append_nil _).symm fun rest =>
    readNumber_int n

theorem rereads_float {text : String} (h : IsFloat text) : Rereads (.float text) := by
  rcases h with hname | ⟨digits, fraction, exponent, htext, hdigits, hfraction, hexponent, hne⟩
  · simp only [List.mem_cons, List.not_mem_nil, or_false] at hname
    rcases hname with rfl | rfl | rfl
    · exact rereads_constant (e := ("NaN", .float "nan")) (by simp [constants]) rfl
    · exact rereads_constant (e := ("Infinity", .float "inf")) (by simp [constants]) rfl
    · exact rereads_constant (e := ("-Infinity", .float "-inf")) (by simp [constants]) rfl
  · obtain ⟨d, ds, hd, hstart⟩ := integer_cases hdigits
    have hwrite : compact (.float text) = digits ++ fraction ++ exponent := by
      have hnot : ∀ name ∈ ["nan", "inf", "-inf"], text ≠ name := by
        rintro name hname rfl
        simp only [List.mem_cons, List.not_mem_nil, or_false] at hname
        rcases hname with rfl | rfl | rfl <;> rcases hstart with rfl | rfl <;> simp at htext
        all_goals
          obtain ⟨rfl, _⟩ := htext
          exact absurd hd (by decide)
      rw [compact, writeFloat, if_neg (hnot "nan" (by simp)), if_neg (hnot "inf" (by simp)),
        if_neg (hnot "-inf" (by simp)), htext]
    have hplain : ∀ c ∈ compact (.float text), Plain c := by
      intro c hc
      rw [hwrite, List.mem_append, List.mem_append] at hc
      rcases hc with (hc | hc) | hc
      · exact plain_integer hdigits c hc
      · exact plain_fraction hfraction c hc
      · exact plain_exponent hexponent c hc
    refine rereads_number hplain hdigits (hwrite.trans (List.append_assoc _ _ _)) fun rest hrest => ?_
    rw [hwrite, readNumber_float hdigits hfraction hexponent hne hrest, ← htext,
      String.ofList_toList]

theorem rereads_str (s : String) : Rereads (.str s) where
  plain := plain_writeString s
  head := ⟨'"', _, rfl, by decide, by decide⟩
  read fuel rest hfuel _ := by
    have hread := readString_write s rest
    have hquoted : compact (.str s) ++ rest = '"' :: (s.toList.flatMap writeChar ++ '"' :: rest) :=
      writeString_append s rest
    cases fuel with
    | zero => exact absurd hfuel (by simp [compact, writeString])
    | succ fuel =>
      rw [hquoted, readValue, hread]
      rfl

end Leaves

section Nodes
variable {v : Json} {items : List Json} {fields : List (String × Json)}

theorem Rereads.skip (h : Rereads v) (rest : List Char) :
    skipBlanks (compact v ++ rest) = compact v ++ rest := by
  obtain ⟨c, l, hwrite, hblank, _⟩ := h.head
  rw [hwrite, List.cons_append]
  exact skipBlanks_of_not hblank _

/-- The items of an array, if each of them is read back. -/
theorem readItems_compact (h : ∀ w ∈ items, Rereads w) (hv : Rereads v) (fuel : Nat)
    (rest : List Char) (hfuel : (compact v).length + (compactItems items).length ≤ fuel) :
    readItems {} fuel (compact v ++ (compactItems items ++ rest)) = .ok (v :: items, rest) := by
  induction items generalizing v fuel with
  | nil =>
    rw [compactItems, List.length_singleton] at hfuel
    obtain ⟨fuel, rfl⟩ := Nat.exists_eq_add_of_le' (Nat.le_of_add_left_le hfuel)
    exact readItems_last (hv.read fuel _ (by omega) (stops_after (by simp) _))
      (skipBlanks_of_not (by decide) rest)
  | cons w items ih =>
    have hw := h w List.mem_cons_self
    simp only [compactItems, List.length_append, List.length_cons] at hfuel
    obtain ⟨fuel, rfl⟩ : ∃ n, fuel = n + 1 := ⟨fuel - 1, by omega⟩
    have hrest := ih (fun u hu => h u (List.mem_cons_of_mem _ hu)) hw fuel (by omega)
    have htext : compactItems (w :: items) ++ rest =
        ',' :: (compact w ++ (compactItems items ++ rest)) := by
      simp only [compactItems, List.cons_append, List.append_assoc]
    rw [htext]
    refine readItems_more (hv.read fuel _ (by omega) (stops_after (by simp) _))
      (skipBlanks_of_not (by decide) _) ?_
    rw [hw.skip, hrest]

theorem plain_compactItems (h : ∀ w ∈ items, Rereads w) : ∀ c ∈ compactItems items, Plain c := by
  intro c hc
  induction items with
  | nil => exact List.mem_singleton.mp hc ▸ by decide
  | cons w items ih =>
    simp only [compactItems, List.mem_append, List.mem_cons] at hc
    rcases hc with (rfl | hc) | hc
    · decide
    · exact (h w List.mem_cons_self).plain c hc
    · exact ih (fun u hu => h u (List.mem_cons_of_mem _ hu)) hc

theorem rereads_arr (h : ∀ w ∈ items, Rereads w) : Rereads (.arr items) := by
  cases items with
  | nil =>
    refine ⟨plain_of_all (by decide), ⟨'[', [']'], rfl, by decide, by decide⟩, fun fuel rest hfuel _ => ?_⟩
    cases fuel with
    | zero => exact absurd hfuel (by simp [compact])
    | succ fuel => rfl
  | cons v items =>
    have hv := h v List.mem_cons_self
    have hitems := fun w hw => h w (List.mem_cons_of_mem v hw)
    obtain ⟨c, l, hwrite, hblank, hne⟩ := hv.head
    refine ⟨fun d hd => ?_, ⟨'[', _, by rw [compact]; rfl, by decide, by decide⟩,
      fun fuel rest hfuel _ => ?_⟩
    · simp only [compact, List.mem_append, List.mem_cons] at hd
      rcases hd with (rfl | hd) | hd
      · decide
      · exact hv.plain d hd
      · exact plain_compactItems hitems d hd
    · simp only [compact, List.length_append, List.length_cons] at hfuel
      obtain ⟨fuel, rfl⟩ : ∃ n, fuel = n + 1 := ⟨fuel - 1, by omega⟩
      have hread := readItems_compact hitems hv fuel rest (by omega)
      have htext : compact (.arr (v :: items)) ++ rest =
          '[' :: (compact v ++ (compactItems items ++ rest)) := by
        simp only [compact, List.cons_append, List.append_assoc]
      rw [htext]
      rw [hwrite, List.cons_append] at hread ⊢
      exact readValue_arr rfl (skipBlanks_of_not hblank _) hne hread

/-- The fields of an object, if their values are read back. -/
theorem readFields_compact (h : ∀ e ∈ fields, Rereads e.2) {key : String} (hv : Rereads v)
    (fuel : Nat) (rest : List Char)
    (hfuel : (compact v).length + (compactFields fields).length ≤ fuel) :
    readFields {} fuel (writeString key ++ ':' :: (compact v ++ (compactFields fields ++ rest))) =
      .ok ((key, v) :: fields, rest) := by
  induction fields generalizing key v fuel with
  | nil =>
    rw [compactFields, List.length_singleton] at hfuel
    obtain ⟨fuel, rfl⟩ := Nat.exists_eq_add_of_le' (Nat.le_of_add_left_le hfuel)
    have hread := hv.read fuel ('}' :: rest) (by omega) (stops_after (by simp) _)
    rw [writeString_append]
    refine readFields_last (readString_write key _) ?_ (skipBlanks_of_not (by decide) rest)
    rw [hv.skip]
    exact hread
  | cons e fields ih =>
    obtain ⟨key', w⟩ := e
    have hw := h (key', w) List.mem_cons_self
    simp only [compactFields, List.length_append, List.length_cons] at hfuel
    obtain ⟨fuel, rfl⟩ : ∃ n, fuel = n + 1 := ⟨fuel - 1, by omega⟩
    have hrest := @ih w (fun u hu => h u (List.mem_cons_of_mem _ hu)) key' hw fuel (by omega)
    set next := writeString key' ++ ':' :: (compact w ++ (compactFields fields ++ rest)) with hnext
    have htext : compactFields ((key', w) :: fields) ++ rest = ',' :: next := by
      simp only [compactFields, hnext, List.cons_append, List.append_assoc]
    have hread := hv.read fuel (',' :: next) (by omega) (stops_after (by simp) _)
    have hskip : skipBlanks next = next := by
      rw [hnext, writeString_append]
      exact skipBlanks_of_not (by decide) _
    rw [htext, writeString_append]
    refine readFields_more (readString_write key _) ?_ (skipBlanks_of_not (by decide) _)
      (by rw [hskip, hrest])
    rw [hv.skip, hread]

theorem plain_compactFields (h : ∀ e ∈ fields, Rereads e.2) :
    ∀ c ∈ compactFields fields, Plain c := by
  intro c hc
  induction fields with
  | nil => exact List.mem_singleton.mp hc ▸ by decide
  | cons e fields ih =>
    simp only [compactFields, List.mem_append, List.mem_cons] at hc
    rcases hc with ((rfl | hc) | rfl | hc) | hc
    · decide
    · exact plain_writeString e.1 c hc
    · decide
    · exact (h e List.mem_cons_self).plain c hc
    · exact ih (fun u hu => h u (List.mem_cons_of_mem _ hu)) hc

/-- An object with distinct keys is read back if the values of its fields are. -/
theorem rereads_obj (hkeys : (fields.map Prod.fst).Nodup) (h : ∀ e ∈ fields, Rereads e.2) :
    Rereads (.obj fields) := by
  cases fields with
  | nil =>
    refine ⟨plain_of_all (by decide), ⟨'{', ['}'], rfl, by decide, by decide⟩, fun fuel rest hfuel _ => ?_⟩
    cases fuel with
    | zero => exact absurd hfuel (by simp [compact])
    | succ fuel => rfl
  | cons e fields =>
    obtain ⟨key, v⟩ := e
    have hv : Rereads v := h (key, v) List.mem_cons_self
    have hfields := fun e he => h e (List.mem_cons_of_mem (key, v) he)
    refine ⟨fun c hc => ?_, ⟨'{', _, by rw [compact]; rfl, by decide, by decide⟩,
      fun fuel rest hfuel _ => ?_⟩
    · simp only [compact, List.mem_append, List.mem_cons] at hc
      rcases hc with ((rfl | hc) | rfl | hc) | hc
      · decide
      · exact plain_writeString key c hc
      · decide
      · exact hv.plain c hc
      · exact plain_compactFields hfields c hc
    · simp only [compact, List.length_append, List.length_cons] at hfuel
      obtain ⟨fuel, rfl⟩ : ∃ n, fuel = n + 1 := ⟨fuel - 1, by omega⟩
      have hread := @readFields_compact v fields hfields key hv fuel rest (by omega)
      have htext : compact (.obj ((key, v) :: fields)) ++ rest =
          '{' :: (writeString key ++ ':' :: (compact v ++ (compactFields fields ++ rest))) := by
        simp only [compact, List.cons_append, List.append_assoc]
      rw [writeString_append] at hread
      rw [htext, writeString_append, readValue_obj rfl (skipBlanks_of_not (by decide) _) hread,
        Dict.entries_ofPairs hkeys]

theorem rereads_of_wellFormed (h : WellFormed v) : Rereads v := by
  induction h with
  | null => exact rereads_constant (e := ("null", .null)) (by simp [constants]) rfl
  | bool b =>
    cases b with
    | false => exact rereads_constant (e := ("false", .bool false)) (by simp [constants]) rfl
    | true => exact rereads_constant (e := ("true", .bool true)) (by simp [constants]) rfl
  | int n => exact rereads_int n
  | float h => exact rereads_float h
  | str s => exact rereads_str s
  | arr _ ih => exact rereads_arr ih
  | obj hkeys _ ih => exact rereads_obj hkeys ih

/-- A text that `compact` wrote is read back. -/
theorem loads_compact (h : WellFormed v) : loads (String.ofList (compact v)) = some v := by
  have hback := rereads_of_wellFormed h
  have hread := hback.read ((compact v).length + 1) [] (Nat.le_succ _) fun _ hc => absurd hc (by simp)
  have hskip := hback.skip []
  rw [List.append_nil] at hread hskip
  have hlength : (String.ofList (compact v)).length = (compact v).length := by
    rw [← String.length_toList, String.toList_ofList]
  rw [loads, loadsWithin, hlength, String.toList_ofList, hskip, hread]
  rfl

end Nodes

/-! ## Sorted keys -/

section Sorted
variable {v : Json} {fields : List (String × Json)}

theorem sortItems_eq (items : List Json) : sortItems items = items.map sortKeys := by
  induction items with
  | nil => rfl
  | cons v items ih => rw [sortItems, ih, List.map_cons]

theorem sortFields_eq (fields : List (String × Json)) :
    sortFields fields = fields.map fun e => (e.1, sortKeys e.2) := by
  induction fields with
  | nil => rfl
  | cons e fields ih => rw [sortFields, ih, List.map_cons]

theorem keys_sortFields (fields : List (String × Json)) :
    (sortFields fields).map Prod.fst = fields.map Prod.fst := by
  rw [sortFields_eq, List.map_map]
  rfl

theorem wellFormed_sortKeys (h : WellFormed v) : WellFormed (sortKeys v) := by
  induction h with
  | null => exact .null
  | bool b => exact .bool b
  | int n => exact .int n
  | float h => exact .float h
  | str s => exact .str s
  | arr _ ih =>
    rw [sortKeys, sortItems_eq]
    refine .arr fun w hw => ?_
    obtain ⟨v, hv, rfl⟩ := List.mem_map.mp hw
    exact ih v hv
  | @obj fields hkeys _ ih =>
    have hperm := List.perm_insertionSort (·.1 ≤ ·.1) (sortFields fields)
    rw [sortKeys]
    refine .obj ?_ fun e he => ?_
    · rw [(hperm.map Prod.fst).nodup_iff, keys_sortFields]
      exact hkeys
    · rw [hperm.mem_iff, sortFields_eq] at he
      obtain ⟨e', he', rfl⟩ := List.mem_map.mp he
      exact ih e' he'

theorem field?_eq_some_iff {key : String} (hkeys : (fields.map Prod.fst).Nodup) :
    field? fields key = some v ↔ (key, v) ∈ fields := by
  have hlookup := Dict.lookup_entries ⟨fields, hkeys⟩ key
  rw [field?, hlookup, ← Dict.mem_entries]

/-- Sorting moves the fields of an object and sorts their values. -/
theorem field?_sortFields (hkeys : (fields.map Prod.fst).Nodup) (key : String) :
    field? ((sortFields fields).insertionSort (·.1 ≤ ·.1)) key =
      (field? fields key).map sortKeys := by
  have hperm := List.perm_insertionSort (·.1 ≤ ·.1) (sortFields fields)
  have hsorted : (((sortFields fields).insertionSort (·.1 ≤ ·.1)).map Prod.fst).Nodup := by
    rw [(hperm.map Prod.fst).nodup_iff, keys_sortFields]
    exact hkeys
  refine Option.ext fun v => ?_
  rw [field?_eq_some_iff hsorted, hperm.mem_iff, sortFields_eq, List.mem_map, Option.map_eq_some_iff]
  constructor
  · rintro ⟨e, he, heq⟩
    obtain ⟨rfl, rfl⟩ := Prod.mk.inj heq
    exact ⟨e.2, (field?_eq_some_iff hkeys).mpr he, rfl⟩
  · rintro ⟨w, hw, rfl⟩
    exact ⟨(key, w), (field?_eq_some_iff hkeys).mp hw, rfl⟩

/-- A sorted text is read back, with its keys in order. -/
theorem loads_dumpsSorted (h : WellFormed v) : loads (dumpsSorted v) = some (sortKeys v) :=
  loads_compact (wellFormed_sortKeys h)

theorem getLast?_compactFields (fields : List (String × Json)) :
    (compactFields fields).getLast? = some '}' := by
  induction fields with
  | nil => rfl
  | cons field fields ih =>
    obtain ⟨key, value⟩ := field
    rw [compactFields, List.getLast?_append, ih]
    rfl

theorem ends_compact (fields : List (String × Json)) :
    (compact (.obj fields)).head? = some '{' ∧ (compact (.obj fields)).getLast? = some '}' := by
  cases fields with
  | nil => exact ⟨rfl, rfl⟩
  | cons field fields =>
    obtain ⟨key, value⟩ := field
    refine ⟨rfl, ?_⟩
    rw [compact, List.getLast?_append, getLast?_compactFields]
    rfl

/-- The text of an object has no white space at its ends. -/
theorem strip_dumpsSorted (fields : List (String × Json)) :
    strip (dumpsSorted (.obj fields)) = dumpsSorted (.obj fields) := by
  obtain ⟨hhead, hlast⟩ := ends_compact ((sortFields fields).insertionSort (·.1 ≤ ·.1))
  rw [← String.toList_inj, toList_strip, dumpsSorted, String.toList_ofList, sortKeys]
  refine trim_eq_self (fun c hc => ?_) fun c hc => ?_
  · rw [hhead] at hc
    obtain rfl := Option.some.inj hc
    decide
  · rw [hlast] at hc
    obtain rfl := Option.some.inj hc
    decide

end Sorted

/-! ## What is read -/

section Readers
variable {limits : Limits} {l rest : List Char} {v : Json}

theorem wellFormed_readNumber (h : readNumber limits l = .ok (v, rest)) : WellFormed v := by
  unfold readNumber at h
  cases hdigits : readInteger l with
  | none =>
    rw [hdigits] at h
    cases h
  | some r =>
    obtain ⟨digits, l₁⟩ := r
    rw [hdigits] at h
    simp only [orMalformed, bind, Except.bind] at h
    split at h
    · split at h
      · cases h
      · split at h
        · cases h
        · cases h
          exact .int _
    · next hne =>
      cases h
      exact .float (.inr ⟨digits, _, _, String.toList_ofList, isInteger_of_read hdigits,
        isFraction_read _, isExponent_read _, hne⟩)

theorem wellFormed_readConstant (h : readConstant l = some (v, rest)) : WellFormed v := by
  obtain ⟨e, he, hr⟩ := Option.bind_eq_some_iff.mp h
  have hmem := List.mem_of_find?_eq_some he
  cases hr
  simp only [constants, List.mem_cons, List.not_mem_nil, or_false] at hmem
  rcases hmem with rfl | rfl | rfl | rfl | rfl | rfl
  · exact .null
  · exact .bool true
  · exact .bool false
  all_goals exact .float (.inl (by simp))

/-- The readers give well-formed values, whatever the fuel. -/
theorem wellFormed_read (fuel : Nat) :
    (∀ limits l v rest, readValue limits fuel l = .ok (v, rest) → WellFormed v) ∧
      (∀ limits l items rest, readItems limits fuel l = .ok (items, rest) →
        ∀ v ∈ items, WellFormed v) ∧
      ∀ limits l fields rest, readFields limits fuel l = .ok (fields, rest) →
        ∀ e ∈ fields, WellFormed e.2 := by
  induction fuel with
  | zero =>
    refine ⟨fun limits l v rest h => ?_, fun limits l items rest h => ?_,
      fun limits l fields rest h => ?_⟩
    all_goals cases h
  | succ fuel ih =>
    obtain ⟨hvalue, hitems, hfields⟩ := ih
    refine ⟨fun limits l v rest h => ?_, fun limits l items rest h => ?_,
      fun limits l fields rest h => ?_⟩
    · unfold readValue at h
      split at h
      · cases hread : readString _ with
        | none =>
          rw [hread] at h
          cases h
        | some r =>
          rw [hread] at h
          cases h
          exact .str _
      · cases hinner : limits.inner with
        | error e =>
          rw [hinner] at h
          cases h
        | ok inner =>
          rw [hinner] at h
          simp only [bind, Except.bind] at h
          split at h
          · cases h
            exact .obj List.nodup_nil fun e he => absurd he List.not_mem_nil
          · split at h
            · cases h
            · next r hread =>
              cases h
              refine .obj (Dict.ofPairs r.1).nodup fun e he => ?_
              exact hfields _ _ _ _ hread e (Dict.mem_of_ofPairs he)
      · cases hinner : limits.inner with
        | error e =>
          rw [hinner] at h
          cases h
        | ok inner =>
          rw [hinner] at h
          simp only [bind, Except.bind] at h
          split at h
          · cases h
            exact .arr fun v hv => absurd hv List.not_mem_nil
          · split at h
            · cases h
            · next r hread =>
              cases h
              exact .arr (hitems _ _ _ _ hread)
      · cases hconstant : readConstant _ with
        | some r =>
          rw [hconstant] at h
          cases h
          exact wellFormed_readConstant hconstant
        | none =>
          rw [hconstant] at h
          exact wellFormed_readNumber h
    · simp only [readItems, bind, Except.bind] at h
      split at h
      · cases h
      · next r hread =>
        have hv := hvalue _ _ _ _ hread
        split at h
        · cases h
          exact fun w hw => List.mem_singleton.mp hw ▸ hv
        · split at h
          · cases h
          · next r' hread' =>
            cases h
            intro w hw
            rcases List.mem_cons.mp hw with rfl | hw
            · exact hv
            · exact hitems _ _ _ _ hread' w hw
        · cases h
    · unfold readFields at h
      split at h
      · simp only [bind, Except.bind] at h
        split at h
        · cases h
        · split at h
          · split at h
            · cases h
            · next r hread =>
              have hv := hvalue _ _ _ _ hread
              split at h
              · cases h
                exact fun e he => List.mem_singleton.mp he ▸ hv
              · split at h
                · cases h
                · next r' hread' =>
                  cases h
                  intro e he
                  rcases List.mem_cons.mp he with rfl | he
                  · exact hv
                  · exact hfields _ _ _ _ hread' e he
              · cases h
          · cases h
      · cases h

/-- What `loads` gives has a text. -/
theorem wellFormed_of_loads {text : String} (h : loads text = some v) : WellFormed v := by
  rw [loads, loadsWithin] at h
  simp only [bind, Except.bind] at h
  split at h
  · cases h
  · next r hread =>
    split at h
    · cases h
      exact (wellFormed_read _).1 _ _ _ _ hread
    · cases h

end Readers

end Py.Json
