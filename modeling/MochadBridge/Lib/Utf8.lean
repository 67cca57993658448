import Mathlib.Data.List.Basic

/-!
# Decoding UTF-8

`bytes.decode("utf-8", errors="replace")`, and the strict decoding without
replacement characters. The bytes fall into units: a
well-formed sequence of one to four bytes, a byte that starts none, or the part
of a sequence that was begun and cannot go on (its maximal well-formed part).
Each unit becomes one character, U+FFFD if it is ill-formed.

Results:
1. `units_flatten`: the units make up the bytes.
2. `decode_append`: decoding two pieces separately decodes their concatenation
   if the cut lies between two units.
3. `weight_decode_lt`: if the cut lies inside a unit, the two pieces have more
   characters together, line ends not counted.
-/

namespace Utf8

/-! ## Bytes -/

/-- The length of the sequence a byte starts, 0 for one that starts none of
several bytes. -/
def need (b : UInt8) : Nat :=
  if 0xC2 ≤ b ∧ b ≤ 0xDF then 2
  else if 0xE0 ≤ b ∧ b ≤ 0xEF then 3
  else if 0xF0 ≤ b ∧ b ≤ 0xF4 then 4
  else 0

/-- A byte that goes on a sequence. -/
def isContinuation (b : UInt8) : Bool := 0x80 ≤ b && b ≤ 0xBF

/-- The second byte of a sequence, which also excludes overlong forms,
surrogates and code points that are too large. -/
def isSecond (lead b : UInt8) : Bool :=
  isContinuation b &&
    (if lead = 0xE0 then 0xA0 ≤ b
    else if lead = 0xED then b ≤ 0x9F
    else if lead = 0xF0 then 0x90 ≤ b
    else if lead = 0xF4 then b ≤ 0x8F
    else true)

/-- The byte goes on the sequence that was begun. -/
def continues : List UInt8 → UInt8 → Bool
  | [], _ => false
  | [lead], b => isSecond lead b
  | _ :: _, b => isContinuation b

/-- The sequence has all its bytes. -/
def isComplete : List UInt8 → Bool
  | [] => false
  | lead :: rest => need lead == rest.length + 1

/-! ## Units -/

/-- The sequence that ended before it was complete, if one was begun. -/
def flush (begun : List UInt8) : List (List UInt8) := if begun = [] then [] else [begun]

/-- The units of the bytes after the sequence `begun`. -/
def unitsFrom (begun : List UInt8) : List UInt8 → List (List UInt8)
  | [] => flush begun
  | b :: rest =>
    if continues begun b then
      if isComplete (begun ++ [b]) then (begun ++ [b]) :: unitsFrom [] rest
      else unitsFrom (begun ++ [b]) rest
    else flush begun ++ if need b = 0 then [b] :: unitsFrom [] rest else unitsFrom [b] rest

/-- The units of a text. -/
def units (bytes : List UInt8) : List (List UInt8) := unitsFrom [] bytes

/-- U+FFFD. -/
def replacement : Char := Char.ofNat 0xFFFD

/-- The character of a unit. -/
def unitChar : List UInt8 → Char
  | [a] => if a < 0x80 then Char.ofNat a.toNat else replacement
  | [a, b] =>
    if need a = 2 then Char.ofNat (a.toNat % 32 * 64 + b.toNat % 64) else replacement
  | [a, b, c] =>
    if need a = 3 then
      Char.ofNat (a.toNat % 16 * 4096 + b.toNat % 64 * 64 + c.toNat % 64)
    else replacement
  | [a, b, c, d] =>
    if need a = 4 then
      Char.ofNat (a.toNat % 8 * 262144 + b.toNat % 64 * 4096 + c.toNat % 64 * 64 + d.toNat % 64)
    else replacement
  | _ => replacement

/-- `bytes.decode("utf-8", errors="replace")`. -/
def decode (bytes : List UInt8) : List Char := (units bytes).map unitChar

example : String.ofList (decode [0x41, 0xC3, 0xA9, 0xE2, 0x82, 0x0A, 0xFF]) = "Aé�\n�" := by
  decide

/-- A unit that is the encoding of a character. -/
def isWhole (unit : List UInt8) : Bool := isComplete unit || unit.all (· < 0x80)

/-- `bytes.decode("utf-8")`, `none` where it raises `UnicodeDecodeError`. -/
def decodeStrict (bytes : List UInt8) : Option (List Char) :=
  if (units bytes).all isWhole then some (decode bytes) else none

example : decodeStrict [0x41, 0xC3, 0xA9] = some ['A', 'é'] ∧ decodeStrict [0x41, 0xC3] = none := by
  decide

/-- The cut between the two pieces lies between two units. -/
def UnitBoundary (xs ys : List UInt8) : Prop :=
  ∃ us vs, units (xs ++ ys) = us ++ vs ∧ us.flatten = xs

/-! ## Scanning -/

/-- The units that are finished after some bytes, and the sequence then begun. -/
def scan (begun : List UInt8) : List UInt8 → List (List UInt8) × List UInt8
  | [] => ([], begun)
  | b :: rest =>
    if continues begun b then
      if isComplete (begun ++ [b]) then
        ((begun ++ [b]) :: (scan [] rest).1, (scan [] rest).2)
      else scan (begun ++ [b]) rest
    else if need b = 0 then (flush begun ++ [b] :: (scan [] rest).1, (scan [] rest).2)
    else (flush begun ++ (scan [b] rest).1, (scan [b] rest).2)

theorem unitsFrom_append (begun xs ys : List UInt8) :
    unitsFrom begun (xs ++ ys) = (scan begun xs).1 ++ unitsFrom (scan begun xs).2 ys := by
  induction xs generalizing begun with
  | nil => rfl
  | cons b xs ih =>
    simp only [List.cons_append, unitsFrom, scan, ih]
    split
    · split <;> simp
    · split <;> simp

theorem unitsFrom_eq_scan (begun xs : List UInt8) :
    unitsFrom begun xs = (scan begun xs).1 ++ flush (scan begun xs).2 := by
  have h := unitsFrom_append begun xs []
  rwa [List.append_nil] at h

theorem flatten_flush (begun : List UInt8) : (flush begun).flatten = begun := by
  unfold flush
  split
  · next h => rw [h]; rfl
  · simp

theorem unitsFrom_flatten (begun xs : List UInt8) :
    (unitsFrom begun xs).flatten = begun ++ xs := by
  induction xs generalizing begun with
  | nil => simp [unitsFrom, flatten_flush]
  | cons b xs ih =>
    simp only [unitsFrom]
    split
    · split <;> simp [ih]
    · split <;> simp [ih, flatten_flush]

/-- The units make up the bytes. -/
theorem units_flatten (bytes : List UInt8) : (units bytes).flatten = bytes :=
  unitsFrom_flatten [] bytes

theorem scan_flatten (begun xs : List UInt8) :
    (scan begun xs).1.flatten ++ (scan begun xs).2 = begun ++ xs := by
  have h := unitsFrom_flatten begun xs
  rwa [unitsFrom_eq_scan, List.flatten_append, flatten_flush] at h

/-! ## What is begun can go on -/

/-- A sequence that was begun: it is well formed so far and not complete. -/
def Begun (p : List UInt8) : Prop :=
  match p with
  | [] => True
  | [lead] => need lead ≠ 0
  | lead :: b :: rest =>
    isSecond lead b = true ∧ (∀ c ∈ rest, isContinuation c = true) ∧ rest.length + 2 < need lead

theorem need_cases (b : UInt8) : need b = 0 ∨ need b = 2 ∨ need b = 3 ∨ need b = 4 := by
  unfold need
  split_ifs <;> simp

theorem Begun.snoc {p : List UInt8} {b : UInt8} (h : Begun p) (hc : continues p b = true)
    (hi : isComplete (p ++ [b]) = false) : Begun (p ++ [b]) := by
  match p, h with
  | [], _ => cases hc
  | [lead], h =>
    have hn : need lead ≠ 2 := by simpa [isComplete] using hi
    refine ⟨hc, by simp, ?_⟩
    rcases need_cases lead with h' | h' | h' | h'
    · exact absurd h' h
    · exact absurd h' hn
    · simp [h']
    · simp [h']
  | lead :: b' :: rest, ⟨hs, hall, hlen⟩ =>
    have hn : need lead ≠ rest.length + 3 := by simpa [isComplete] using hi
    refine ⟨hs, fun c hcm => ?_, ?_⟩
    · rcases List.mem_append.mp hcm with hcm | hcm
      · exact hall c hcm
      · rw [List.mem_singleton.mp hcm]
        exact hc
    · have hl : (rest ++ [b]).length = rest.length + 1 := by simp
      show (rest ++ [b]).length + 2 < need lead
      omega

theorem scan_begun (begun xs : List UInt8) (h : Begun begun) : Begun (scan begun xs).2 := by
  induction xs generalizing begun with
  | nil => exact h
  | cons b xs ih =>
    simp only [scan]
    split
    · next hc =>
      split
      · exact ih [] trivial
      · next hi => exact ih _ (h.snoc hc (by simpa using hi))
    · split
      · exact ih [] trivial
      · next hb => exact ih [b] hb

/-- A byte that goes on a sequence starts none. -/
theorem continuation_of_continues {p : List UInt8} {b : UInt8} (h : continues p b = true) :
    isContinuation b = true := by
  unfold continues at h
  split at h
  · cases h
  · exact ((Bool.and_eq_true _ _).mp h).1
  · exact h

/-- A statement about bytes that is checked for each of them. -/
theorem forall_byte {P : UInt8 → Prop} (h : ∀ n < 256, P (UInt8.ofNat n)) (b : UInt8) : P b := by
  have hb := h b.toNat b.toNat_lt
  rwa [UInt8.ofNat_toNat] at hb

/-- What the kinds of bytes have to do with each other. -/
theorem kinds_of_byte : ∀ b : UInt8, (isContinuation b = true → need b = 0 ∧ ¬ b < 0x80) ∧
    (b < 0x80 → need b = 0 ∧ isContinuation b = false) :=
  forall_byte (by decide +kernel)

theorem need_of_continuation {b : UInt8} (h : isContinuation b = true) :
    need b = 0 ∧ ¬ b < 0x80 :=
  (kinds_of_byte b).1 h

theorem need_of_ascii {b : UInt8} (h : b < 0x80) : need b = 0 ∧ isContinuation b = false :=
  (kinds_of_byte b).2 h

theorem not_ascii_of_need {b : UInt8} (h : need b ≠ 0) : ¬ b < 0x80 := fun hascii =>
  h (need_of_ascii hascii).1

/-- A sequence that was cut off is replaced. -/
theorem unitChar_begun {p : List UInt8} (h : Begun p) (hne : p ≠ []) : unitChar p = replacement := by
  match p, h with
  | [], _ => exact absurd rfl hne
  | [lead], h => simp only [unitChar, if_neg (not_ascii_of_need h)]
  | [lead, b], ⟨_, _, hlen⟩ =>
    have hn : need lead ≠ 2 := by simp at hlen; omega
    simp only [unitChar, if_neg hn]
  | [lead, b, c], ⟨_, _, hlen⟩ =>
    have hn : need lead ≠ 3 := by simp at hlen; omega
    simp only [unitChar, if_neg hn]
  | lead :: b :: c :: d :: rest, ⟨_, _, hlen⟩ =>
    have hn := need_cases lead
    simp only [List.length_cons] at hlen
    omega

/-! ## Decoding pieces -/

theorem decode_nil : decode [] = [] := rfl

/-- A byte that goes on a sequence is replaced where none was begun. -/
theorem decode_continuation {b : UInt8} (h : isContinuation b = true) (rest : List UInt8) :
    decode (b :: rest) = replacement :: decode rest := by
  obtain ⟨hn, ha⟩ := need_of_continuation h
  simp [decode, units, unitsFrom, continues, flush, hn, unitChar, ha]

theorem units_ascii {b : UInt8} (h : b < 0x80) (rest : List UInt8) :
    units (b :: rest) = [b] :: units rest := by
  simp [units, unitsFrom, continues, flush, (need_of_ascii h).1]

theorem decode_ascii {b : UInt8} (h : b < 0x80) (rest : List UInt8) :
    decode (b :: rest) = Char.ofNat b.toNat :: decode rest := by
  simp [decode, units_ascii h, unitChar, h]

/-- The characters that are not part of a line end. -/
def weight (text : List Char) : Nat := text.countP fun c => c ≠ '\r' && c ≠ '\n'

@[simp] theorem weight_append (a b : List Char) : weight (a ++ b) = weight a + weight b :=
  List.countP_append

theorem weight_cons_le (c : Char) (text : List Char) : weight (c :: text) ≤ 1 + weight text := by
  unfold weight
  rw [List.countP_cons]
  split <;> omega

theorem weight_replacement (text : List Char) : weight (replacement :: text) = 1 + weight text := by
  unfold weight
  rw [List.countP_cons_of_pos (by decide), Nat.add_comm]

/-- A byte that does not go on what was begun cuts it off. -/
theorem unitsFrom_cut {p ys : List UInt8} (h : ∀ b ∈ ys.head?, continues p b = false) :
    unitsFrom p ys = flush p ++ units ys := by
  cases ys with
  | nil => simp [unitsFrom, units, flush]
  | cons b ys =>
    have hb : continues p b = false := h b rfl
    have hnil : continues [] b = false := rfl
    have hflush : flush [] = [] := rfl
    simp only [unitsFrom, units, hb, hnil, hflush, Bool.false_eq_true, if_false, List.nil_append]

/-- Going on with a sequence costs at most one character. -/
theorem weight_unitsFrom_le {p : List UInt8} (h : Begun p) (ys : List UInt8) :
    weight ((unitsFrom p ys).map unitChar) ≤ 1 + weight (decode ys) := by
  induction ys generalizing p with
  | nil =>
    simp only [unitsFrom, flush]
    split
    · exact Nat.zero_le _
    · exact weight_cons_le _ []
  | cons b ys ih =>
    cases hc : continues p b with
    | false =>
      rw [unitsFrom_cut (by simpa using hc), List.map_append, weight_append]
      have hf : weight ((flush p).map unitChar) ≤ 1 := by
        unfold flush
        split
        · exact Nat.zero_le _
        · exact weight_cons_le _ []
      exact Nat.add_le_add_right hf _
    | true =>
      rw [decode_continuation (continuation_of_continues hc), weight_replacement]
      simp only [unitsFrom, hc, if_true]
      split
      · rw [List.map_cons]
        have := weight_cons_le (unitChar (p ++ [b])) ((unitsFrom [] ys).map unitChar)
        exact Nat.le_trans this (Nat.le_add_left _ _)
      · next hi =>
        exact Nat.le_trans (ih (h.snoc hc (by simpa using hi))) (Nat.le_add_left _ _)

/-- Cutting a sequence that would go on costs a character. -/
theorem weight_unitsFrom_lt {p : List UInt8} (h : Begun p) {b : UInt8} (ys : List UInt8)
    (hc : continues p b = true) :
    weight ((unitsFrom p (b :: ys)).map unitChar) <
      weight ((flush p).map unitChar) + weight (decode (b :: ys)) := by
  have hne : p ≠ [] := by rintro rfl; cases hc
  have hflush : weight ((flush p).map unitChar) = 1 := by
    simp only [flush, if_neg hne, List.map_singleton, unitChar_begun h hne]
    rfl
  rw [hflush, decode_continuation (continuation_of_continues hc), weight_replacement]
  simp only [unitsFrom, hc, if_true]
  split
  · have := weight_cons_le (unitChar (p ++ [b])) ((unitsFrom [] ys).map unitChar)
    rw [List.map_cons]
    exact Nat.lt_of_le_of_lt this (by unfold decode units; omega)
  · next hi =>
    have := weight_unitsFrom_le (h.snoc hc (by simpa using hi)) ys
    omega

/-- What was begun is part of the first unit that follows. -/
theorem unitsFrom_head {p : List UInt8} (hne : p ≠ []) (ys : List UInt8) :
    ∃ u rest, unitsFrom p ys = u :: rest ∧ p.length ≤ u.length := by
  induction ys generalizing p with
  | nil => exact ⟨p, [], by simp [unitsFrom, flush, hne], Nat.le_refl _⟩
  | cons b ys ih =>
    simp only [unitsFrom]
    split
    · split
      · exact ⟨_, _, rfl, by simp⟩
      · obtain ⟨u, rest, hu, hle⟩ := ih (p := p ++ [b]) (by simp)
        refine ⟨u, rest, hu, ?_⟩
        rw [List.length_append] at hle
        omega
    · exact ⟨p, _, by simp only [flush, if_neg hne]; rfl, Nat.le_refl _⟩

theorem unitsFrom_head_of_continues {p : List UInt8} {b : UInt8} (hc : continues p b = true)
    (ys : List UInt8) :
    ∃ u rest, unitsFrom p (b :: ys) = u :: rest ∧ p.length < u.length := by
  simp only [unitsFrom, hc, if_true]
  split
  · exact ⟨_, _, rfl, by simp⟩
  · obtain ⟨u, rest, hu, hle⟩ := unitsFrom_head (p := p ++ [b]) (by simp) ys
    refine ⟨u, rest, hu, ?_⟩
    rw [List.length_append, List.length_singleton] at hle
    omega

/-! ## The two kinds of cuts -/

/-- A unit that goes on across the cut is longer than what was begun before. -/
theorem not_unitBoundary_of_continues {xs ys : List UInt8} {b : UInt8}
    (hc : continues (scan [] xs).2 b = true) : ¬ UnitBoundary xs (b :: ys) := by
  have hwhole := unitsFrom_append [] xs (b :: ys)
  have hflat := scan_flatten [] xs
  rw [List.nil_append] at hflat
  generalize (scan [] xs).1 = done at *
  generalize (scan [] xs).2 = begun at *
  have hne : begun ≠ [] := by rintro rfl; cases hc
  rintro ⟨us, vs, hu, hflat'⟩
  obtain ⟨u, rest, hhead, hlt⟩ := unitsFrom_head_of_continues hc ys
  have happ : us ++ vs = done ++ u :: rest := by rw [← hu, ← hhead]; exact hwhole
  have hlen := congrArg List.length (hflat'.trans hflat.symm)
  have hpos := List.length_pos_iff.mpr hne
  rcases List.append_eq_append_iff.mp happ with ⟨a, rfl, _⟩ | ⟨a, rfl, ha⟩
  · simp only [List.flatten_append, List.length_append] at hlen
    omega
  · cases a with
    | nil =>
      simp only [List.append_nil, List.length_append] at hlen
      omega
    | cons v a =>
      obtain ⟨rfl, _⟩ := List.cons.inj ha
      simp only [List.flatten_append, List.flatten_cons, List.length_append] at hlen
      omega

/-- Between units the pieces decode separately; inside a unit they have more
characters than the whole. -/
theorem cut_cases (xs ys : List UInt8) :
    UnitBoundary xs ys ∧ decode (xs ++ ys) = decode xs ++ decode ys ∨
      ¬ UnitBoundary xs ys ∧ weight (decode (xs ++ ys)) < weight (decode xs ++ decode ys) := by
  have hwhole := unitsFrom_append [] xs ys
  have hxs := unitsFrom_eq_scan [] xs
  by_cases hcut : ∀ b ∈ ys.head?, continues (scan [] xs).2 b = false
  · rw [unitsFrom_cut hcut, ← List.append_assoc, ← hxs] at hwhole
    refine .inl ⟨⟨units xs, units ys, hwhole, units_flatten xs⟩, ?_⟩
    rw [decode, units, hwhole, List.map_append]
    rfl
  · obtain ⟨b, hb, hc⟩ : ∃ b ∈ ys.head?, continues (scan [] xs).2 b = true := by simpa using hcut
    obtain ⟨ys, rfl⟩ := List.head?_eq_some_iff.mp hb
    refine .inr ⟨not_unitBoundary_of_continues hc, ?_⟩
    have hlt := weight_unitsFrom_lt (scan_begun [] xs trivial) ys hc
    simp only [decode, units] at hlt ⊢
    rw [hwhole, hxs, List.map_append, List.map_append, weight_append, weight_append,
      weight_append]
    omega

theorem decode_append {xs ys : List UInt8} (h : UnitBoundary xs ys) :
    decode (xs ++ ys) = decode xs ++ decode ys :=
  (cut_cases xs ys).elim (·.2) fun hn => absurd h hn.1

theorem weight_decode_lt {xs ys : List UInt8} (h : ¬ UnitBoundary xs ys) :
    weight (decode (xs ++ ys)) < weight (decode xs ++ decode ys) :=
  (cut_cases xs ys).elim (fun hb => absurd hb.1 h) (·.2)

/-! ## Line feeds -/

theorem ofNat_ne_newline {n : Nat} (h : 64 ≤ n) : Char.ofNat n ≠ '\n' := by
  by_cases hv : n.isValidChar
  · have hn : (Char.ofNat n).toNat = n := by
      rw [Char.ofNat, dif_pos hv]
      rfl
    intro he
    rw [he] at hn
    have : ('\n' : Char).toNat = 10 := rfl
    omega
  · rw [Char.ofNat, dif_neg hv]
    decide

/-- A leading byte carries a part of the code point, unless the next byte has to. -/
theorem leads_of_byte : ∀ b : UInt8, (need b = 2 → 2 ≤ b.toNat % 32) ∧
    (need b = 3 → b = 0xE0 ∨ 1 ≤ b.toNat % 16) ∧ (need b = 4 → b = 0xF0 ∨ 1 ≤ b.toNat % 8) ∧
    (isSecond 0xE0 b = true → 32 ≤ b.toNat % 64) ∧
    (isSecond 0xF0 b = true → 16 ≤ b.toNat % 64) :=
  forall_byte (by decide +kernel)

/-- A complete sequence of several bytes is no line feed. -/
theorem unitChar_complete {p : List UInt8} {b : UInt8} (h : Begun p) (hc : continues p b = true)
    (hi : isComplete (p ++ [b]) = true) : unitChar (p ++ [b]) ≠ '\n' := by
  match p, h with
  | [], _ => cases hc
  | [lead], _ =>
    have hn : need lead = 2 := by simpa [isComplete] using hi
    have hlead := (leads_of_byte lead).1 hn
    simp only [List.cons_append, List.nil_append, unitChar, if_pos hn]
    exact ofNat_ne_newline (by omega)
  | [lead, b₁], ⟨hs, _, _⟩ =>
    have hn : need lead = 3 := by simpa [isComplete] using hi
    simp only [List.cons_append, List.nil_append, unitChar, if_pos hn]
    rcases (leads_of_byte lead).2.1 hn with rfl | hlead
    · have hsec := (leads_of_byte b₁).2.2.2.1 hs
      exact ofNat_ne_newline (by omega)
    · exact ofNat_ne_newline (by omega)
  | [lead, b₁, b₂], ⟨hs, _, _⟩ =>
    have hn : need lead = 4 := by simpa [isComplete] using hi
    simp only [List.cons_append, List.nil_append, unitChar, if_pos hn]
    rcases (leads_of_byte lead).2.2.1 hn with rfl | hlead
    · have hsec := (leads_of_byte b₁).2.2.2.2 hs
      exact ofNat_ne_newline (by omega)
    · exact ofNat_ne_newline (by omega)
  | lead :: b₁ :: b₂ :: b₃ :: rest, ⟨_, _, hlen⟩ =>
    have hn := need_cases lead
    simp only [List.length_cons] at hlen
    omega

theorem flush_ne_newline {p : List UInt8} (h : Begun p) :
    ∀ u ∈ flush p, unitChar u ≠ '\n' := by
  intro u hu
  unfold flush at hu
  split at hu
  · exact absurd hu List.not_mem_nil
  · next hne =>
    rw [List.mem_singleton.mp hu, unitChar_begun h hne]
    decide

theorem single_ne_newline : ∀ b : UInt8, b ≠ 0x0A → unitChar [b] ≠ '\n' :=
  forall_byte (by decide +kernel)

theorem unitsFrom_ne_newline {p ys : List UInt8} (h : Begun p) (hy : (0x0A : UInt8) ∉ ys) :
    ∀ u ∈ unitsFrom p ys, unitChar u ≠ '\n' := by
  induction ys generalizing p with
  | nil => exact flush_ne_newline h
  | cons b ys ih =>
    have hrest : (0x0A : UInt8) ∉ ys := fun hm => hy (List.mem_cons_of_mem _ hm)
    have hb : b ≠ 0x0A := fun he => hy (he ▸ List.mem_cons_self)
    intro u hu
    simp only [unitsFrom] at hu
    split at hu
    · next hc =>
      split at hu
      · next hi =>
        rcases List.mem_cons.mp hu with rfl | hu
        · exact unitChar_complete h hc hi
        · exact ih (p := []) trivial hrest u hu
      · next hi => exact ih (h.snoc hc (by simpa using hi)) hrest u hu
    · rcases List.mem_append.mp hu with hu | hu
      · exact flush_ne_newline h u hu
      · split at hu
        · rcases List.mem_cons.mp hu with rfl | hu
          · exact single_ne_newline b hb
          · exact ih (p := []) trivial hrest u hu
        · next hn => exact ih (p := [b]) hn hrest u hu

/-- Only the byte of a line feed decodes to one. -/
theorem newline_not_mem_decode {ys : List UInt8} (h : (0x0A : UInt8) ∉ ys) :
    '\n' ∉ decode ys := by
  intro hm
  obtain ⟨u, hu, he⟩ := List.mem_map.mp hm
  exact unitsFrom_ne_newline (p := []) trivial h u hu he

/-! ## Boundaries -/

theorem unitBoundary_iff {xs ys : List UInt8} :
    UnitBoundary xs ys ↔ units (xs ++ ys) = units xs ++ units ys := by
  refine ⟨fun h => ?_, fun h => ⟨_, _, h, units_flatten xs⟩⟩
  have hwhole := unitsFrom_append [] xs ys
  by_cases hcut : ∀ b ∈ ys.head?, continues (scan [] xs).2 b = false
  · rw [unitsFrom_cut hcut, ← List.append_assoc, ← unitsFrom_eq_scan] at hwhole
    exact hwhole
  · obtain ⟨b, hb, hc⟩ : ∃ b ∈ ys.head?, continues (scan [] xs).2 b = true := by simpa using hcut
    obtain ⟨ys, rfl⟩ := List.head?_eq_some_iff.mp hb
    exact absurd h (not_unitBoundary_of_continues hc)

@[simp] theorem unitBoundary_nil_left (ys : List UInt8) : UnitBoundary [] ys :=
  ⟨[], units ys, rfl, rfl⟩

@[simp] theorem unitBoundary_nil_right (xs : List UInt8) : UnitBoundary xs [] :=
  ⟨units xs, [], by simp, units_flatten xs⟩

/-- Behind a boundary the units are those of the rest. -/
theorem unitBoundary_append_left {d xs ys : List UInt8} (h : UnitBoundary d (xs ++ ys)) :
    UnitBoundary (d ++ xs) ys ↔ UnitBoundary xs ys := by
  rw [unitBoundary_iff] at h
  constructor
  · rintro ⟨us, vs, hu, hflat⟩
    rw [List.append_assoc, h] at hu
    rcases List.append_eq_append_iff.mp hu with ⟨a, rfl, ha⟩ | ⟨a, ha, _⟩
    · rw [List.flatten_append, units_flatten] at hflat
      exact ⟨a, vs, ha, List.append_cancel_left hflat⟩
    · have hd := congrArg List.flatten ha
      rw [units_flatten, List.flatten_append, hflat] at hd
      have hx : xs = [] := by
        have hlen := congrArg List.length hd
        simp only [List.length_append] at hlen
        exact List.eq_nil_of_length_eq_zero (by omega)
      rw [hx]
      exact unitBoundary_nil_left ys
  · rintro ⟨us, vs, hu, hflat⟩
    refine ⟨units d ++ us, vs, ?_, by rw [List.flatten_append, units_flatten, hflat]⟩
    rw [List.append_assoc, h, hu, List.append_assoc]

/-- Before a boundary the units are those of the front. -/
theorem unitBoundary_append_right {xs ys d : List UInt8} (h : UnitBoundary (xs ++ ys) d) :
    UnitBoundary xs (ys ++ d) ↔ UnitBoundary xs ys := by
  rw [unitBoundary_iff, List.append_assoc] at h
  constructor
  · rintro ⟨us, vs, hu, hflat⟩
    rw [h] at hu
    rcases List.append_eq_append_iff.mp hu with ⟨a, rfl, _⟩ | ⟨a, ha, _⟩
    · rw [List.flatten_append, units_flatten] at hflat
      have hy : ys = [] := by
        have hlen := congrArg List.length hflat
        simp only [List.length_append] at hlen
        exact List.eq_nil_of_length_eq_zero (by omega)
      rw [hy]
      exact unitBoundary_nil_right xs
    · exact ⟨us, a, ha, hflat⟩
  · rintro ⟨us, vs, hu, hflat⟩
    exact ⟨us, vs ++ units d, by rw [h, hu, List.append_assoc], hflat⟩

/-- An ASCII byte begins a unit. -/
theorem unitBoundary_ascii (xs : List UInt8) {b : UInt8} (h : b < 0x80) (ys : List UInt8) :
    UnitBoundary xs (b :: ys) := by
  rw [unitBoundary_iff, units, unitsFrom_append, unitsFrom_cut, ← List.append_assoc,
    ← unitsFrom_eq_scan]
  · rfl
  · intro b' hb'
    obtain rfl := Option.some.inj hb'
    rw [Bool.eq_false_iff]
    intro hc
    have hcont := continuation_of_continues hc
    rw [(need_of_ascii h).2] at hcont
    cases hcont

/-- Pieces decode separately if all cuts are boundaries; otherwise they have
more characters than the whole. -/
theorem pieces_cases (ds : List (List UInt8)) :
    (∀ ds₁ ds₂, ds = ds₁ ++ ds₂ → UnitBoundary ds₁.flatten ds₂.flatten) ∧
        decode ds.flatten = ds.flatMap decode ∨
      ¬ (∀ ds₁ ds₂, ds = ds₁ ++ ds₂ → UnitBoundary ds₁.flatten ds₂.flatten) ∧
        weight (decode ds.flatten) < weight (ds.flatMap decode) := by
  induction ds with
  | nil =>
    refine .inl ⟨fun ds₁ ds₂ h => ?_, rfl⟩
    obtain ⟨rfl, rfl⟩ := List.nil_eq_append_iff.mp h
    exact unitBoundary_nil_left _
  | cons d ds ih =>
    rw [List.flatten_cons, List.flatMap_cons]
    rcases cut_cases d ds.flatten with ⟨hb, hdec⟩ | ⟨hb, hlt⟩
    · -- the first cut is a boundary: the others are judged in the rest
      have hsplit : (∀ ds₁ ds₂, d :: ds = ds₁ ++ ds₂ →
          UnitBoundary ds₁.flatten ds₂.flatten) ↔
          ∀ ds₁ ds₂, ds = ds₁ ++ ds₂ → UnitBoundary ds₁.flatten ds₂.flatten := by
        have hstep : ∀ ds₁ ds₂, ds = ds₁ ++ ds₂ →
            (UnitBoundary (d :: ds₁).flatten ds₂.flatten ↔
              UnitBoundary ds₁.flatten ds₂.flatten) := by
          rintro ds₁ ds₂ rfl
          rw [List.flatten_append] at hb
          exact unitBoundary_append_left hb
        constructor
        · intro h ds₁ ds₂ he
          exact (hstep ds₁ ds₂ he).mp (h (d :: ds₁) ds₂ (by rw [he]; rfl))
        · intro h ds₁ ds₂ he
          cases ds₁ with
          | nil => exact unitBoundary_nil_left _
          | cons d' ds₁ =>
            obtain ⟨rfl, he'⟩ := List.cons.inj he
            exact (hstep ds₁ ds₂ he').mpr (h ds₁ ds₂ he')
      rw [hsplit, hdec]
      rcases ih with ⟨hall, heq⟩ | ⟨hall, hlt⟩
      · exact .inl ⟨hall, by rw [heq]⟩
      · refine .inr ⟨hall, ?_⟩
        rw [weight_append, weight_append]
        omega
    · refine .inr ⟨fun h => hb (by simpa using h [d] ds rfl), Nat.lt_of_lt_of_le hlt ?_⟩
      rw [weight_append, weight_append]
      rcases ih with ⟨_, heq⟩ | ⟨_, hlt'⟩
      · exact Nat.le_of_eq (by rw [heq])
      · omega

end Utf8
