import MochadBridge.Config
import MochadBridge.ParserSafety

/-!
# The recognisers of X10 addresses

The configuration, the protocol, the topics and `X10Address` recognise an address
each with a pattern of its own, after the same `strip` and `upper`. The pattern of
the configuration ignores case, which `upper` leaves two characters to: U+0130 and
U+212A are their own upper case and match as `I` and `K`.

Results:
1. `toOption_parse`: `X10Address.parse` accepts what the topics accept.
2. `recognisersAgree_iff`: the four agree on a text unless it is an address with
   one of the two characters for its house letter.
-/

namespace MochadBridge

open Py Protocol

/-! ## `X10Address` -/

/-- A normalized address. -/
structure X10Address where
  house : String
  unit : Int
  house_range : house.length = 1 ∧ "A" ≤ house ∧ house ≤ "P"
  unit_range : 1 ≤ unit ∧ unit ≤ 16

namespace X10Address

/-- The checks of `__post_init__`. -/
def make (house : String) (unit : Int) : Except PyError X10Address :=
  if hlength : (upper house).length = 1 then
    if hhouse : "A" ≤ upper house ∧ upper house ≤ "P" then
      if hunit : 1 ≤ unit ∧ unit ≤ 16 then .ok ⟨upper house, unit, ⟨hlength, hhouse⟩, hunit⟩
      else .error (.valueError ("Invalid unit '" ++ toString unit ++ "'."))
    else .error (.valueError ("Invalid house '" ++ upper house ++ "'."))
  else .error (.valueError ("Invalid house '" ++ upper house ++ "'."))

/-- `__str__`. -/
def str (address : X10Address) : String := address.house ++ toString address.unit

/-- `X10Address.parse`. -/
def parse (value : String) : Except PyError X10Address :=
  let value := upper (strip value)
  match value.toList with
  | house :: unit =>
    if isHouse house && matchesUnit unit then
      make (String.singleton house) ((int? (String.ofList unit)).getD 0)
    else .error (.valueError ("Invalid X10 address '" ++ value ++ "'."))
  | [] => .error (.valueError ("Invalid X10 address '" ++ value ++ "'."))

/-- The units of an address. -/
def units : List (List Char) := (List.range' 1 16).map fun n => (Nat.repr n).toList

theorem mem_units {unit : List Char} (h : matchesUnit unit = true) : unit ∈ units := by
  have hone : ∀ n ∈ List.range' 49 9, [Char.ofNat n] ∈ units := by decide
  have htwo : ∀ n ∈ List.range' 48 7, ['1', Char.ofNat n] ∈ units := by decide
  unfold matchesUnit at h
  split at h
  · next u =>
    simp only [Bool.and_eq_true, decide_eq_true_eq] at h
    have hrange : 49 ≤ u.toNat ∧ u.toNat ≤ 57 := h
    have hmem := hone u.toNat (List.mem_range'_1.mpr (by omega))
    rwa [Char.ofNat_toNat] at hmem
  · next t u =>
    simp only [Bool.and_eq_true, decide_eq_true_eq, beq_iff_eq] at h
    obtain ⟨⟨rfl, hlow⟩, hhigh⟩ := h
    have hrange : 48 ≤ u.toNat ∧ u.toNat ≤ 54 := ⟨hlow, hhigh⟩
    have hmem := htwo u.toNat (List.mem_range'_1.mpr (by omega))
    rwa [Char.ofNat_toNat] at hmem
  · exact absurd h (by decide)

/-- `int` of a unit, and its text. -/
theorem units_read {unit : List Char} (h : unit ∈ units) : ∃ n : Nat,
    int? (String.ofList unit) = some (n : Int) ∧ 1 ≤ n ∧ n ≤ 16 ∧
      toString (n : Int) = String.ofList unit := by
  obtain ⟨n, hn, rfl⟩ := List.mem_map.mp h
  obtain ⟨hlow, hhigh⟩ := List.mem_range'_1.mp hn
  rw [String.ofList_toList]
  exact ⟨n, int?_toString n, hlow, by omega, rfl⟩

/-- A house letter is its own upper case, and in the range of the letters. -/
theorem upper_house {c : Char} (h : isHouse c = true) :
    upper (String.singleton c) = String.singleton c ∧
      "A" ≤ String.singleton c ∧ String.singleton c ≤ "P" := by
  have hcodes : ∀ n ∈ List.range' 65 16,
      upper (String.singleton (Char.ofNat n)) = String.singleton (Char.ofNat n) ∧
        "A" ≤ String.singleton (Char.ofNat n) ∧ String.singleton (Char.ofNat n) ≤ "P" := by
    decide +kernel
  simp only [isHouse, Bool.and_eq_true, decide_eq_true_eq] at h
  have hrange : 65 ≤ c.toNat ∧ c.toNat ≤ 80 := h
  have hc := hcodes c.toNat (List.mem_range'_1.mpr (by omega))
  rwa [Char.ofNat_toNat] at hc

theorem make_ok {c : Char} (hc : isHouse c = true) {n : Nat} (hn : 1 ≤ n ∧ n ≤ 16) :
    ∃ address, make (String.singleton c) n = .ok address ∧ address.house = String.singleton c ∧
      address.unit = n := by
  obtain ⟨hupper, hrange⟩ := upper_house hc
  have hlength : (upper (String.singleton c)).length = 1 := by
    rw [hupper, String.length_singleton]
  have hhouse : "A" ≤ upper (String.singleton c) ∧ upper (String.singleton c) ≤ "P" := by
    rwa [hupper]
  have hunit : (1 : Int) ≤ n ∧ (n : Int) ≤ 16 := by omega
  exact ⟨⟨upper (String.singleton c), n, ⟨hlength, hhouse⟩, hunit⟩,
    by rw [make, dif_pos hlength, dif_pos hhouse, dif_pos hunit], hupper, rfl⟩

end X10Address

/-! ## What they accept -/

/-- The text of a recogniser that accepts by a class of house letters. -/
def recognised (house : Char → Bool) (s : String) : Option String :=
  if matchesAddress house (upper (strip s)).toList then some (upper (strip s)) else none

theorem toOption_ite (b : Bool) (k : String) (e : PyError) :
    (if b then .ok k else .error e : Except PyError String).toOption = if b then some k else none := by
  cases b <;> rfl

theorem toOption_config (s : String) :
    (Config.normalizeAddress s).toOption = recognised isHouseIgnoringCase s := by
  simp only [Config.normalizeAddress, toOption_ite, recognised]

theorem toOption_protocol (s : String) :
    (Protocol.normalizeAddress s).toOption = recognised isHouseEitherCase s := by
  have hnormal : upper (strip s) = normalize s := rfl
  simp only [Protocol.normalizeAddress, toOption_ite, recognised, hnormal]

theorem toOption_topics (s : String) : (Topics.address s).toOption = recognised isHouse s := by
  simp only [Topics.address, toOption_ite, recognised]

/-- `X10Address.parse` accepts what the topics accept, with the same text. -/
theorem toOption_parse (s : String) :
    (X10Address.parse s).toOption.map X10Address.str = recognised isHouse s := by
  cases hl : (upper (strip s)).toList with
  | nil => simp only [X10Address.parse, recognised, hl]; rfl
  | cons c unit =>
    have hmatch : matchesAddress isHouse (c :: unit) = (isHouse c && matchesUnit unit) := by
      rw [Bool.eq_iff_iff, matchesAddress_iff, Bool.and_eq_true]
      constructor
      · rintro ⟨_, _, heq, hc, hunit⟩
        obtain ⟨rfl, rfl⟩ := List.cons.inj heq
        exact ⟨hc, hunit⟩
      · exact fun h => ⟨c, unit, rfl, h⟩
    simp only [X10Address.parse, recognised, hl, hmatch]
    by_cases h : (isHouse c && matchesUnit unit) = true
    · obtain ⟨hc, hunit⟩ := Bool.and_eq_true_iff.mp h
      obtain ⟨n, hint, hlow, hhigh, htext⟩ := X10Address.units_read (X10Address.mem_units hunit)
      obtain ⟨parsed, hparsed, hhouse, hparsedUnit⟩ := X10Address.make_ok hc ⟨hlow, hhigh⟩
      have hstr : parsed.str = upper (strip s) := by
        rw [X10Address.str, hhouse, hparsedUnit, htext, ← String.toList_inj, String.toList_append, hl,
          String.toList_ofList]
        simp
      rw [if_pos h, if_pos h, hint, Option.getD_some, hparsed]
      exact congrArg some hstr
    · rw [if_neg h, if_neg h]
      rfl

/-! ## Agreement -/

/-- All four reject the text, or all accept it with the same canonical text. -/
def RecognisersAgree (s : String) : Prop :=
  ∃ verdict : Option String, (Config.normalizeAddress s).toOption = verdict ∧
    (Protocol.normalizeAddress s).toOption = verdict ∧ (Topics.address s).toOption = verdict ∧
    (X10Address.parse s).toOption.map X10Address.str = verdict

/-- The text is an address, but for its house letter U+0130 or U+212A. -/
def IsStrayAddress (s : String) : Prop :=
  ∃ c unit, (upper (strip s)).toList = c :: unit ∧ isStray c = true ∧ matchesUnit unit = true

/-- In upper case, a character that matches a house letter is one, or it is stray. -/
theorem isHouse_of_ignoringCase {s : String} {c : Char} (hc : c ∈ (upper s).toList)
    (h : isHouseIgnoringCase c = true) : isHouse c = !isStray c := by
  obtain ⟨_, d, hd, _, hstray, heither⟩ := upperChar_of_isHouseIgnoringCase h
  have hself : upperChar c = [c] := by
    rw [toList_upper, List.mem_flatMap] at hc
    obtain ⟨b, _, hb⟩ := hc
    exact upperChar_of_mem hb
  obtain rfl := (List.cons.inj (hself.symm.trans hd)).1
  rw [← heither, Bool.eq_iff_iff]
  exact ⟨fun hhouse => by rw [isHouseEitherCase, hhouse]; rfl, isHouse_of_mem_upper hc⟩

theorem isHouseIgnoringCase_of_stray {c : Char} (h : isStray c = true) :
    isHouseIgnoringCase c = true := by
  simp only [isStray, Bool.or_eq_true] at h
  rcases h with h | h <;> simp [isHouseIgnoringCase, h]

/-- Leaving out case makes a difference for stray house letters only. -/
theorem matchesAddress_ignoringCase_iff (s : String) :
    (matchesAddress isHouseIgnoringCase (upper (strip s)).toList =
      matchesAddress isHouse (upper (strip s)).toList) ↔ ¬ IsStrayAddress s := by
  constructor
  · rintro heq ⟨c, unit, hl, hstray, hunit⟩
    have hloose : matchesAddress isHouseIgnoringCase (upper (strip s)).toList = true :=
      matchesAddress_iff.mpr ⟨c, unit, hl, isHouseIgnoringCase_of_stray hstray, hunit⟩
    obtain ⟨d, _, hl', hd, _⟩ := matchesAddress_iff.mp (heq ▸ hloose)
    obtain rfl := (List.cons.inj (hl.symm.trans hl')).1
    rw [isStray_of_isHouse hd] at hstray
    cases hstray
  · intro hplain
    rw [Bool.eq_iff_iff]
    constructor
    · intro h
      obtain ⟨c, unit, hl, hc, hunit⟩ := matchesAddress_iff.mp h
      have hstray : isStray c = false := by
        by_contra hne
        exact hplain ⟨c, unit, hl, Bool.eq_true_of_not_eq_false hne, hunit⟩
      have hhouse : isHouse c = !isStray c :=
        isHouse_of_ignoringCase (hl ▸ List.mem_cons_self) hc
      exact matchesAddress_iff.mpr ⟨c, unit, hl, by rw [hhouse, hstray]; rfl, hunit⟩
    · exact matchesAddress_mono fun c _ h => by rw [isHouseIgnoringCase, h]; rfl

/-- The four recognisers agree, unless the text is an address but for a stray house
letter. -/
theorem recognisersAgree_iff (s : String) : RecognisersAgree s ↔ ¬ IsStrayAddress s := by
  have heither : recognised isHouseEitherCase s = recognised isHouse s := by
    have hmatch : matchesAddress isHouseEitherCase (upper (strip s)).toList =
        matchesAddress isHouse (upper (strip s)).toList := by
      rw [Bool.eq_iff_iff]
      exact ⟨matchesAddress_mono fun c hc => isHouse_of_mem_upper hc,
        matchesAddress_mono fun c _ h => by rw [isHouseEitherCase, h]; rfl⟩
    rw [recognised, hmatch, recognised]
  simp only [RecognisersAgree, toOption_config, toOption_protocol, toOption_topics, toOption_parse,
    heither, and_self, exists_eq_left']
  rw [← matchesAddress_ignoringCase_iff, recognised, recognised]
  constructor
  · intro h
    by_contra hne
    split at h <;> split at h <;> simp_all
  · intro h
    rw [h]

/-- The Kelvin sign with a unit is an address to the configuration only. -/
theorem kelvin_disagrees :
    (Config.normalizeAddress (String.ofList ['\u212a', '1'])).toOption =
        some (String.ofList ['\u212a', '1']) ∧
      (Topics.address (String.ofList ['\u212a', '1'])).toOption = none ∧
      ¬ RecognisersAgree (String.ofList ['\u212a', '1']) := by
  have haccepted : (Config.normalizeAddress (String.ofList ['\u212a', '1'])).toOption =
      some (String.ofList ['\u212a', '1']) := by decide +kernel
  have hrejected : (Topics.address (String.ofList ['\u212a', '1'])).toOption = none := by
    decide +kernel
  refine ⟨haccepted, hrejected, ?_⟩
  rintro ⟨verdict, hconfig, _, htopics, _⟩
  cases haccepted.symm.trans (hconfig.trans (htopics.symm.trans hrejected))

end MochadBridge
