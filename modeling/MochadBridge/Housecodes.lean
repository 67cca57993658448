import MochadBridge.AddressRecognisers
import MochadBridge.ConfigLoading
import MochadBridge.Lib.Words

/-!
# What `X10_HOUSECODES` means

The value is a list of tokens, each a word of house letters or a range of two. The
parser puts the value in upper case and then matches it without case, so that
characters get through which are no letters from `A` to `P`: U+0130 and U+212A
match, and the ligatures from U+FB00 to U+FB04 have upper cases made of such letters.

Results:
1. `houses_upper_iff`: the characters whose upper case matches.
2. `part_ok_iff`, `part_codes`: which tokens the parser takes, and for what.
3. `parses_exactly_iff`: the parser does as the value says, exactly if no such
   character gets through.
-/

namespace MochadBridge

open Py Protocol

namespace Config

/-! ## Meaning -/

/-- What separates the tokens. -/
def isSeparator (c : Char) : Bool := isSpace c || c == ','

/-- The tokens of a value. -/
def tokens (raw : String) : List (List Char) := wordsOn isSeparator raw.toList

/-- The house letter of a character, in either case; U+0131 is an `I`. -/
def houseLetter (c : Char) : Option Char :=
  if isHouseEitherCase c then some c.toUpper else if c.toNat == 0x131 then some 'I' else none

/-- The letters from `A` to `P`. -/
def houseLetters : List Char := "ABCDEFGHIJKLMNOP".toList

/-- The houses a token names: those from `X` to `Y` for `X-Y`, and those of its letters
for a word. -/
def tokenHouses : List Char → Option (List Char)
  | [x, '-', y] => do
    let first ← houseLetter x
    let last ← houseLetter y
    if first ≤ last then some (houseLetters.filter fun h => first ≤ h && h ≤ last) else none
  | token => token.mapM houseLetter

/-- The value names no houses, or it is one of the texts for all of them. -/
def Unrestricted (raw : String) : Prop :=
  tokens raw = [] ∨ upper (strip raw) ∈ ["*", "A-P", "A...P"]

instance (raw : String) : Decidable (Unrestricted raw) := inferInstanceAs (Decidable (_ ∨ _))

/-- The parser returns what the value says, and raises where it says nothing. Either way
a result is `None` or some of the letters from `A` to `P`. -/
structure ParsesExactly (raw : String) : Prop where
  everywhere : Unrestricted raw → parseHousecodes (some raw) = .ok none
  named : ¬ Unrestricted raw → ∀ houses, (tokens raw).mapM tokenHouses = some houses →
    ∃ codes, parseHousecodes (some raw) = .ok (some codes) ∧
      ∀ code, code ∈ codes ↔ ∃ house ∈ houses.flatten, code = String.singleton house
  rejected : ¬ Unrestricted raw → (tokens raw).mapM tokenHouses = none →
    ∃ message, parseHousecodes (some raw) = .error (.configError message)
  letters : ∀ codes, parseHousecodes (some raw) = .ok (some codes) →
    codes ≠ [] ∧ ∀ code ∈ codes, ∃ house ∈ houseLetters, code = String.singleton house

/-! ## What gets through -/

/-- The characters that get through and are no house letters. -/
def isForeign (c : Char) : Bool := isStray c || (0xFB00 ≤ c.toNat && c.toNat ≤ 0xFB04)

/-- The end of a range as the parser compares it. -/
def rangeEnd (c : Char) : Option Char := if isStray c then some c else houseLetter c

/-- The parser takes the token. -/
def isTaken : List Char → Bool
  | [x, '-', y] =>
    match rangeEnd x, rangeEnd y with
    | some first, some last => first ≤ last
    | _, _ => false
  | token => token.all fun c => (houseLetter c).isSome || isForeign c

/-- Every token is taken, and one of them with a character that is no house letter. -/
def LetsForeignThrough (raw : String) : Prop :=
  (∀ token ∈ tokens raw, isTaken token = true) ∧ ∃ token ∈ tokens raw, ∃ c ∈ token, isForeign c = true

/-! ## Characters -/

theorem flatMap_of_mapM_some {α β : Type} {f : α → Option β} {g : α → List β}
    (hg : ∀ x y, f x = some y → g x = [y]) {xs : List α} {ys : List β}
    (h : xs.mapM f = some ys) : xs.flatMap g = ys := by
  induction xs generalizing ys with
  | nil => exact Option.some.inj h
  | cons x xs ih =>
    rw [List.mapM_cons] at h
    obtain ⟨y, hy, h⟩ := Option.bind_eq_some_iff.mp h
    obtain ⟨ys', hys, h⟩ := Option.bind_eq_some_iff.mp h
    obtain rfl := Option.some.inj h
    rw [List.flatMap_cons, hg x y hy, ih hys]
    rfl

theorem mapM_ok_of_some {ε α β γ : Type} {f : α → Option β} {g : α → Except ε γ} {k : β → γ}
    {xs : List α} {ys : List β} (h : xs.mapM f = some ys)
    (hg : ∀ x ∈ xs, ∀ y, f x = some y → g x = .ok (k y)) : xs.mapM g = .ok (ys.map k) := by
  induction xs generalizing ys with
  | nil =>
    obtain rfl := Option.some.inj h
    rfl
  | cons x xs ih =>
    rw [List.mapM_cons] at h
    obtain ⟨y, hy, h⟩ := Option.bind_eq_some_iff.mp h
    obtain ⟨ys', hys, h⟩ := Option.bind_eq_some_iff.mp h
    obtain rfl := Option.some.inj h
    rw [List.mapM_cons, hg x List.mem_cons_self y hy,
      ih hys fun x' hx' => hg x' (List.mem_cons_of_mem _ hx')]
    rfl

theorem mapM_isSome_iff {α β : Type} {f : α → Option β} {xs : List α} :
    (xs.mapM f).isSome = true ↔ ∀ x ∈ xs, (f x).isSome = true := by
  induction xs with
  | nil => simp
  | cons x xs ih =>
    rw [List.mapM_cons, List.forall_mem_cons, ← ih]
    cases f x <;> cases xs.mapM f <;> simp

/-- The upper cases of the tables that match without case. -/
theorem upperCases_houses : (upperRuns.all (fun r =>
      houseCodes.all r.avoids || (r.lo == 0x131 && r.hi == 0x131)) &&
    upperSpecials.all fun e => (e.2.all houseCodes.contains) == (0xFB00 ≤ e.1 && e.1 ≤ 0xFB04)) =
      true := by
  decide

theorem ascii_houses : ∀ n < 128, (Char.ofNat n).toUpper.toNat ∈ houseCodes →
    (houseLetter (Char.ofNat n)).isSome = true := by
  decide

theorem houseCodes_letters : ∀ n ∈ houseCodes, if isStray (Char.ofNat n) then
      houseLetter (Char.ofNat n) = none ∧ upperChar (Char.ofNat n) = [Char.ofNat n]
    else ∃ h ∈ houseLetters,
      houseLetter (Char.ofNat n) = some h ∧ upperChar (Char.ofNat n) = [h] := by
  -- over the lists: to decide a quantifier over all characters would try every one
  have hany : ∀ n ∈ houseCodes, if isStray (Char.ofNat n) then
      houseLetter (Char.ofNat n) = none ∧ upperChar (Char.ofNat n) = [Char.ofNat n]
    else (houseLetters.any fun h =>
      houseLetter (Char.ofNat n) == some h && upperChar (Char.ofNat n) == [h]) = true := by
    decide
  simpa only [List.any_eq_true, Bool.and_eq_true, beq_iff_eq] using hany

theorem ligatures_houses : ∀ n ∈ List.range' 0xFB00 5, ∀ d ∈ upperChar (Char.ofNat n),
    isHouseIgnoringCase d = true := by
  have hall : ∀ n ∈ List.range' 0xFB00 5,
      (upperChar (Char.ofNat n)).all isHouseIgnoringCase = true := by
    decide
  exact fun n hn => List.all_eq_true.mp (hall n hn)

theorem isHouseIgnoringCase_letter : ∀ h ∈ houseLetters, isHouseIgnoringCase h = true :=
  List.all_eq_true.mp (by decide)

theorem of_houseLetter {c h : Char} (hc : houseLetter c = some h) :
    upperChar c = [h] ∧ h ∈ houseLetters ∧ isForeign c = false := by
  have hcodes : c.toNat ∈ houseCodes := by
    refine mem_houseCodes ?_
    unfold houseLetter at hc
    split at hc
    · next heither =>
      rw [isHouseEitherCase] at heither
      rw [isHouseIgnoringCase, heither]
      rfl
    · split at hc
      · next hdotless => simp [isHouseIgnoringCase, beq_iff_eq.mp hdotless]
      · cases hc
  have hbound : ∀ n ∈ houseCodes, n < 0xFB00 := by decide
  have hlt := hbound _ hcodes
  have hcase := houseCodes_letters _ hcodes
  rw [Char.ofNat_toNat, hc] at hcase
  split at hcase
  · cases hcase.1
  · next hstray =>
    obtain ⟨h', hmem, heq, hup⟩ := hcase
    cases heq
    refine ⟨hup, hmem, ?_⟩
    rw [isForeign, Bool.eq_false_iff.mpr hstray, Bool.false_or, Bool.and_eq_false_iff]
    exact .inl (decide_eq_false (Nat.not_le.mpr hlt))

theorem upperChar_of_isStray {c : Char} (h : isStray c = true) : upperChar c = [c] := by
  have hcase := houseCodes_letters _ (mem_houseCodes (isHouseIgnoringCase_of_stray h))
  rw [Char.ofNat_toNat, if_pos h] at hcase
  exact hcase.2

/-- The characters whose upper case matches without case. -/
theorem houses_upper_iff (c : Char) : (∀ d ∈ upperChar c, isHouseIgnoringCase d = true) ↔
    ((houseLetter c).isSome || isForeign c) = true := by
  rw [Bool.or_eq_true]
  constructor
  · intro hall
    have hcodes : ∀ n ∈ (upperChar c).map Char.toNat, n ∈ houseCodes := by
      intro n hn
      obtain ⟨d, hd, rfl⟩ := List.mem_map.mp hn
      exact mem_houseCodes (hall d hd)
    have hmatch : isHouseIgnoringCase c = true → (houseLetter c).isSome = true ∨ isForeign c = true := by
      intro h
      have hcase := houseCodes_letters _ (mem_houseCodes h)
      rw [Char.ofNat_toNat] at hcase
      split at hcase
      · next hstray => exact .inr (by rw [isForeign, hstray]; rfl)
      · obtain ⟨h, _, heq, _⟩ := hcase
        exact .inl (by rw [heq]; rfl)
    by_cases hascii : c.toNat < 128
    · have hup := ascii_houses c.toNat hascii
      rw [Char.ofNat_toNat] at hup
      refine .inl (hup (hcodes _ ?_))
      rw [upperChar, if_pos hascii]
      exact List.mem_singleton.mpr rfl
    · obtain ⟨hruns, hspecials⟩ := (Bool.and_eq_true _ _).mp upperCases_houses
      rcases upperChar_cases (Nat.not_lt.mp hascii) with hself | ⟨e, he, hce, hup⟩ | ⟨r, hr, hcov, hup⟩
      · exact hmatch (hall c (by rw [hself]; exact List.mem_singleton.mpr rfl))
      · rw [hup] at hcodes
        have hcheck := beq_iff_eq.mp (List.all_eq_true.mp hspecials e he)
        rw [hce] at hcheck
        refine .inr ?_
        rw [isForeign, ← hcheck, Bool.or_eq_true]
        exact .inr (List.all_eq_true.mpr fun n hn => List.contains_iff_mem.mpr (hcodes n hn))
      · rw [hup] at hcodes
        have hcheck := List.all_eq_true.mp hruns r hr
        rcases Bool.or_eq_true_iff.mp hcheck with havoids | hone
        · have hin := hcodes _ (List.mem_singleton.mpr rfl)
          exact absurd rfl (ne_of_avoids (List.all_eq_true.mp havoids _ hin) hcov)
        · simp only [Bool.and_eq_true, beq_iff_eq] at hone
          simp only [CaseRun.covers, Bool.and_eq_true, decide_eq_true_eq] at hcov
          refine hmatch ?_
          have hc : c.toNat = 0x131 := by omega
          simp [isHouseIgnoringCase, hc]
  · rintro (hsome | hforeign) d hd
    · obtain ⟨h, hc⟩ := Option.isSome_iff_exists.mp hsome
      obtain ⟨hup, hmem, _⟩ := of_houseLetter hc
      rw [hup, List.mem_singleton] at hd
      exact hd ▸ isHouseIgnoringCase_letter h hmem
    · rcases Bool.or_eq_true_iff.mp hforeign with hstray | hligature
      · rw [upperChar_of_isStray hstray, List.mem_singleton] at hd
        exact hd ▸ isHouseIgnoringCase_of_stray hstray
      · simp only [Bool.and_eq_true, decide_eq_true_eq] at hligature
        have hlig := ligatures_houses c.toNat (List.mem_range'_1.mpr (by omega))
        rw [Char.ofNat_toNat] at hlig
        exact hlig d hd

theorem rangeEnd_eq_some_iff {c d : Char} : rangeEnd c = some d ↔
    upperChar c = [d] ∧ isHouseIgnoringCase d = true := by
  constructor
  · intro h
    unfold rangeEnd at h
    split at h
    · next hstray =>
      cases h
      exact ⟨upperChar_of_isStray hstray, isHouseIgnoringCase_of_stray hstray⟩
    · have hup := (of_houseLetter h).1
      refine ⟨hup, (houses_upper_iff c).mpr ?_ d (by rw [hup]; exact List.mem_singleton.mpr rfl)⟩
      rw [h]
      rfl
  · rintro ⟨hup, hd⟩
    have hall : ∀ e ∈ upperChar c, isHouseIgnoringCase e = true := by
      intro e he
      rw [hup, List.mem_singleton] at he
      rwa [he]
    unfold rangeEnd
    split
    · next hstray =>
      rw [upperChar_of_isStray hstray] at hup
      rw [(List.cons.inj hup).1]
    · next hstray =>
      rcases Bool.or_eq_true_iff.mp ((houses_upper_iff c).mp hall) with hsome | hforeign
      · obtain ⟨h, hc⟩ := Option.isSome_iff_exists.mp hsome
        rw [(of_houseLetter hc).1] at hup
        rw [hc, (List.cons.inj hup).1]
      · -- the upper case of a ligature is two letters or three
        have hlength : ∀ n ∈ List.range' 0xFB00 5, 1 < (upperChar (Char.ofNat n)).length := by
          decide
        rw [isForeign, Bool.eq_false_iff.mpr hstray, Bool.false_or, Bool.and_eq_true,
          decide_eq_true_eq, decide_eq_true_eq] at hforeign
        have hlong := hlength c.toNat (List.mem_range'_1.mpr (by omega))
        rw [Char.ofNat_toNat, hup] at hlong
        exact absurd hlong (Nat.lt_irrefl 1)

/-! ## Tokens -/

/-- A token in upper case, as the parser gets it. -/
def part (token : List Char) : String := String.ofList (token.flatMap upperChar)

section Token
variable {token : List Char}

theorem hyphen_mem_upper_iff : '-' ∈ token.flatMap upperChar ↔ '-' ∈ token := by
  rw [List.mem_flatMap]
  constructor
  · rintro ⟨c, hc, hd⟩
    rcases eq_or_letter_of_mem_upperChar hd (by decide) with rfl | hletter
    · exact hc
    · exact absurd hletter (by decide)
  · exact fun h => ⟨'-', h, by decide⟩

theorem splitOn_upper (token : List Char) :
    (token.flatMap upperChar).splitOn '-' = (token.splitOn '-').map (·.flatMap upperChar) := by
  rw [List.splitOn_eq_splitOnP, List.splitOn_eq_splitOnP]
  refine splitOnP_flatMap (fun c hc => ?_) (fun c hc d hd => ?_) token
  · rw [beq_iff_eq.mp hc]
    exact ⟨'-', by decide, by decide⟩
  · rw [beq_eq_false_iff_ne] at hc ⊢
    rintro rfl
    rcases eq_or_letter_of_mem_upperChar hd (by decide) with rfl | hletter
    · exact hc rfl
    · exact absurd hletter (by decide)

theorem eq_singleton_of_upper {w : List Char} {d : Char} (h : w.flatMap upperChar = [d]) :
    ∃ c, w = [c] ∧ upperChar c = [d] := by
  cases w with
  | nil => cases h
  | cons c w =>
    rw [List.flatMap_cons] at h
    cases w with
    | nil => exact ⟨c, rfl, by simpa using h⟩
    | cons c' w =>
      have hlength := congrArg List.length h
      have hc := List.length_pos_iff.mpr (upperChar_ne_nil c)
      have hc' := List.length_pos_iff.mpr (upperChar_ne_nil c')
      simp only [List.flatMap_cons, List.length_append, List.length_singleton] at hlength
      omega

theorem isTaken_of_not_mem (h : '-' ∉ token) :
    isTaken token = token.all fun c => (houseLetter c).isSome || isForeign c := by
  unfold isTaken
  split
  · simp at h
  · rfl

theorem tokenHouses_of_not_mem (h : '-' ∉ token) : tokenHouses token = token.mapM houseLetter := by
  unfold tokenHouses
  split
  · simp at h
  · rfl

theorem range_parts (hspace : ∀ c ∈ token, isSpace c = false) :
    (split (part token) '-').map (fun piece => (strip piece).toList) =
      (token.splitOn '-').map (·.flatMap upperChar) := by
  rw [split, part, String.toList_ofList, splitOn_upper, List.map_map, List.map_map]
  refine List.map_congr_left fun w hw => ?_
  have hplain : ∀ d ∈ w.flatMap upperChar, isSpace d = false := by
    intro d hd
    obtain ⟨c, hc, hd⟩ := List.mem_flatMap.mp hd
    rw [List.splitOn_eq_splitOnP] at hw
    exact isSpace_of_mem_upperChar (hspace c (of_mem_splitOnP hw c hc).1) hd
  rw [Function.comp_apply, Function.comp_apply, toList_strip, String.toList_ofList]
  exact trim_eq_self (fun d hd => hplain d (List.mem_of_mem_head? hd))
    fun d hd => hplain d (List.mem_of_getLast? hd)

theorem rangeEnd_hyphen : rangeEnd '-' = none := by
  decide

/-- A range is two ends in the order of the letters. -/
theorem parseHousecodeRange_iff (hspace : ∀ c ∈ token, isSpace c = false) {first last : Char} :
    parseHousecodeRange (part token) = .ok (first, last) ↔
      ∃ x y, token = [x, '-', y] ∧ rangeEnd x = some first ∧ rangeEnd y = some last ∧
        first ≤ last := by
  rw [parseHousecodeRange, range_parts hspace]
  constructor
  · intro h
    split at h
    · next start stop hparts =>
      split at h
      · next hcheck =>
        cases h
        obtain ⟨u, hu⟩ : ∃ u, token.splitOn '-' = u := ⟨_, rfl⟩
        rw [hu] at hparts
        obtain ⟨w, rest, rfl, hw, hrest⟩ := List.map_eq_cons_iff.mp hparts
        obtain ⟨w', rest', rfl, hw', hrest'⟩ := List.map_eq_cons_iff.mp hrest
        obtain rfl := List.map_eq_nil_iff.mp hrest'
        obtain ⟨x, rfl, hx⟩ := eq_singleton_of_upper hw
        obtain ⟨y, rfl, hy⟩ := eq_singleton_of_upper hw'
        refine ⟨x, y, ?_, rangeEnd_eq_some_iff.mpr ⟨hx, hcheck.1⟩,
          rangeEnd_eq_some_iff.mpr ⟨hy, hcheck.2.1⟩, hcheck.2.2⟩
        have htoken : ['-'].intercalate (token.splitOn '-') = token := List.intercalate_splitOn '-'
        rw [hu] at htoken
        exact htoken.symm
      · cases h
    · cases h
  · rintro ⟨x, y, rfl, hx, hy, hle⟩
    have hne : ∀ {c d : Char}, rangeEnd c = some d → c ≠ '-' := by
      rintro c d hc rfl
      rw [rangeEnd_hyphen] at hc
      cases hc
    have hsplit : [x, '-', y].splitOn '-' = [[x], [y]] := by
      simp [List.splitOn_cons_eq_if_modifyHead, hne hx, hne hy]
    obtain ⟨hupx, hhx⟩ := rangeEnd_eq_some_iff.mp hx
    obtain ⟨hupy, hhy⟩ := rangeEnd_eq_some_iff.mp hy
    rw [hsplit]
    simp [hupx, hupy, hhx, hhy, hle]

theorem isTaken_iff_of_mem (h : '-' ∈ token) : isTaken token = true ↔
    ∃ x y first last, token = [x, '-', y] ∧ rangeEnd x = some first ∧ rangeEnd y = some last ∧
      first ≤ last := by
  unfold isTaken
  split
  · next x y =>
    constructor
    · intro htaken
      split at htaken
      · next first last hx hy => exact ⟨x, y, first, last, rfl, hx, hy, of_decide_eq_true htaken⟩
      · cases htaken
    · rintro ⟨x', y', first, last, heq, hx, hy, hle⟩
      cases heq
      rw [hx, hy]
      exact decide_eq_true hle
  · next hshape =>
    constructor
    · intro hall
      exact absurd (List.all_eq_true.mp hall '-' h) (by decide)
    · rintro ⟨x, y, _, _, rfl, _⟩
      exact absurd rfl (hshape x y)

theorem tokenHouses_iff_of_mem (h : '-' ∈ token) {houses : List Char} :
    tokenHouses token = some houses ↔ ∃ x y first last, token = [x, '-', y] ∧
      houseLetter x = some first ∧ houseLetter y = some last ∧ first ≤ last ∧
        houses = houseLetters.filter fun house => first ≤ house && house ≤ last := by
  unfold tokenHouses
  split
  · next x y =>
    cases hx : houseLetter x with
    | none => simp [hx]
    | some first =>
      cases hy : houseLetter y with
      | none => simp [hy]
      | some last =>
        simp only [Option.bind_eq_bind, Option.bind_some, Option.ite_none_right_eq_some,
          Option.some.injEq, List.cons.injEq, and_true, true_and]
        constructor
        · rintro ⟨hle, rfl⟩
          exact ⟨x, y, first, last, ⟨rfl, rfl⟩, hx, hy, hle, rfl⟩
        · rintro ⟨_, _, _, _, ⟨rfl, rfl⟩, hx', hy', hle, rfl⟩
          cases hx.symm.trans hx'
          cases hy.symm.trans hy'
          exact ⟨hle, rfl⟩
  · next hshape =>
    constructor
    · intro hmap
      obtain ⟨_, _, hhyphen⟩ := (of_mapM_some hmap).2.2 '-' h
      rw [show houseLetter '-' = none by decide] at hhyphen
      cases hhyphen
    · rintro ⟨x, y, _, _, rfl, _⟩
      exact absurd rfl (hshape x y)

/-- A token means something exactly if it is taken and made of house letters. -/
theorem tokenHouses_isSome_iff (token : List Char) : (tokenHouses token).isSome = true ↔
    isTaken token = true ∧ ∀ c ∈ token, isForeign c = false := by
  by_cases hhyphen : '-' ∈ token
  · rw [Option.isSome_iff_exists, isTaken_iff_of_mem hhyphen]
    constructor
    · rintro ⟨houses, h⟩
      obtain ⟨x, y, first, last, rfl, hx, hy, hle, _⟩ := (tokenHouses_iff_of_mem hhyphen).mp h
      obtain ⟨hupx, hlx, hfx⟩ := of_houseLetter hx
      obtain ⟨hupy, hly, hfy⟩ := of_houseLetter hy
      refine ⟨⟨x, y, first, last, rfl,
        rangeEnd_eq_some_iff.mpr ⟨hupx, isHouseIgnoringCase_letter _ hlx⟩,
        rangeEnd_eq_some_iff.mpr ⟨hupy, isHouseIgnoringCase_letter _ hly⟩, hle⟩, fun c hc => ?_⟩
      simp only [List.mem_cons, List.not_mem_nil, or_false] at hc
      rcases hc with rfl | rfl | rfl
      · exact hfx
      · decide
      · exact hfy
    · rintro ⟨⟨x, y, first, last, rfl, hx, hy, hle⟩, hplain⟩
      have hend : ∀ {c d : Char}, rangeEnd c = some d → isForeign c = false →
          houseLetter c = some d := by
        intro c d hc hforeign
        rw [isForeign, Bool.or_eq_false_iff] at hforeign
        rwa [rangeEnd, hforeign.1] at hc
      exact ⟨_, (tokenHouses_iff_of_mem hhyphen).mpr ⟨x, y, first, last, rfl,
        hend hx (hplain x (by simp)), hend hy (hplain y (by simp)), hle, rfl⟩⟩
  · rw [isTaken_of_not_mem hhyphen, tokenHouses_of_not_mem hhyphen, mapM_isSome_iff,
      List.all_eq_true]
    constructor
    · intro h
      refine ⟨fun c hc => by rw [h c hc]; rfl, fun c hc => ?_⟩
      obtain ⟨d, hd⟩ := Option.isSome_iff_exists.mp (h c hc)
      exact (of_houseLetter hd).2.2
    · rintro ⟨h, hplain⟩ c hc
      have hc' := h c hc
      rwa [hplain c hc, Bool.or_false] at hc'

/-! ## What the parser makes of a token -/

theorem mapM_parseHousecode_iff {l : List Char} {codes : List String} :
    l.mapM parseHousecode = .ok codes ↔
      (∀ c ∈ l, isHouseIgnoringCase c = true) ∧ codes = l.map String.singleton := by
  induction l generalizing codes with
  | nil =>
    constructor
    · intro h
      cases h
      exact ⟨List.forall_mem_nil _, rfl⟩
    · rintro ⟨_, rfl⟩
      rfl
  | cons c l ih =>
    rw [List.mapM_cons]
    constructor
    · intro h
      obtain ⟨code, hcode, h⟩ := bind_ok h
      obtain ⟨rest, hrest, h⟩ := bind_ok h
      cases h
      obtain ⟨hall, rfl⟩ := ih.mp hrest
      rw [parseHousecode] at hcode
      split at hcode
      · next hc =>
        cases hcode
        exact ⟨List.forall_mem_cons.mpr ⟨hc, hall⟩, rfl⟩
      · cases hcode
    · rintro ⟨hall, rfl⟩
      obtain ⟨hc, hall⟩ := List.forall_mem_cons.mp hall
      rw [parseHousecode, if_pos hc, ih.mpr ⟨hall, rfl⟩]
      rfl

theorem part_word (h : '-' ∉ token) :
    parseHousecodePart (part token) = (token.flatMap upperChar).mapM parseHousecode := by
  rw [parseHousecodePart, part, String.toList_ofList, if_neg fun hm => h (hyphen_mem_upper_iff.mp hm)]

theorem part_range_iff (h : '-' ∈ token) (hspace : ∀ c ∈ token, isSpace c = false)
    {codes : List String} : parseHousecodePart (part token) = .ok codes ↔
      ∃ x y first last, token = [x, '-', y] ∧ rangeEnd x = some first ∧ rangeEnd y = some last ∧
        first ≤ last ∧ codes = (List.range' first.toNat (last.toNat + 1 - first.toNat)).map
          fun code => String.singleton (Char.ofNat code) := by
  have hmem : '-' ∈ (part token).toList := by
    rw [part, String.toList_ofList]
    exact hyphen_mem_upper_iff.mpr h
  rw [parseHousecodePart, if_pos hmem]
  constructor
  · intro hparse
    obtain ⟨⟨first, last⟩, hrange, hcodes⟩ := bind_ok hparse
    cases hcodes
    obtain ⟨x, y, heq, hx, hy, hle⟩ := (parseHousecodeRange_iff hspace).mp hrange
    exact ⟨x, y, first, last, heq, hx, hy, hle, rfl⟩
  · rintro ⟨x, y, first, last, heq, hx, hy, hle, rfl⟩
    rw [(parseHousecodeRange_iff hspace).mpr ⟨x, y, heq, hx, hy, hle⟩]
    rfl

/-- The parser raises on no token that it takes. -/
theorem part_ok_iff (hspace : ∀ c ∈ token, isSpace c = false) :
    (∃ codes, parseHousecodePart (part token) = .ok codes) ↔ isTaken token = true := by
  by_cases hhyphen : '-' ∈ token
  · simp only [part_range_iff hhyphen hspace, isTaken_iff_of_mem hhyphen]
    constructor
    · rintro ⟨_, x, y, first, last, heq, hx, hy, hle, _⟩
      exact ⟨x, y, first, last, heq, hx, hy, hle⟩
    · rintro ⟨x, y, first, last, heq, hx, hy, hle⟩
      exact ⟨_, x, y, first, last, heq, hx, hy, hle, rfl⟩
  · simp only [part_word hhyphen, isTaken_of_not_mem hhyphen, List.all_eq_true,
      mapM_parseHousecode_iff, List.mem_flatMap, exists_and_left, exists_eq, and_true,
      ← houses_upper_iff]
    exact ⟨fun h c hc d hd => h d ⟨c, hc, hd⟩, fun h d ⟨c, hc, hd⟩ => h c hc d hd⟩

/-- The code points between two letters are the letters between them. -/
theorem range_letters : ∀ first ∈ houseLetters, ∀ last ∈ houseLetters, first ≤ last →
    (List.range' first.toNat (last.toNat + 1 - first.toNat)).map Char.ofNat =
      houseLetters.filter fun house => first ≤ house && house ≤ last := by
  have hall : (houseLetters.all fun first => houseLetters.all fun last =>
      decide (first ≤ last → (List.range' first.toNat (last.toNat + 1 - first.toNat)).map Char.ofNat =
        houseLetters.filter fun house => first ≤ house && house ≤ last)) = true := by
    decide
  simpa only [List.all_eq_true, decide_eq_true_eq] using hall

/-- It takes a token that means something for what it means. -/
theorem part_codes (hspace : ∀ c ∈ token, isSpace c = false) {houses : List Char}
    (h : tokenHouses token = some houses) :
    parseHousecodePart (part token) = .ok (houses.map String.singleton) ∧
      ∀ house ∈ houses, house ∈ houseLetters := by
  have hend : ∀ {c d : Char}, houseLetter c = some d → rangeEnd c = some d := by
    intro c d hc
    obtain ⟨_, _, hforeign⟩ := of_houseLetter hc
    rw [isForeign, Bool.or_eq_false_iff] at hforeign
    rw [rangeEnd, hforeign.1]
    exact hc
  by_cases hhyphen : '-' ∈ token
  · obtain ⟨x, y, first, last, rfl, hx, hy, hle, rfl⟩ := (tokenHouses_iff_of_mem hhyphen).mp h
    refine ⟨(part_range_iff hhyphen hspace).mpr
      ⟨x, y, first, last, rfl, hend hx, hend hy, hle, ?_⟩, fun house hm => (List.mem_filter.mp hm).1⟩
    rw [← range_letters first (of_houseLetter hx).2.1 last (of_houseLetter hy).2.1 hle, List.map_map]
    rfl
  · rw [tokenHouses_of_not_mem hhyphen] at h
    obtain ⟨_, hfrom, _⟩ := of_mapM_some h
    have hletters : ∀ house ∈ houses, house ∈ houseLetters := by
      intro house hm
      obtain ⟨c, _, hc⟩ := hfrom house hm
      exact (of_houseLetter hc).2.1
    have hup : token.flatMap upperChar = houses := flatMap_of_mapM_some (fun c d hc => (of_houseLetter hc).1) h
    rw [part_word hhyphen, hup]
    have hmatch := fun c hc => isHouseIgnoringCase_letter c (hletters c hc)
    exact ⟨mapM_parseHousecode_iff.mpr ⟨hmatch, rfl⟩, hletters⟩

end Token

/-! ## The whole value -/

theorem parseHousecodePart_rejects (value : String) : Rejects (parseHousecodePart value) := by
  unfold parseHousecodePart
  split
  · refine Rejects.bind ?_ fun _ => .ok _
    unfold parseHousecodeRange
    split
    · split
      · exact .ok _
      · exact .configError _
    · exact .configError _
  · refine Rejects.mapM (fun c => ?_) _
    unfold parseHousecode
    split
    · exact .ok _
    · exact .configError _

theorem parseHousecodes_rejects (raw : String) : Rejects (parseHousecodes (some raw)) := by
  rw [parseHousecodes]
  dsimp only
  split
  · exact .ok _
  · exact (Rejects.mapM (fun _ => parseHousecodePart_rejects _) _).bind fun _ => .ok _

theorem isSeparator_upper {c : Char} (h : isSeparator c = true) :
    ∃ d, upperChar c = [d] ∧ isSeparator d = true := by
  have hspaces : ∀ n ∈ spaceCodes, upperChar (Char.ofNat n) = [Char.ofNat n] := by
    decide
  refine ⟨c, ?_, h⟩
  rcases Bool.or_eq_true_iff.mp h with hspace | hcomma
  · have hup := hspaces c.toNat (List.contains_iff_mem.mp hspace)
    rwa [Char.ofNat_toNat] at hup
  · rw [beq_iff_eq.mp hcomma]
    decide

theorem not_isSeparator_upper {c : Char} (h : isSeparator c = false) :
    ∀ d ∈ upperChar c, isSeparator d = false := by
  intro d hd
  rw [isSeparator, Bool.or_eq_false_iff] at h ⊢
  refine ⟨isSpace_of_mem_upperChar h.1 hd, beq_eq_false_iff_ne.mpr ?_⟩
  rintro rfl
  rcases eq_or_letter_of_mem_upperChar hd (by decide) with heq | hletter
  · exact beq_eq_false_iff_ne.mp h.2 heq.symm
  · exact absurd hletter (by decide)

/-- The parts the parser goes through are the tokens in upper case. -/
theorem parts_eq (raw : String) :
    ((upper (strip raw)).toList.splitOnP fun c => isSpace c || c == ',').filter (! ·.isEmpty) =
      (tokens raw).map (·.flatMap upperChar) := by
  show wordsOn isSeparator _ = _
  obtain ⟨a, b, ha, hb, hraw⟩ := exists_trimmed isSpace raw.toList
  have hsep : ∀ {l : List Char}, (∀ c ∈ l, isSpace c = true) → ∀ c ∈ l, isSeparator c = true :=
    fun h c hc => by rw [isSeparator, h c hc]; rfl
  have htokens : tokens raw = wordsOn isSeparator (strip raw).toList := by
    rw [tokens, toList_strip]
    conv_lhs => rw [hraw]
    exact wordsOn_pad (hsep ha) (hsep hb) _
  rw [toList_upper, htokens]
  exact wordsOn_flatMap (fun _ => isSeparator_upper) (fun _ => not_isSeparator_upper)
    upperChar_ne_nil _

theorem of_mem_tokens {raw : String} {token : List Char} (h : token ∈ tokens raw) :
    token ≠ [] ∧ (∀ c ∈ token, c ∈ raw.toList) ∧ ∀ c ∈ token, isSpace c = false := by
  obtain ⟨hne, hall⟩ := of_mem_wordsOn h
  exact ⟨hne, fun c hc => (hall c hc).1, fun c hc => (Bool.or_eq_false_iff.mp (hall c hc).2).1⟩

section Value
variable {raw : String}

theorem parseHousecodes_unrestricted (h : Unrestricted raw) :
    parseHousecodes (some raw) = .ok none := by
  rw [parseHousecodes]
  dsimp only
  split
  · rfl
  · next hvalue =>
    rcases h with hnone | hall
    · rw [parts_eq, hnone]
      rfl
    · exact absurd (List.mem_cons_of_mem _ hall) hvalue

theorem parseHousecodes_restricted (h : ¬ Unrestricted raw) : parseHousecodes (some raw) = (do
    let codes ← (tokens raw).mapM fun token => parseHousecodePart (part token)
    return if codes.flatten = [] then none else some codes.flatten) := by
  have hvalue : upper (strip raw) ∉ ["", "*", "A-P", "A...P"] := by
    intro hmem
    rcases List.mem_cons.mp hmem with hblank | hall
    · have hparts := parts_eq raw
      rw [hblank] at hparts
      exact h (.inl (List.map_eq_nil_iff.mp hparts.symm))
    · exact h (.inr hall)
  rw [parseHousecodes]
  dsimp only
  rw [if_neg hvalue, parts_eq, List.mapM_map]
  rfl

/-- A value for some houses is parsed exactly if each of its tokens is taken. -/
theorem parseHousecodes_ok_iff (h : ¬ Unrestricted raw) :
    (∃ result, parseHousecodes (some raw) = .ok result) ↔
      ∀ token ∈ tokens raw, isTaken token = true := by
  rw [parseHousecodes_restricted h]
  refine exists_ok_bind.trans (mapM_ok_iff.trans (forall₂_congr fun token htoken => ?_))
  exact part_ok_iff (of_mem_tokens htoken).2.2

theorem tokenHouses_ne_nil {token houses : List Char} (hne : token ≠ [])
    (h : tokenHouses token = some houses) : houses ≠ [] := by
  by_cases hhyphen : '-' ∈ token
  · obtain ⟨x, y, first, last, _, hx, _, hle, rfl⟩ := (tokenHouses_iff_of_mem hhyphen).mp h
    refine List.ne_nil_of_mem (List.mem_filter.mpr ⟨(of_houseLetter hx).2.1, ?_⟩)
    rw [decide_eq_true (Char.le_refl first), decide_eq_true hle]
    rfl
  · rw [tokenHouses_of_not_mem hhyphen] at h
    rintro rfl
    exact hne (List.length_eq_zero_iff.mp (of_mapM_some h).1.symm)

/-- What a value means is what the parser returns for it. -/
theorem parseHousecodes_named (h : ¬ Unrestricted raw) {houses : List (List Char)}
    (hhouses : (tokens raw).mapM tokenHouses = some houses) :
    parseHousecodes (some raw) = .ok (some (houses.flatten.map String.singleton)) ∧
      houses.flatten ≠ [] ∧ ∀ house ∈ houses.flatten, house ∈ houseLetters := by
  obtain ⟨_, hfrom, hto⟩ := of_mapM_some hhouses
  have hparse : (tokens raw).mapM (fun token => parseHousecodePart (part token)) =
      .ok (houses.map (·.map String.singleton)) :=
    mapM_ok_of_some hhouses fun token htoken hs hths =>
      (part_codes (of_mem_tokens htoken).2.2 hths).1
  have hne : houses.flatten ≠ [] := by
    obtain ⟨token, htoken⟩ := List.exists_mem_of_ne_nil _ fun hnil => h (.inl hnil)
    obtain ⟨hs, hmem, hths⟩ := hto token htoken
    obtain ⟨house, hhouse⟩ := List.exists_mem_of_ne_nil _
      (tokenHouses_ne_nil (of_mem_tokens htoken).1 hths)
    exact List.ne_nil_of_mem (List.mem_flatten.mpr ⟨hs, hmem, hhouse⟩)
  refine ⟨?_, hne, fun house hhouse => ?_⟩
  · have hflat : (houses.map (·.map String.singleton)).flatten =
        houses.flatten.map String.singleton := List.map_flatten.symm
    rw [parseHousecodes_restricted h, hparse]
    show Except.ok (if _ then _ else _) = _
    rw [hflat, if_neg fun hnil => hne (List.map_eq_nil_iff.mp hnil)]
  · obtain ⟨hs, hmem, hhouse⟩ := List.mem_flatten.mp hhouse
    obtain ⟨token, htoken, hths⟩ := hfrom hs hmem
    exact (part_codes (of_mem_tokens htoken).2.2 hths).2 house hhouse

/-- No text for all houses holds a foreign character. -/
theorem not_unrestricted_of_foreign {token : List Char} (htoken : token ∈ tokens raw) {c : Char}
    (hc : c ∈ token) (hforeign : isForeign c = true) : ¬ Unrestricted raw := by
  have hcodes : ∀ n ∈ 0x130 :: 0x212A :: List.range' 0xFB00 5,
      ((upperChar (Char.ofNat n)).any fun d => decide (d ∉ ['*', 'A', '-', 'P', '.'])) = true := by
    decide
  have hmem : c.toNat ∈ 0x130 :: 0x212A :: List.range' 0xFB00 5 := by
    simp only [isForeign, isStray, Bool.or_eq_true, beq_iff_eq, Bool.and_eq_true,
      decide_eq_true_eq] at hforeign
    simp only [List.mem_cons, List.mem_range'_1]
    omega
  obtain ⟨d, hd, hother⟩ := List.any_eq_true.mp (hcodes c.toNat hmem)
  rw [Char.ofNat_toNat] at hd
  rw [decide_eq_true_eq] at hother
  obtain ⟨_, hraw, hspace⟩ := of_mem_tokens htoken
  have hvalue : d ∈ (upper (strip raw)).toList := by
    rw [toList_upper, toList_strip]
    exact List.mem_flatMap.mpr ⟨c, mem_trim_of_mem (hraw c hc) (hspace c hc), hd⟩
  rintro (hnil | hall)
  · rw [hnil] at htoken
    exact absurd htoken List.not_mem_nil
  · have htexts : ∀ text ∈ ["*", "A-P", "A...P"],
        text.toList.all (['*', 'A', '-', 'P', '.'].contains ·) = true := by
      decide
    exact hother (List.contains_iff_mem.mp (List.all_eq_true.mp (htexts _ hall) d hvalue))

end Value

/-- The parser does as the value says, unless it lets a foreign character through. -/
theorem parses_exactly_iff (raw : String) : ParsesExactly raw ↔ ¬ LetsForeignThrough raw := by
  constructor
  · rintro hexact ⟨htaken, token, htoken, c, hc, hforeign⟩
    have hsome := not_unrestricted_of_foreign htoken hc hforeign
    have hmeaning : (tokens raw).mapM tokenHouses = none := by
      rw [← Option.not_isSome_iff_eq_none, mapM_isSome_iff]
      intro hall
      have hplain := ((tokenHouses_isSome_iff token).mp (hall token htoken)).2 c hc
      rw [hforeign] at hplain
      cases hplain
    obtain ⟨message, herror⟩ := hexact.rejected hsome hmeaning
    obtain ⟨result, hok⟩ := (parseHousecodes_ok_iff hsome).mpr htaken
    cases herror.symm.trans hok
  · intro hkeeps
    -- what the parser takes has a meaning
    have hmeaning : (∀ token ∈ tokens raw, isTaken token = true) →
        ∃ houses, (tokens raw).mapM tokenHouses = some houses := by
      intro htaken
      rw [← Option.isSome_iff_exists, mapM_isSome_iff]
      intro token htoken
      refine (tokenHouses_isSome_iff token).mpr ⟨htaken token htoken, fun c hc => ?_⟩
      exact Bool.eq_false_iff.mpr fun hforeign => hkeeps ⟨htaken, token, htoken, c, hc, hforeign⟩
    refine ⟨parseHousecodes_unrestricted, fun hsome houses hhouses => ?_, fun hsome hnone => ?_,
      fun codes hcodes => ?_⟩
    · refine ⟨_, (parseHousecodes_named hsome hhouses).1, fun code => ?_⟩
      rw [List.mem_map]
      exact ⟨fun ⟨house, hm, he⟩ => ⟨house, hm, he.symm⟩, fun ⟨house, hm, he⟩ => ⟨house, hm, he.symm⟩⟩
    · cases hparse : parseHousecodes (some raw) with
      | ok result =>
        obtain ⟨houses, hhouses⟩ := hmeaning ((parseHousecodes_ok_iff hsome).mp ⟨result, hparse⟩)
        cases hnone.symm.trans hhouses
      | error e =>
        obtain ⟨message, rfl⟩ := (parseHousecodes_rejects raw).reason e hparse
        exact ⟨message, rfl⟩
    · have hsome : ¬ Unrestricted raw := fun hall =>
        nomatch (parseHousecodes_unrestricted hall).symm.trans hcodes
      obtain ⟨houses, hhouses⟩ := hmeaning ((parseHousecodes_ok_iff hsome).mp ⟨_, hcodes⟩)
      obtain ⟨hparse, hne, hletters⟩ := parseHousecodes_named hsome hhouses
      cases hcodes.symm.trans hparse
      refine ⟨fun hnil => hne (List.map_eq_nil_iff.mp hnil), fun code hcode => ?_⟩
      obtain ⟨house, hm, rfl⟩ := List.mem_map.mp hcode
      exact ⟨house, hletters house hm, rfl⟩

/-- The Kelvin sign is taken for a house code. -/
theorem kelvin_parsed : parseHousecodes (some (String.singleton '\u212a')) =
      .ok (some [String.singleton '\u212a']) ∧
    ¬ ParsesExactly (String.singleton '\u212a') := by
  refine ⟨by decide, fun h => ?_⟩
  obtain ⟨message, herror⟩ := h.rejected (by decide) (by decide)
  cases herror

end Config

end MochadBridge
