import MochadBridge.StatusStream

/-!
# Lines the parser raises on

The patterns of the protocol ignore case, and so let three characters through as
house letters that are none: U+0130, U+0131 and U+212A. The normalizations that
follow know only the letters of `upper()`, which makes a house letter of U+0131
and leaves the other two.

Results:
1. `normalizeAddress_ok_iff`, `normalizeHouse_ok_iff`: which house letters the
   normalizations accept.
2. `parseLine_ok_iff`: on which lines `parse_line` raises nothing.
3. `parse_line_safe_iff`: on these, and only these, it is safe and canonical.
-/

namespace MochadBridge

open Py

namespace Protocol

/-- The characters that match as a house letter and have no house letter as
their upper case. -/
def isStray (c : Char) : Bool := c.toNat == 0x130 || c.toNat == 0x212A

/-! ## House letters -/

/-- The code points that match as a house letter. -/
def houseCodes : List Nat := List.range' 65 16 ++ List.range' 97 16 ++ [0x130, 0x131, 0x212A]

theorem mem_houseCodes {c : Char} (h : isHouseIgnoringCase c = true) : c.toNat ∈ houseCodes := by
  simp only [isHouseIgnoringCase, isHouse, Bool.or_eq_true, Bool.and_eq_true, decide_eq_true_eq,
    beq_iff_eq] at h
  simp only [houseCodes, List.mem_append, List.mem_range'_1, List.mem_cons, List.not_mem_nil,
    or_false]
  rcases h with (((⟨hlo, hhi⟩ | ⟨hlo, hhi⟩) | h) | h) | h
  · have hle : 65 ≤ c.toNat ∧ c.toNat ≤ 80 := ⟨hlo, hhi⟩
    exact .inl (.inl ⟨hle.1, by omega⟩)
  · have hle : 97 ≤ c.toNat ∧ c.toNat ≤ 112 := ⟨hlo, hhi⟩
    exact .inl (.inr ⟨hle.1, by omega⟩)
  · exact .inr (.inl h)
  · exact .inr (.inr (.inl h))
  · exact .inr (.inr (.inr h))

theorem houseCodes_upper : ∀ n ∈ houseCodes, isSpace (Char.ofNat n) = false ∧
    upperChar (Char.ofNat n) = [(upperChar (Char.ofNat n)).headD ' '] ∧
      isHouseIgnoringCase ((upperChar (Char.ofNat n)).headD ' ') = true ∧
      isStray ((upperChar (Char.ofNat n)).headD ' ') = isStray (Char.ofNat n) ∧
      isHouseEitherCase ((upperChar (Char.ofNat n)).headD ' ') = !isStray (Char.ofNat n) := by
  decide +kernel

/-- The upper case of what matches as a house letter is one, or it is stray. -/
theorem upperChar_of_isHouseIgnoringCase {c : Char} (h : isHouseIgnoringCase c = true) :
    isSpace c = false ∧ ∃ d, upperChar c = [d] ∧ isHouseIgnoringCase d = true ∧
      isStray d = isStray c ∧ isHouseEitherCase d = !isStray c := by
  obtain ⟨hspace, hd⟩ := houseCodes_upper c.toNat (mem_houseCodes h)
  rw [Char.ofNat_toNat] at hspace hd
  exact ⟨hspace, _, hd⟩

theorem isStray_of_isHouse {c : Char} (h : isHouse c = true) : isStray c = false := by
  simp only [isHouse, Bool.and_eq_true, decide_eq_true_eq] at h
  have hle : c.toNat ≤ 80 := h.2
  simp only [isStray, Bool.or_eq_false_iff, beq_eq_false_iff_ne]
  omega

/-- An address is a house letter and a unit. -/
theorem matchesAddress_iff {p : Char → Bool} {l : List Char} : matchesAddress p l = true ↔
    ∃ c unit, l = c :: unit ∧ p c = true ∧ matchesUnit unit = true := by
  constructor
  · intro h
    unfold matchesAddress at h
    split at h
    · next c u =>
      simp only [Bool.and_eq_true] at h
      exact ⟨c, [u], rfl, h.1.1, by simp [matchesUnit, h.1.2, h.2]⟩
    · next c t u =>
      simp only [Bool.and_eq_true] at h
      exact ⟨c, [t, u], rfl, h.1.1.1, by simp [matchesUnit, h.1.1.2, h.1.2, h.2]⟩
    · exact absurd h (by decide)
  · rintro ⟨c, unit, rfl, hc, hunit⟩
    unfold matchesUnit at hunit
    split at hunit
    · simp only [Bool.and_eq_true] at hunit
      simp [matchesAddress, hc, hunit]
    · simp only [Bool.and_eq_true] at hunit
      simp [matchesAddress, hc, hunit]
    · exact absurd hunit (by decide)

/-- The digits of a unit are their own upper case and no white space. -/
theorem settled_of_matchesUnit {unit : List Char} (h : matchesUnit unit = true) :
    ∀ c ∈ unit, upperChar c = [c] ∧ isSpace c = false := by
  have haddress : matchesAddress isHouse ('A' :: unit) = true :=
    matchesAddress_iff.mpr ⟨'A', unit, rfl, by decide, h⟩
  exact fun c hc => settled_of_range (range_of_matchesAddress haddress c (List.mem_cons_of_mem _ hc))

/-- The normal form of a house letter and a unit. -/
theorem normalize_address {c : Char} {unit : List Char} (hc : isHouseIgnoringCase c = true)
    (hunit : ∀ d ∈ unit, upperChar d = [d] ∧ isSpace d = false) :
    (normalize (String.ofList (c :: unit))).toList = upperChar c ++ unit := by
  have hspace : ∀ d ∈ c :: unit, isSpace d = false := by
    intro d hd
    rcases List.mem_cons.mp hd with rfl | hd
    · exact (upperChar_of_isHouseIgnoringCase hc).1
    · exact (hunit d hd).2
  rw [normalize, toList_upper, toList_strip, String.toList_ofList,
    trim_eq_self (fun d hd => hspace d (List.mem_of_head? hd))
      (fun d hd => hspace d (List.mem_of_getLast? hd)),
    List.flatMap_cons, List.flatMap_congr fun d hd => (hunit d hd).1, List.flatMap_singleton']

/-- An address that matches is normalized unless its house letter is stray. -/
theorem normalizeAddress_ok_iff {c : Char} {unit : List Char} (hc : isHouseIgnoringCase c = true)
    (hunit : matchesUnit unit = true) :
    (∃ k, normalizeAddress (String.ofList (c :: unit)) = .ok k) ↔ isStray c = false := by
  obtain ⟨_, d, hd, _, _, hhouse⟩ := upperChar_of_isHouseIgnoringCase hc
  have hnormal := normalize_address hc (settled_of_matchesUnit hunit)
  rw [hd] at hnormal
  have hmatch : matchesAddress isHouseEitherCase (normalize (String.ofList (c :: unit))).toList =
      !isStray c := by
    rw [hnormal, Bool.eq_iff_iff, matchesAddress_iff, ← hhouse]
    constructor
    · rintro ⟨_, _, heq, hp, _⟩
      rw [(List.cons.inj heq).1]
      exact hp
    · exact fun hp => ⟨d, unit, rfl, hp, hunit⟩
  simp only [normalizeAddress, hmatch]
  cases isStray c <;> simp

/-- So is a house. -/
theorem normalizeHouse_ok_iff {c : Char} (hc : isHouseIgnoringCase c = true) :
    (∃ k, normalizeHouse (String.ofList [c]) = .ok k) ↔ isStray c = false := by
  obtain ⟨_, d, hd, _, _, hhouse⟩ := upperChar_of_isHouseIgnoringCase hc
  have hnormal := normalize_address hc (List.forall_mem_nil fun d => upperChar d = [d] ∧ isSpace d = false)
  rw [hd] at hnormal
  simp only [normalizeHouse, hnormal, List.singleton_append, hhouse]
  cases isStray c <;> simp

/-! ## The fixed words -/

/-- The words of a line are listed in the tables that they are looked up in. -/
def EventGroups.Listed (g : EventGroups) : Prop :=
  (directionMap.lookup (normalizeToken g.direction)).isSome = true ∧
    (transportMap.lookup (normalizeToken g.transport)).isSome = true

/-- Ignoring case, most letters match only themselves in both cases. -/
theorem eq_of_sameLetter {p c : Char} (h : sameLetter p c = true)
    (hp : p ∈ ['T', 'x', 'R', 'F', 'P', 'L']) : c = p.toLower ∨ c = p.toUpper := by
  have hascii : ∀ m ∈ [84, 120, 82, 70, 80, 76],
      (∀ n < 128, sameLetter (Char.ofNat m) (Char.ofNat n) = true →
        Char.ofNat n = (Char.ofNat m).toLower ∨ Char.ofNat n = (Char.ofNat m).toUpper) ∧
      (Char.ofNat m).toLower.toNat < 128 ∧ (Char.ofNat m).toLower ∉ ['s', 'k', 'i'] := by
    decide +kernel
  have hp' := hascii p.toNat (List.mem_map_of_mem (f := Char.toNat) hp)
  rw [Char.ofNat_toNat] at hp'
  obtain ⟨hsmall, hlt, hnone⟩ := hp'
  by_cases hc : c.toNat < 128
  · have hmatch := hsmall c.toNat hc
    rw [Char.ofNat_toNat] at hmatch
    exact hmatch h
  · simp only [List.mem_cons, List.not_mem_nil, or_false, not_or] at hnone
    simp only [sameLetter, beq_eq_false_iff_ne.mpr hnone.1, beq_eq_false_iff_ne.mpr hnone.2.1,
      beq_eq_false_iff_ne.mpr hnone.2.2, Bool.false_and, Bool.or_false, beq_iff_eq] at h
    have hfix : c.toLower = c := by
      refine dif_neg fun hupper => hc ?_
      have hz : c.toNat ≤ 90 := hupper.2
      omega
    rw [h, hfix] at hlt
    exact absurd hlt hc

/-- A two-letter word that matches is the word, whatever the cases. -/
theorem eq_of_fullMatch {p q : Char} {l : List Char} (h : fullMatch [.letter p, .letter q] l = true)
    (hp : p ∈ ['T', 'x', 'R', 'F', 'P', 'L']) (hq : q ∈ ['T', 'x', 'R', 'F', 'P', 'L']) :
    l ∈ [[p.toLower, q.toLower], [p.toLower, q.toUpper], [p.toUpper, q.toLower],
      [p.toUpper, q.toUpper]] := by
  simp only [fullMatch, beq_iff_eq] at h
  match l, h with
  | [], h => exact absurd h (by simp [consume])
  | [c], h => simp [consume] at h
  | c :: d :: l, h =>
    simp only [consume] at h
    split at h
    · next hc =>
      split at h
      · next hd =>
        obtain rfl := Option.some.inj h
        rcases eq_of_sameLetter hc hp with rfl | rfl <;>
          rcases eq_of_sameLetter hd hq with rfl | rfl <;> simp
      · exact absurd h (by simp)
    · exact absurd h (by simp)

theorem direction_listed {l : List Char}
    (h : fullMatch (text "Tx") l = true ∨ fullMatch (text "Rx") l = true) :
    (directionMap.lookup (normalizeToken l)).isSome = true := by
  have htx : ∀ l ∈ [['t', 'x'], ['t', 'X'], ['T', 'x'], ['T', 'X'], ['r', 'x'], ['r', 'X'],
      ['R', 'x'], ['R', 'X']], (directionMap.lookup (normalizeToken l)).isSome = true := by
    decide
  refine htx l ?_
  rcases h with h | h
  · exact List.mem_append_left _ (eq_of_fullMatch (p := 'T') (q := 'x') h (by decide) (by decide))
  · exact List.mem_append_right [['t', 'x'], ['t', 'X'], ['T', 'x'], ['T', 'X']]
      (eq_of_fullMatch (p := 'R') (q := 'x') h (by decide) (by decide))

theorem transport_listed {l : List Char}
    (h : fullMatch (text "RF") l = true ∨ fullMatch (text "PL") l = true) :
    (transportMap.lookup (normalizeToken l)).isSome = true := by
  have hrf : ∀ l ∈ [['r', 'f'], ['r', 'F'], ['R', 'f'], ['R', 'F'], ['p', 'l'], ['p', 'L'],
      ['P', 'l'], ['P', 'L']], (transportMap.lookup (normalizeToken l)).isSome = true := by
    decide
  refine hrf l ?_
  rcases h with h | h
  · exact List.mem_append_left _ (eq_of_fullMatch (p := 'R') (q := 'F') h (by decide) (by decide))
  · exact List.mem_append_right [['r', 'f'], ['r', 'F'], ['R', 'f'], ['R', 'F']]
      (eq_of_fullMatch (p := 'P') (q := 'L') h (by decide) (by decide))

/-- The words of an event line are listed, and its subject is as its pattern says. -/
theorem listed_of_eventLine {label : String} {subject : List Char → Bool} {l : List Char}
    {g : EventGroups} (h : eventLine label subject l = some g) :
    g.Listed ∧ subject g.subject = true := by
  simp only [eventLine, Option.bind_eq_bind, Option.bind_eq_some_iff] at h
  obtain ⟨_, _, ⟨direction, _⟩, _, ⟨transport, _⟩, _, _, _, ⟨name, _⟩, _, command, _, h⟩ := h
  dsimp only at h
  split at h
  · next hmatch =>
    obtain ⟨hdirection, htransport, hsubject, _⟩ := hmatch
    obtain rfl := Option.some.inj h
    exact ⟨⟨direction_listed hdirection, transport_listed htransport⟩, hsubject⟩
  · exact absurd h (by simp)

/-! ## Lines -/

theorem houseLine_house {l rest : List Char} {c : Char} (h : houseLine l = some (c, rest)) :
    isHouseIgnoringCase c = true := by
  simp only [houseLine, Option.bind_eq_bind, Option.bind_eq_some_iff] at h
  obtain ⟨l', _, h⟩ := h
  match l', h with
  | [], h => exact absurd h (by simp)
  | d :: _, h =>
    simp only at h
    split at h
    · next hd =>
      obtain ⟨_, _, h⟩ := Option.bind_eq_some_iff.mp h
      rw [← (Prod.mk.inj (Option.some.inj h)).1]
      exact hd
    · exact absurd h (by simp)

theorem statusEntry_unit {entry unit : List Char} {value : Bool}
    (h : statusEntry entry = some (unit, value)) : matchesUnit unit = true := by
  unfold statusEntry at h
  split at h
  · simp only at h
    split at h
    · next hmatch =>
      rw [← (Prod.mk.inj (Option.some.inj h)).1]
      exact hmatch.1
    · exact absurd h (by simp)
  · exact absurd h (by simp)

/-- What is computed from a value raises exactly if the value does. -/
theorem exists_ok_bind {ε α β : Type} {x : Except ε α} {f : α → β} :
    (∃ r, (do let a ← x; pure (f a)) = Except.ok r) ↔ ∃ a, x = .ok a := by
  cases x with
  | error e => exact ⟨fun ⟨_, h⟩ => (nomatch h), fun ⟨_, h⟩ => (nomatch h)⟩
  | ok a => exact ⟨fun _ => ⟨a, rfl⟩, fun _ => ⟨f a, rfl⟩⟩

/-- The values of a list are those of its elements, one each. -/
theorem of_mapM_some {α β : Type} {f : α → Option β} {xs : List α} {ys : List β}
    (h : xs.mapM f = some ys) : ys.length = xs.length ∧ (∀ y ∈ ys, ∃ x ∈ xs, f x = some y) ∧
      ∀ x ∈ xs, ∃ y ∈ ys, f x = some y := by
  induction xs generalizing ys with
  | nil =>
    obtain rfl := Option.some.inj h
    exact ⟨rfl, List.forall_mem_nil _, List.forall_mem_nil _⟩
  | cons x xs ih =>
    rw [List.mapM_cons] at h
    obtain ⟨y, hy, h⟩ := Option.bind_eq_some_iff.mp h
    obtain ⟨ys', hys, h⟩ := Option.bind_eq_some_iff.mp h
    obtain rfl := Option.some.inj h
    obtain ⟨hlen, hfrom, hto⟩ := ih hys
    refine ⟨congrArg Nat.succ hlen, fun y' hy' => ?_, fun x' hx' => ?_⟩
    · rcases List.mem_cons.mp hy' with rfl | hy'
      · exact ⟨x, List.mem_cons_self, hy⟩
      · obtain ⟨x', hx', hf⟩ := hfrom y' hy'
        exact ⟨x', List.mem_cons_of_mem _ hx', hf⟩
    · rcases List.mem_cons.mp hx' with rfl | hx'
      · exact ⟨y, List.mem_cons_self, hy⟩
      · obtain ⟨y', hy', hf⟩ := hto x' hx'
        exact ⟨y', List.mem_cons_of_mem _ hy', hf⟩

/-- A house status line has a house letter and entries with units. -/
theorem houseStatus_some {l : List Char} {house : Char} {entries : List (List Char × Bool)}
    (h : houseStatus l = some (house, entries)) :
    isHouseIgnoringCase house = true ∧ entries ≠ [] ∧
      ∀ entry ∈ entries, matchesUnit entry.1 = true := by
  simp only [houseStatus, Option.bind_eq_bind, Option.bind_eq_some_iff] at h
  obtain ⟨⟨c, rest⟩, hline, entries', hentries, h⟩ := h
  obtain ⟨rfl, rfl⟩ := Prod.mk.inj (Option.some.inj h)
  obtain ⟨hlen, hall, _⟩ := of_mapM_some hentries
  refine ⟨houseLine_house hline, ?_, fun entry he => ?_⟩
  · rintro rfl
    exact List.splitOn_ne_nil _ _ (List.length_eq_zero_iff.mp hlen.symm)
  · obtain ⟨text, _, htext⟩ := hall entry he
    exact statusEntry_unit htext

/-- The entries of a status line go through unless its house is stray. -/
theorem addEntries_ok_iff {house : Char} (hhouse : isHouseIgnoringCase house = true)
    {entries : List (List Char × Bool)} (hne : entries ≠ [])
    (hunits : ∀ entry ∈ entries, matchesUnit entry.1 = true) (devices : Dict String Command) :
    (∃ devices', entries.foldlM (StatusParser.addEntry house) devices = .ok devices') ↔
      isStray house = false := by
  obtain ⟨_, d, hd, hmatch, hsame, _⟩ := upperChar_of_isHouseIgnoringCase hhouse
  have hentry : ∀ entry : List Char × Bool, matchesUnit entry.1 = true →
      ((∃ k, normalizeAddress (String.ofList (upperChar house ++ entry.1)) = .ok k) ↔
        isStray house = false) := by
    intro entry hunit
    rw [hd, ← hsame]
    exact normalizeAddress_ok_iff hmatch hunit
  constructor
  · rintro ⟨devices', h⟩
    obtain ⟨entry, entries, rfl⟩ := List.exists_cons_of_ne_nil hne
    rw [List.foldlM_cons] at h
    obtain ⟨_, hadd, _⟩ := bind_ok h
    obtain ⟨k, hk, _⟩ := bind_ok hadd
    exact (hentry entry (hunits entry List.mem_cons_self)).mp ⟨k, hk⟩
  · intro hstray
    clear hne
    induction entries generalizing devices with
    | nil => exact ⟨devices, rfl⟩
    | cons entry entries ih =>
      obtain ⟨k, hk⟩ := (hentry entry (hunits entry List.mem_cons_self)).mpr hstray
      rw [List.foldlM_cons, StatusParser.addEntry, hk]
      exact ih (fun entry' h => hunits entry' (List.mem_cons_of_mem _ h)) _

end Protocol

namespace ProtocolParser

open Protocol

/-- The house letter that `feed` normalizes. -/
def statusHouse (sp : StatusParser) (l : List Char) : Option Char :=
  if fullMatch deviceSelected l then none
  else if fullMatch deviceStatus l ∨ fullMatch securityStatus l then none
  else if isHouseCount l then none
  else if !sp.active then none
  else (houseStatus l).map Prod.fst

/-- The house letter of a line that `parse_line` normalizes. -/
def lineHouse (parser : ProtocolParser) (line : String) : Option Char :=
  let l := trim isSpace line.toList
  if l = [] then none
  else if StatusParser.isStatusLine l then statusHouse parser.status l
  else ((deviceEventLine l).or (houseEventLine l)).bind fun g => g.subject.head?

theorem feed_ok_iff (sp : StatusParser) (l : List Char) : (∃ r, sp.feed l = .ok r) ↔
    ∀ c, statusHouse sp l = some c → isStray c = false := by
  unfold StatusParser.feed statusHouse
  by_cases hselected : fullMatch deviceSelected l = true
  · simp [hselected]
  · by_cases hstatus : fullMatch deviceStatus l = true ∨ fullMatch securityStatus l = true
    · simp [hselected, hstatus]
    · by_cases hcount : isHouseCount l = true
      · simp [hselected, hstatus, hcount]
      · by_cases hactive : (!sp.active) = true
        · simp [hselected, hstatus, hcount, hactive]
        · simp only [if_neg hselected, if_neg hstatus, if_neg hcount, if_neg hactive]
          cases hline : houseStatus l with
          | none =>
            dsimp only
            split <;> simp
          | some entry =>
            obtain ⟨house, entries⟩ := entry
            obtain ⟨hhouse, hne, hunits⟩ := houseStatus_some hline
            have hiff := addEntries_ok_iff hhouse hne hunits sp.snapshot.devices
            simp only [Option.map_some, Option.some.injEq, forall_eq']
            rw [← hiff]
            exact exists_ok_bind

/-- `parse_line` raises nothing exactly if it normalizes no stray house letter. -/
theorem parseLine_ok_iff (parser : ProtocolParser) (now : Timestamp) (line : String) :
    (∃ r, parser.parseLine now line = .ok r) ↔
      ∀ c, parser.lineHouse line = some c → isStray c = false := by
  unfold parseLine lineHouse
  dsimp only
  split
  · simp
  · split
    · rw [← feed_ok_iff]
      exact exists_ok_bind
    · cases hdevice : deviceEventLine (trim isSpace line.toList) with
      | some g =>
        obtain ⟨_, hsubject⟩ := listed_of_eventLine hdevice
        obtain ⟨c, unit, hg, hc, hunit⟩ := matchesAddress_iff.mp hsubject
        have hiff := normalizeAddress_ok_iff hc hunit
        simp only [Option.some_or, Option.bind_some, hg, List.head?_cons, Option.some.injEq,
          forall_eq']
        rw [← hiff]
        exact exists_ok_bind
      | none =>
        cases hhouse : houseEventLine (trim isSpace line.toList) with
        | some g =>
          obtain ⟨_, hsubject⟩ := listed_of_eventLine hhouse
          match hg : g.subject, hsubject with
          | [c], hc =>
            have hiff := normalizeHouse_ok_iff hc
            simp only [Option.none_or, Option.bind_some, hg, List.head?_cons, Option.some.injEq,
              forall_eq']
            rw [← hiff]
            exact exists_ok_bind
          | [], h => exact absurd h (by simp)
          | _ :: _ :: _, h => exact absurd h (by simp)
        | none => simp

/-- After any lines, the snapshot in progress lists canonical addresses. -/
theorem canonical_run (inputs : List (Timestamp × String)) : Canonical (run inputs) := by
  refine List.foldlRecOn inputs next (motive := Canonical) (fun _ _ h => nomatch h) ?_
  intro parser hc input _
  unfold next
  cases h : parser.parseLine input.1 input.2 with
  | error e => exact hc
  | ok r => exact (parseLine_event hc h).1

/-- After any lines, `parse_line` is safe and canonical exactly on the lines that
bring it no stray house letter: it raises nothing, and its event carries a
canonical address, a house letter or canonical addresses. The other words of an
event line are always listed in its tables. -/
theorem parse_line_safe_iff (inputs : List (Timestamp × String)) (now : Timestamp) (line : String) :
    ((∃ event parser, (run inputs).parseLine now line = .ok (event, parser) ∧
      ∀ e, event = some e → e.Parsed) ↔
        ∀ c, (run inputs).lineHouse line = some c → isStray c = false) ∧
    ∀ g, (deviceEventLine (trim isSpace line.toList) = some g ∨
      houseEventLine (trim isSpace line.toList) = some g) → g.Listed := by
  refine ⟨?_, fun g hg => ?_⟩
  · rw [← parseLine_ok_iff _ now]
    constructor
    · rintro ⟨event, parser, h, _⟩
      exact ⟨_, h⟩
    · rintro ⟨⟨event, parser⟩, h⟩
      exact ⟨event, parser, h, (parseLine_event (canonical_run inputs) h).2⟩
  · rcases hg with hg | hg <;> exact (listed_of_eventLine hg).1

/-- A capital I with a dot passes for a house letter, and is none. -/
theorem dotted_house_raises : ¬ ∃ event parser,
    ({} : ProtocolParser).parseLine 0 "07/10 15:28:31 Rx RF HouseUnit: İ1 Func: On" =
      .ok (event, parser) := by
  have hraises : (({} : ProtocolParser).parseLine 0
      "07/10 15:28:31 Rx RF HouseUnit: İ1 Func: On").toOption.isNone = true := by
    decide
  rintro ⟨event, parser, h⟩
  rw [h] at hraises
  exact Bool.noConfusion hraises

end ProtocolParser

end MochadBridge
