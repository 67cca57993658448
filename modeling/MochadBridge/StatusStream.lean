import MochadBridge.Protocol
import Mathlib.Data.List.DropRight

/-!
# Status responses in a stream of lines

A stream of mochad lines interleaves events with status blocks, which may be
interrupted, restarted or left open. What the stateful parser knows is said in
terms of the lines alone: a block is open if a `Device selected` line was not
followed by an `End status` line, and its entries are those of the house status
lines after the last `Device selected`.

Results:
1. `parseLine_stateless`: a line that is not a status line is parsed as by a
   fresh parser.
2. `run_tracks`: the parser knows exactly whether a block is open, and its
   entries.
3. `status_isolated`: so a line completes a snapshot exactly if it ends an open
   block, and the snapshot has the entries of this block.
-/

namespace MochadBridge

open Py

namespace Protocol

/-! ## Kinds of lines -/

/-- A line as the parser looks at it. -/
def stripped (line : String) : List Char := trim isSpace line.toList

/-- A `Device selected` line. -/
def Selects (line : String) : Prop := fullMatch deviceSelected (stripped line) = true

/-- An `End status` line. -/
def Ends (line : String) : Prop := fullMatch endStatus (stripped line) = true

instance (line : String) : Decidable (Selects line) := inferInstanceAs (Decidable (_ = true))
instance (line : String) : Decidable (Ends line) := inferInstanceAs (Decidable (_ = true))

/-- The address and the state of one `unit = value` entry. -/
def entryState (house : Char) (entry : List Char × Bool) : Except PyError (String × Command) := do
  let address ← normalizeAddress (String.ofList (upperChar house ++ entry.1))
  return (address, if entry.2 then .on else .off)

/-- The entries of a house status line; a line that raises has none. -/
def lineEntries (line : String) : List (String × Command) :=
  match houseStatus (stripped line) with
  | some (house, entries) => (entries.mapM (entryState house)).toOption.getD []
  | none => []

/-- A block is open: it was started and not ended since. -/
def OpenBlock (lines : List String) : Prop :=
  ∃ pre l post, lines = pre ++ l :: post ∧ Selects l ∧ ∀ m ∈ post, ¬ Ends m

/-- The entries since the last start of a block. -/
def blockEntries (lines : List String) : List (String × Command) :=
  (lines.rtakeWhile fun l => ¬ Selects l).flatMap lineEntries

/-! ### The kinds are disjoint -/

theorem consume_append (p q : List Piece) (l : List Char) :
    consume (p ++ q) l = (consume p l).bind (consume q) := by
  induction p generalizing l with
  | nil => rfl
  | cons piece p ih =>
    cases l with
    | nil => cases piece <;> rfl
    | cons c l =>
      cases piece with
      | letter x =>
        simp only [List.cons_append, consume]
        split
        · exact ih l
        · rfl
      | digit =>
        simp only [List.cons_append, consume]
        split
        · exact ih l
        · rfl
      | spaces =>
        simp only [List.cons_append, consume]
        split
        · exact ih _
        · rfl

/-- No character is taken for both letters. -/
def Apart (p q : Char) : Prop := ∀ c, sameLetter p c = true → sameLetter q c = false

/-- The front of every status line. -/
def front : List Piece := timestamp ++ [.spaces]

/-- The letter follows the front of the line. -/
def Starts (p : Char) (l : List Char) : Prop :=
  ∃ ps r, consume (front ++ .letter p :: ps) l = some r

/-- Letters apart do not both follow the front. -/
theorem not_starts {p q : Char} (h : Apart p q) {l : List Char} (hp : Starts p l) :
    ¬ Starts q l := by
  rintro ⟨qs, r', hq⟩
  obtain ⟨ps, r, hp⟩ := hp
  rw [consume_append] at hp hq
  obtain ⟨rest, hrest, hp⟩ := Option.bind_eq_some_iff.mp hp
  rw [hrest, Option.bind_some] at hq
  cases rest with
  | nil => cases hp
  | cons c rest =>
    simp only [consume] at hp hq
    split at hp
    · next hc =>
      rw [h c hc] at hq
      cases hq
    · cases hp

theorem apart_of_plain {p q : Char} (hp : p.toLower ≠ 's' ∧ p.toLower ≠ 'k' ∧ p.toLower ≠ 'i')
    (hq : q.toLower ≠ 'k' ∧ q.toLower ≠ 'i') (hpq : p.toLower ≠ q.toLower)
    (hlong : p.toLower ≠ (Char.ofNat 0x17F).toLower) : Apart p q := by
  intro c hc
  have hlower : p.toLower = c.toLower := by simpa [sameLetter, hp.1, hp.2.1, hp.2.2] using hc
  have hspecial : ¬ (q.toLower = 's' ∧ c.toNat = 0x17F) := by
    rintro ⟨_, hc⟩
    refine hlong ?_
    rw [hlower, ← hc, Char.ofNat_toNat]
  simp only [sameLetter, Bool.or_eq_false_iff, Bool.and_eq_false_iff, beq_eq_false_iff_ne]
  refine ⟨⟨⟨fun he => hpq (hlower.trans he.symm), ?_⟩, .inl hq.1⟩, .inl hq.2⟩
  by_cases hs : q.toLower = 's'
  · exact .inr fun hc => hspecial ⟨hs, hc⟩
  · exact .inl hs

theorem apart_E_D : Apart 'E' 'D' := apart_of_plain (by decide) (by decide) (by decide) (by decide)
theorem apart_E_S : Apart 'E' 'S' := apart_of_plain (by decide) (by decide) (by decide) (by decide)
theorem apart_E_H : Apart 'E' 'H' := apart_of_plain (by decide) (by decide) (by decide) (by decide)
theorem apart_H_D : Apart 'H' 'D' := apart_of_plain (by decide) (by decide) (by decide) (by decide)
theorem apart_H_S : Apart 'H' 'S' := apart_of_plain (by decide) (by decide) (by decide) (by decide)

/-- A line that matches the front and a fixed text starts with its letter. -/
theorem starts_of_fullMatch {p : Char} (ps : List Piece) {l : List Char}
    (h : fullMatch (timestamp ++ .spaces :: .letter p :: ps) l = true) : Starts p l := by
  refine ⟨ps, [], ?_⟩
  rw [front, List.append_assoc]
  exact beq_iff_eq.mp h

section Lines
variable {l : List Char}

theorem starts_of_selected (h : fullMatch deviceSelected l = true) : Starts 'D' l :=
  starts_of_fullMatch (text "evice selected") h

theorem starts_of_status (h : fullMatch deviceStatus l = true) : Starts 'D' l :=
  starts_of_fullMatch (text "evice status") h

theorem starts_of_security (h : fullMatch securityStatus l = true) : Starts 'S' l :=
  starts_of_fullMatch (text "ecurity sensor status") h

theorem starts_of_end (h : fullMatch endStatus l = true) : Starts 'E' l :=
  starts_of_fullMatch (text "nd status") h

theorem starts_of_houseLine {r : Char × List Char} (h : houseLine l = some r) : Starts 'H' l := by
  obtain ⟨rest, hrest, _⟩ := Option.bind_eq_some_iff.mp h
  have hpieces : timestamp ++ .spaces :: text "House" ++ [.spaces] =
      front ++ .letter 'H' :: (text "ouse" ++ [.spaces]) := by
    rw [front, List.append_assoc, List.append_assoc]
    rfl
  exact ⟨text "ouse" ++ [.spaces], rest, hpieces ▸ hrest⟩

theorem starts_of_houseStatus {r : Char × List (List Char × Bool)}
    (h : houseStatus l = some r) : Starts 'H' l := by
  obtain ⟨line, hline, _⟩ := Option.bind_eq_some_iff.mp h
  exact starts_of_houseLine hline

theorem starts_of_count (h : isHouseCount l = true) : Starts 'H' l := by
  unfold isHouseCount at h
  split at h
  · next hline => exact starts_of_houseLine hline
  · cases h

/-- A line of another kind has no entries. -/
theorem houseStatus_eq_none {p : Char} (hp : Apart 'H' p) (h : Starts p l) :
    houseStatus l = none := by
  cases hs : houseStatus l with
  | none => rfl
  | some r => exact absurd h (not_starts hp (starts_of_houseStatus hs))

theorem apart_H_E : Apart 'H' 'E' :=
  apart_of_plain (by decide) (by decide) (by decide) (by decide)

/-- A count has no entries. -/
theorem houseStatus_of_count (h : isHouseCount l = true) : houseStatus l = none := by
  unfold isHouseCount at h
  split at h
  · next house rest hline =>
    have hdigits : ∀ c ∈ rest, (digitValue c).isSome = true :=
      List.all_eq_true.mp (Bool.and_eq_true_iff.mp h).2
    have hcomma : ',' ∉ rest := fun hm => absurd (hdigits _ hm) (by decide)
    have hequals : ∀ c ∈ rest, (c != '=') = true := by
      rintro c hc
      rw [bne_iff_ne]
      rintro rfl
      exact absurd (hdigits _ hc) (by decide)
    have hentry : statusEntry rest = none := by
      rw [statusEntry, List.span_eq_takeWhile_dropWhile, List.dropWhile_eq_nil_iff.mpr hequals]
    simp only [houseStatus, hline, Option.bind_eq_bind, Option.bind_some,
      List.splitOn_eq_singleton hcomma, List.mapM_cons, hentry]
    rfl
  · cases h

end Lines

/-! ## Blocks -/

section Blocks
variable {lines : List String} {line : String}

theorem not_ends_of_selects (h : Selects line) : ¬ Ends line := fun he =>
  not_starts apart_E_D (starts_of_end he) (starts_of_selected h)

theorem openBlock_concat : OpenBlock (lines ++ [line]) ↔
    Selects line ∨ (OpenBlock lines ∧ ¬ Ends line) := by
  constructor
  · rintro ⟨pre, l, post, heq, hl, hpost⟩
    rcases List.eq_nil_or_concat post with rfl | ⟨post, m, rfl⟩
    · obtain ⟨_, hlast⟩ := List.append_inj' heq rfl
      rw [List.singleton_inj] at hlast
      exact .inl (hlast ▸ hl)
    · rw [List.concat_eq_append, ← List.cons_append, ← List.append_assoc] at heq
      obtain ⟨rfl, hm⟩ := List.append_inj' heq rfl
      rw [List.singleton_inj] at hm
      subst hm
      rw [List.concat_eq_append] at hpost
      exact .inr ⟨⟨pre, l, post, rfl, hl, fun m hm => hpost m (by simp [hm])⟩,
        hpost _ (by simp)⟩
  · rintro (h | ⟨⟨pre, l, post, rfl, hl, hpost⟩, hn⟩)
    · exact ⟨lines, line, [], rfl, h, nofun⟩
    · refine ⟨pre, l, post ++ [line], by simp, hl, fun m hm => ?_⟩
      rcases List.mem_append.mp hm with hm | hm
      · exact hpost m hm
      · rwa [List.mem_singleton.mp hm]

theorem blockEntries_concat_selects (h : Selects line) : blockEntries (lines ++ [line]) = [] := by
  rw [blockEntries, List.rtakeWhile_concat, if_neg (by simpa using h), List.flatMap_nil]

theorem blockEntries_concat (h : ¬ Selects line) :
    blockEntries (lines ++ [line]) = blockEntries lines ++ lineEntries line := by
  rw [blockEntries, List.rtakeWhile_concat, if_pos (by simpa using h), List.flatMap_append,
    List.flatMap_singleton, blockEntries]

theorem lineEntries_eq_nil (h : houseStatus (stripped line) = none) : lineEntries line = [] := by
  rw [lineEntries, h]

/-- The entries of a line that goes through. -/
theorem ofPairs_append (ps qs : List (String × Command)) :
    Dict.ofPairs (ps ++ qs) = qs.foldl (fun d e => d.insert e.1 e.2) (Dict.ofPairs ps) := by
  rw [Dict.ofPairs, List.foldl_append]
  rfl

/-- The entries of a house status line are added one by one, or none of them. -/
theorem foldlM_addEntry (house : Char) (entries : List (List Char × Bool))
    (devices : Dict String Command) :
    entries.foldlM (StatusParser.addEntry house) devices =
      (entries.mapM (entryState house)).map fun pairs =>
        pairs.foldl (fun d e => d.insert e.1 e.2) devices := by
  induction entries generalizing devices with
  | nil => rfl
  | cons e entries ih =>
    rw [List.foldlM_cons, List.mapM_cons]
    simp only [StatusParser.addEntry, entryState, Bind.bind, Except.bind]
    cases normalizeAddress (String.ofList (upperChar house ++ e.1)) with
    | error err => rfl
    | ok a =>
      simp only [pure, Except.pure, ih]
      cases entries.mapM (entryState house) <;> rfl

end Blocks

end Protocol

/-! ## The parser -/

namespace ProtocolParser

open Protocol

/-- The parser after a line; a line that raises changes nothing. -/
def next (parser : ProtocolParser) (i : Timestamp × String) : ProtocolParser :=
  match parser.parseLine i.1 i.2 with
  | .ok (_, parser) => parser
  | .error _ => parser

/-- A fresh parser after a stream of lines. -/
def run (inputs : List (Timestamp × String)) : ProtocolParser := inputs.foldl next {}

/-- The parser knows whether a block is open, and its entries. -/
structure Tracks (sp : StatusParser) (lines : List String) : Prop where
  active : sp.active = true ↔ OpenBlock lines
  snapshot : sp.snapshot =
    if sp.active then { devices := .ofPairs (blockEntries lines) } else {}

variable {sp sp' : StatusParser} {lines : List String} {line : String}

/-- A line of no kind, or between blocks, changes nothing. -/
theorem Tracks.pass (h : Tracks sp lines) (hs : ¬ Selects line)
    (hpass : sp.active = true → ¬ Ends line ∧ lineEntries line = []) :
    Tracks sp (lines ++ [line]) where
  active := by
    rw [openBlock_concat, h.active]
    refine ⟨fun ho => .inr ⟨ho, (hpass (h.active.mpr ho)).1⟩, fun ho => ?_⟩
    exact (ho.resolve_left hs).1
  snapshot := by
    rw [h.snapshot]
    split
    · next ha => rw [blockEntries_concat hs, (hpass ha).2, List.append_nil]
    · rfl

/-- A house status line adds its entries to the open block. -/
theorem feed_entries {house : Char} {entries : List (List Char × Bool)} (h : Tracks sp lines)
    (hs : ¬ Selects line) (hne : ¬ Ends line) (hactive : sp.active = true)
    (hhouse : houseStatus (stripped line) = some (house, entries)) :
    match entries.foldlM (StatusParser.addEntry house) sp.snapshot.devices with
    | .ok devices =>
      Tracks { sp with snapshot := { sp.snapshot with devices := devices } } (lines ++ [line])
    | .error _ => Tracks sp (lines ++ [line]) := by
  have hline : lineEntries line = (entries.mapM (entryState house)).toOption.getD [] := by
    rw [lineEntries, hhouse]
  rw [foldlM_addEntry]
  cases hpairs : entries.mapM (entryState house) with
  | error err =>
    refine h.pass hs fun _ => ⟨hne, ?_⟩
    rw [hline, hpairs]
    rfl
  | ok pairs =>
    refine ⟨?_, ?_⟩
    · show sp.active = true ↔ _
      rw [openBlock_concat]
      exact ⟨fun _ => .inr ⟨h.active.mp hactive, hne⟩, fun _ => hactive⟩
    · show StatusSnapshot.mk _ _ = if sp.active then _ else _
      rw [if_pos hactive, blockEntries_concat hs, hline, hpairs, h.snapshot, if_pos hactive]
      exact congrArg (StatusSnapshot.mk · _) (ofPairs_append _ _).symm

/-- What a status line does to the parser, and when it completes a snapshot. -/
theorem feed_tracks (line : String) (h : Tracks sp lines) :
    match sp.feed (stripped line) with
    | .ok (snap, sp') => Tracks sp' (lines ++ [line]) ∧
        (snap.isSome = true ↔ Ends line ∧ OpenBlock lines) ∧
        ∀ s, snap = some s → s.devices = .ofPairs (blockEntries lines)
    | .error _ => Tracks sp (lines ++ [line]) ∧ ¬ (Ends line ∧ OpenBlock lines) := by
  unfold StatusParser.feed
  by_cases hsel : fullMatch deviceSelected (stripped line) = true
  · have hs : Selects line := hsel
    rw [if_pos hsel]
    refine ⟨⟨⟨fun _ => openBlock_concat.mpr (.inl hs), fun _ => rfl⟩, ?_⟩, ?_, nofun⟩
    · rw [blockEntries_concat_selects hs]
      rfl
    · exact ⟨nofun, fun he => absurd he.1 (not_ends_of_selects hs)⟩
  · have hs : ¬ Selects line := hsel
    rw [if_neg hsel]
    by_cases hother : fullMatch deviceStatus (stripped line) = true ∨
        fullMatch securityStatus (stripped line) = true
    · rw [if_pos hother]
      have hkind : ¬ Ends line ∧ houseStatus (stripped line) = none := by
        rcases hother with hd | hd
        · exact ⟨fun he => not_starts apart_E_D (starts_of_end he) (starts_of_status hd),
            houseStatus_eq_none apart_H_D (starts_of_status hd)⟩
        · exact ⟨fun he => not_starts apart_E_S (starts_of_end he) (starts_of_security hd),
            houseStatus_eq_none apart_H_S (starts_of_security hd)⟩
      refine ⟨h.pass hs fun _ => ⟨hkind.1, lineEntries_eq_nil hkind.2⟩, ?_, nofun⟩
      exact ⟨nofun, fun he => absurd he.1 hkind.1⟩
    · rw [if_neg hother]
      by_cases hcount : isHouseCount (stripped line) = true
      · rw [if_pos hcount]
        have hne : ¬ Ends line := fun he =>
          not_starts apart_E_H (starts_of_end he) (starts_of_count hcount)
        refine ⟨h.pass hs fun _ => ⟨hne, lineEntries_eq_nil (houseStatus_of_count hcount)⟩, ?_,
          nofun⟩
        exact ⟨nofun, fun he => absurd he.1 hne⟩
      · rw [if_neg hcount]
        by_cases hactive : sp.active = true
        · rw [if_neg (by simp [hactive])]
          have hopen : OpenBlock lines := h.active.mp hactive
          cases hhouse : houseStatus (stripped line) with
          | some r =>
            obtain ⟨house, entries⟩ := r
            have hne : ¬ Ends line := fun he =>
              not_starts apart_E_H (starts_of_end he) (starts_of_houseStatus hhouse)
            have hentries := feed_entries h hs hne hactive hhouse
            simp only [Bind.bind, Except.bind]
            cases hdev : entries.foldlM (StatusParser.addEntry house) sp.snapshot.devices with
            | error err =>
              rw [hdev] at hentries
              exact ⟨hentries, fun he => hne he.1⟩
            | ok devices =>
              rw [hdev] at hentries
              exact ⟨hentries, ⟨nofun, fun he => absurd he.1 hne⟩, nofun⟩
          | none =>
            by_cases hend : fullMatch endStatus (stripped line) = true
            · -- the block is complete
              simp only [if_pos hend]
              have he : Ends line := hend
              refine ⟨⟨⟨nofun, fun ho => ?_⟩, rfl⟩, ⟨fun _ => ⟨he, hopen⟩, fun _ => rfl⟩, ?_⟩
              · rcases openBlock_concat.mp ho with ho | ho
                · exact absurd ho hs
                · exact absurd he ho.2
              · intro s hsnap
                cases hsnap
                rw [h.snapshot, if_pos hactive]
            · simp only [if_neg hend]
              have hne : ¬ Ends line := hend
              refine ⟨h.pass hs fun _ => ⟨hne, lineEntries_eq_nil hhouse⟩, ?_, nofun⟩
              exact ⟨nofun, fun he => absurd he.1 hne⟩
        · rw [if_pos (by simpa using hactive)]
          refine ⟨h.pass hs fun ha => absurd ha hactive, ?_, nofun⟩
          exact ⟨nofun, fun he => absurd (h.active.mpr he.2) hactive⟩

/-! ## Streams -/

/-- The event with another timestamp. -/
def restamp (now : Timestamp) : Event → Event
  | .device e => .device { e with timestamp := now }
  | .house e => .house { e with timestamp := now }
  | .snapshot snap => .snapshot snap
  | .unknown e => .unknown { e with timestamp := now }

/-- A line that is not a status line leaves the parser and is parsed as by a
fresh one. -/
theorem parseLine_stateless (parser : ProtocolParser) (now now' : Timestamp)
    (hline : StatusParser.isStatusLine (stripped line) = false) :
    parser.parseLine now line =
      (({} : ProtocolParser).parseLine now' line).map fun r =>
        (r.1.map (restamp now), parser) := by
  unfold stripped at hline
  simp only [parseLine, hline, Bool.false_eq_true, if_false]
  split
  · rfl
  · cases hdevice : deviceEventLine (trim isSpace line.toList) with
    | some g =>
      simp only [Bind.bind, Except.bind]
      cases normalizeAddress (String.ofList g.subject) with
      | error err => simp only [Except.map]
      | ok a => simp only [Except.map, pure, Except.pure, Option.map_some, restamp]
    | none =>
      cases houseEventLine (trim isSpace line.toList) with
      | some g =>
        simp only [Bind.bind, Except.bind]
        cases normalizeHouse (String.ofList g.subject) with
        | error err => simp only [Except.map]
        | ok a => simp only [Except.map, pure, Except.pure, Option.map_some, restamp]
      | none => simp only [Except.map, Option.map_some, restamp]

/-- The line opens and closes no block and has no entries. -/
theorem plain_of_not_isStatusLine (hline : StatusParser.isStatusLine (stripped line) = false) :
    ¬ Selects line ∧ ¬ Ends line ∧ lineEntries line = [] := by
  simp only [StatusParser.isStatusLine, Bool.or_eq_false_iff] at hline
  obtain ⟨⟨⟨⟨⟨hsel, _⟩, _⟩, _⟩, hhouse⟩, hend⟩ := hline
  refine ⟨fun hs => ?_, fun he => ?_, lineEntries_eq_nil (by simpa using hhouse)⟩
  · rw [Selects, hsel] at hs
    exact Bool.false_ne_true hs
  · rw [Ends, hend] at he
    exact Bool.false_ne_true he

/-- A line that is not a status line gives no snapshot. -/
theorem parseLine_ne_snapshot (parser : ProtocolParser) (now : Timestamp)
    (hline : StatusParser.isStatusLine (stripped line) = false) (snap : StatusSnapshot)
    (parser' : ProtocolParser) :
    parser.parseLine now line ≠ .ok (some (.snapshot snap), parser') := by
  unfold stripped at hline
  simp only [parseLine, hline, Bool.false_eq_true, if_false]
  split
  · simp
  · cases deviceEventLine (trim isSpace line.toList) with
    | some g =>
      simp only [Bind.bind, Except.bind]
      cases normalizeAddress (String.ofList g.subject) <;> simp [pure, Except.pure]
    | none =>
      cases houseEventLine (trim isSpace line.toList) with
      | some g =>
        simp only [Bind.bind, Except.bind]
        cases normalizeHouse (String.ofList g.subject) <;> simp [pure, Except.pure]
      | none => simp

/-- A status line goes to the status parser, blank lines being no status lines. -/
theorem parseLine_status (parser : ProtocolParser) (now : Timestamp)
    (hline : StatusParser.isStatusLine (stripped line) = true) :
    parser.parseLine now line = (parser.status.feed (stripped line)).map fun r =>
      (r.1.map .snapshot, { status := r.2 }) := by
  have hne : trim isSpace line.toList ≠ [] := by
    intro h
    rw [stripped, h] at hline
    exact absurd hline (by decide)
  rw [stripped] at hline
  simp only [parseLine, if_neg hne, if_pos hline, Bind.bind, Except.bind, stripped]
  cases parser.status.feed (trim isSpace line.toList) <;> rfl

theorem snapshot_of_map {snap : Option StatusSnapshot} {s : StatusSnapshot}
    {parser : ProtocolParser}
    (h : (Except.ok (snap, sp') : Except PyError _).map (fun r =>
        (r.1.map Event.snapshot, { status := r.2 })) = .ok (some (.snapshot s), parser)) : snap = some s := by
  simp only [Except.map, Except.ok.injEq, Prod.mk.injEq, Option.map_eq_some_iff,
    Event.snapshot.injEq, exists_eq_right] at h
  exact h.1

theorem next_tracks {parser : ProtocolParser} {i : Timestamp × String}
    (h : Tracks parser.status lines) : Tracks (parser.next i).status (lines ++ [i.2]) := by
  cases hline : StatusParser.isStatusLine (stripped i.2) with
  | false =>
    obtain ⟨hs, hrest⟩ := plain_of_not_isStatusLine hline
    have hnext : parser.next i = parser := by
      rw [next, parseLine_stateless parser i.1 i.1 hline]
      cases ({} : ProtocolParser).parseLine i.1 i.2 <;> rfl
    rw [hnext]
    exact h.pass hs fun _ => hrest
  | true =>
    have hfeed := feed_tracks i.2 h
    rw [next, parseLine_status parser i.1 hline]
    cases hres : parser.status.feed (stripped i.2) with
    | error err =>
      rw [hres] at hfeed
      exact hfeed.1
    | ok r =>
      rw [hres] at hfeed
      exact hfeed.1

/-- The parser after any stream. -/
theorem run_tracks (inputs : List (Timestamp × String)) :
    Tracks (run inputs).status (inputs.map Prod.snd) := by
  induction inputs using List.reverseRecOn with
  | nil =>
    refine ⟨⟨nofun, ?_⟩, rfl⟩
    rintro ⟨pre, l, post, heq, _⟩
    exact absurd heq (by simp)
  | append_singleton inputs i ih =>
    rw [run, List.foldl_append, List.map_append]
    exact next_tracks ih

/-- In every stream of lines, a line that is not a status line is parsed as by a
fresh parser, and a line completes a snapshot exactly if it ends an open block,
whose entries are the ones of the snapshot. -/
theorem status_isolated (inputs : List (Timestamp × String)) (now : Timestamp) (line : String) :
    (StatusParser.isStatusLine (stripped line) = false → ∀ now',
      ((run inputs).parseLine now line).map Prod.fst =
        (({} : ProtocolParser).parseLine now' line).map fun r => r.1.map (restamp now)) ∧
    ((∃ snap parser, (run inputs).parseLine now line = .ok (some (.snapshot snap), parser)) ↔
      Ends line ∧ OpenBlock (inputs.map Prod.snd)) ∧
    ∀ snap parser, (run inputs).parseLine now line = .ok (some (.snapshot snap), parser) →
      snap.devices = .ofPairs (blockEntries (inputs.map Prod.snd)) := by
  cases hline : StatusParser.isStatusLine (stripped line) with
  | false =>
    have hplain := parseLine_stateless (run inputs) now now hline
    have hnone : ∀ snap parser,
        (run inputs).parseLine now line ≠ .ok (some (.snapshot snap), parser) :=
      parseLine_ne_snapshot (run inputs) now hline
    refine ⟨fun _ now' => ?_, ⟨?_, fun he => ?_⟩, fun snap parser h => absurd h (hnone snap parser)⟩
    · rw [parseLine_stateless (run inputs) now now' hline]
      cases ({} : ProtocolParser).parseLine now' line <;> rfl
    · rintro ⟨snap, parser, h⟩
      exact absurd h (hnone snap parser)
    · exact absurd he.1 (plain_of_not_isStatusLine hline).2.1
  | true =>
    have hfeed := feed_tracks line (run_tracks inputs)
    rw [parseLine_status (run inputs) now hline]
    refine ⟨nofun, ?_⟩
    cases hres : (run inputs).status.feed (stripped line) with
    | error err =>
      rw [hres] at hfeed
      exact ⟨⟨nofun, fun he => absurd he hfeed.2⟩, nofun⟩
    | ok r =>
      obtain ⟨snap, sp'⟩ := r
      rw [hres] at hfeed
      obtain ⟨_, hsome, hdevices⟩ := hfeed
      refine ⟨⟨?_, fun he => ?_⟩, fun s parser h => ?_⟩
      · rintro ⟨s, parser, h⟩
        exact hsome.mp (by rw [snapshot_of_map h]; rfl)
      · obtain ⟨s, hs⟩ := Option.isSome_iff_exists.mp (hsome.mpr he)
        exact ⟨s, { status := sp' }, by rw [hs]; rfl⟩
      · exact hdevices s (snapshot_of_map h)

-- an interrupted block leaves nothing in the next one
example : blockEntries ["07/10 15:28:31 Device selected", "07/10 15:28:31 House A: 1=1",
    "07/10 15:28:32 Rx RF HouseUnit: A3 Func: On", "07/10 15:28:33 Device selected",
    "07/10 15:28:33 House b: 2=0, 16=1"] = [("B2", .off), ("B16", .on)] := by
  decide

end ProtocolParser

end MochadBridge
