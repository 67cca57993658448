import MochadBridge.State
import MochadBridge.Topics

/-!
# The mochad protocol

Text parsing, command encoding and normalization. A regular expression of the
source is a list of `Piece`s where it is fixed text, digits and white space, and
a function on words where it has groups. Lines are stripped before they are
matched, so that `$` is the end of the line; `\s+` always takes all white space,
since no pattern goes on with white space.

Results: `parseLine_event` says what a parsed event carries: a device event a
canonical address, a house event a house letter, and a snapshot canonical
addresses (`Event.Parsed`).
-/

namespace MochadBridge

open Py

namespace Protocol

/-! ## Patterns -/

/-- `re.IGNORECASE` for a letter of the pattern: besides the letters of both
cases it matches the long `s`, the Kelvin sign and the Turkish `i`s. -/
def sameLetter (p c : Char) : Bool :=
  p.toLower == c.toLower ||
    (p.toLower == 's' && c.toNat == 0x17F) ||
    (p.toLower == 'k' && c.toNat == 0x212A) ||
    (p.toLower == 'i' && (c.toNat == 0x130 || c.toNat == 0x131))

/-- A piece of a regular expression: a letter, `\d` or `\s+`. -/
inductive Piece where
  | letter (p : Char)
  | digit
  | spaces

/-- The pieces of a fixed text. -/
def text (s : String) : List Piece := s.toList.map .letter

/-- Match the pieces at the front of a line and return what follows. -/
def consume : List Piece → List Char → Option (List Char)
  | [], l => some l
  | .letter p :: pieces, c :: l => if sameLetter p c then consume pieces l else none
  | .digit :: pieces, c :: l => if (digitValue c).isSome then consume pieces l else none
  | .spaces :: pieces, c :: l =>
    if isSpace c then consume pieces (l.dropWhile isSpace) else none
  | _ :: _, [] => none

/-- The pieces match the whole line. -/
def fullMatch (pieces : List Piece) (l : List Char) : Bool := consume pieces l == some []

/-- `TIMESTAMP`. -/
def timestamp : List Piece :=
  [.digit, .digit, .letter '/', .digit, .digit, .spaces, .digit, .digit, .letter ':', .digit,
    .digit, .letter ':', .digit, .digit]

/-- A word and the text after the white space that ends it. -/
def nextWord (l : List Char) : Option (List Char × List Char) :=
  match l.dropWhile fun c => !isSpace c with
  | [] => none
  | rest => some (l.takeWhile fun c => !isSpace c, rest.dropWhile isSpace)

/-- `(?:[1-9]|1[0-6])`. -/
def matchesUnit : List Char → Bool
  | [u] => '1' ≤ u && u ≤ '9'
  | [t, u] => t == '1' && '0' ≤ u && u ≤ '6'
  | _ => false

/-! ## Normalization -/

/-- `[A-Pa-p]`. -/
def isHouseEitherCase (c : Char) : Bool := isHouse c || ('a' ≤ c && c ≤ 'p')

/-- `normalize_house`. -/
def normalizeHouse (house : String) : Except PyError String :=
  let house := normalize house
  match house.toList with
  | [c] => if isHouseEitherCase c then .ok house
      else .error (.valueError ("Invalid house code '" ++ house ++ "'."))
  | _ => .error (.valueError ("Invalid house code '" ++ house ++ "'."))

/-- `normalize_address`. -/
def normalizeAddress (address : String) : Except PyError String :=
  let address := normalize address
  if matchesAddress isHouseEitherCase address.toList then .ok address
  else .error (.valueError ("Invalid X10 address '" ++ address ++ "'."))

/-- `normalize_token`. -/
def normalizeToken (value : List Char) : String :=
  " ".intercalate (words (normalize (String.ofList value)))

/-! ## Mappings -/

def directionMap : List (String × Direction) := [("TX", .tx), ("RX", .rx)]

def transportMap : List (String × Transport) :=
  [("RF", .rf), ("PL", .pl), ("RFSEC", .rfsec), ("RFCAM", .rfcam)]

def commandMap : List (String × Command) :=
  [("ON", .on), ("OFF", .off), ("DIM", .dim), ("BRIGHT", .bright),
   ("ALL LIGHTS ON", .allLightsOn), ("ALL LIGHTS OFF", .allLightsOff),
   ("ALL UNITS OFF", .allUnitsOff), ("STATUS ON", .statusOn), ("STATUS OFF", .statusOff),
   ("STATUS REQUEST", .statusRequest), ("UNKNOWN", .unknown)]

/-- `ENCODE_COMMAND_MAP`. -/
def encodeCommandMap : Command → Option String
  | .on => some "on"
  | .off => some "off"
  | .dim => some "dim"
  | .bright => some "bright"
  | _ => none

/-! ## Encoder -/

/-- `encode_command`. -/
def encodeCommand (transport address : String) (command : Command) : Except PyError String :=
  let transport := lower (strip transport)
  if transport ∉ ["rf", "pl"] then
    .error (.valueError ("Unsupported mochad transport '" ++ transport ++ "'."))
  else do
    let address ← normalizeAddress address
    match encodeCommandMap command with
    | some suffix => return transport ++ " " ++ address ++ " " ++ suffix
    | none => throw (.valueError ("Unsupported mochad command Command." ++ command.name ++ "."))

/-- `encode_rf_command`. -/
def encodeRfCommand (address : String) (command : Command) : Except PyError String :=
  encodeCommand "rf" address command

/-! ## Status responses -/

/-- The stateful parser of `st` output. -/
structure StatusParser where
  snapshot : StatusSnapshot := {}
  active : Bool := false

def deviceSelected : List Piece := timestamp ++ .spaces :: text "Device selected"
def deviceStatus : List Piece := timestamp ++ .spaces :: text "Device status"
def securityStatus : List Piece := timestamp ++ .spaces :: text "Security sensor status"
def endStatus : List Piece := timestamp ++ .spaces :: text "End status"

/-- The house and the rest of `TIMESTAMP\s+House\s+(?P<house>[A-P]):\s+`. -/
def houseLine (l : List Char) : Option (Char × List Char) := do
  let rest ← consume (timestamp ++ .spaces :: text "House" ++ [.spaces]) l
  match rest with
  | c :: rest =>
    if isHouseIgnoringCase c then do
      let rest ← consume [.letter ':', .spaces] rest
      return (c, rest)
    else none
  | [] => none

/-- `HOUSE_COUNT_RE`. -/
def isHouseCount (l : List Char) : Bool :=
  match houseLine l with
  | some (_, rest) => !rest.isEmpty && rest.all fun c => (digitValue c).isSome
  | none => false

/-- One `unit = value` entry, whether the value is `1`. -/
def statusEntry (entry : List Char) : Option (List Char × Bool) :=
  match entry.span (· != '=') with
  | (unit, _ :: value) =>
    let unit := trim isSpace unit
    let value := trim isSpace value
    if matchesUnit unit ∧ (value = ['0'] ∨ value = ['1']) then some (unit, value == ['1'])
    else none
  | _ => none

/-- `STRICT_HOUSE_STATUS_RE`: the house and its entries. -/
def houseStatus (l : List Char) : Option (Char × List (List Char × Bool)) := do
  let (house, rest) ← houseLine l
  let entries ← (rest.splitOn ',').mapM statusEntry
  return (house, entries)

namespace StatusParser

/-- `is_status_line`. -/
def isStatusLine (line : List Char) : Bool :=
  fullMatch deviceSelected line || fullMatch deviceStatus line || fullMatch securityStatus line ||
    isHouseCount line || (houseStatus line).isSome || fullMatch endStatus line

/-- One entry of a house status line. -/
def addEntry (house : Char) (devices : Dict String Command) (entry : List Char × Bool) :
    Except PyError (Dict String Command) := do
  let address ← normalizeAddress (String.ofList (upperChar house ++ entry.1))
  return devices.insert address (if entry.2 then .on else .off)

/-- `feed`. The house of a line makes its first entry fail or none of them, so
a line that fails changes nothing. -/
def feed (sp : StatusParser) (line : List Char) :
    Except PyError (Option StatusSnapshot × StatusParser) :=
  if fullMatch deviceSelected line then .ok (none, { active := true })
  else if fullMatch deviceStatus line ∨ fullMatch securityStatus line then .ok (none, sp)
  else if isHouseCount line then .ok (none, sp)
  else if !sp.active then .ok (none, sp)
  else
    match houseStatus line with
    | some (house, entries) => do
      let devices ← entries.foldlM (addEntry house) sp.snapshot.devices
      return (none, { sp with snapshot := { sp.snapshot with devices := devices } })
    | none =>
      if fullMatch endStatus line then .ok (some { sp.snapshot with completed := true }, {})
      else .ok (none, sp)

end StatusParser

/-! ## Events -/

/-- The groups of an event line: direction, transport, the device or house after
`label`, and the command. -/
structure EventGroups where
  direction : List Char
  transport : List Char
  subject : List Char
  command : List Char

/-- The common shape of `DEVICE_EVENT_RE` and `HOUSE_EVENT_RE`. -/
def eventLine (label : String) (subject : List Char → Bool) (l : List Char) :
    Option EventGroups := do
  let l ← consume (timestamp ++ [.spaces]) l
  let (direction, l) ← nextWord l
  let (transport, l) ← nextWord l
  let l ← consume (text label ++ [.spaces]) l
  let (name, l) ← nextWord l
  let command ← consume (text "Func:" ++ [.spaces]) l
  if (fullMatch (text "Tx") direction ∨ fullMatch (text "Rx") direction) ∧
      (fullMatch (text "RF") transport ∨ fullMatch (text "PL") transport) ∧
      subject name ∧ command ≠ [] ∧ '\n' ∉ command then
    return ⟨direction, transport, name, command⟩
  else none

/-- `DEVICE_EVENT_RE`. -/
def deviceEventLine (l : List Char) : Option EventGroups :=
  eventLine "HouseUnit:" (matchesAddress isHouseIgnoringCase) l

/-- `HOUSE_EVENT_RE`. -/
def houseEventLine (l : List Char) : Option EventGroups :=
  eventLine "House:" (fun
    | [c] => isHouseIgnoringCase c
    | _ => false) l

/-- The direction of a matched group. -/
def groupDirection (g : EventGroups) : Direction :=
  (directionMap.lookup (normalizeToken g.direction)).getD .rx

/-- The transport of a matched group. -/
def groupTransport (g : EventGroups) : Transport :=
  (transportMap.lookup (normalizeToken g.transport)).getD .unknown

/-- The command of a matched group, `UNKNOWN` if the table does not list it. -/
def groupCommand (g : EventGroups) : Command :=
  (commandMap.lookup (normalizeToken g.command)).getD .unknown

end Protocol

/-- The parser and its `st` snapshot in progress. -/
structure ProtocolParser where
  status : Protocol.StatusParser := {}

namespace ProtocolParser

open Protocol

/-- `parse_line`. -/
def parseLine (parser : ProtocolParser) (now : Timestamp) (line : String) :
    Except PyError (Option Event × ProtocolParser) :=
  let l := trim isSpace line.toList
  if l = [] then .ok (none, parser)
  else if StatusParser.isStatusLine l then do
    let (snapshot, status) ← parser.status.feed l
    return (snapshot.map .snapshot, { parser with status := status })
  else
    match deviceEventLine l with
    | some g => do
      let address ← normalizeAddress (String.ofList g.subject)
      return (some (.device
        { timestamp := now, direction := groupDirection g, transport := groupTransport g,
          command := groupCommand g, address := address }), parser)
    | none =>
      match houseEventLine l with
      | some g => do
        let house ← normalizeHouse (String.ofList g.subject)
        return (some (.house
          { timestamp := now, direction := groupDirection g, transport := groupTransport g,
            command := groupCommand g, house := house }), parser)
      | none => .ok (some (.unknown { timestamp := now, raw := String.ofList l }), parser)

end ProtocolParser

/-! ## What the normalizations return -/

namespace Protocol

/-- Upper case leaves no letter of `[a-p]`. -/
theorem isHouse_of_mem_upper {s : String} {c : Char} (hc : c ∈ (upper s).toList)
    (h : isHouseEitherCase c = true) : isHouse c = true := by
  rw [isHouseEitherCase, Bool.or_eq_true] at h
  refine h.resolve_right fun hlow => ?_
  rw [toList_upper, List.mem_flatMap] at hc
  obtain ⟨d, _, hd⟩ := hc
  have hfix := upperChar_of_mem hd
  simp only [Bool.and_eq_true, decide_eq_true_eq] at hlow
  have hn : 97 ≤ c.toNat ∧ c.toNat ≤ 112 := hlow
  have hup : ∀ n < 128, 97 ≤ n → n ≤ 112 → (Char.ofNat n).toUpper ≠ Char.ofNat n := by
    decide
  rw [upperChar, if_pos (by omega)] at hfix
  exact hup c.toNat (by omega) hn.1 hn.2 (by rw [Char.ofNat_toNat]; exact (List.cons.inj hfix).1)

theorem matchesAddress_mono {p q : Char → Bool} {l : List Char}
    (hpq : ∀ c ∈ l, p c = true → q c = true) (h : matchesAddress p l = true) :
    matchesAddress q l = true := by
  unfold matchesAddress at h ⊢
  split at h
  · next c u =>
    simp only [Bool.and_eq_true] at h ⊢
    exact ⟨⟨hpq c (by simp) h.1.1, h.1.2⟩, h.2⟩
  · next c t u =>
    simp only [Bool.and_eq_true] at h ⊢
    exact ⟨⟨⟨hpq c (by simp) h.1.1.1, h.1.1.2⟩, h.1.2⟩, h.2⟩
  · cases h

theorem normalizeAddress_ok {a k : String} (h : normalizeAddress a = .ok k) :
    k = normalize a ∧ IsAddress k := by
  simp only [normalizeAddress] at h
  split at h
  · next hm =>
    rw [Except.ok.injEq] at h
    subst h
    exact ⟨rfl, matchesAddress_mono (fun c hc => isHouse_of_mem_upper hc) hm⟩
  · cases h

theorem normalizeHouse_ok {a k : String} (h : normalizeHouse a = .ok k) :
    ∃ c, isHouse c = true ∧ k = String.singleton c := by
  simp only [normalizeHouse] at h
  split at h
  · next c hc =>
    split at h
    · next hm =>
      rw [Except.ok.injEq] at h
      subst h
      refine ⟨c, isHouse_of_mem_upper (s := strip a) ?_ hm, ?_⟩
      · show c ∈ (normalize a).toList
        rw [hc]
        exact List.mem_singleton_self c
      · rw [← String.toList_inj, hc, String.toList_singleton]
    · cases h
  · cases h

/-- The address and the command can be encoded. -/
def Sendable (a : String) (c : Command) : Prop :=
  IsAddress a ∧ (encodeCommandMap c).isSome = true

theorem normalizeAddress_of_isAddress {a : String} (ha : IsAddress a) :
    normalizeAddress a = .ok a := by
  simp only [normalizeAddress, normalize, ha.upper_strip]
  refine if_pos (matchesAddress_mono (fun c _ h => ?_) ha)
  rw [isHouseEitherCase, h, Bool.true_or]

theorem encodeRfCommand_ok {a : String} (ha : IsAddress a) {c : Command} {suffix : String}
    (hc : encodeCommandMap c = some suffix) :
    encodeRfCommand a c = .ok ("rf " ++ a ++ " " ++ suffix) := by
  have hrf : lower (strip "rf") = "rf" := by decide
  simp only [encodeRfCommand, encodeCommand, hrf, normalizeAddress_of_isAddress ha, hc]
  rw [if_neg (by simp)]
  rfl

end Protocol

/-! ## What the parser returns -/

/-- Canonical addresses, each on or off. -/
def Statuses (devices : Dict String Command) : Prop :=
  ∀ k c, devices.get? k = some c → IsAddress k ∧ (c = .on ∨ c = .off)

theorem statuses_empty : Statuses .empty := fun _ _ h => nomatch h

theorem Statuses.address {devices : Dict String Command} (h : Statuses devices) {k : String}
    (hk : k ∈ devices.keys) : IsAddress k := by
  obtain ⟨c, hc⟩ := Option.ne_none_iff_exists'.mp (Dict.mem_keys.mp hk)
  exact (h k c hc).1

/-- What an event of the parser carries. -/
def Event.Parsed : Event → Prop
  | .device e => IsAddress e.address
  | .house e => ∃ c, isHouse c = true ∧ e.house = String.singleton c
  | .snapshot snap => Statuses snap.devices
  | .unknown _ => True

namespace ProtocolParser

open Protocol

/-- The snapshot in progress lists canonical addresses. -/
def Canonical (parser : ProtocolParser) : Prop := Statuses parser.status.snapshot.devices

theorem addEntries_canonical {house : Char} (entries : List (List Char × Bool))
    {devices devices' : Dict String Command} (hd : Statuses devices)
    (h : entries.foldlM (StatusParser.addEntry house) devices = .ok devices') :
    Statuses devices' := by
  induction entries generalizing devices with
  | nil =>
    cases h
    exact hd
  | cons e entries ih =>
    rw [List.foldlM_cons] at h
    obtain ⟨next, hnext, hrest⟩ := bind_ok h
    obtain ⟨a, ha, hins⟩ := bind_ok hnext
    cases hins
    refine ih (fun k c hk => ?_) hrest
    rw [Dict.get?_insert] at hk
    split at hk
    · next he =>
      subst he
      refine ⟨(normalizeAddress_ok ha).2, ?_⟩
      rw [← Option.some.inj hk]
      split
      · exact .inl rfl
      · exact .inr rfl
    · exact hd k c hk

theorem feed_canonical {sp sp' : StatusParser} {line : List Char} {snap : Option StatusSnapshot}
    (hc : Statuses sp.snapshot.devices) (h : sp.feed line = .ok (snap, sp')) :
    Statuses sp'.snapshot.devices ∧ ∀ s, snap = some s → Statuses s.devices := by
  unfold StatusParser.feed at h
  split at h
  · cases h
    exact ⟨statuses_empty, nofun⟩
  · split at h
    · cases h
      exact ⟨hc, nofun⟩
    · split at h
      · cases h
        exact ⟨hc, nofun⟩
      · split at h
        · cases h
          exact ⟨hc, nofun⟩
        · split at h
          · obtain ⟨devices, hdev, hrest⟩ := bind_ok h
            cases hrest
            exact ⟨addEntries_canonical _ hc hdev, nofun⟩
          · split at h
            · cases h
              refine ⟨statuses_empty, fun s hs => ?_⟩
              cases hs
              exact hc
            · cases h
              exact ⟨hc, nofun⟩

/-- A parsed event is well formed, and so is the snapshot in progress. -/
theorem parseLine_event {parser parser' : ProtocolParser} {now : Timestamp} {line : String}
    {event : Option Event} (hc : parser.Canonical)
    (h : parser.parseLine now line = .ok (event, parser')) :
    parser'.Canonical ∧ ∀ e, event = some e → e.Parsed := by
  simp only [parseLine] at h
  split at h
  · cases h
    exact ⟨hc, nofun⟩
  · split at h
    · -- a line of a status response
      obtain ⟨⟨snap, sp'⟩, hfeed, hrest⟩ := bind_ok h
      cases hrest
      obtain ⟨hcan, hsnap⟩ := feed_canonical hc hfeed
      refine ⟨hcan, fun e he => ?_⟩
      obtain ⟨s, hs, rfl⟩ := Option.map_eq_some_iff.mp he
      exact hsnap s hs
    · split at h
      · -- a device event
        obtain ⟨a, ha, hrest⟩ := bind_ok h
        cases hrest
        refine ⟨hc, fun e he => ?_⟩
        cases he
        exact (normalizeAddress_ok ha).2
      · split at h
        · -- a house event
          obtain ⟨a, ha, hrest⟩ := bind_ok h
          cases hrest
          refine ⟨hc, fun e he => ?_⟩
          cases he
          exact normalizeHouse_ok ha
        · cases h
          refine ⟨hc, fun e he => ?_⟩
          cases he
          trivial

example : (({} : ProtocolParser).parseLine 0 "07/10 15:28:31 Rx RF HouseUnit: a16 Func: All  lights on"
    ).toOption.map (fun r => r.1.map fun e => match e with
      | .device e => (e.address, e.command, e.direction)
      | _ => ("", .unknown, .tx)) = some (some ("A16", .allLightsOn, .rx)) := by
  decide

end ProtocolParser

end MochadBridge
