import MochadBridge.Topics
import MochadBridge.State

/-!
# The shape of topics

A topic ends in segments without a slash: the address and the suffix of a device
topic, the component, the unique id and `config` of a discovery topic. Splitting
a topic recovers them, so topics about different devices or with different
suffixes differ.

Results:
1. `ends_deviceTopic`, `ends_bridgeTopic`, `ends_discovery`,
   `ends_bridgeDiscovery`: the last segments of a topic.
2. `discovery_address`: a discovery topic determines its device.
3. `command_topics_round_trip`: command topics are parsed exactly, if and only if
   the base topic is one segment.
-/

namespace MochadBridge

open Py

namespace Topics

/-! ## Segments -/

/-- What `_clean_segment` accepts. -/
theorem cleanSegment_ok {value b : String} (h : cleanSegment value = .ok b) :
    b = stripChars ['/'] (strip value) ∧ b ≠ "" ∧ '#' ∉ b.toList ∧ '+' ∉ b.toList := by
  simp only [cleanSegment] at h
  split at h
  · cases h
  · split at h
    · cases h
    · next hne hw =>
      rw [Except.ok.injEq] at h
      subst h
      rw [not_or] at hw
      exact ⟨rfl, hne, hw.1, hw.2⟩

/-- A cleaned segment neither starts nor ends with a slash. -/
theorem ends_of_cleanSegment {value b : String} (h : cleanSegment value = .ok b) :
    (∀ c ∈ b.toList.head?, c ≠ '/') ∧ ∀ c ∈ b.toList.getLast?, c ≠ '/' := by
  have hb := congrArg String.toList (cleanSegment_ok h).1
  rw [stripChars, String.toList_ofList] at hb
  rw [hb]
  refine ⟨fun c hc => ?_, fun c hc => ?_⟩
  · have := head_trim _ c hc
    rintro rfl
    simp at this
  · have := getLast_trim _ c hc
    rintro rfl
    simp at this

theorem toList_ne_nil {b : String} (h : b ≠ "") : b.toList ≠ [] := fun hn =>
  h (String.toList_inj.mp hn)

/-- A topic with a cleaned segment at each end has no slash to strip. -/
theorem stripChars_slash {topic b last : String} {mid : List Char}
    (ht : topic.toList = b.toList ++ mid ++ last.toList) (hb : b ≠ "") (hlast : last ≠ "")
    (hhead : ∀ c ∈ b.toList.head?, c ≠ '/') (hend : ∀ c ∈ last.toList.getLast?, c ≠ '/') :
    stripChars ['/'] topic = topic := by
  rw [← String.toList_inj, stripChars, String.toList_ofList, ht]
  refine trim_eq_self (fun c hc => ?_) (fun c hc => ?_)
  · rw [List.append_assoc, List.head?_append_of_ne_nil _ (toList_ne_nil hb)] at hc
    simpa using hhead c hc
  · rw [List.getLast?_append_of_ne_nil _ (toList_ne_nil hlast)] at hc
    simpa using hend c hc

/-- The text of a topic with three segments. -/
theorem toList_join (b a suffix : String) : ("/".intercalate [b, a, suffix]).toList =
    b.toList ++ ('/' :: (a.toList ++ ['/'])) ++ suffix.toList := by
  rw [toList_intercalate_cons, toList_intercalate_cons]
  simp

theorem join_eq (b a suffix : String) :
    "/".intercalate [b, a, suffix] = b ++ "/" ++ a ++ "/" ++ suffix := by
  rw [← String.toList_inj, toList_join]
  simp

/-- A segment that becomes an address has no slash. -/
theorem slash_not_mem_of_normalize {segment : String} (h : IsAddress (normalize segment)) :
    '/' ∉ segment.toList := by
  intro hm
  refine h.slash_not_mem ?_
  rw [normalize, toList_upper, toList_strip]
  exact List.mem_flatMap.mpr ⟨'/', mem_trim_of_mem hm (by decide), by decide⟩

/-! ## The segments of a topic -/

section Segments
variable {a b base suffix topic : String}

theorem deviceTopic_ok {device : String} (hs : cleanSegment suffix = .ok suffix)
    (h : deviceTopic device suffix base = .ok topic) :
    ∃ b, cleanSegment base = .ok b ∧ IsAddress (normalize device) ∧
      topic = "/".intercalate [b, normalize device, suffix] := by
  obtain ⟨b, hb, h⟩ := bind_ok h
  obtain ⟨a, ha, h⟩ := bind_ok h
  obtain ⟨s, hs', h⟩ := bind_ok h
  rw [hs, Except.ok.injEq] at hs'
  obtain ⟨rfl, haddr⟩ := address_ok.mp ha
  subst hs'
  exact ⟨b, hb, haddr, (Except.ok.inj h).symm⟩

theorem deviceTopic_eq {device : String} (hb : cleanSegment base = .ok b)
    (ha : IsAddress (normalize device)) (hs : cleanSegment suffix = .ok suffix) :
    deviceTopic device suffix base = .ok ("/".intercalate [b, normalize device, suffix]) := by
  have haddr : address device = .ok (normalize device) := address_ok.mpr ⟨rfl, ha⟩
  simp only [deviceTopic, hb, haddr, hs]
  rfl

theorem bridgeTopic_eq (hb : cleanSegment base = .ok b) (hs : cleanSegment suffix = .ok suffix) :
    bridgeTopic suffix base = .ok ("/".intercalate [b, "bridge", suffix]) := by
  rw [bridgeTopic, hb, hs]
  rfl

/-- The segments of a device topic. -/
theorem split_deviceTopic (ha : '/' ∉ a.toList) (hs : '/' ∉ suffix.toList) :
    split ("/".intercalate [b, a, suffix]) '/' = split b '/' ++ [a, suffix] := by
  refine split_intercalate b fun t ht => ?_
  rcases List.mem_pair.mp ht with rfl | rfl
  · exact ha
  · exact hs

/-- The segments of a topic, the last one first. -/
def ends (topic : String) : List String := (split topic '/').reverse

theorem ends_join {l : List String} (h : ∀ t ∈ l, '/' ∉ t.toList) :
    ends ("/".intercalate (b :: l)) = l.reverse ++ ends b := by
  have hsplit : split ("/".intercalate (b :: l)) '/' = split b '/' ++ l := split_intercalate b h
  rw [ends, hsplit, List.reverse_append, ends]

/-- A segment that is clean as it is, and one segment. -/
def Plain (segment : String) : Prop :=
  cleanSegment segment = .ok segment ∧ '/' ∉ segment.toList

theorem ascii_unspaced : ∀ n < 123, 95 ≤ n → isSpace (Char.ofNat n) = false := by decide

/-- A segment of underscores and small letters is plain. -/
theorem plain_of_letters {segment : String} (hne : segment ≠ "")
    (h : segment.toList.all (fun c => '_' ≤ c && c ≤ 'z') = true) : Plain segment := by
  have hrange : ∀ c ∈ segment.toList, 95 ≤ c.toNat ∧ c.toNat ≤ 122 := by
    intro c hc
    have hc := List.all_eq_true.mp h c hc
    rw [Bool.and_eq_true, decide_eq_true_eq, decide_eq_true_eq] at hc
    exact hc
  have hnot : ∀ d : Char, d.toNat < 95 → d ∉ segment.toList := fun d hd hm =>
    absurd (hrange d hm).1 (by omega)
  have hspace : ∀ c ∈ segment.toList, isSpace c = false := fun c hc => by
    have := ascii_unspaced c.toNat (by have := hrange c hc; omega) (hrange c hc).1
    rwa [Char.ofNat_toNat] at this
  have hstrip : strip segment = segment := by
    rw [← String.toList_inj, toList_strip]
    exact trim_eq_self (fun c hc => hspace c (List.mem_of_head? hc))
      (fun c hc => hspace c (List.mem_of_getLast? hc))
  have hslash : stripChars ['/'] segment = segment := by
    rw [← String.toList_inj, stripChars, String.toList_ofList]
    refine trim_eq_self (fun c hc => ?_) (fun c hc => ?_)
    · have : c ≠ '/' := fun he => hnot '/' (by decide) (he ▸ List.mem_of_head? hc)
      simpa using this
    · have : c ≠ '/' := fun he => hnot '/' (by decide) (he ▸ List.mem_of_getLast? hc)
      simpa using this
  refine ⟨?_, hnot '/' (by decide)⟩
  simp only [cleanSegment, hstrip, hslash, if_neg hne]
  exact if_neg (not_or.mpr ⟨hnot '#' (by decide), hnot '+' (by decide)⟩)

theorem ends_deviceTopic {device : String} (hs : Plain suffix)
    (h : deviceTopic device suffix base = .ok topic) :
    ∃ rest, ends topic = suffix :: normalize device :: rest := by
  obtain ⟨b, _, haddr, rfl⟩ := deviceTopic_ok hs.1 h
  refine ⟨ends b, ends_join fun t ht => ?_⟩
  rcases List.mem_pair.mp ht with rfl | rfl
  · exact haddr.slash_not_mem
  · exact hs.2

theorem ends_bridgeTopic (hs : Plain suffix) (h : bridgeTopic suffix base = .ok topic) :
    ∃ rest, ends topic = suffix :: "bridge" :: rest := by
  obtain ⟨b, _, h⟩ := bind_ok h
  obtain ⟨s, hs', h⟩ := bind_ok h
  rw [hs.1, Except.ok.injEq] at hs'
  subst hs'
  cases h
  refine ⟨ends b, ends_join fun t ht => ?_⟩
  rcases List.mem_pair.mp ht with rfl | rfl
  · decide
  · exact hs.2

/-- The topic ends in `/config`, as every discovery topic does. -/
def IsDiscovery (topic : String) : Prop := "/config".toList <:+ topic.toList

theorem isDiscovery_join (p c o : String) : IsDiscovery ("/".intercalate [p, c, o, "config"]) := by
  refine ⟨p.toList ++ '/' :: (c.toList ++ '/' :: o.toList), ?_⟩
  simp

theorem isDiscovery_discovery {d : DeviceConfig} {pre : String}
    (h : discovery d pre = .ok topic) : IsDiscovery topic := by
  obtain ⟨p, _, h⟩ := bind_ok h
  obtain ⟨uid, _, h⟩ := bind_ok h
  rw [← Except.ok.inj h]
  exact isDiscovery_join p _ uid

theorem isDiscovery_bridgeDiscovery {component objectId pre : String}
    (h : bridgeDiscovery component objectId pre = .ok topic) : IsDiscovery topic := by
  obtain ⟨p, _, h⟩ := bind_ok h
  obtain ⟨c, _, h⟩ := bind_ok h
  obtain ⟨o, _, h⟩ := bind_ok h
  rw [← Except.ok.inj h]
  exact isDiscovery_join p c o

/-- White space at the ends of a discovery topic is none of its last part. -/
theorem IsDiscovery.strip (h : IsDiscovery topic) : IsDiscovery (strip topic) := by
  obtain ⟨l, hl⟩ := h
  refine ⟨l.dropWhile isSpace, ?_⟩
  rw [toList_strip, ← hl]
  refine (trim_append (by decide) (fun c hc => ?_) fun c hc => ?_).symm
  · rw [← Option.some.inj (show some '/' = some c from hc)]
    decide
  · rw [← Option.some.inj (show some 'g' = some c from hc)]
    decide

/-- The last segment of a discovery topic is `config`. -/
theorem IsDiscovery.ends (h : IsDiscovery topic) : ∃ rest, ends topic = "config" :: rest := by
  obtain ⟨l, hl⟩ := h
  have htopic : topic = "/".intercalate [String.ofList l, "config"] := by
    rw [← String.toList_inj, ← hl]
    simp
  rw [htopic]
  exact ⟨_, ends_join fun t ht => by rw [List.mem_singleton.mp ht]; decide⟩

/-- What is published about a device has other topics than discovery. -/
theorem IsDiscovery.not_device {device : String} (h : IsDiscovery topic)
    (hs : suffix ∈ ["state", "event", "attributes"]) :
    deviceTopic device suffix base ≠ .ok topic := by
  have hplain : Plain suffix ∧ suffix ≠ "config" := by
    simp only [List.mem_cons, List.not_mem_nil, or_false] at hs
    rcases hs with rfl | rfl | rfl <;> exact ⟨plain_of_letters (by decide) (by decide), by decide⟩
  intro hdevice
  obtain ⟨_, hends⟩ := h.ends
  obtain ⟨_, hends'⟩ := ends_deviceTopic hplain.1 hdevice
  rw [hends, List.cons.injEq] at hends'
  exact hplain.2 hends'.1.symm

/-- So has what is published about the bridge. -/
theorem IsDiscovery.not_own (h : IsDiscovery topic)
    (hs : suffix ∈ ["availability", "status", "response"]) : bridgeTopic suffix base ≠ .ok topic := by
  have hplain : Plain suffix ∧ suffix ≠ "config" := by
    simp only [List.mem_cons, List.not_mem_nil, or_false] at hs
    rcases hs with rfl | rfl | rfl <;> exact ⟨plain_of_letters (by decide) (by decide), by decide⟩
  intro hown
  obtain ⟨_, hends⟩ := h.ends
  obtain ⟨_, hends'⟩ := ends_bridgeTopic hplain.1 hown
  rw [hends, List.cons.injEq] at hends'
  exact hplain.2 hends'.1.symm

theorem slash_not_mem_uid {k : String} (h : IsAddress k) : '/' ∉ ("x10_" ++ k).toList := by
  rw [String.toList_append, List.mem_append, not_or]
  exact ⟨by decide, h.slash_not_mem⟩

theorem slash_not_mem_entityType (d : DeviceConfig) : '/' ∉ (entityType d).toList := by
  unfold entityType
  cases d.entityType <;> decide

theorem ends_discovery {d : DeviceConfig} {pre : String} (h : discovery d pre = .ok topic) :
    IsAddress (normalize d.address) ∧
      ∃ rest, ends topic = "config" :: ("x10_" ++ normalize d.address) :: entityType d :: rest := by
  obtain ⟨b, _, h⟩ := bind_ok h
  obtain ⟨uid, huid, h⟩ := bind_ok h
  obtain ⟨k, hk, huid⟩ := bind_ok huid
  cases huid
  cases h
  obtain ⟨rfl, haddr⟩ := address_ok.mp hk
  refine ⟨haddr, ends b, ends_join fun t ht => ?_⟩
  simp only [List.mem_cons, List.not_mem_nil, or_false] at ht
  rcases ht with rfl | rfl | rfl
  · exact slash_not_mem_entityType d
  · exact slash_not_mem_uid haddr
  · decide

theorem ends_bridgeDiscovery {component objectId pre : String} (hc : Plain component)
    (ho : Plain objectId) (h : bridgeDiscovery component objectId pre = .ok topic) :
    ∃ rest, ends topic = "config" :: objectId :: component :: rest := by
  obtain ⟨b, _, h⟩ := bind_ok h
  obtain ⟨c, hc', h⟩ := bind_ok h
  obtain ⟨o, ho', h⟩ := bind_ok h
  rw [hc.1, Except.ok.injEq] at hc'
  rw [ho.1, Except.ok.injEq] at ho'
  subst hc' ho'
  cases h
  refine ⟨ends b, ends_join fun t ht => ?_⟩
  simp only [List.mem_cons, List.not_mem_nil, or_false] at ht
  rcases ht with rfl | rfl | rfl
  · exact hc.2
  · exact ho.2
  · decide

/-- A discovery topic determines its device. -/
theorem discovery_address {d d' : DeviceConfig} {pre pre' : String}
    (h : discovery d pre = .ok topic) (h' : discovery d' pre' = .ok topic) :
    normalize d.address = normalize d'.address := by
  obtain ⟨_, _, hends⟩ := ends_discovery h
  obtain ⟨_, _, hends'⟩ := ends_discovery h'
  rw [hends] at hends'
  have huid := (List.cons.inj (List.cons.inj hends').2).1
  rw [← String.toList_inj, String.toList_append, String.toList_append] at huid
  exact String.toList_inj.mp (List.append_cancel_left huid)

end Segments

/-! ## Command topics -/

/-- The topic, without slashes around it, is the base topic, a segment that
names the address, and `command`. -/
def IsCommandTopic (b topic a : String) : Prop :=
  ∃ segment, stripChars ['/'] topic = b ++ "/" ++ segment ++ "/command" ∧
    normalize segment = a ∧ IsAddress a

section Commands
variable {a b base topic : String}

theorem join_command (b segment : String) :
    "/".intercalate [b, segment, "command"] = b ++ "/" ++ segment ++ "/command" := by
  rw [join_eq, String.append_assoc]
  rfl

/-- What the parser accepts, in terms of the segments of the topic. -/
theorem parseCommandTopic_ok (hb : cleanSegment base = .ok b) :
    parseCommandTopic topic base = .ok a ↔
      ∃ segment, split (stripChars ['/'] topic) '/' = [b, segment, "command"] ∧
        address segment = .ok a := by
  simp only [parseCommandTopic, hb, Bind.bind, Except.bind]
  generalize split (stripChars ['/'] topic) '/' = parts
  rcases parts with _ | ⟨first, _ | ⟨device, _ | ⟨last, _ | ⟨x, parts⟩⟩⟩⟩
  · simp
  · simp
  · simp
  · by_cases hne : first ≠ b ∨ last ≠ "command"
    · simp only [if_pos hne, reduceCtorEq, List.cons.injEq, false_iff]
      rintro ⟨segment, ⟨rfl, _, rfl, _⟩, _⟩
      simp at hne
    · simp only [if_neg hne, List.cons.injEq]
      rw [not_or, not_not, not_not] at hne
      obtain ⟨rfl, rfl⟩ := hne
      simp
  · simp

/-- A base topic with a slash makes every command topic invalid. -/
theorem parseCommandTopic_slash (hb : cleanSegment base = .ok b) (hs : '/' ∈ b.toList) :
    parseCommandTopic topic base ≠ .ok a := by
  intro h
  obtain ⟨segment, hsplit, _⟩ := (parseCommandTopic_ok hb).mp h
  have hmem : b ∈ split (stripChars ['/'] topic) '/' := by
    rw [hsplit]
    exact List.mem_cons_self
  exact not_mem_of_mem_split hmem hs

/-- With a base topic of one segment, command topics are parsed exactly. -/
theorem parseCommandTopic_iff (hb : cleanSegment base = .ok b) (hs : '/' ∉ b.toList) :
    parseCommandTopic topic base = .ok a ↔ IsCommandTopic b topic a := by
  rw [parseCommandTopic_ok hb]
  constructor
  · rintro ⟨segment, hsplit, ha⟩
    obtain ⟨rfl, haddr⟩ := address_ok.mp ha
    refine ⟨segment, ?_, rfl, haddr⟩
    have hjoin := intercalate_split (stripChars ['/'] topic) '/'
    rw [hsplit] at hjoin
    rw [← hjoin]
    exact join_command b segment
  · rintro ⟨segment, htopic, rfl, haddr⟩
    refine ⟨segment, ?_, address_ok.mpr ⟨rfl, haddr⟩⟩
    rw [htopic, ← join_command, split_deviceTopic (slash_not_mem_of_normalize haddr) (by decide),
      split_eq_singleton hs]
    rfl

theorem cleanSegment_command : cleanSegment "command" = .ok "command" :=
  cleanSegment_fixed _ (by simp)

/-- The command topic of a device is a command topic for its address. -/
theorem isCommandTopic_command {device : String} (hb : cleanSegment base = .ok b)
    (h : command device base = .ok topic) : IsCommandTopic b topic (normalize device) := by
  obtain ⟨b', hb', haddr, rfl⟩ := deviceTopic_ok cleanSegment_command h
  rw [hb, Except.ok.injEq] at hb'
  subst hb'
  obtain ⟨hhead, _⟩ := ends_of_cleanSegment hb
  refine ⟨normalize device, ?_, normalize_normalize device, haddr⟩
  have hlast : ∀ c ∈ "command".toList.getLast?, c ≠ '/' := by
    rintro c hc rfl
    exact absurd (List.mem_of_getLast? hc) (by decide)
  rw [stripChars_slash (toList_join b (normalize device) "command") (cleanSegment_ok hb).2.1
    (by decide) hhead hlast]
  exact join_command b (normalize device)

end Commands

/-- Command topics are parsed exactly, and every command topic that is announced
is routed back to its device, if and only if the base topic is one segment. -/
theorem command_topics_round_trip {base b : String} (hb : cleanSegment base = .ok b) :
    ((∀ topic a, parseCommandTopic topic base = .ok a ↔ IsCommandTopic b topic a) ∧
      ∀ (d : DeviceConfig) (topic : String), command d.address base = .ok topic →
        parseCommandTopic topic base = .ok (normalize d.address)) ↔ '/' ∉ b.toList := by
  constructor
  · rintro ⟨hparse, _⟩ hs
    have haddr : IsAddress (normalize "A1") := by decide
    obtain ⟨topic, ht⟩ : ∃ topic, command "A1" base = .ok topic :=
      ⟨_, deviceTopic_eq hb haddr cleanSegment_command⟩
    exact parseCommandTopic_slash hb hs ((hparse _ _).mpr (isCommandTopic_command hb ht))
  · intro hs
    refine ⟨fun topic a => parseCommandTopic_iff hb hs, fun d topic ht => ?_⟩
    exact (parseCommandTopic_iff hb hs).mpr (isCommandTopic_command hb ht)

theorem command_topics_x10 : '/' ∉ "x10".toList ∧
    parseCommandTopic "/x10/ a1 /command" "/x10/" = .ok "A1" := by
  have hb : cleanSegment "/x10/" = .ok "x10" := by decide
  have hs : '/' ∉ "x10".toList := by decide
  refine ⟨hs, (((command_topics_round_trip hb).mpr hs).1 _ _).mpr ⟨" a1 ", ?_, ?_, ?_⟩⟩
  all_goals decide

/-- With the base topic `home/x10`, the command topic of `A1` is not parsed. -/
theorem command_topic_lost :
    cleanSegment "home/x10" = .ok "home/x10" ∧
      command "A1" "home/x10" = .ok "home/x10/A1/command" ∧
      IsCommandTopic "home/x10" "home/x10/A1/command" "A1" ∧
      parseCommandTopic "home/x10/A1/command" "home/x10" ≠ .ok "A1" := by
  refine ⟨by decide, by decide, ⟨"A1", ?_, ?_, ?_⟩, by decide⟩
  all_goals decide

end Topics

end MochadBridge
