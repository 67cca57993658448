import MochadBridge.Lib.JsonDump
import MochadBridge.Lib.Utf8

/-!
# Text files with JSON

The bytes of a file that is read and written as text, and the JSON in it. A
reader that catches `JSONDecodeError` only is left with what a content of another
encoding and the limits of the interpreter make it raise: `Legible` names the
contents that make it raise nothing else.

Results: a JSON text that `dumps` wrote is read back (`legible_dumps`).
-/

namespace TextFile

open Py

/-- The line ends of a file read as text. -/
def universalNewlines : List Char → List Char
  | [] => []
  | '\r' :: '\n' :: rest => '\n' :: universalNewlines rest
  | '\r' :: rest => '\n' :: universalNewlines rest
  | c :: rest => c :: universalNewlines rest

/-- `read_text(encoding="utf-8")` of a content, `none` where it raises
`UnicodeDecodeError`. -/
def readText (content : List UInt8) : Option String :=
  (Utf8.decodeStrict content).map fun text => String.ofList (universalNewlines text)

/-- The bytes that `write_text(text, encoding="utf-8")` writes. -/
def writeText (text : String) : List UInt8 := text.toList.flatMap String.utf8EncodeChar

/-- The content is UTF-8, and its JSON stays within the limits up to its end or its
first mistake. -/
def Legible (limits : Json.Limits) (content : List UInt8) : Prop :=
  ∃ raw, readText content = some raw ∧
    Json.loadsWithin limits raw ≠ .error .longInteger ∧
    Json.loadsWithin limits raw ≠ .error .tooDeep

/-! ## ASCII -/

theorem byte_of_plain {c : Char} (h : c.toNat < 128) :
    String.utf8EncodeChar c = [UInt8.ofNat c.toNat] ∧ UInt8.ofNat c.toNat < 0x80 ∧
      (UInt8.ofNat c.toNat).toNat = c.toNat := by
  have hbyte : (UInt8.ofNat c.toNat).toNat = c.toNat := by
    rw [UInt8.toNat_ofNat']
    show c.toNat % 256 = _
    omega
  refine ⟨if_pos (show c.val.toNat ≤ 0x7F from Nat.le_of_lt_succ h), ?_, hbyte⟩
  rw [UInt8.lt_iff_toNat_lt, hbyte]
  exact h

theorem universalNewlines_cons {c : Char} (h : c ≠ '\r') (rest : List Char) :
    universalNewlines (c :: rest) = c :: universalNewlines rest := by
  rw [universalNewlines] <;> simp [h]

/-- A text of plain characters is read as it was written. -/
theorem readText_writeText {text : String} (h : ∀ c ∈ text.toList, Json.Plain c) :
    readText (writeText text) = some text := by
  have hchars : ∀ l : List Char, (∀ c ∈ l, Json.Plain c) →
      Utf8.decode (l.flatMap String.utf8EncodeChar) = l ∧
        (Utf8.units (l.flatMap String.utf8EncodeChar)).all Utf8.isWhole = true ∧
        universalNewlines l = l := by
    intro l hl
    induction l with
    | nil => exact ⟨rfl, rfl, rfl⟩
    | cons c l ih =>
      obtain ⟨hdecode, hwhole, hlines⟩ := ih fun d hd => hl d (List.mem_cons_of_mem _ hd)
      obtain ⟨hascii, hreturn⟩ := hl c List.mem_cons_self
      obtain ⟨hbyte, hlt, hnat⟩ := byte_of_plain hascii
      rw [List.flatMap_cons, hbyte, List.singleton_append]
      refine ⟨?_, ?_, ?_⟩
      · rw [Utf8.decode_ascii hlt, hdecode, hnat, Char.ofNat_toNat]
      · rw [Utf8.units_ascii hlt, List.all_cons, hwhole]
        simp [Utf8.isWhole, hlt]
      · rw [universalNewlines_cons hreturn, hlines]
  obtain ⟨hdecode, hwhole, hlines⟩ := hchars text.toList h
  rw [readText, writeText, Utf8.decodeStrict, if_pos hwhole, hdecode, Option.map_some, hlines,
    String.ofList_toList]

/-- What `dumps` writes is read back. -/
theorem legible_dumps {limits : Json.Limits} {v : Json} (h : Json.ReadsBack limits 0 v) :
    readText (writeText (Json.dumps v ++ "\n")) = some (Json.dumps v ++ "\n") ∧
      Json.loadsWithin limits (Json.dumps v ++ "\n") = .ok v := by
  refine ⟨readText_writeText fun c hc => ?_, Json.loadsWithin_dumps h⟩
  rw [Json.dumps, String.toList_append, String.toList_ofList, List.mem_append] at hc
  rcases hc with hc | hc
  · exact h.plain c hc
  · obtain rfl := List.mem_singleton.mp hc
    decide

end TextFile
