import Mathlib.Algebra.GroupWithZero.Nat
import MochadBridge.Lib.Text
import MochadBridge.Lib.Utf8

/-!
# Line framing of the mochad connection

`MochadClient._read_loop` decodes each received chunk on its own, appends it to
a text buffer and hands out a line for each newline in the buffer.

Results:
1. `readLoop_eq_lines`: the lines handed out are those of the concatenated
   decodings of the chunks.
2. `framing_iff`: they are the lines of the decoded stream exactly if no chunk
   before the last newline ends inside a decoder unit.
-/

namespace MochadBridge

open Py Utf8

/-! ## The read loop -/

/-- What `sock.recv` returns: bytes, none of them when the peer has closed the
connection, or a timeout. -/
inductive Recv where
  | timeout
  | data (bytes : List UInt8)

/-- `line.strip("\r\n")`. -/
def stripLineEnds (line : List Char) : List Char := trim (['\r', '\n'].contains ·) line

/-- `buffer.split("\n", 1)`, if there is a newline in the buffer. -/
def cutLine : List Char → Option (List Char × List Char)
  | [] => none
  | c :: rest =>
    if c = '\n' then some ([], rest)
    else (cutLine rest).map fun (line, rest) => (c :: line, rest)

theorem cutLine_eq_some {buffer line rest : List Char} (h : cutLine buffer = some (line, rest)) :
    buffer = line ++ '\n' :: rest ∧ '\n' ∉ line := by
  induction buffer generalizing line with
  | nil => cases h
  | cons c buffer ih =>
    simp only [cutLine] at h
    split at h
    · next hc =>
      cases h
      exact ⟨by rw [hc]; rfl, List.not_mem_nil⟩
    · next hc =>
      obtain ⟨⟨line', rest'⟩, hcut, he⟩ := Option.map_eq_some_iff.mp h
      obtain ⟨rfl, rfl⟩ := Prod.mk.inj he
      obtain ⟨rfl, hn⟩ := ih hcut
      refine ⟨rfl, fun hm => ?_⟩
      rcases List.mem_cons.mp hm with he | hm
      · exact hc he.symm
      · exact hn hm

theorem cutLine_eq_none {buffer : List Char} (h : cutLine buffer = none) : '\n' ∉ buffer := by
  induction buffer with
  | nil => exact List.not_mem_nil
  | cons c buffer ih =>
    simp only [cutLine] at h
    split at h
    · cases h
    · next hc =>
      intro hm
      rcases List.mem_cons.mp hm with he | hm
      · exact hc he.symm
      · exact ih (Option.map_eq_none_iff.mp h) hm

/-- The loop `while "\n" in buffer`: the lines handed out and the buffer left. -/
def drain (buffer : List Char) : List (List Char) × List Char :=
  match h : cutLine buffer with
  | none => ([], buffer)
  | some (line, rest) =>
    have : rest.length < buffer.length := by rw [(cutLine_eq_some h).1]; simp; omega
    let drained := drain rest
    (stripLineEnds line :: drained.1, drained.2)
termination_by buffer.length

/-- `_read_loop` with a text buffer, on what `recv` returns. -/
def readLoop (buffer : List Char) : List Recv → List (List Char)
  | [] => []
  | .timeout :: rest => readLoop buffer rest
  | .data [] :: _ => []
  | .data bytes :: rest =>
    let drained := drain (buffer ++ decode bytes)
    drained.1 ++ readLoop drained.2 rest

/-! ## The lines of a text -/

/-- A text cut at each newline, without the unterminated tail. -/
def lines (text : List Char) : List (List Char) :=
  (text.splitOn '\n').dropLast.map stripLineEnds

theorem lines_of_newline_not_mem {text : List Char} (h : '\n' ∉ text) : lines text = [] := by
  rw [lines, List.splitOn_eq_singleton h]
  rfl

theorem lines_cons {line : List Char} (h : '\n' ∉ line) (rest : List Char) :
    lines (line ++ '\n' :: rest) = stripLineEnds line :: lines rest := by
  have hne : rest.splitOn '\n' ≠ [] := by simp [List.splitOn]
  rw [lines, List.splitOn_append_cons_self, List.splitOn_eq_singleton h, List.singleton_append,
    List.dropLast_cons_of_ne_nil hne]
  rfl

/-- The loop hands out the lines of the buffer, also when more text follows. -/
theorem drain_lines (buffer more : List Char) :
    lines (buffer ++ more) = (drain buffer).1 ++ lines ((drain buffer).2 ++ more) := by
  induction buffer using drain.induct with
  | case1 buffer h =>
    rw [drain]
    split
    · rfl
    · next h' => rw [h] at h'; cases h'
  | case2 buffer line rest h _ ih =>
    obtain ⟨rfl, hn⟩ := cutLine_eq_some h
    rw [drain]
    split
    · next h' => rw [h] at h'; cases h'
    · next line' rest' h' =>
      rw [h] at h'
      cases h'
      rw [List.append_assoc, List.cons_append, lines_cons hn, ih]
      rfl

/-- No newline is left in the buffer. -/
theorem newline_not_mem_drain (buffer : List Char) : '\n' ∉ (drain buffer).2 := by
  induction buffer using drain.induct with
  | case1 buffer h =>
    rw [drain]
    split
    · exact cutLine_eq_none h
    · next h' => rw [h] at h'; cases h'
  | case2 buffer line rest h _ ih =>
    rw [drain]
    split
    · next h' => rw [h] at h'; cases h'
    · next line' rest' h' =>
      rw [h] at h'
      cases h'
      exact ih

/-! ## What the loop hands out -/

/-- The chunks among what `recv` returned. -/
def chunks (recvs : List Recv) : List (List UInt8) :=
  recvs.filterMap fun
    | .timeout => none
    | .data bytes => some bytes

/-- The peer has not closed the connection. -/
def Open (recvs : List Recv) : Prop := ∀ c ∈ chunks recvs, c ≠ []

theorem readLoop_eq_lines_from (buffer : List Char) (hb : '\n' ∉ buffer) (recvs : List Recv)
    (hopen : Open recvs) :
    readLoop buffer recvs = lines (buffer ++ (chunks recvs).flatMap decode) := by
  induction recvs generalizing buffer with
  | nil =>
    rw [show chunks [] = [] from rfl, List.flatMap_nil, List.append_nil,
      lines_of_newline_not_mem hb]
    rfl
  | cons r recvs ih =>
    cases r with
    | timeout => exact ih buffer hb hopen
    | data bytes =>
      have hne : bytes ≠ [] := hopen bytes List.mem_cons_self
      have hrest := ih _ (newline_not_mem_drain (buffer ++ decode bytes))
        fun c hc => hopen c (List.mem_cons_of_mem _ hc)
      obtain ⟨b, bytes, rfl⟩ := List.exists_cons_of_ne_nil hne
      rw [readLoop, hrest, ← drain_lines, List.append_assoc]
      · rfl
      · exact fun h => nomatch h

/-- The lines handed out are those of the concatenated decodings. -/
theorem readLoop_eq_lines (recvs : List Recv) (hopen : Open recvs) :
    readLoop [] recvs = lines ((chunks recvs).flatMap decode) :=
  readLoop_eq_lines_from [] List.not_mem_nil recvs hopen

/-! ## Counting the characters of lines -/

/-- The lines of a text that a newline follows. -/
def allLines (text : List Char) : List (List Char) := (text.splitOn '\n').map stripLineEnds

theorem lines_append_newline (text : List Char) {tail : List Char} (h : '\n' ∉ tail) :
    lines (text ++ '\n' :: tail) = allLines text := by
  rw [lines, List.splitOn_append_cons_self, List.splitOn_eq_singleton h, List.dropLast_concat]
  rfl

theorem weight_cons (c : Char) (text : List Char) :
    weight (c :: text) = weight text + if c ≠ '\r' ∧ c ≠ '\n' then 1 else 0 := by
  simp [weight, List.countP_cons]

theorem weight_dropWhile {p : Char → Bool} (hp : ∀ c, p c = true → c = '\r' ∨ c = '\n')
    (l : List Char) : weight (l.dropWhile p) = weight l := by
  induction l with
  | nil => rfl
  | cons c l ih =>
    rw [List.dropWhile_cons]
    split
    · next hc =>
      rw [ih, weight_cons, if_neg]
      · rfl
      · rintro ⟨hr, hn⟩
        exact (hp c hc).elim hr hn
    · rfl

theorem weight_stripLineEnds (line : List Char) : weight (stripLineEnds line) = weight line := by
  have hp : ∀ c, ['\r', '\n'].contains c = true → c = '\r' ∨ c = '\n' := by simp
  have hrev : ∀ l : List Char, weight l.reverse = weight l := fun l => List.countP_reverse
  rw [stripLineEnds, trim, List.rdropWhile, hrev, weight_dropWhile hp, hrev, weight_dropWhile hp]

/-- Cutting and stripping removes line ends only. -/
theorem weight_allLines (text : List Char) : ((allLines text).map weight).sum = weight text := by
  have hstrip : (allLines text).map weight = (text.splitOn '\n').map weight := by
    rw [allLines, List.map_map]
    exact List.map_congr_left fun l _ => weight_stripLineEnds l
  rw [hstrip]
  clear hstrip
  induction text with
  | nil => rfl
  | cons c text ih =>
    rw [List.splitOn_cons_eq_if_modifyHead, weight_cons]
    split
    · next hc =>
      have hnil : weight [] = 0 := rfl
      simp [ih, beq_iff_eq.mp hc, hnil]
    · next hc =>
      obtain ⟨line, rest, hl⟩ := List.exists_cons_of_ne_nil (List.splitOn_ne_nil '\n' text)
      simp only [hl, List.map_cons, List.sum_cons] at ih
      simp only [hl, List.modifyHead_cons, List.map_cons, List.sum_cons, weight_cons, ← ih]
      omega

/-! ## The framing theorem -/

/-- The byte of a newline. -/
def newline : UInt8 := 0x0A

theorem decode_newline (rest : List UInt8) : decode (newline :: rest) = '\n' :: decode rest :=
  decode_ascii (by decide) rest

/-- The last newline of a list of chunks. -/
theorem exists_last_newline {cs : List (List UInt8)} (h : newline ∈ cs.flatten) :
    ∃ before c c' after, cs = before ++ (c ++ newline :: c') :: after ∧
      newline ∉ c' ++ after.flatten := by
  induction cs with
  | nil => exact absurd h List.not_mem_nil
  | cons c cs ih =>
    by_cases hrest : newline ∈ cs.flatten
    · obtain ⟨before, d, d', after, rfl, hlast⟩ := ih hrest
      exact ⟨c :: before, d, d', after, rfl, hlast⟩
    · have hc : newline ∈ c.reverse := by
        rw [List.flatten_cons, List.mem_append] at h
        exact List.mem_reverse.mpr (h.resolve_right hrest)
      obtain ⟨as, bs, hcr, has⟩ := List.eq_append_cons_of_mem hc
      have hcut : c = bs.reverse ++ newline :: as.reverse := by
        have hrev := congrArg List.reverse hcr
        rw [List.reverse_reverse] at hrev
        rw [hrev]
        simp
      refine ⟨[], bs.reverse, as.reverse, cs, by rw [← hcut]; rfl, ?_⟩
      rw [List.mem_append, List.mem_reverse, not_or]
      exact ⟨has, hrest⟩

/-- No chunk before the last newline ends inside a unit. -/
def Aligned (cs : List (List UInt8)) : Prop :=
  ∀ before after, cs = before ++ after → newline ∈ after.flatten →
    UnitBoundary before.flatten after.flatten

/-- The chunks up to the last newline, and the part of the last one before it,
are cut at boundaries exactly if all chunks are. -/
theorem aligned_iff {before after : List (List UInt8)} {c c' : List UInt8}
    (hlast : newline ∉ c' ++ after.flatten) :
    Aligned (before ++ (c ++ newline :: c') :: after) ↔
      ∀ ds₁ ds₂, before ++ [c] = ds₁ ++ ds₂ → UnitBoundary ds₁.flatten ds₂.flatten := by
  -- a cut before the last newline is judged without what follows it
  have hcut : ∀ ds₁ e : List (List UInt8), UnitBoundary ds₁.flatten
      (e ++ (c ++ newline :: c') :: after).flatten ↔
        UnitBoundary ds₁.flatten (e ++ [c]).flatten := by
    intro ds₁ e
    have hb : UnitBoundary (ds₁.flatten ++ (e ++ [c]).flatten) (newline :: (c' ++ after.flatten)) :=
      unitBoundary_ascii _ (by decide) _
    have hflat : (e ++ (c ++ newline :: c') :: after).flatten =
        (e ++ [c]).flatten ++ newline :: (c' ++ after.flatten) := by simp
    rw [hflat, unitBoundary_append_right hb]
  constructor
  · intro h ds₁ ds₂ he
    rcases List.eq_nil_or_concat ds₂ with rfl | ⟨e, d, rfl⟩
    · exact unitBoundary_nil_right _
    · rw [List.concat_eq_append, ← List.append_assoc] at he
      obtain ⟨rfl, hd⟩ := List.append_inj' he rfl
      obtain rfl := List.singleton_inj.mp hd
      rw [List.concat_eq_append]
      refine (hcut ds₁ e).mp (h ds₁ _ (by simp) ?_)
      simp
  · intro h ds₁ ds₂ he hn
    rcases List.append_eq_append_iff.mp he with ⟨e, rfl, he'⟩ | ⟨e, rfl, rfl⟩
    · -- the cut cannot lie behind the chunk with the last newline
      cases e with
      | nil =>
        rw [List.nil_append] at he'
        subst he'
        simpa using (hcut before []).mpr (h before [c] rfl)
      | cons d e =>
        obtain ⟨rfl, rfl⟩ := List.cons.inj he'
        refine absurd (List.mem_append_right _ ?_) hlast
        show newline ∈ (e ++ ds₂).flatten
        rw [List.flatten_append]
        exact List.mem_append_right _ hn
    · exact (hcut ds₁ e).mpr (h ds₁ (e ++ [c]) (by simp))

/-- The lines handed out are those of the decoded stream, which is what one
chunk with the whole stream gives, exactly if no chunk before the last newline
ends inside a decoder unit. -/
theorem framing_iff (recvs : List Recv) (hopen : Open recvs) :
    readLoop [] recvs = readLoop [] [.data (chunks recvs).flatten] ∧
        readLoop [] recvs = lines (decode (chunks recvs).flatten) ↔
      Aligned (chunks recvs) := by
  have hone : readLoop [] [.data (chunks recvs).flatten] =
      lines (decode (chunks recvs).flatten) := by
    cases hf : (chunks recvs).flatten with
    | nil => rfl
    | cons b bytes =>
      rw [readLoop_eq_lines _ fun c hc => by
        rw [List.mem_singleton.mp hc]; exact List.cons_ne_nil b bytes]
      simp [chunks]
  rw [hone, and_self, readLoop_eq_lines recvs hopen]
  generalize chunks recvs = cs
  by_cases hn : newline ∈ cs.flatten
  · obtain ⟨before, c, c', after, rfl, hlast⟩ := exists_last_newline hn
    have htail : '\n' ∉ decode (c' ++ after.flatten) := newline_not_mem_decode hlast
    have htails : '\n' ∉ decode c' ++ after.flatMap decode := by
      intro hm
      rcases List.mem_append.mp hm with hm | hm
      · exact newline_not_mem_decode (fun h => hlast (List.mem_append_left _ h)) hm
      · obtain ⟨d, hd, hm⟩ := List.mem_flatMap.mp hm
        exact newline_not_mem_decode
          (fun h => hlast (List.mem_append_right _ (List.mem_flatten_of_mem hd h))) hm
    have hnl : ∀ xs ys, decode (xs ++ newline :: ys) = decode xs ++ '\n' :: decode ys :=
      fun xs ys => by
        rw [decode_append (unitBoundary_ascii xs (by decide) ys), decode_newline]
    have hwhole : decode (before ++ (c ++ newline :: c') :: after).flatten =
        decode (before ++ [c]).flatten ++ '\n' :: decode (c' ++ after.flatten) := by
      rw [← hnl]
      simp
    have hpieces : (before ++ (c ++ newline :: c') :: after).flatMap decode =
        (before ++ [c]).flatMap decode ++ '\n' :: (decode c' ++ after.flatMap decode) := by
      simp [hnl]
    rw [aligned_iff hlast, hwhole, hpieces, lines_append_newline _ htail,
      lines_append_newline _ htails]
    rcases pieces_cases (before ++ [c]) with ⟨hall, heq⟩ | ⟨hall, hlt⟩
    · exact iff_of_true (by rw [heq]) hall
    · refine iff_of_false (fun he => ?_) hall
      have hw := congrArg (fun ls => (ls.map weight).sum) he
      simp only [weight_allLines] at hw
      omega
  · -- without a newline nothing is handed out
    have hpieces : '\n' ∉ cs.flatMap decode := by
      intro hm
      obtain ⟨d, hd, hm⟩ := List.mem_flatMap.mp hm
      exact newline_not_mem_decode (fun h => hn (List.mem_flatten_of_mem hd h)) hm
    refine iff_of_true ?_ fun before after he hmem => ?_
    · rw [lines_of_newline_not_mem hpieces, lines_of_newline_not_mem (newline_not_mem_decode hn)]
    · refine absurd ?_ hn
      rw [he, List.flatten_append]
      exact List.mem_append_right _ hmem

theorem framing_between_cr_and_lf :
    readLoop [] [.data [0x41, 0x0D], .data [0x0A, 0x42]] =
      readLoop [] [.data [0x41, 0x0D, 0x0A, 0x42]] := by
  refine ((framing_iff [.data [0x41, 0x0D], .data [0x0A, 0x42]] ?_).mpr ?_).1
  · intro c hc
    rcases List.mem_pair.mp hc with rfl | rfl <;> exact List.cons_ne_nil _ _
  · intro before after he _
    match before, after, he with
    | [], _, _ => exact unitBoundary_nil_left _
    | [_], [_], rfl => exact unitBoundary_ascii _ (by decide) _
    | [_, _], [], rfl => exact unitBoundary_nil_right _

/-- A line whose two-byte character is cut between its bytes. -/
def cutRecvs : List Recv := [.data [0x41, 0xC3], .timeout, .data [0xA9, 0x0D, 0x0A]]

/-- The cut shows in the line. -/
theorem framing_cut :
    Open cutRecvs ∧ readLoop [] cutRecvs = ["A\uFFFD\uFFFD".toList] ∧
      readLoop [] [.data (chunks cutRecvs).flatten] = ["A\u00E9".toList] ∧
      lines (decode (chunks cutRecvs).flatten) = ["A\u00E9".toList] := by
  refine ⟨fun c hc => ?_, by decide +kernel⟩
  rcases List.mem_pair.mp hc with rfl | rfl <;> exact List.cons_ne_nil _ _

end MochadBridge
