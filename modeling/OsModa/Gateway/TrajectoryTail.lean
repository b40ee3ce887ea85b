import Mathlib.Data.List.DropRight
import OsModa.Base.Utf8
import OsModa.Gateway.Drivers

/-!
The tail of an OpenClaw trajectory file, which is polled while the process appends to it.

What a poll finds is decoded by itself, and the text goes behind what is left of the last line. A
poll that ends inside a character reads U+FFFD on either side. So the lines are those of the file,
whatever they mean, exactly when every poll ends between two characters (`tailed_eq_iff`).
-/

namespace OsModa.Gateway

open OsModa.Js OsModa.Encoding

/-- The UTF-16 form of characters. -/
def unitsOf (s : List Char) : JsString := s.flatMap utf16Char

namespace OpenClaw

/-! ### Tailing -/

structure TrajectoryTail where
  /-- The bytes that have been read. -/
  trajOffset : Nat
  /-- The last line as far as it is read. -/
  trajBuf : JsString
  trajState : TrajectoryState

section Tail

/-! `parse` is `JSON.parse` with what `mapTrajectoryEvent` finds in the value; `none` where it
throws. -/

variable (parse : JsString → Option TrajectoryEvent)

/-- The events of a line. -/
def mapLine (state : TrajectoryState) (line : JsString) : List AgentEvent × TrajectoryState :=
  if trim line = [] then ([], state)
  else match parse line with
    | none => ([], state)
    | some e => mapTrajectoryEvent state e

def mapLines (state : TrajectoryState) : List JsString → List AgentEvent × TrajectoryState
  | [] => ([], state)
  | line :: lines =>
    let out := mapLine parse state line
    let rest := mapLines out.2 lines
    (out.1 ++ rest.1, rest.2)

/-- A poll that finds the file as given. -/
def readNewTrajectoryEvents (file : List UInt8) (t : TrajectoryTail) :
    List AgentEvent × TrajectoryTail :=
  if t.trajOffset < file.length then
    let b := file.drop t.trajOffset
    let read := lines (t.trajBuf ++ unitsOf (decodeLossy b))
    -- What follows the last newline is kept for the next poll.
    let out := mapLines parse t.trajState read.dropLast
    (out.1, ⟨file.length, read.getLastD [], out.2⟩)
  else ([], t)

/-- The polls of a file that a chunk has been appended to before each. -/
def poll (file : List UInt8) (t : TrajectoryTail) :
    List (List UInt8) → List AgentEvent × TrajectoryTail
  | [] => ([], t)
  | chunk :: chunks =>
    let out := readNewTrajectoryEvents parse (file ++ chunk) t
    let rest := poll (file ++ chunk) out.2 chunks
    (out.1 ++ rest.1, rest.2)

/-- The events that are streamed of a file that held `old` when the turn began. -/
def tailed (old : List UInt8) (chunks : List (List UInt8)) : List AgentEvent :=
  (poll parse old ⟨old.length, [], newTrajectoryState⟩ chunks).1

/-- The events of the lines of a whole text. -/
def wholeFile (text : List Char) : List AgentEvent :=
  (mapLines parse newTrajectoryState (lines (unitsOf text))).1

end Tail

/-- Every line ends with a newline. -/
def CompleteLines (text : List Char) : Prop := text = [] ∨ ∃ s, text = s ++ ['\n']

/-! ### What a tail reads -/

section Reads

variable {parse : JsString → Option TrajectoryEvent}

theorem mapLines_append (state : TrajectoryState) (ls ls' : List JsString) :
    mapLines parse state (ls ++ ls') =
      ((mapLines parse state ls).1 ++ (mapLines parse (mapLines parse state ls).2 ls').1,
        (mapLines parse (mapLines parse state ls).2 ls').2) := by
  induction ls generalizing state with
  | nil => rfl
  | cons line ls ih =>
    rw [List.cons_append, mapLines, ih]
    simp only [mapLines, List.append_assoc]

theorem readNewTrajectoryEvents_unchanged {file : List UInt8} {t : TrajectoryTail}
    (hoffset : t.trajOffset = file.length) : readNewTrajectoryEvents parse file t = ([], t) := by
  rw [readNewTrajectoryEvents, if_neg]
  rw [hoffset]
  exact Nat.lt_irrefl _

theorem readNewTrajectoryEvents_grown {file chunk : List UInt8} {t : TrajectoryTail}
    (hoffset : t.trajOffset = file.length) (hchunk : chunk ≠ []) :
    readNewTrajectoryEvents parse (file ++ chunk) t =
      let read := lines (t.trajBuf ++ unitsOf (decodeLossy chunk))
      let out := mapLines parse t.trajState read.dropLast
      (out.1, ⟨(file ++ chunk).length, read.getLastD [], out.2⟩) := by
  have hgrown : t.trajOffset < (file ++ chunk).length := by
    rw [hoffset, List.length_append]
    exact Nat.lt_add_of_pos_right (List.length_pos_iff.mpr hchunk)
  have hnew : (file ++ chunk).drop t.trajOffset = chunk := by
    rw [hoffset]
    exact List.drop_left
  rw [readNewTrajectoryEvents, if_pos hgrown, hnew]

/-- The lines of a tail are those of all that it has decoded. -/
theorem poll_eq {file : List UInt8} {t : TrajectoryTail} (hoffset : t.trajOffset = file.length)
    (hbuf : 10 ∉ t.trajBuf) (chunks : List (List UInt8)) :
    (poll parse file t chunks).1 =
      (mapLines parse t.trajState
        (lines (t.trajBuf ++ unitsOf (chunks.flatMap decodeLossy))).dropLast).1 := by
  induction chunks generalizing file t with
  | nil =>
    have hlines : lines (t.trajBuf ++ unitsOf []) = [t.trajBuf] := by
      rw [unitsOf, List.flatMap_nil, List.append_nil]
      exact lines_of_notMem hbuf
    rw [List.flatMap_nil, hlines]
    rfl
  | cons chunk chunks ih =>
    have hunits : unitsOf ((chunk :: chunks).flatMap decodeLossy) =
        unitsOf (decodeLossy chunk) ++ unitsOf (chunks.flatMap decodeLossy) := by
      rw [List.flatMap_cons]
      exact List.flatMap_append
    rw [hunits]
    by_cases hchunk : chunk = []
    · subst hchunk
      rw [poll, List.append_nil, readNewTrajectoryEvents_unchanged hoffset]
      exact ih hoffset hbuf
    · let read := lines (t.trajBuf ++ unitsOf (decodeLossy chunk))
      have hrest : 10 ∉ read.getLastD [] := by
        rw [List.getLastD_eq_getLast?, List.getLast?_eq_some_getLast (lines_ne_nil _)]
        exact newline_notMem_line (List.getLast_mem (lines_ne_nil _))
      let more := unitsOf (chunks.flatMap decodeLossy)
      have hlines : (lines (t.trajBuf ++ (unitsOf (decodeLossy chunk) ++ more))).dropLast =
          read.dropLast ++ (lines (read.getLastD [] ++ more)).dropLast := by
        rw [← List.append_assoc, lines_append (t.trajBuf ++ unitsOf (decodeLossy chunk)) more,
          List.dropLast_append_of_ne_nil (lines_ne_nil _)]
      rw [poll, readNewTrajectoryEvents_grown hoffset hchunk, hlines, mapLines_append]
      exact congrArg _ (ih rfl hrest)

/-- Lines that are blank or do not parse are passed over. -/
theorem mapLines_eq (state : TrajectoryState) (ls : List JsString) :
    mapLines parse state ls =
      mapTrajectory state ((ls.filter fun line => trim line ≠ []).filterMap parse) := by
  induction ls generalizing state with
  | nil => rfl
  | cons line ls ih =>
    rw [mapLines, mapLine]
    by_cases hblank : trim line = []
    · rw [if_pos hblank, List.filter_cons_of_neg (by simpa using hblank), ← ih]
      rfl
    · rw [if_neg hblank, List.filter_cons_of_pos (by simpa using hblank), List.filterMap_cons]
      cases parse line with
      | none => exact (ih state).trans rfl
      | some e =>
        dsimp only
        rw [ih]
        rfl

end Reads

/-! ### Which lines it reads -/

theorem replacement_notMem_utf16Char {c : Char} (hc : c ≠ replacement) :
    0xFFFD ∉ utf16Char c := by
  intro hmem
  have hvalid : c.toNat < 0xD800 ∨ 0xDFFF < c.toNat ∧ c.toNat < 0x110000 := c.valid
  have hunit : ∀ n < 0x10000, (0xFFFD : UInt16) = UInt16.ofNat n → n = 0xFFFD := by
    intro n hn heq
    rw [← UInt16.toNat_ofNat_of_lt' hn, ← heq]
    rfl
  rw [utf16Char] at hmem
  split at hmem
  · rename_i hlt
    have hsame := hunit c.toNat hlt (List.mem_singleton.mp hmem)
    apply hc
    rw [← Char.ofNat_toNat c, hsame]
    rfl
  · obtain heq | hmem := List.mem_cons.mp hmem
    · have hhigh := hunit _ (by omega) heq
      omega
    · have hlow := hunit _ (by omega) (List.mem_singleton.mp hmem)
      omega

/-- A character is U+FFFD exactly when its UTF-16 form has that unit. -/
theorem count_utf16Char (c : Char) :
    (utf16Char c).count 0xFFFD = [c].count replacement := by
  by_cases hc : c = replacement
  · rw [hc]
    rfl
  · rw [List.count_eq_zero.mpr (replacement_notMem_utf16Char hc), List.count_singleton, if_neg]
    intro heq
    exact hc (beq_iff_eq.mp heq)

theorem count_unitsOf (s : List Char) : (unitsOf s).count 0xFFFD = s.count replacement := by
  induction s with
  | nil => rfl
  | cons c s ih =>
    have hcons : unitsOf (c :: s) = utf16Char c ++ unitsOf s := rfl
    rw [hcons, List.count_append, ih, count_utf16Char, ← List.count_append]
    rfl

theorem unitsOf_append (s t : List Char) : unitsOf (s ++ t) = unitsOf s ++ unitsOf t :=
  List.flatMap_append

/-- The complete lines of a text that are not blank. -/
def parsedLines (text : List Char) : List JsString :=
  (lines (unitsOf text)).dropLast.filter fun line => trim line ≠ []

theorem tailed_eq (parse : JsString → Option TrajectoryEvent) (old : List UInt8)
    (chunks : List (List UInt8)) : tailed parse old chunks =
      (mapTrajectory newTrajectoryState
        ((parsedLines (chunks.flatMap decodeLossy)).filterMap parse)).1 := by
  rw [tailed, poll_eq rfl List.not_mem_nil, mapLines_eq]
  rfl

/-- Of a text that ends with a newline, the last line is empty and is passed over. -/
theorem wholeFile_eq (parse : JsString → Option TrajectoryEvent) {text : List Char}
    (h : CompleteLines text) : wholeFile parse text =
      (mapTrajectory newTrajectoryState ((parsedLines text).filterMap parse)).1 := by
  rw [wholeFile, mapLines_eq]
  obtain rfl | ⟨s, rfl⟩ := h
  · rfl
  · have hnewline : unitsOf ['\n'] = [10] := rfl
    rw [parsedLines, unitsOf_append, hnewline, lines_concat_newline, List.dropLast_concat,
      List.filter_append]
    have hblank : ([[]] : List JsString).filter (fun line => trim line ≠ []) = [] := rfl
    rw [hblank, List.append_nil]

/-- What is decoded of a text that ends with a newline ends with it, whatever the pieces. -/
theorem decodePieces_complete {chunks : List (List UInt8)} {text : List Char}
    (hchunks : chunks.flatten = utf8 text) (h : CompleteLines text) :
    CompleteLines (chunks.flatMap decodeLossy) := by
  obtain rfl | ⟨s, rfl⟩ := h
  · have hempty : ∀ piece ∈ chunks, piece = [] := List.flatten_eq_nil_iff.mp hchunks
    refine .inl (List.flatMap_eq_nil_iff.mpr fun piece hpiece => ?_)
    rw [hempty piece hpiece]
    rfl
  · have hnewline : ¬ IsContinuation 10 := by
      rintro ⟨hlower, -⟩
      exact absurd hlower (Nat.not_le_of_lt (by decide))
    rw [utf8_append] at hchunks
    exact .inr (decodePieces_concat hnewline hchunks)

theorem isSpace_of_trim_eq_nil {line : JsString} (h : trim line = []) :
    ∀ a ∈ line, isSpace a = true := by
  have hrest : ∀ a ∈ line.dropWhile isSpace, isSpace a = true :=
    List.rdropWhile_eq_nil_iff.mp h
  have hnil : line.dropWhile isSpace = [] := by
    cases hdrop : line.dropWhile isSpace with
    | nil => rfl
    | cons a rest =>
      have hhead := List.head?_dropWhile_not isSpace line
      rw [hdrop] at hhead hrest
      exact absurd (hhead.symm.trans (hrest a List.mem_cons_self)) Bool.false_ne_true
  exact List.dropWhile_eq_nil_iff.mp hnil

/-- The lines that are not blank hold every U+FFFD. -/
theorem count_flatten_filter (ls : List JsString) :
    (ls.filter fun line => trim line ≠ []).flatten.count 0xFFFD = ls.flatten.count 0xFFFD := by
  induction ls with
  | nil => rfl
  | cons line ls ih =>
    rw [List.flatten_cons, List.count_append]
    by_cases hblank : trim line = []
    · have hnone : line.count 0xFFFD = 0 := by
        refine List.count_eq_zero.mpr fun hmem => ?_
        exact absurd (isSpace_of_trim_eq_nil hblank _ hmem) (by decide)
      rw [List.filter_cons_of_neg (by simpa using hblank), hnone, ih, Nat.zero_add]
    · rw [List.filter_cons_of_pos (by simpa using hblank), List.flatten_cons, List.count_append, ih]

theorem count_parsedLines {text : List Char} (h : CompleteLines text) :
    (parsedLines text).flatten.count 0xFFFD = text.count replacement := by
  rw [parsedLines, count_flatten_filter, ← count_unitsOf text]
  obtain rfl | ⟨s, rfl⟩ := h
  · rfl
  · have hnewline : unitsOf ['\n'] = [10] := rfl
    rw [unitsOf_append, hnewline, lines_concat_newline, List.dropLast_concat,
      count_flatten_lines (by decide), List.count_append]
    rfl

/-- Of texts with different numbers of U+FFFD, some line occurs more often in one. -/
theorem exists_count_lines_ne {s t : List Char} (hs : CompleteLines s) (ht : CompleteLines t)
    (h : s.count replacement ≠ t.count replacement) :
    ∃ line, (parsedLines s).count line ≠ (parsedLines t).count line := by
  by_contra hall
  push Not at hall
  have hperm := List.perm_iff_count.mpr hall
  have hcount := hperm.flatten.count_eq 0xFFFD
  rw [count_parsedLines hs, count_parsedLines ht] at hcount
  exact h hcount

theorem mapTrajectory_sessionStarted (state : TrajectoryState) (n : Nat) :
    (mapTrajectory state (List.replicate n .sessionStarted)).1.length = n := by
  induction n with
  | zero => rfl
  | succ n ih =>
    rw [List.replicate_succ, mapTrajectory]
    exact congrArg (· + 1) ih

/-- A parser that knows one line only. -/
theorem filterMap_eq_replicate (line : JsString) (e : TrajectoryEvent) (ls : List JsString) :
    ls.filterMap (fun l => if l = line then some e else none) =
      List.replicate (ls.count line) e := by
  induction ls with
  | nil => rfl
  | cons l ls ih =>
    by_cases hl : l = line
    · subst hl
      rw [List.filterMap_cons, if_pos rfl, List.count_cons_self, List.replicate_succ, ih]
    · rw [List.filterMap_cons, if_neg hl, List.count_cons_of_ne hl, ih]

/-! ### Chunks -/

section Chunks

variable {text : List Char} {chunks : List (List UInt8)}

/-- Chunks of whole characters are mapped as the whole file. -/
theorem tailed_eq_wholeFile (htext : CompleteLines text) (hchunks : chunks.flatten = utf8 text)
    (h : ∀ chunk ∈ chunks, IsText chunk) (parse : JsString → Option TrajectoryEvent)
    (old : List UInt8) : tailed parse old chunks = wholeFile parse text := by
  rw [tailed_eq, wholeFile_eq parse htext, (decodePieces_eq_iff hchunks).mpr h]

/-- The events are those of the whole file, whatever its lines mean, exactly when every chunk is
of whole characters. -/
theorem tailed_eq_iff (htext : CompleteLines text) (hchunks : chunks.flatten = utf8 text)
    (old : List UInt8) :
    (∀ parse, tailed parse old chunks = wholeFile parse text) ↔
      ∀ chunk ∈ chunks, IsText chunk := by
  constructor
  · intro h
    by_contra htorn
    have hcount := (count_replacement_lt hchunks htorn).ne'
    obtain ⟨line, hline⟩ :=
      exists_count_lines_ne (decodePieces_complete hchunks htext) htext hcount
    -- A parser that knows this line only shows how often it comes.
    let parse : JsString → Option TrajectoryEvent := fun l =>
      if l = line then some .sessionStarted else none
    have hlength : ∀ ls : List JsString,
        (mapTrajectory newTrajectoryState (ls.filterMap parse)).1.length = ls.count line := by
      intro ls
      rw [filterMap_eq_replicate, mapTrajectory_sessionStarted]
    have heq := congrArg List.length (h parse)
    rw [tailed_eq, wholeFile_eq parse htext, hlength, hlength] at heq
    exact hline heq
  · intro h parse
    exact tailed_eq_wholeFile htext hchunks h parse old

end Chunks

/-! A text with an accent. -/

/-- The text of a `model.completed` line that has nothing else. -/
def parseCompleted (line : JsString) : Option TrajectoryEvent :=
  let before := utf16 "\x7b\"type\":\"model.completed\",\"data\":\x7b\"assistantTexts\":[\""
  let after := utf16 "\"]\x7d\x7d"
  let text := (line.drop before.length).take (line.length - before.length - after.length)
  if line = before ++ text ++ after ∧ 34 ∉ text ∧ 92 ∉ text then some (.modelCompleted [] text)
  else none

def completedLine (text : String) : List Char :=
  "\x7b\"type\":\"model.completed\",\"data\":\x7b\"assistantTexts\":[\"".toList ++ text.toList ++
    "\"]\x7d\x7d\n".toList

theorem completedLine_complete (text : String) : CompleteLines (completedLine text) :=
  .inr ⟨_ ++ "\"]\x7d\x7d".toList, by rw [List.append_assoc]; rfl⟩

/-- The texts that are shown. -/
def interimTexts (events : List AgentEvent) : List JsString :=
  events.filterMap fun e => match e with
    | .interimText text => some text
    | _ => none

/-- Two polls, the first after `n` bytes of the text. -/
def cutAt (n : Nat) (text : List Char) : List (List UInt8) :=
  [(utf8 text).take n, (utf8 text).drop n]

theorem flatten_cutAt (n : Nat) (text : List Char) : (cutAt n text).flatten = utf8 text := by
  rw [cutAt, List.flatten_cons, List.flatten_singleton, List.take_append_drop]

theorem behindAccent_texts : ∀ chunk ∈ cutAt 55 (completedLine "é"), IsText chunk := by
  intro chunk hchunk
  obtain rfl | hchunk := List.mem_cons.mp hchunk
  · exact ⟨(completedLine "é").take 54, by decide +kernel⟩
  · rw [List.mem_singleton.mp hchunk]
    exact ⟨(completedLine "é").drop 54, by decide +kernel⟩

/-- A poll in the middle of a line, behind the accent. -/
theorem behindAccent_tailed : tailed parseCompleted [] (cutAt 55 (completedLine "é")) =
    wholeFile parseCompleted (completedLine "é") :=
  (tailed_eq_iff (completedLine_complete "é") (flatten_cutAt 55 _) []).mpr behindAccent_texts
    parseCompleted

/-- A poll between the two bytes of the accent shows U+FFFD twice in its place. -/
theorem insideAccent_not_tailed : ¬ ∀ (parse : JsString → Option TrajectoryEvent)
    (text : List Char) (old : List UInt8) (chunks : List (List UInt8)), CompleteLines text →
      chunks.flatten = utf8 text → tailed parse old chunks = wholeFile parse text := by
  intro h
  have heq := h parseCompleted (completedLine "é") [] (cutAt 54 (completedLine "é"))
    (completedLine_complete "é") (flatten_cutAt 54 _)
  have hshown : interimTexts (tailed parseCompleted [] (cutAt 54 (completedLine "é"))) =
      [utf16 "\uFFFD\uFFFD"] := by decide +kernel
  have hwhole : interimTexts (wholeFile parseCompleted (completedLine "é")) = [utf16 "é"] := by
    decide +kernel
  rw [heq, hwhole] at hshown
  cases hshown

end OpenClaw

end OsModa.Gateway
