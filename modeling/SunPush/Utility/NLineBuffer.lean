import SunPush.Library.Memory
import SunPush.Utility.ParserCell

/-!
# The line buffer

`nLineBuffer` from `nlinebuffer.h`: a ring of 256 lines of 80 bytes each in one
block.  What is put into it is typed on an endless sheet: a newline or a full
line begins a new line, and a carriage return starts the line again.  The ring
keeps the last 256 lines of the sheet, however the text was divided into calls.
-/

namespace SunPush

/-- `N_LINE_LEN` -/
def lineLength : Nat := 80

/-- `N_NUM_LINES` -/
def numLines : Nat := 256

/-- `nLineBuffer::nLine`.  `line` is the place in the buffer's block. -/
structure NLine where
  lineLen : Nat
  actPos : Nat
  line : Nat

namespace NLine

def construct : NLine where
  lineLen := 0
  actPos := 0
  line := 0

def set (cBuf : Memory) (p len : Nat) : NLine × Memory :=
  (⟨len, 0, p⟩, cBuf.write p [0])

def reset (this : NLine) (cBuf : Memory) : NLine × Memory :=
  ({ this with actPos := 0 }, cBuf.write this.line [0])

/-- `nLine::Append` of what stands in front of a terminator. -/
def append (this : NLine) (cBuf : Memory) (s : List UInt8) :
    Option (List UInt8) × NLine × Memory :=
  if this.lineLen - 1 ≤ this.actPos then
    (some s, this, cBuf.write (this.line + this.lineLen - 1) [0])
  else
    match s with
    | [] => (none, this, cBuf.write (this.line + this.actPos) [0])
    | c :: s =>
        if c = 10 then (some s, this, cBuf.write (this.line + this.actPos) [0])
        else if c = 13 then append { this with actPos := 0 } (cBuf.write this.line [0]) s
        else
          append { this with actPos := this.actPos + 1 }
            (cBuf.write (this.line + this.actPos) [c]) s

end NLine

structure NLineBuffer where
  cBuf : Memory
  lineArray : Nat → NLine
  tailLine : Nat
  headLine : Nat

namespace NLineBuffer

/-- One turn of the constructor's loop. -/
def initLine (buffer : NLineBuffer) (i : Nat) : NLineBuffer :=
  let set := NLine.set buffer.cBuf (i * lineLength) lineLength
  { buffer with
    lineArray := Function.update buffer.lineArray i set.1
    cBuf := set.2 }

/-- `nLineBuffer::nLineBuffer`; `heap` is what the block holds that `n_calloc` returns, and what
lies around it. -/
def construct (heap : Memory) : NLineBuffer :=
  (List.range numLines).foldl initLine
    { cBuf := heap
      lineArray := fun _ => .construct
      tailLine := 0
      headLine := 0 }

def nextLine (l : Nat) : Nat :=
  if numLines ≤ l + 1 then 0 else l + 1

def prevLine (l : Nat) : Nat :=
  if l = 0 then numLines - 1 else l - 1

/-- What `Put` does between two calls of `Append`. -/
def advance (buffer : NLineBuffer) : NLineBuffer :=
  let headLine := nextLine buffer.headLine
  let reset := (buffer.lineArray headLine).reset buffer.cBuf
  { headLine
    tailLine := if headLine = buffer.tailLine then nextLine buffer.tailLine else buffer.tailLine
    lineArray := Function.update buffer.lineArray headLine reset.1
    cBuf := reset.2 }

/-- The loop of `Put`, `none` when it takes so many turns or more. -/
def putLoop : Nat → NLineBuffer → List UInt8 → Option NLineBuffer
  | 0, _, _ => none
  | turns + 1, buffer, cont =>
      if cont = [] then some buffer
      else
        let appended := (buffer.lineArray buffer.headLine).append buffer.cBuf cont
        let buffer := { buffer with
          lineArray := Function.update buffer.lineArray buffer.headLine appended.2.1
          cBuf := appended.2.2 }
        match appended.1 with
        | none => some buffer
        | some cont => putLoop turns buffer.advance cont

def put (buffer : NLineBuffer) (s : NulString) : Option NLineBuffer :=
  putLoop (s.chars.length + 1) buffer s.chars

def getLine (buffer : NLineBuffer) (l : Nat) : Nat :=
  (buffer.lineArray l).line

/-- `GetNextLine`, `none` for -1. -/
def getNextLine (buffer : NLineBuffer) (l : Nat) : Option Nat :=
  if l = buffer.headLine then none else some (nextLine l)

/-- `GetPrevLine`, `none` for -1. -/
def getPrevLine (buffer : NLineBuffer) (l : Nat) : Option Nat :=
  if l = buffer.tailLine then none else some (prevLine l)

/-- The loop of `GetLines`, `none` when it takes so many turns or more. -/
def linesLoop (buffer : NLineBuffer) (arraySize : Int) :
    Nat → Option Nat → List Nat → Option (List Nat)
  | 0, _, _ => none
  | _ + 1, none, array => some array
  | turns + 1, some i, array =>
      if (array.length : Int) < arraySize then
        let l := buffer.getLine i
        linesLoop buffer arraySize turns (buffer.getPrevLine i)
          (if buffer.cBuf l ≠ 0 then array ++ [l] else array)
      else some array

/-- The lines that `GetLines` puts into the array. -/
def getLines (buffer : NLineBuffer) (arraySize : Int) : Option (List Nat) :=
  buffer.linesLoop arraySize (numLines + 1) (some buffer.headLine) []

end NLineBuffer

/-! ## The sheet -/

/-- The lines on an endless sheet, the last one first, and the line that is being typed. -/
structure Sheet where
  lines : List (List UInt8)
  current : List UInt8

namespace Sheet

def blank : Sheet where
  lines := []
  current := []

/-- A full line is finished. -/
def wrap (lines : List (List UInt8)) (current : List UInt8) : Sheet :=
  if lineLength - 1 ≤ current.length then ⟨current :: lines, []⟩ else ⟨lines, current⟩

def type (sheet : Sheet) (c : UInt8) : Sheet :=
  if c = 10 then ⟨sheet.current :: sheet.lines, []⟩
  else if c = 13 then ⟨sheet.lines, []⟩
  else wrap sheet.lines (sheet.current ++ [c])

/-- The lines that the ring keeps, the last one first. -/
def kept (sheet : Sheet) : List (List UInt8) :=
  (sheet.current :: sheet.lines).take numLines

/-- How far a line is filled, and what is left to be typed after it unless all of it fits. -/
def fill (current s : List UInt8) : List UInt8 × Option (List UInt8) :=
  if lineLength - 1 ≤ current.length then (current, some s)
  else
    match s with
    | [] => (current, none)
    | c :: s =>
        if c = 10 then (current, some s)
        else if c = 13 then fill [] s
        else fill (current ++ [c]) s

/-- What has been typed is on the sheet either way. -/
theorem foldl_fill (lines : List (List UInt8)) (current s : List UInt8) :
    s.foldl type (wrap lines current) =
      match fill current s with
      | (final, none) => ⟨lines, final⟩
      | (final, some rest) => rest.foldl type ⟨final :: lines, []⟩ := by
  fun_induction fill current s with
  | case1 s current full => rw [wrap, if_pos full]
  | case2 current room => rw [wrap, if_neg room, List.foldl_nil]
  | case3 current room s => rw [wrap, if_neg room, List.foldl_cons, type, if_pos rfl]
  | case4 current room s differs ih =>
      rw [wrap, if_neg room, List.foldl_cons, type, if_neg differs, if_pos rfl]
      exact ih
  | case5 current room c s newline rewinds ih =>
      rw [wrap, if_neg room, List.foldl_cons, type, if_neg newline, if_neg rewinds]
      exact ih

/-- Where all of it fits, the line is not full. -/
theorem length_fill_lt {current s : List UInt8} (all : (fill current s).2 = none) :
    (fill current s).1.length < lineLength - 1 := by
  fun_induction fill current s with
  | case1 s current full => contradiction
  | case2 current room => exact Nat.not_le.mp room
  | case3 current room s => contradiction
  | case4 current room s differs ih => exact ih all
  | case5 current room c s newline rewinds ih => exact ih all

theorem length_fill_le {current s : List UInt8} (fits : current.length ≤ lineLength - 1) :
    (fill current s).1.length ≤ lineLength - 1 := by
  fun_induction fill current s with
  | case1 s current full => exact fits
  | case2 current room => exact fits
  | case3 current room s => exact fits
  | case4 current room s differs ih => exact ih (Nat.zero_le _)
  | case5 current room c s newline rewinds ih =>
      apply ih
      rw [List.length_append, List.length_singleton]
      omega

/-- A line takes at least one character, unless it was full before. -/
theorem length_rest {current s rest : List UInt8} (left : (fill current s).2 = some rest) :
    rest.length < s.length ∨ lineLength - 1 ≤ current.length ∧ rest = s := by
  fun_induction fill current s with
  | case1 s current full => exact .inr ⟨full, (Option.some.inj left).symm⟩
  | case2 current room => contradiction
  | case3 current room s =>
      rcases Option.some.inj left with rfl
      exact .inl (Nat.lt_succ_self _)
  | case4 current room s differs ih =>
      rcases ih left with shorter | ⟨_, rfl⟩
      · exact .inl (Nat.lt_succ_of_lt shorter)
      · exact .inl (Nat.lt_succ_self _)
  | case5 current room c s newline rewinds ih =>
      rcases ih left with shorter | ⟨_, rfl⟩
      · exact .inl (Nat.lt_succ_of_lt shorter)
      · exact .inl (Nat.lt_succ_self _)

/-- What is text stays text. -/
theorem notMem_fill {current s : List UInt8} (current_text : 0 ∉ current) (s_text : 0 ∉ s) :
    0 ∉ (fill current s).1 ∧ ∀ rest, (fill current s).2 = some rest → 0 ∉ rest := by
  fun_induction fill current s with
  | case1 s current full =>
      refine ⟨current_text, ?_⟩
      rintro rest ⟨⟩
      exact s_text
  | case2 current room =>
      refine ⟨current_text, ?_⟩
      rintro rest ⟨⟩
  | case3 current room s =>
      refine ⟨current_text, ?_⟩
      rintro rest ⟨⟩
      exact fun member => s_text (List.mem_cons_of_mem 10 member)
  | case4 current room s differs ih =>
      exact ih List.not_mem_nil fun member => s_text (List.mem_cons_of_mem 13 member)
  | case5 current room c s newline rewinds ih =>
      apply ih _ fun member => s_text (List.mem_cons_of_mem c member)
      rw [List.mem_append, List.mem_singleton, not_or]
      exact ⟨current_text, fun same => s_text (same ▸ List.mem_cons_self)⟩

end Sheet

/-! ## What a line holds -/

/-- The text stands at the place and is terminated there. -/
structure Shows (memory : Memory) (place : Nat) (text : List UInt8) : Prop where
  chars : memory.read place text.length = text
  terminated : memory (place + text.length) = 0
  noNul : 0 ∉ text

/-- What is at the place is not empty exactly when its first byte is not zero. -/
theorem Shows.nonzero_iff {memory : Memory} {place : Nat} {text : List UInt8}
    (shows : Shows memory place text) : memory place ≠ 0 ↔ text ≠ [] := by
  cases text with
  | nil =>
      have terminated : memory (place + (0 : Nat)) = 0 := shows.terminated
      rw [Int.natCast_zero, Int.add_zero] at terminated
      simp [terminated]
  | cons c text =>
      have chars := shows.chars
      rw [List.length_cons, Memory.read_succ] at chars
      have first : memory place = c := (List.cons.inj chars).1
      have nonzero : c ≠ 0 := fun same => shows.noNul (same ▸ List.mem_cons_self)
      simp [first, nonzero]

theorem Shows.congr {memory other : Memory} {place : Nat} {text : List UInt8}
    (shows : Shows memory place text)
    (same : ∀ i : Nat, i ≤ text.length → other (place + i) = memory (place + i)) :
    Shows other place text where
  chars := by
    apply Eq.trans _ shows.chars
    exact Memory.read_congr fun i i_lt => same i (Nat.le_of_lt i_lt)
  terminated := (same text.length (Nat.le_refl _)).trans shows.terminated
  noNul := shows.noNul

/-- The bytes of a line in the block of the buffer. -/
def InLine (place : Nat) (address : Int) : Prop :=
  place ≤ address ∧ address < place + lineLength

theorem shows_write_terminator {memory : Memory} {place : Nat} {text : List UInt8}
    (chars : memory.read place text.length = text) (noNul : 0 ∉ text) :
    Shows (memory.write (place + text.length) [0]) place text where
  chars := by
    apply Eq.trans _ chars
    exact Memory.read_copy_of_disjoint (.inl (Int.le_refl _))
  terminated := by
    have stored : memory.write (place + text.length) [0] (place + text.length + (0 : Nat)) = 0 :=
      Memory.write_inside (Nat.zero_lt_one)
    rwa [Int.natCast_zero, Int.add_zero] at stored
  noNul := noNul

theorem write_elsewhere {memory : Memory} {place : Nat} {offset address : Int} {byte : UInt8}
    (inside : InLine place offset) (outside : ¬InLine place address) :
    memory.write offset [byte] address = memory address := by
  apply Memory.write_outside
  rw [List.length_singleton]
  simp only [InLine] at inside outside
  omega

namespace NLine

/-- What `Append` does to a line and its bytes. -/
theorem append_eq {line : Nat} {cBuf : Memory} {current s : List UInt8}
    (fits : current.length ≤ lineLength - 1) (chars : cBuf.read line current.length = current)
    (current_text : 0 ∉ current) (s_text : 0 ∉ s) :
    ∃ next, NLine.append ⟨lineLength, current.length, line⟩ cBuf s =
        ((Sheet.fill current s).2, ⟨lineLength, (Sheet.fill current s).1.length, line⟩, next) ∧
      Shows next line (Sheet.fill current s).1 ∧
      ∀ address, ¬InLine line address → next address = cBuf address := by
  have inLine {i : Nat} (i_le : i ≤ lineLength - 1) : InLine line (line + i) := by
    simp only [InLine, lineLength] at i_le ⊢
    omega
  fun_induction Sheet.fill current s generalizing cBuf with
  | case1 s current full =>
      have last : (line + lineLength - 1 : Int) = line + current.length := by
        simp only [lineLength] at full fits ⊢
        omega
      rw [append.eq_def, if_pos full, last]
      refine ⟨_, rfl, shows_write_terminator chars current_text, ?_⟩
      exact fun address outside => write_elsewhere (inLine fits) outside
  | case2 current room =>
      rw [append.eq_def, if_neg room]
      refine ⟨_, rfl, shows_write_terminator chars current_text, ?_⟩
      exact fun address outside => write_elsewhere (inLine fits) outside
  | case3 current room s =>
      rw [append.eq_def, if_neg room]
      refine ⟨_, rfl, shows_write_terminator chars current_text, ?_⟩
      exact fun address outside => write_elsewhere (inLine fits) outside
  | case4 current room s differs ih =>
      rw [append.eq_def, if_neg room]
      have rest_text : 0 ∉ s := fun member => s_text (List.mem_cons_of_mem 13 member)
      rcases @ih (cBuf.write line [0]) (Nat.zero_le _) rfl List.not_mem_nil rest_text with
        ⟨next, appended, shows, elsewhere⟩
      refine ⟨next, appended, shows, ?_⟩
      intro address outside
      rw [elsewhere address outside]
      have first := @inLine 0 (Nat.zero_le _)
      rw [Int.natCast_zero, Int.add_zero] at first
      exact write_elsewhere first outside
  | case5 current room c s newline rewinds ih =>
      have longer : (current ++ [c]).length = current.length + 1 := by simp
      have rest_text : 0 ∉ s := fun member => s_text (List.mem_cons_of_mem c member)
      have grown_text : 0 ∉ current ++ [c] := by
        rw [List.mem_append, List.mem_singleton, not_or]
        exact ⟨current_text, fun same => s_text (same ▸ List.mem_cons_self)⟩
      have grown : (cBuf.write (line + current.length) [c]).read line (current ++ [c]).length =
          current ++ [c] := by
        have kept : (cBuf.write (line + current.length) [c]).read line current.length = current :=
          (Memory.read_copy_of_disjoint (.inl (Int.le_refl _))).trans chars
        rw [longer, Memory.read_add, kept]
        exact congrArg (current ++ ·) (Memory.read_write_self cBuf (line + current.length) [c])
      rcases ih (longer.trans_le (Nat.lt_of_not_le room)) grown grown_text rest_text with
        ⟨next, appended, shows, elsewhere⟩
      rw [append.eq_def, if_neg room]
      simp only [newline, rewinds, if_false, ← longer]
      refine ⟨next, appended, shows, ?_⟩
      intro address outside
      rw [elsewhere address outside]
      exact write_elsewhere (inLine fits) outside

end NLine

/-! ## The ring shows the sheet -/

namespace NLineBuffer

/-- The number of the line so many lines before the one that is being typed. -/
def slot (headLine back : Nat) : Nat :=
  (headLine + numLines - back) % numLines

theorem slot_zero {headLine : Nat} (bound : headLine < numLines) : slot headLine 0 = headLine := by
  simp only [slot, numLines] at bound ⊢
  omega

theorem slot_lt (headLine back : Nat) : slot headLine back < numLines :=
  Nat.mod_lt _ (by decide)

theorem prevLine_slot {headLine back : Nat} (bound : headLine < numLines)
    (kept : back < numLines) : prevLine (slot headLine back) = slot headLine (back + 1) := by
  unfold prevLine
  split
  · simp only [slot, numLines] at *
    omega
  · simp only [slot, numLines] at *
    omega

theorem nextLine_lt {l : Nat} (bound : l < numLines) : nextLine l < numLines := by
  unfold nextLine
  split
  · exact Nat.zero_lt_of_lt bound
  · omega

theorem slot_nextLine {headLine back : Nat} (bound : headLine < numLines)
    (kept : back < numLines) : slot (nextLine headLine) (back + 1) = slot headLine back := by
  unfold nextLine
  split
  · simp only [slot, numLines] at *
    omega
  · simp only [slot, numLines] at *
    omega

theorem slot_inj {headLine one two : Nat} (bound : headLine < numLines) (one_lt : one < numLines)
    (two_lt : two < numLines) (same : slot headLine one = slot headLine two) : one = two := by
  simp only [slot, numLines] at bound one_lt two_lt same
  omega

theorem slot_last {headLine : Nat} (bound : headLine < numLines) :
    slot headLine (numLines - 1) = nextLine headLine := by
  unfold nextLine
  split
  · simp only [slot, numLines] at *
    omega
  · simp only [slot, numLines] at *
    omega

/-- The ring shows the texts from the given line on backwards, as far as there are lines. -/
def ShowsLines (cBuf : Memory) (headLine : Nat) (texts : List (List UInt8)) : Prop :=
  ∀ back text, back < numLines → texts[back]? = some text →
    Shows cBuf (slot headLine back * lineLength) text ∧ text.length ≤ lineLength - 1

/-- The bytes of another line are not those of this one. -/
theorem not_inLine {one two : Nat} (different : one ≠ two) {i : Nat} (i_le : i ≤ lineLength - 1) :
    ¬InLine (one * lineLength) ((two * lineLength : Nat) + i) := by
  simp only [InLine, lineLength] at i_le ⊢
  omega

section Showing

variable {cBuf next : Memory} {headLine : Nat} {current text : List UInt8}
  {lines : List (List UInt8)}

/-- The line that is being typed has been changed. -/
theorem ShowsLines.replace (shown : ShowsLines cBuf headLine (current :: lines))
    (bound : headLine < numLines) (fits : text.length ≤ lineLength - 1)
    (shows : Shows next (headLine * lineLength) text)
    (elsewhere : ∀ address, ¬InLine (headLine * lineLength) address →
      next address = cBuf address) : ShowsLines next headLine (text :: lines) := by
  intro back other within found
  cases back with
  | zero =>
      rcases Option.some.inj found with rfl
      rw [slot_zero bound]
      exact ⟨shows, fits⟩
  | succ back =>
      have before := shown (back + 1) other within found
      refine ⟨before.1.congr ?_, before.2⟩
      intro i i_le
      apply elsewhere
      apply not_inLine _ (i_le.trans before.2)
      intro same
      have equal := slot_inj bound within (by decide) (same.symm.trans (slot_zero bound).symm)
      exact absurd equal (Nat.succ_ne_zero back)

/-- The next line has been cleared; it was the last one. -/
theorem ShowsLines.begin (shown : ShowsLines cBuf headLine lines) (bound : headLine < numLines) :
    ShowsLines (cBuf.write (nextLine headLine * lineLength : Nat) [0]) (nextLine headLine)
      ([] :: lines) := by
  intro back other within found
  cases back with
  | zero =>
      rcases Option.some.inj found with rfl
      rw [slot_zero (nextLine_lt bound)]
      have cleared := @shows_write_terminator cBuf (nextLine headLine * lineLength) [] rfl
        List.not_mem_nil
      rw [List.length_nil, Int.natCast_zero, Int.add_zero] at cleared
      exact ⟨cleared, Nat.zero_le _⟩
  | succ back =>
      have kept : back < numLines := Nat.lt_of_succ_lt within
      have before := shown back other kept found
      rw [slot_nextLine bound kept]
      refine ⟨before.1.congr ?_, before.2⟩
      intro i i_le
      have first : InLine (nextLine headLine * lineLength)
          (nextLine headLine * lineLength : Nat) := by
        simp only [InLine, lineLength]
        omega
      apply write_elsewhere first
      apply not_inLine _ (i_le.trans before.2)
      rw [← slot_last bound]
      intro same
      have equal := slot_inj bound (by decide) kept same
      simp only [numLines] at equal within
      omega

end Showing

/-- The buffer holds the last lines of the sheet, and the line that is being typed is not full. -/
structure Represents (buffer : NLineBuffer) (sheet : Sheet) : Prop where
  headLine : buffer.headLine < numLines
  tailLine : buffer.tailLine = slot buffer.headLine (min sheet.lines.length (numLines - 1))
  lines : ∀ i < numLines,
    (buffer.lineArray i).lineLen = lineLength ∧ (buffer.lineArray i).line = i * lineLength
  actPos : (buffer.lineArray buffer.headLine).actPos = sheet.current.length
  room : sheet.current.length < lineLength - 1
  shows : ShowsLines buffer.cBuf buffer.headLine (sheet.current :: sheet.lines)

section Putting

variable {buffer : NLineBuffer} {lines : List (List UInt8)} {current text : List UInt8}

/-- A line of the buffer has been written to. -/
def setLine (buffer : NLineBuffer) (actPos : Nat) (cBuf : Memory) : NLineBuffer :=
  { buffer with
    lineArray := Function.update buffer.lineArray buffer.headLine
      ⟨lineLength, actPos, buffer.headLine * lineLength⟩
    cBuf := cBuf }

theorem lines_setLine {actPos : Nat} {cBuf : Memory}
    (shape : ∀ i < numLines,
      (buffer.lineArray i).lineLen = lineLength ∧ (buffer.lineArray i).line = i * lineLength) :
    ∀ i < numLines, ((buffer.setLine actPos cBuf).lineArray i).lineLen = lineLength ∧
      ((buffer.setLine actPos cBuf).lineArray i).line = i * lineLength := by
  intro i i_lt
  by_cases same : i = buffer.headLine
  · subst same
    simp [setLine]
  · simp only [setLine, Function.update_of_ne same]
    exact shape i i_lt

theorem Represents.retype (represents : buffer.Represents ⟨lines, current⟩) {cBuf : Memory}
    (room : text.length < lineLength - 1)
    (shows : Shows cBuf (buffer.headLine * lineLength) text)
    (elsewhere : ∀ address, ¬InLine (buffer.headLine * lineLength) address →
      cBuf address = buffer.cBuf address) :
    (buffer.setLine text.length cBuf).Represents ⟨lines, text⟩ where
  headLine := represents.headLine
  tailLine := represents.tailLine
  lines := lines_setLine represents.lines
  actPos := by simp [setLine]
  room := room
  shows := represents.shows.replace represents.headLine (Nat.le_of_lt room) shows elsewhere

/-- The line that was being typed is finished, and the next one is begun. -/
theorem Represents.advance (represents : buffer.Represents ⟨lines, current⟩) {cBuf : Memory}
    (fits : text.length ≤ lineLength - 1)
    (shows : Shows cBuf (buffer.headLine * lineLength) text)
    (elsewhere : ∀ address, ¬InLine (buffer.headLine * lineLength) address →
      cBuf address = buffer.cBuf address) :
    (buffer.setLine text.length cBuf).advance.Represents ⟨text :: lines, []⟩ where
  headLine := nextLine_lt represents.headLine
  tailLine := by
    have bound := represents.headLine
    have tailLine : buffer.tailLine = slot buffer.headLine (min lines.length (numLines - 1)) :=
      represents.tailLine
    change (if nextLine buffer.headLine = buffer.tailLine then nextLine buffer.tailLine
      else buffer.tailLine) =
        slot (nextLine buffer.headLine) (min (lines.length + 1) (numLines - 1))
    by_cases filled : numLines - 1 ≤ lines.length
    · rw [Nat.min_eq_right filled, slot_last bound] at tailLine
      rw [Nat.min_eq_right (Nat.le_succ_of_le filled), tailLine, if_pos rfl,
        slot_last (nextLine_lt bound)]
    · rw [Nat.min_eq_left (by omega)] at tailLine
      rw [Nat.min_eq_left (by omega), slot_nextLine bound (by omega), ← tailLine, if_neg]
      intro same
      rw [tailLine, ← slot_last bound] at same
      have equal := slot_inj bound (by decide) (by omega) same
      omega
  lines := by
    intro i i_lt
    have shape := @lines_setLine buffer text.length cBuf represents.lines
    by_cases same : i = nextLine buffer.headLine
    · subst same
      have next := shape _ i_lt
      simpa [NLineBuffer.advance, NLine.reset, setLine] using next
    · have other := shape i i_lt
      simpa [NLineBuffer.advance, NLine.reset, setLine, same] using other
  actPos := by simp [NLineBuffer.advance, NLine.reset]
  room := show 0 < lineLength - 1 by decide
  shows := by
    have shown := represents.shows.replace represents.headLine fits shows elsewhere
    have place : ((buffer.setLine text.length cBuf).lineArray (nextLine buffer.headLine)).line =
        nextLine buffer.headLine * lineLength :=
      (lines_setLine represents.lines _ (nextLine_lt represents.headLine)).2
    have begun := shown.begin represents.headLine
    rw [← place] at begun
    exact begun

/-- The block of the buffer ends behind its last line. -/
def InBlock (address : Int) : Prop :=
  0 ≤ address ∧ address < lineLength * numLines

theorem inBlock_of_inLine {l : Nat} (bound : l < numLines) {address : Int}
    (inLine : InLine (l * lineLength) address) : InBlock address := by
  simp only [InLine, InBlock, lineLength, numLines] at *
  omega

theorem cBuf_advance (bound : buffer.headLine < numLines)
    (place : (buffer.lineArray (nextLine buffer.headLine)).line =
      nextLine buffer.headLine * lineLength) {address : Int} (outside : ¬InBlock address) :
    buffer.advance.cBuf address = buffer.cBuf address := by
  have first : InLine (nextLine buffer.headLine * lineLength)
      (buffer.lineArray (nextLine buffer.headLine)).line := by
    rw [place]
    simp only [InLine, lineLength]
    omega
  exact write_elsewhere first fun inLine =>
    outside (inBlock_of_inLine (nextLine_lt bound) inLine)

/-- The line that is being typed, as `Append` finds it and leaves it. -/
theorem Represents.append (represents : buffer.Represents ⟨lines, current⟩) {s : List UInt8}
    (s_text : 0 ∉ s) :
    ∃ cBuf, (buffer.lineArray buffer.headLine).append buffer.cBuf s =
        ((Sheet.fill current s).2, ⟨lineLength, (Sheet.fill current s).1.length,
          buffer.headLine * lineLength⟩, cBuf) ∧
      Shows cBuf (buffer.headLine * lineLength) (Sheet.fill current s).1 ∧
      ∀ address, ¬InLine (buffer.headLine * lineLength) address →
        cBuf address = buffer.cBuf address := by
  have shape := represents.lines _ represents.headLine
  have line_eq : buffer.lineArray buffer.headLine =
      ⟨lineLength, current.length, buffer.headLine * lineLength⟩ := by
    rw [← shape.2, ← shape.1, ← show _ = current.length from represents.actPos]
  have shown := represents.shows 0 current (by decide) rfl
  rw [slot_zero represents.headLine] at shown
  rw [line_eq]
  exact NLine.append_eq (Nat.le_of_lt represents.room) shown.1.chars shown.1.noNul s_text

/-- Enough turns are made, they type what is put on the sheet, and nothing outside the block of the
buffer is written. -/
theorem Represents.putLoop {sheet : Sheet} (represents : buffer.Represents sheet)
    {s : List UInt8} (s_text : 0 ∉ s) {turns : Nat} (enough : s.length < turns) :
    ∃ next, NLineBuffer.putLoop turns buffer s = some next ∧
      next.Represents (s.foldl Sheet.type sheet) ∧
      ∀ address, ¬InBlock address → next.cBuf address = buffer.cBuf address := by
  induction turns generalizing buffer sheet s with
  | zero => exact absurd enough (Nat.not_lt_zero _)
  | succ turns ih =>
      rcases sheet with ⟨lines, current⟩
      by_cases done : s = []
      · subst done
        exact ⟨buffer, rfl, represents, fun _ _ => rfl⟩
      · have room : current.length < lineLength - 1 := represents.room
        have typed := Sheet.foldl_fill lines current s
        rw [Sheet.wrap, if_neg (Nat.not_le.mpr room)] at typed
        rcases represents.append s_text with ⟨cBuf, appended, shows, elsewhere⟩
        have outside : ∀ address, ¬InBlock address → cBuf address = buffer.cBuf address := by
          intro address notInBlock
          exact elsewhere address fun inLine =>
            notInBlock (inBlock_of_inLine represents.headLine inLine)
        have fits := Sheet.length_fill_le (s := s) (Nat.le_of_lt room)
        rw [NLineBuffer.putLoop, if_neg done]
        simp only [appended]
        cases left : (Sheet.fill current s).2 with
        | none =>
            rw [show Sheet.fill current s = ((Sheet.fill current s).1, none) from
              Prod.ext rfl left] at typed
            rw [typed]
            exact ⟨_, rfl, represents.retype (Sheet.length_fill_lt left) shows elsewhere, outside⟩
        | some rest =>
            rw [show Sheet.fill current s = ((Sheet.fill current s).1, some rest) from
              Prod.ext rfl left] at typed
            rw [typed]
            have shorter : rest.length < s.length := by
              rcases Sheet.length_rest left with shorter | ⟨full, -⟩
              · exact shorter
              · exact absurd room (Nat.not_lt.mpr full)
            have rest_text :=
              (Sheet.notMem_fill (represents.shows 0 current (by decide) rfl).1.noNul s_text).2
                rest left
            have advanced := represents.advance fits shows elsewhere
            rcases ih advanced rest_text (by omega) with ⟨next, put, represents', outside'⟩
            refine ⟨next, put, represents', ?_⟩
            intro address notInBlock
            have place := (@lines_setLine buffer (Sheet.fill current s).1.length cBuf
              represents.lines _ (nextLine_lt represents.headLine)).2
            have cleared := @cBuf_advance (buffer.setLine (Sheet.fill current s).1.length cBuf)
              represents.headLine place address notInBlock
            rw [outside' address notInBlock, cleared]
            exact outside address notInBlock

end Putting

/-! ## Reading -/

section Reading

variable {buffer : NLineBuffer} {sheet : Sheet}

/-- The line at which `GetPrevLine` ends. -/
theorem Represents.getPrevLine_eq (represents : buffer.Represents sheet) {back : Nat}
    (within : back < sheet.kept.length) :
    buffer.getPrevLine (slot buffer.headLine back) =
      if back + 1 < sheet.kept.length then some (slot buffer.headLine (back + 1)) else none := by
  have bound := represents.headLine
  have kept_length : sheet.kept.length = min sheet.lines.length (numLines - 1) + 1 := by
    rw [Sheet.kept, List.length_take, List.length_cons, numLines]
    omega
  have back_lt : back < numLines := by
    rw [kept_length] at within
    omega
  rw [getPrevLine, represents.tailLine]
  by_cases last : back + 1 < sheet.kept.length
  · rw [if_pos last, if_neg, prevLine_slot bound back_lt]
    intro same
    have equal := slot_inj bound back_lt (by omega) same
    omega
  · have equal : back = min sheet.lines.length (numLines - 1) := by omega
    rw [if_neg last, if_pos (congrArg _ equal)]

/-- The texts that are still to be found, when so many lines have been found already. -/
def wanted (arraySize : Int) (found : List Nat) (texts : List (List UInt8)) : List (List UInt8) :=
  (texts.filter (· ≠ [])).take (arraySize - found.length).toNat

theorem wanted_nil (arraySize : Int) (found : List Nat) : wanted arraySize found [] = [] := by
  rw [wanted, List.filter_nil, List.take_nil]

theorem wanted_full {arraySize : Int} {found : List Nat} (full : arraySize ≤ found.length)
    (texts : List (List UInt8)) : wanted arraySize found texts = [] := by
  have none_left : (arraySize - found.length).toNat = 0 := by omega
  rw [wanted, none_left, List.take_zero]

theorem wanted_cons_nil (arraySize : Int) (found : List Nat) (texts : List (List UInt8)) :
    wanted arraySize found ([] :: texts) = wanted arraySize found texts := by
  simp [wanted]

theorem wanted_cons {arraySize : Int} {found : List Nat} (room : (found.length : Int) < arraySize)
    {text : List UInt8} (nonempty : text ≠ []) (texts : List (List UInt8)) (l : Nat) :
    wanted arraySize found (text :: texts) = text :: wanted arraySize (found ++ [l]) texts := by
  have one_less : (arraySize - found.length).toNat =
      (arraySize - (found ++ [l]).length).toNat + 1 := by
    rw [List.length_append, List.length_singleton]
    omega
  simp [wanted, nonempty, one_less, -List.length_append]

/-- From one line on backwards, the loop of `GetLines` finds what is wanted. -/
theorem Represents.linesLoop (represents : buffer.Represents sheet) (arraySize : Int)
    {back turns : Nat} (within : back < sheet.kept.length) (enough : numLines < turns + back)
    (array : List Nat) :
    ∃ more, buffer.linesLoop arraySize turns (some (slot buffer.headLine back)) array =
        some (array ++ more) ∧
      List.Forall₂ (Shows buffer.cBuf) more
        (wanted arraySize array (sheet.kept.drop back)) := by
  have kept_le : sheet.kept.length ≤ numLines := List.length_take_le _ _
  induction turns generalizing back array with
  | zero => omega
  | succ turns ih =>
      by_cases room : (array.length : Int) < arraySize
      · have found : (sheet.current :: sheet.lines)[back]? = some sheet.kept[back] := by
          rw [← List.getElem?_eq_getElem within, Sheet.kept, List.getElem?_take_of_lt]
          omega
        have shown := (represents.shows back _ (by omega) found).1
        have place : buffer.getLine (slot buffer.headLine back) =
            slot buffer.headLine back * lineLength :=
          (represents.lines _ (slot_lt _ _)).2
        rw [NLineBuffer.linesLoop, if_pos room, represents.getPrevLine_eq within,
          List.drop_eq_getElem_cons within]
        simp only [place]
        have goes_on : ∀ array : List Nat, ∃ more,
            buffer.linesLoop arraySize turns
                (if back + 1 < sheet.kept.length then some (slot buffer.headLine (back + 1))
                else none) array = some (array ++ more) ∧
              List.Forall₂ (Shows buffer.cBuf) more
                (wanted arraySize array (sheet.kept.drop (back + 1))) := by
          intro array
          by_cases next : back + 1 < sheet.kept.length
          · rw [if_pos next]
            exact ih next (by omega) array
          · rw [if_neg next, List.drop_eq_nil_of_le (Nat.not_lt.mp next), wanted_nil]
            cases turns with
            | zero => omega
            | succ turns => exact ⟨[], by rw [NLineBuffer.linesLoop, List.append_nil], .nil⟩
        by_cases empty : sheet.kept[back] = []
        · have zero : buffer.cBuf (slot buffer.headLine back * lineLength : Nat) = 0 := by
            by_contra nonzero
            exact absurd empty (shown.nonzero_iff.mp nonzero)
          rw [empty, wanted_cons_nil, if_neg (not_not.mpr zero)]
          exact goes_on array
        · rw [if_pos (shown.nonzero_iff.mpr empty)]
          rcases goes_on (array ++ [slot buffer.headLine back * lineLength]) with
            ⟨more, looped, shows⟩
          refine ⟨slot buffer.headLine back * lineLength :: more, ?_, ?_⟩
          · rw [looped, List.append_assoc, List.singleton_append]
          · rw [wanted_cons room empty _ (slot buffer.headLine back * lineLength)]
            exact .cons shown shows
      · rw [NLineBuffer.linesLoop, if_neg room, wanted_full (by omega)]
        exact ⟨[], by rw [List.append_nil], .nil⟩

theorem Represents.getLines (represents : buffer.Represents sheet) (arraySize : Int) :
    ∃ array, buffer.getLines arraySize = some array ∧
      List.Forall₂ (Shows buffer.cBuf) array
        ((sheet.kept.filter (· ≠ [])).take arraySize.toNat) := by
  have nonempty : 0 < sheet.kept.length := by
    rw [Sheet.kept, List.length_take, List.length_cons, numLines]
    omega
  rcases represents.linesLoop arraySize nonempty (show numLines < numLines + 1 + 0 by omega) [] with
    ⟨array, looped, shows⟩
  rw [slot_zero represents.headLine] at looped
  refine ⟨array, looped, ?_⟩
  simpa [wanted] using shows

end Reading

/-! ## Runs -/

/-- The constructor has come to a line: the lines before it are empty, and nothing outside the block
is written. -/
structure Initialized (heap : Memory) (count : Nat) (buffer : NLineBuffer) : Prop where
  headLine : buffer.headLine = 0
  tailLine : buffer.tailLine = 0
  lines : ∀ i < count, buffer.lineArray i = ⟨lineLength, 0, i * lineLength⟩
  empty : ∀ i < count, buffer.cBuf (i * lineLength : Nat) = 0
  outside : ∀ address, ¬InBlock address → buffer.cBuf address = heap address

theorem Initialized.initLine {heap : Memory} {count : Nat} {buffer : NLineBuffer}
    (initialized : Initialized heap count buffer) (bound : count < numLines) :
    Initialized heap (count + 1) (buffer.initLine count) where
  headLine := initialized.headLine
  tailLine := initialized.tailLine
  lines := by
    intro i i_lt
    by_cases last : i = count
    · subst last
      simp [NLineBuffer.initLine, NLine.set]
    · have before := initialized.lines i (by omega)
      simpa [NLineBuffer.initLine, last] using before
  empty := by
    intro i i_lt
    by_cases last : i = count
    · subst last
      have stored := @Memory.write_inside buffer.cBuf (i * lineLength : Nat) [0] 0 Nat.zero_lt_one
      rwa [Int.natCast_zero, Int.add_zero] at stored
    · have kept : (buffer.initLine count).cBuf (i * lineLength : Nat) =
          buffer.cBuf (i * lineLength : Nat) := by
        apply Memory.write_outside
        simp only [List.length_singleton, lineLength]
        omega
      rw [kept]
      exact initialized.empty i (by omega)
  outside := by
    intro address notInBlock
    have kept : (buffer.initLine count).cBuf address = buffer.cBuf address := by
      apply Memory.write_outside
      simp only [InBlock, lineLength, numLines, List.length_singleton] at *
      omega
    rw [kept]
    exact initialized.outside address notInBlock

theorem initialized_construct (heap : Memory) : Initialized heap numLines (construct heap) := by
  suffices turns : ∀ count ≤ numLines, Initialized heap count
      ((List.range count).foldl initLine ⟨heap, fun _ => .construct, 0, 0⟩) from
    turns numLines (Nat.le_refl _)
  intro count count_le
  induction count with
  | zero =>
      refine ⟨rfl, rfl, ?_, ?_, fun _ _ => rfl⟩
      · intro i i_lt
        contradiction
      · intro i i_lt
        contradiction
  | succ count ih =>
      rw [List.range_succ, List.foldl_concat]
      exact (ih (Nat.le_of_succ_le count_le)).initLine count_le

/-- A buffer that has just been constructed is blank. -/
theorem represents_construct (heap : Memory) : (construct heap).Represents .blank where
  headLine := by
    rw [(initialized_construct heap).headLine]
    decide
  tailLine := by
    rw [(initialized_construct heap).headLine, (initialized_construct heap).tailLine]
    decide
  lines := by
    intro i i_lt
    rw [(initialized_construct heap).lines i i_lt]
    exact ⟨rfl, rfl⟩
  actPos := by
    rw [(initialized_construct heap).headLine, (initialized_construct heap).lines 0 (by decide)]
    rfl
  room := show 0 < lineLength - 1 by decide
  shows := by
    intro back text within found
    cases back with
    | zero =>
        rcases Option.some.inj found with rfl
        have first := (initialized_construct heap).empty 0 (by decide)
        rw [(initialized_construct heap).headLine, slot_zero (by decide)]
        refine ⟨⟨rfl, ?_, List.not_mem_nil⟩, Nat.zero_le _⟩
        rw [show Sheet.blank.current.length = 0 from rfl, Int.natCast_zero, Int.add_zero]
        exact first
    | succ back => contradiction

/-- Whatever is put into a new buffer and however it is divided into calls, every call returns, the
buffer shows the last lines of the sheet on which all of it is typed, and nothing outside its block
is written. -/
theorem lines_of_puts (heap : Memory) (strings : List NulString) :
    ∃ buffer, strings.foldlM put (construct heap) = some buffer ∧
      (∀ address, ¬InBlock address → buffer.cBuf address = heap address) ∧
      ∀ arraySize, ∃ array, buffer.getLines arraySize = some array ∧
        List.Forall₂ (Shows buffer.cBuf) array
          ((((strings.flatMap NulString.chars).foldl Sheet.type .blank).kept.filter
            (· ≠ [])).take arraySize.toNat) := by
  suffices puts : ∀ (buffer : NLineBuffer) (sheet : Sheet), buffer.Represents sheet →
      ∃ next, strings.foldlM put buffer = some next ∧
        next.Represents ((strings.flatMap NulString.chars).foldl Sheet.type sheet) ∧
        ∀ address, ¬InBlock address → next.cBuf address = buffer.cBuf address by
    rcases puts _ _ (represents_construct heap) with ⟨buffer, runs, represents, outside⟩
    refine ⟨buffer, runs, ?_, represents.getLines⟩
    intro address notInBlock
    rw [outside address notInBlock, (initialized_construct heap).outside address notInBlock]
  induction strings with
  | nil => exact fun buffer sheet represents => ⟨buffer, rfl, represents, fun _ _ => rfl⟩
  | cons s strings ih =>
      intro buffer sheet represents
      rcases represents.putLoop s.noNul (Nat.lt_succ_self _) with
        ⟨middle, put_eq, middle_represents, middle_outside⟩
      rcases ih middle _ middle_represents with ⟨next, runs, represents', outside⟩
      refine ⟨next, ?_, ?_, ?_⟩
      · rw [List.foldlM_cons, put, put_eq]
        exact runs
      · rw [List.flatMap_cons, List.foldl_append]
        exact represents'
      · intro address notInBlock
        rw [outside address notInBlock, middle_outside address notInBlock]

end NLineBuffer

end SunPush
