import MistralrsProxy.Bytes
import MistralrsProxy.Delimited
import MistralrsProxy.Logs
import MistralrsProxy.TransitionSystem

/-! Following the log. A poll of the tail looks at what the path names, at the length of the file it has open,
and then reads that file to its end; the writers may act between the two looks. The parser of a line is a
parameter. Other errors of the file system than a missing file are left out. -/

open Transition Delimited Machine

namespace MistralrsProxy

/-- What `dev` and `ino` identify. -/
structure FileId where
  dev : Nat
  ino : Nat
  deriving DecidableEq, Repr

/-- The largest offset of a file. -/
def maxFileBytes : Nat := 2 ^ 63 - 1

/-- The files and what the path of the log names, if it exists. -/
structure FileSystem where
  path : Option FileId
  content : FileId → List UInt8
  bounded : ∀ id, (content id).length ≤ maxFileBytes

/-- What writers and rotation do to the files. -/
inductive Write where
  | append (id : FileId) (chunk : List UInt8)
  | truncate (id : FileId)
  | link (target : Option FileId)
  deriving DecidableEq

namespace FileSystem

def setContent (id : FileId) (content : List UInt8) (h : content.length ≤ maxFileBytes) (files : FileSystem) :
    FileSystem where
  path := files.path
  content := Function.update files.content id content
  bounded := by
    intro other
    by_cases hother : other = id
    · rw [hother, Function.update_self]
      exact h
    · rw [Function.update_of_ne hother]
      exact files.bounded other

theorem setContent_self (id : FileId) {content : List UInt8} (h : content.length ≤ maxFileBytes) (files : FileSystem) :
    (files.setContent id content h).content id = content := Function.update_self _ _ _

theorem setContent_of_ne {id other : FileId} (hother : other ≠ id) {content : List UInt8}
    (h : content.length ≤ maxFileBytes) (files : FileSystem) :
    (files.setContent id content h).content other = files.content other := Function.update_of_ne hother _ _

/-- An append beyond the largest offset fails. -/
def write (files : FileSystem) : Write → Option FileSystem
  | .append id chunk =>
      if h : (files.content id ++ chunk).length ≤ maxFileBytes then
        some (files.setContent id (files.content id ++ chunk) h)
      else none
  | .truncate id => some (files.setContent id [] (Nat.zero_le _))
  | .link target => some { files with path := target }

def writeAll (files : FileSystem) : List Write → Option FileSystem
  | [] => some files
  | write :: rest => (files.write write).bind fun next => next.writeAll rest

end FileSystem

/-- An open file and the position of its handle. -/
structure OpenFile where
  id : FileId
  position : Nat
  deriving DecidableEq, Repr

/-- Follows an append-only file. -/
structure Tail where
  file : Option OpenFile
  offset : Nat
  partialLine : List UInt8
  malformed : Nat
  deriving DecidableEq, Repr

/-- The result of one poll. -/
structure Appended where
  records : List LogRecord
  restarted : Bool
  deriving DecidableEq, Repr

def newline : UInt8 := 10

def isBlank (line : List UInt8) : Bool := line.all Bytes.isAsciiWhitespace

namespace Tail

def new : Tail := ⟨none, 0, [], 0⟩

/-- Start over with another file. -/
def restart (id : FileId) (tail : Tail) : Tail := { tail with file := some ⟨id, 0⟩, offset := 0, partialLine := [] }

/-- Reopen the path if it names another file than the one that is open. -/
def reopen (files : FileSystem) (tail : Tail) : Tail × Bool :=
  match tail.file, files.path with
  | some file, some current => if current ≠ file.id then (tail.restart current, true) else (tail, false)
  | _, _ => (tail, false)

/-- Open the path unless a file is open; `none` while there is nothing to open. -/
def openPath (files : FileSystem) (tail : Tail) : Option (Tail × OpenFile) :=
  match tail.file with
  | some file => some (tail, file)
  | none => files.path.map fun current => (tail.restart current, ⟨current, 0⟩)

/-- Start the open file over if it is shorter than what was read of it. -/
def rewind (files : FileSystem) (file : OpenFile) (tail : Tail) : Tail × OpenFile × Bool :=
  if (files.content file.id).length < tail.offset then (tail.restart file.id, ⟨file.id, 0⟩, true)
  else (tail, file, false)

/-- One complete line. -/
def addLine (parse : List UInt8 → Option LogRecord) (state : Nat × List LogRecord) (line : List UInt8) :
    Nat × List LogRecord :=
  if isBlank line then state
  else
    match parse line with
    | some record => (state.1, state.2 ++ [record])
    | none => (saturatingAdd state.1 1, state.2)

/-- Read the open file to its end and take the complete lines. -/
def readToEnd (parse : List UInt8 → Option LogRecord) (files : FileSystem) (file : OpenFile) (tail : Tail) :
    Tail × List LogRecord :=
  let appended := (files.content file.id).drop file.position
  let lines := split newline (tail.partialLine ++ appended)
  let parsed := lines.1.foldl (addLine parse) (tail.malformed, [])
  ({ file := some { file with position := file.position + appended.length }
     offset := saturatingAdd tail.offset appended.length
     partialLine := lines.2
     malformed := parsed.1 }, parsed.2)

/-- Parse what has been appended since the last call: `files` is what the calls before the read see. -/
def poll (parse : List UInt8 → Option LogRecord) (files filesAtRead : FileSystem) (tail : Tail) : Tail × Appended :=
  let (tail, reopened) := tail.reopen files
  match tail.openPath files with
  | none => (tail, ⟨[], false⟩)
  | some (tail, file) =>
      let (tail, file, rewound) := tail.rewind files file
      let (tail, records) := tail.readToEnd parse filesAtRead file
      (tail, ⟨records, reopened || rewound⟩)

end Tail

/-- The explorer of the log, among the files. `read` is what the open file held when it was last read, and
`polls` what the polls returned, newest first; the program keeps neither. -/
structure Explorer where
  files : FileSystem
  tail : Tail
  records : List LogRecord
  read : List UInt8
  polls : List Appended

/-- A write, or a poll with the writes between its looks. -/
inductive LogAction where
  | write (write : Write)
  | poll (meanwhile : List Write)
  deriving DecidableEq

namespace Explorer

/-- The records held after a refresh. -/
def refresh (records : List LogRecord) (appended : Appended) : List LogRecord :=
  if appended.restarted then appended.records else records ++ appended.records

def contentOf (files : FileSystem) (tail : Tail) : List UInt8 :=
  (tail.file.map fun file => files.content file.id).getD []

def step (parse : List UInt8 → Option LogRecord) (explorer : Explorer) : LogAction → Option Explorer
  | .write write => (explorer.files.write write).map fun files => { explorer with files := files }
  | .poll meanwhile =>
      (explorer.files.writeAll meanwhile).map fun files =>
        let (tail, appended) := explorer.tail.poll parse explorer.files files
        { files := files
          tail := tail
          records := refresh explorer.records appended
          read := contentOf files tail
          polls := appended :: explorer.polls }

def start (files : FileSystem) : Explorer := ⟨files, .new, [], [], []⟩

end Explorer

/-- The log, its writers and a reader, from any files. -/
def logSystem (parse : List UInt8 → Option LogRecord) : System Explorer LogAction where
  initial explorer := ∃ files, explorer = Explorer.start files
  step := Explorer.step parse

/-- The records of the lines that parse, in order. -/
def parsed (parse : List UInt8 → Option LogRecord) (lines : List (List UInt8)) : List LogRecord :=
  (lines.filter fun line => !isBlank line).filterMap parse

/-- The number of lines that are neither blank nor parse. -/
def unparsed (parse : List UInt8 → Option LogRecord) (lines : List (List UInt8)) : Nat :=
  (lines.filter fun line => !isBlank line).countP fun line => (parse line).isNone

variable {parse : List UInt8 → Option LogRecord}

theorem parsed_append (first second : List (List UInt8)) :
    parsed parse (first ++ second) = parsed parse first ++ parsed parse second := by
  rw [parsed, List.filter_append, List.filterMap_append]
  rfl

theorem unparsed_append (first second : List (List UInt8)) :
    unparsed parse (first ++ second) = unparsed parse first + unparsed parse second := by
  rw [unparsed, List.filter_append, List.countP_append]
  rfl

/-- A file has fewer lines than a counter can count. -/
theorem unparsed_le (content : List UInt8) (h : content.length ≤ maxFileBytes) :
    unparsed parse (split newline content).1 ≤ u64Max := by
  have hcount : unparsed parse (split newline content).1 ≤ (split newline content).1.length :=
    Nat.le_trans List.countP_le_length (List.length_filter_le _ _)
  have hlines := length_pieces_le newline content
  have hbound : maxFileBytes ≤ u64Max := by decide
  omega

namespace Tail

variable {tail next : Tail} {files filesAtRead : FileSystem} {id : FileId} {read content : List UInt8}

/-- The loop over the lines of a poll. -/
theorem foldl_addLine (lines : List (List UInt8)) (malformed : Nat) (records : List LogRecord)
    (h : malformed ≤ u64Max) :
    lines.foldl (addLine parse) (malformed, records) =
      (saturatingAdd malformed (unparsed parse lines), records ++ parsed parse lines) := by
  induction lines generalizing malformed records with
  | nil => simp [unparsed, parsed, saturatingAdd, h]
  | cons line lines ih =>
      rw [List.foldl_cons]
      by_cases hblank : isBlank line = true
      · rw [addLine, if_pos hblank, ih malformed records h]
        simp [unparsed, parsed, hblank]
      · rw [addLine, if_neg hblank]
        cases hparse : parse line with
        | some record =>
            rw [ih malformed _ h]
            simp [unparsed, parsed, hblank, hparse]
        | none =>
            have hnext : saturatingAdd malformed 1 ≤ u64Max := Nat.min_le_right _ _
            rw [ih _ records hnext]
            simp only [unparsed, parsed, hblank, hparse, saturatingAdd, List.filter_cons_of_pos,
              List.countP_cons_of_pos,
              List.filterMap_cons_none, Option.isNone_none, Bool.not_false, Prod.mk.injEq, and_true]
            omega

/-- The tail has read `read`, all of it, from the file. -/
structure Caught (read : List UInt8) (id : FileId) (tail : Tail) : Prop where
  file : tail.file = some ⟨id, read.length⟩
  offset : tail.offset = read.length
  partialLine : tail.partialLine = (split newline read).2
  malformed : tail.malformed ≤ u64Max

/-- The tail has gone on from `read` to `content`, with the records of the lines completed on the way. -/
structure Advances (parse : List UInt8 → Option LogRecord) (read content : List UInt8) (id : FileId) (tail next : Tail)
    (records : List LogRecord) : Prop where
  caught : next.Caught content id
  records : parsed parse (split newline content).1 = parsed parse (split newline read).1 ++ records
  malformed : ∃ count, unparsed parse (split newline content).1 = unparsed parse (split newline read).1 + count ∧
    next.malformed = saturatingAdd tail.malformed count

theorem restart_caught (id : FileId) (h : tail.malformed ≤ u64Max) : (tail.restart id).Caught [] id :=
  ⟨rfl, rfl, rfl, h⟩

theorem readToEnd_advances (h : tail.Caught read id) (hread : read <+: files.content id) :
    Advances parse read (files.content id) id tail (tail.readToEnd parse files ⟨id, read.length⟩).1
      (tail.readToEnd parse files ⟨id, read.length⟩).2 := by
  obtain ⟨appended, happended⟩ := hread
  have hbounded := files.bounded id
  rw [← happended, List.length_append] at hbounded
  have hmax : maxFileBytes ≤ u64Max := by decide
  have hdrop : (files.content id).drop read.length = appended := by
    rw [← happended, List.drop_left]
  have hsplit : split newline (files.content id) =
      ((split newline read).1 ++ (split newline (tail.partialLine ++ appended)).1,
        (split newline (tail.partialLine ++ appended)).2) := by
    rw [h.partialLine, ← happended, split_append]
  simp only [readToEnd, hdrop, foldl_addLine _ _ _ h.malformed, List.nil_append]
  refine ⟨⟨?_, ?_, ?_, ?_⟩, ?_, ?_⟩
  · rw [← happended, List.length_append]
  · rw [h.offset, ← happended, List.length_append]
    exact Nat.min_eq_left (by omega)
  · rw [hsplit]
  · exact Nat.min_le_right _ _
  · rw [hsplit, parsed_append]
  · exact ⟨_, by rw [hsplit, unparsed_append], rfl⟩

theorem readToEnd_restart (id : FileId) (h : tail.malformed ≤ u64Max) :
    Advances parse [] (files.content id) id tail ((tail.restart id).readToEnd parse files ⟨id, 0⟩).1
      ((tail.restart id).readToEnd parse files ⟨id, 0⟩).2 := by
  obtain ⟨hcaught, hrecords, hmalformed⟩ : Advances parse [] (files.content id) id (tail.restart id) _ _ :=
    readToEnd_advances (restart_caught id h) List.nil_prefix
  exact ⟨hcaught, hrecords, hmalformed⟩

/-- Without a file there is nothing to read. -/
theorem poll_absent (hfile : tail.file = none) (hpath : files.path = none) :
    tail.poll parse files filesAtRead = (tail, ⟨[], false⟩) := by
  simp only [poll, reopen, openPath, hfile, hpath, Option.map_none]

/-- The file that the path names is read from its start, if none was open or another was. -/
theorem poll_opens (hmalformed : tail.malformed ≤ u64Max) (hpath : files.path = some id)
    (hfile : ∀ file, tail.file = some file → file.id ≠ id) :
    Advances parse [] (filesAtRead.content id) id tail (tail.poll parse files filesAtRead).1
        (tail.poll parse files filesAtRead).2.records ∧
      (tail.poll parse files filesAtRead).2.restarted = tail.file.isSome := by
  have hadvances : Advances parse [] (filesAtRead.content id) id tail
      ((tail.restart id).readToEnd parse filesAtRead ⟨id, 0⟩).1
      ((tail.restart id).readToEnd parse filesAtRead ⟨id, 0⟩).2 := readToEnd_restart id hmalformed
  have hrewind : (tail.restart id).rewind files ⟨id, 0⟩ = (tail.restart id, ⟨id, 0⟩, false) :=
    if_neg (Nat.not_lt_zero _)
  cases hopen : tail.file with
  | none =>
      simp only [poll, reopen, openPath, hopen, hpath, Option.map_some, hrewind]
      exact ⟨hadvances, rfl⟩
  | some file =>
      have hid : id ≠ file.id := Ne.symm (hfile file hopen)
      have hreopen : tail.reopen files = (tail.restart id, true) := by
        simp only [reopen, hopen, hpath]
        rw [if_pos hid]
      have hopenPath : (tail.restart id).openPath files = some (tail.restart id, ⟨id, 0⟩) := rfl
      simp only [poll, hreopen, hopenPath, hrewind]
      exact ⟨hadvances, rfl⟩

/-- The open file is read on, or from its start if it is shorter than what was read. -/
theorem poll_continues (h : tail.Caught read id) (hpath : ∀ current, files.path = some current → current = id)
    (hread : read.length ≤ (files.content id).length → read <+: filesAtRead.content id) :
    ((tail.poll parse files filesAtRead).2.restarted = true ↔ (files.content id).length < read.length) ∧
      Advances parse (if (files.content id).length < read.length then [] else read) (filesAtRead.content id) id tail
        (tail.poll parse files filesAtRead).1 (tail.poll parse files filesAtRead).2.records := by
  have hreopen : tail.reopen files = (tail, false) := by
    cases hcurrent : files.path with
    | none => simp only [reopen, h.file, hcurrent]
    | some current =>
        simp only [reopen, h.file, hcurrent]
        rw [if_neg (fun hne => hne (hpath current hcurrent))]
  have hopenPath : tail.openPath files = some (tail, ⟨id, read.length⟩) := by simp only [openPath, h.file]
  by_cases hshort : (files.content id).length < read.length
  · have hrewind : tail.rewind files ⟨id, read.length⟩ = (tail.restart id, ⟨id, 0⟩, true) := by
      rw [rewind, h.offset, if_pos hshort]
    simp only [poll, hreopen, hopenPath, hrewind, Bool.or_true, hshort, if_true, true_and]
    exact readToEnd_restart id h.malformed
  · have hrewind : tail.rewind files ⟨id, read.length⟩ = (tail, ⟨id, read.length⟩, false) := by
      rw [rewind, h.offset, if_neg hshort]
    simp only [poll, hreopen, hopenPath, hrewind, Bool.or_false, Bool.false_eq_true, hshort, if_false, true_and]
    exact readToEnd_advances h (hread (Nat.le_of_not_lt hshort))

end Tail

end MistralrsProxy
