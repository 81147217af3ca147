import MistralrsProxy.LogsTail

/-! What a reader of the log gets to hold. While files only grow, each poll takes the reader to the whole of
the file it has open. A truncation is noticed by the length of the file alone, so the reader keeps up with
it only if the file is still shorter than before at the next poll. -/

open Transition Delimited Machine

namespace MistralrsProxy

variable {parse : List UInt8 → Option LogRecord}

/-- Only truncations take bytes away. -/
def Write.Keeps : Write → Prop
  | .truncate _ => False
  | _ => True

/-- Files only grow, also during a poll; the path may come to name any file, or none. -/
def AppendOnly (_ : Explorer) : LogAction → Prop
  | .write write => write.Keeps
  | .poll meanwhile => ∀ write ∈ meanwhile, write.Keeps

namespace FileSystem

variable {files next : FileSystem}

theorem write_keeps {write : Write} (hkeeps : write.Keeps) (h : files.write write = some next) (id : FileId) :
    files.content id <+: next.content id := by
  cases write with
  | truncate id => exact hkeeps.elim
  | link target =>
      cases h
      exact List.prefix_refl _
  | append target chunk =>
      simp only [FileSystem.write] at h
      split at h
      · cases h
        by_cases hid : id = target
        · rw [hid, setContent_self]
          exact List.prefix_append _ _
        · rw [setContent_of_ne hid]
      · cases h

theorem writeAll_keeps {writes : List Write} (hkeeps : ∀ write ∈ writes, write.Keeps)
    (h : files.writeAll writes = some next) (id : FileId) : files.content id <+: next.content id := by
  induction writes generalizing files with
  | nil =>
      cases h
      exact List.prefix_refl _
  | cons write rest ih =>
      obtain ⟨middle, hmiddle, hnext⟩ := Option.bind_eq_some_iff.mp h
      exact (write_keeps (hkeeps write List.mem_cons_self) hmiddle id).trans
        (ih (fun other hmem => hkeeps other (List.mem_cons_of_mem _ hmem)) hnext)

end FileSystem

namespace Explorer

variable {explorer next : Explorer} {meanwhile : List Write}

theorem step_write {write : Write} (h : step parse explorer (.write write) = some next) :
    ∃ files, explorer.files.write write = some files ∧ next = { explorer with files := files } := by
  obtain ⟨files, hfiles, rfl⟩ := Option.map_eq_some_iff.mp h
  exact ⟨files, hfiles, rfl⟩

theorem step_poll (h : step parse explorer (.poll meanwhile) = some next) :
    explorer.files.writeAll meanwhile = some next.files ∧
      next.tail = (explorer.tail.poll parse explorer.files next.files).1 ∧
      next.polls = (explorer.tail.poll parse explorer.files next.files).2 :: explorer.polls ∧
      next.records = refresh explorer.records (explorer.tail.poll parse explorer.files next.files).2 ∧
      next.read = contentOf next.files next.tail := by
  obtain ⟨files, hfiles, rfl⟩ := Option.map_eq_some_iff.mp h
  exact ⟨hfiles, rfl, rfl, rfl, rfl⟩

/-- The tail has read `read`, of the file it has open if there is one, and the records are those of `read`. -/
structure Holds (parse : List UInt8 → Option LogRecord) (explorer : Explorer) : Prop where
  records : explorer.records = parsed parse (split newline explorer.read).1
  tail : explorer.tail = .new ∧ explorer.read = [] ∨ ∃ id, explorer.tail.Caught explorer.read id

/-- A poll has taken the reader from `base` to the whole of the file. -/
structure Polled (parse : List UInt8 → Option LogRecord) (explorer next : Explorer) (id : FileId) (base : List UInt8)
    (appended : Appended) : Prop where
  advances : Tail.Advances parse base next.read id explorer.tail next.tail appended.records
  read : next.read = next.files.content id
  polls : next.polls = appended :: explorer.polls
  records : next.records = refresh explorer.records appended
  base : base = if appended.restarted then [] else explorer.read
  names : ∀ current, explorer.files.path = some current → current = id
  moves : (∀ file, explorer.tail.file = some file → file.id ≠ id) → explorer.files.path = some id
  restarted : appended.restarted = true ↔ ∃ file, explorer.tail.file = some file ∧
    (file.id ≠ id ∨ (explorer.files.content id).length < explorer.read.length)

theorem contentOf_caught {files : FileSystem} {tail : Tail} {id : FileId} {read : List UInt8}
    (h : tail.Caught read id) :
    contentOf files tail = files.content id := by
  rw [contentOf, h.file]
  rfl

/-- A poll that finds another file than the one that is open, or the first one. -/
theorem polled_opens {id : FileId} (h : explorer.Holds parse)
    (hstep : step parse explorer (.poll meanwhile) = some next) (hpath : explorer.files.path = some id)
    (hfile : ∀ file, explorer.tail.file = some file → file.id ≠ id) :
    ∃ base appended, Polled parse explorer next id base appended := by
  obtain ⟨_, htail, hpolls, hrecords, hread⟩ := step_poll hstep
  have hmalformed : explorer.tail.malformed ≤ u64Max := by
    rcases h.tail with ⟨hnew, _⟩ | ⟨_, hcaught⟩
    · rw [hnew]
      exact Nat.zero_le _
    · exact hcaught.malformed
  obtain ⟨hadvances, hrestarted⟩ : Tail.Advances parse [] (next.files.content id) id _ _ _ ∧ _ :=
    Tail.poll_opens hmalformed hpath hfile
  have hcontent : next.read = next.files.content id := by
    rw [hread, htail, contentOf_caught hadvances.caught]
  refine ⟨[], _, ?_, hcontent, hpolls, hrecords, ?_, ?_, fun _ => hpath, ?_⟩
  · rw [hcontent, htail]
    exact hadvances
  · rcases h.tail with ⟨_, hempty⟩ | ⟨_, hcaught⟩
    · rw [hempty, ite_self]
    · rw [hrestarted, hcaught.file]
      rfl
  · intro current hcurrent
    exact Option.some.inj (hcurrent.symm.trans hpath)
  · rw [hrestarted, Option.isSome_iff_exists]
    constructor
    · rintro ⟨file, hopen⟩
      exact ⟨file, hopen, .inl (hfile file hopen)⟩
    · rintro ⟨file, hopen, _⟩
      exact ⟨file, hopen⟩

/-- A poll that finds the file that is open. -/
theorem polled_continues {id : FileId} (h : explorer.tail.Caught explorer.read id)
    (hstep : step parse explorer (.poll meanwhile) = some next)
    (hpath : ∀ current, explorer.files.path = some current → current = id)
    (hgrows : explorer.read.length ≤ (explorer.files.content id).length → explorer.read <+: next.files.content id) :
    ∃ base appended, Polled parse explorer next id base appended := by
  obtain ⟨_, htail, hpolls, hrecords, hread⟩ := step_poll hstep
  obtain ⟨hrestarted, hadvances⟩ := Tail.poll_continues h hpath hgrows
  have hcontent : next.read = next.files.content id := by
    rw [hread, htail, contentOf_caught hadvances.caught]
  refine ⟨if (explorer.files.content id).length < explorer.read.length then [] else explorer.read, _, ?_, hcontent,
    hpolls, hrecords, ?_, hpath, ?_, ?_⟩
  · rw [hcontent, htail]
    exact hadvances
  · simp only [hrestarted]
  · intro hne
    exact absurd rfl (hne _ h.file)
  · rw [hrestarted]
    constructor
    · intro hshort
      exact ⟨_, h.file, .inr hshort⟩
    · rintro ⟨file, hopen, hne | hshort⟩
      · rw [h.file] at hopen
        cases hopen
        exact absurd rfl hne
      · exact hshort

/-- What a poll does, provided a file that has not become shorter still begins with what was read of it. -/
theorem poll_outcome (h : explorer.Holds parse) (hstep : step parse explorer (.poll meanwhile) = some next)
    (hgrows : ∀ id, explorer.tail.Caught explorer.read id →
      explorer.read.length ≤ (explorer.files.content id).length → explorer.read <+: next.files.content id) :
    (explorer.tail = .new ∧ explorer.files.path = none ∧ next.tail = .new ∧ next.read = [] ∧
        next.polls = ⟨[], false⟩ :: explorer.polls ∧ next.records = explorer.records) ∨
      ∃ id base appended, Polled parse explorer next id base appended := by
  rcases h.tail with ⟨hnew, _⟩ | ⟨id, hcaught⟩
  · have hfile : explorer.tail.file = none := by rw [hnew]; rfl
    cases hpath : explorer.files.path with
    | none =>
        obtain ⟨_, htail, hpolls, hrecords, hread⟩ := step_poll hstep
        rw [Tail.poll_absent hfile hpath] at htail hpolls hrecords
        refine .inl ⟨hnew, rfl, htail.trans hnew, ?_, hpolls, ?_⟩
        · rw [hread, htail, contentOf, hfile]
          rfl
        · rw [hrecords, refresh, if_neg Bool.false_ne_true, List.append_nil]
    | some id =>
        refine .inr ⟨id, polled_opens h hstep hpath ?_⟩
        intro file hopen
        rw [hfile] at hopen
        cases hopen
  · by_cases hsame : ∀ current, explorer.files.path = some current → current = id
    · exact .inr ⟨id, polled_continues hcaught hstep hsame (hgrows id hcaught)⟩
    · push Not at hsame
      obtain ⟨current, hpath, hne⟩ := hsame
      refine .inr ⟨current, polled_opens h hstep hpath ?_⟩
      intro file hopen
      rw [hcaught.file] at hopen
      cases hopen
      exact Ne.symm hne

theorem Polled.holds {id : FileId} {base : List UInt8} {appended : Appended} (h : explorer.Holds parse)
    (hpolled : Polled parse explorer next id base appended) : next.Holds parse := by
  refine ⟨?_, .inr ⟨id, hpolled.advances.caught⟩⟩
  rw [hpolled.advances.records, hpolled.records, refresh, hpolled.base]
  cases appended.restarted with
  | true => rfl
  | false => rw [if_neg Bool.false_ne_true, if_neg Bool.false_ne_true, h.records]

/-- While no poll restarts, the lines that do not parse are counted once. -/
theorem Polled.malformed {id : FileId} {base : List UInt8} {appended : Appended}
    (hpolled : Polled parse explorer next id base appended)
    (hbase : explorer.tail.malformed = unparsed parse (split newline base).1) :
    next.tail.malformed = unparsed parse (split newline next.read).1 := by
  obtain ⟨count, hcount, hmalformed⟩ := hpolled.advances.malformed
  have hbound : unparsed parse (split newline next.read).1 ≤ u64Max := by
    apply unparsed_le next.read
    rw [hpolled.read]
    exact next.files.bounded id
  rw [hmalformed, hbase, hcount]
  rw [hcount] at hbound
  exact Nat.min_eq_left hbound

/-- What holds of the reader of files that only grow. -/
structure Growing (parse : List UInt8 → Option LogRecord) (explorer : Explorer) : Prop where
  holds : explorer.Holds parse
  grows : ∀ id, explorer.tail.Caught explorer.read id → explorer.read <+: explorer.files.content id
  counted : (∀ appended ∈ explorer.polls, appended.restarted = false) →
    explorer.tail.malformed = unparsed parse (split newline explorer.read).1
  collected : (∀ appended ∈ explorer.polls, appended.restarted = false) →
    explorer.records = (explorer.polls.map Appended.records).reverse.flatten

theorem growing_start (files : FileSystem) : (start files).Growing parse where
  holds := ⟨rfl, .inl ⟨rfl, rfl⟩⟩
  grows := fun _ _ => List.nil_prefix
  counted := fun _ => rfl
  collected := fun _ => rfl

theorem growing_write {write : Write} (h : explorer.Growing parse) (hkeeps : write.Keeps)
    (hstep : step parse explorer (.write write) = some next) : next.Growing parse := by
  obtain ⟨files, hfiles, rfl⟩ := step_write hstep
  exact ⟨⟨h.holds.records, h.holds.tail⟩,
    fun id hcaught => (h.grows id hcaught).trans (FileSystem.write_keeps hkeeps hfiles id), h.counted, h.collected⟩

theorem growing_poll (h : explorer.Growing parse) (hkeeps : ∀ write ∈ meanwhile, write.Keeps)
    (hstep : step parse explorer (.poll meanwhile) = some next) : next.Growing parse := by
  have hgrows : ∀ id, explorer.tail.Caught explorer.read id →
      explorer.read.length ≤ (explorer.files.content id).length → explorer.read <+: next.files.content id := by
    intro id hcaught _
    exact (h.grows id hcaught).trans (FileSystem.writeAll_keeps hkeeps (step_poll hstep).1 id)
  rcases poll_outcome h.holds hstep hgrows with ⟨hnew, _, htail, hread, hpolls, hrecords⟩ |
    ⟨id, base, appended, hpolled⟩
  · have hempty : explorer.read = [] := by
      rcases h.holds.tail with ⟨_, hempty⟩ | ⟨id, hcaught⟩
      · exact hempty
      · have hfile := hcaught.file
        rw [hnew] at hfile
        cases hfile
    refine ⟨⟨?_, .inl ⟨htail, hread⟩⟩, fun id _ => ?_, fun _ => ?_, fun hcalm => ?_⟩
    · rw [hrecords, hread, h.holds.records, hempty]
    · rw [hread]
      exact List.nil_prefix
    · rw [htail, hread]
      rfl
    · rw [hpolls] at hcalm ⊢
      rw [hrecords, h.collected fun older hmem => hcalm older (List.mem_cons_of_mem _ hmem)]
      simp
  · refine ⟨hpolled.holds h.holds, ?_, ?_, ?_⟩
    · intro other hcaught
      have hfile := hcaught.file
      rw [hpolled.advances.caught.file] at hfile
      cases hfile
      rw [hpolled.read]
    · intro hcalm
      rw [hpolled.polls] at hcalm
      apply hpolled.malformed
      rw [hpolled.base, hcalm appended List.mem_cons_self, if_neg Bool.false_ne_true]
      exact h.counted fun older hmem => hcalm older (List.mem_cons_of_mem _ hmem)
    · intro hcalm
      rw [hpolled.polls] at hcalm ⊢
      rw [hpolled.records, refresh, hcalm appended List.mem_cons_self, if_neg Bool.false_ne_true,
        h.collected fun older hmem => hcalm older (List.mem_cons_of_mem _ hmem)]
      simp

theorem growing_of_run {record : List (Step Explorer LogAction)}
    (hrun : Run (logSystem parse) AppendOnly record explorer) :
    explorer.Growing parse := by
  refine hrun.invariant (I := Growing parse) ?_ ?_
  · rintro _ ⟨files, rfl⟩
    exact growing_start files
  · intro state action next h hguard hstep
    cases action with
    | write write => exact growing_write h hguard hstep
    | poll meanwhile => exact growing_poll h hguard hstep

end Explorer

/-- A poll of a log that only grows leaves the reader with the records of every complete line of the file it has
open, whose other bytes it holds back. It restarts when the path names another file than the one that is
open, and then goes on with that file. -/
theorem every_line_is_read_once (parse : List UInt8 → Option LogRecord) (record : List (Step Explorer LogAction))
    (explorer next : Explorer) (meanwhile : List Write) (hrun : Run (logSystem parse) AppendOnly record explorer)
    (hkeeps : AppendOnly explorer (.poll meanwhile))
    (hpoll : (logSystem parse).step explorer (.poll meanwhile) = some next) :
    next.read = Explorer.contentOf next.files next.tail ∧ next.tail.offset = next.read.length ∧
      (∃ lines, Splits newline next.read lines next.tail.partialLine ∧ next.records = parsed parse lines ∧
        ((∀ appended ∈ next.polls, appended.restarted = false) →
          next.tail.malformed = unparsed parse lines ∧
            next.records = (next.polls.map Appended.records).reverse.flatten)) ∧
      (∀ current, explorer.files.path = some current → ∃ position, next.tail.file = some ⟨current, position⟩) ∧
      ∃ appended, next.polls = appended :: explorer.polls ∧
        (appended.restarted = true → next.records = appended.records) ∧
        (appended.restarted = true ↔ ∃ file current, explorer.tail.file = some file ∧
          explorer.files.path = some current ∧ current ≠ file.id) := by
  have hgrowing := Explorer.growing_of_run hrun
  have hnext := Explorer.growing_poll hgrowing hkeeps hpoll
  have hgrows : ∀ id, explorer.tail.Caught explorer.read id →
      explorer.read.length ≤ (explorer.files.content id).length → explorer.read <+: next.files.content id := by
    intro id hcaught _
    exact (hgrowing.grows id hcaught).trans (FileSystem.writeAll_keeps hkeeps (Explorer.step_poll hpoll).1 id)
  refine ⟨(Explorer.step_poll hpoll).2.2.2.2, ?_, ⟨(split newline next.read).1, ?_, hnext.holds.records,
    fun hcalm => ⟨hnext.counted hcalm, hnext.collected hcalm⟩⟩, ?_, ?_⟩
  · rcases hnext.holds.tail with ⟨hnew, hempty⟩ | ⟨id, hcaught⟩
    · rw [hnew, hempty]
      rfl
    · exact hcaught.offset
  · rcases hnext.holds.tail with ⟨hnew, hempty⟩ | ⟨id, hcaught⟩
    · rw [hnew, hempty]
      exact split_splits newline []
    · rw [hcaught.partialLine]
      exact split_splits newline next.read
  · intro current hcurrent
    rcases Explorer.poll_outcome hgrowing.holds hpoll hgrows with ⟨_, habsent, _⟩ | ⟨id, base, appended, hpolled⟩
    · rw [habsent] at hcurrent
      cases hcurrent
    · rw [hpolled.names current hcurrent]
      exact ⟨_, hpolled.advances.caught.file⟩
  · rcases Explorer.poll_outcome hgrowing.holds hpoll hgrows with
      ⟨hnew, habsent, _, _, hpolls, _⟩ | ⟨id, base, appended, hpolled⟩
    · refine ⟨_, hpolls, fun hrestarted => Bool.noConfusion hrestarted,
        fun hrestarted => Bool.noConfusion hrestarted, ?_⟩
      rintro ⟨file, current, _, hcurrent, _⟩
      rw [habsent] at hcurrent
      cases hcurrent
    · refine ⟨appended, hpolled.polls, ?_, ?_⟩
      · intro hrestarted
        rw [hpolled.records, Explorer.refresh, if_pos hrestarted]
      · rw [hpolled.restarted]
        constructor
        · rintro ⟨file, hopen, hchanged⟩
          by_cases hsame : file.id = id
          · -- the file that is open has only grown
            have hcaught : explorer.tail.Caught explorer.read id := by
              rcases hgrowing.holds.tail with ⟨hnew, _⟩ | ⟨other, hcaught⟩
              · rw [hnew] at hopen
                cases hopen
              · rw [hcaught.file] at hopen
                cases hopen
                rw [← hsame]
                exact hcaught
            have hlength := (hgrowing.grows id hcaught).length_le
            rcases hchanged with hother | hshort
            · exact absurd hsame hother
            · omega
          · refine ⟨file, id, hopen, hpolled.moves ?_, Ne.symm hsame⟩
            intro other hother
            rw [hopen] at hother
            cases hother
            exact hsame
        · rintro ⟨file, current, hopen, hcurrent, hne⟩
          rw [hpolled.names current hcurrent] at hne
          exact ⟨file, hopen, .inl (Ne.symm hne)⟩

/-- `{}` is a record with nothing in it, and so is `{ }`. -/
def parseEmptyObject (line : List UInt8) : Option LogRecord :=
  if line.filter (fun byte => !Bytes.isAsciiWhitespace byte) = [123, 125] then some {} else none

def logFile : FileId := ⟨1, 1⟩

def rotatedFile : FileId := ⟨1, 2⟩

def noFiles : FileSystem := ⟨none, fun _ => [], fun _ => Nat.zero_le _⟩

/-- A line in two writes with a poll between, then another file at the path. -/
def appendScript : List LogAction :=
  [.poll [], .write (.link (some logFile)), .write (.append logFile [123]), .poll [.append logFile [125]],
    .write (.append logFile [10, 120, 10]), .poll [], .write (.append rotatedFile [123, 125, 10, 123]),
    .write (.link (some rotatedFile))]

theorem every_line_is_read_once_rotated :
    ∃ record explorer next, Run (logSystem parseEmptyObject) AppendOnly record explorer ∧
      (logSystem parseEmptyObject).step explorer (.poll []) = some next ∧ explorer.records = [{}] ∧
      explorer.tail.malformed = 1 ∧ next.records = [{}] ∧ next.tail.offset = next.read.length ∧
      next.read = [123, 125, 10, 123] := by
  have hfacts : ((logSystem parseEmptyObject).follow (.start noFiles) appendScript).any (fun explorer =>
      decide (explorer.records = [{}]) && decide (explorer.tail.malformed = 1) &&
        ((logSystem parseEmptyObject).step explorer (.poll [])).any fun next =>
          decide (next.records = [{}]) && decide (next.read = [123, 125, 10, 123])) = true := by
    decide +kernel
  obtain ⟨explorer, hexplorer, hfacts⟩ := (Option.any_eq_true _ _).mp hfacts
  obtain ⟨hbefore, hafter⟩ := Bool.and_eq_true_iff.mp hfacts
  obtain ⟨hrecords, hmalformed⟩ := Bool.and_eq_true_iff.mp hbefore
  obtain ⟨next, hnext, hafter⟩ := (Option.any_eq_true _ _).mp hafter
  obtain ⟨hnextRecords, hread⟩ := Bool.and_eq_true_iff.mp hafter
  have hstart : Run (logSystem parseEmptyObject) AppendOnly [] (.start noFiles) := .start ⟨noFiles, rfl⟩
  have hrun := hstart.follow_unguarded _ hexplorer (fun action hmem _ => by
    simp only [appendScript, List.mem_cons, List.not_mem_nil, or_false] at hmem
    rcases hmem with rfl | rfl | rfl | rfl | rfl | rfl | rfl | rfl <;> simp [AppendOnly, Write.Keeps])
  have hresult := every_line_is_read_once parseEmptyObject _ explorer next [] hrun
      (fun _ h => absurd h List.not_mem_nil)
    hnext
  exact ⟨_, explorer, next, hrun, hnext, of_decide_eq_true hrecords, of_decide_eq_true hmalformed,
    of_decide_eq_true hnextRecords, hresult.2.1, of_decide_eq_true hread⟩

/-- The writes to one log file: its creation, appends to it, and its truncation. -/
def Write.OnFile (id : FileId) : Write → Prop
  | .append target _ => target = id
  | .truncate target => target = id
  | .link target => target = some id

/-- One log file is written to, between polls in any way and during polls by appends. -/
structure OneFile (id : FileId) (explorer : Explorer) (action : LogAction) : Prop where
  path : ∀ current, explorer.files.path = some current → current = id
  writes : ∀ write, action = .write write → write.OnFile id
  polls : ∀ meanwhile, action = .poll meanwhile → ∀ write ∈ meanwhile, ∃ chunk, write = .append id chunk

/-- At each poll, the file still begins with what was read of it, or it is shorter than that and no line read so far
was malformed. -/
structure NoticedTruncation (id : FileId) (explorer : Explorer) (action : LogAction) : Prop
    extends OneFile id explorer action where
  noticed : ∀ meanwhile, action = .poll meanwhile → explorer.read <+: explorer.files.content id ∨
    (explorer.files.content id).length < explorer.tail.offset ∧ explorer.tail.malformed = 0

/-- What the log holds now. -/
def Explorer.currentContent (explorer : Explorer) : List UInt8 :=
  (explorer.files.path.map explorer.files.content).getD []

/-- The reader holds the records of the log as it is now. -/
def Explorer.Current (parse : List UInt8 → Option LogRecord) (explorer : Explorer) : Prop :=
  ∃ lines rest, Splits newline explorer.currentContent lines rest ∧ explorer.records = parsed parse lines ∧
    explorer.tail.malformed = unparsed parse lines

namespace Explorer

variable {explorer next : Explorer} {meanwhile : List Write} {id : FileId}

/-- What holds of the reader of one file whose truncations are noticed. -/
structure Rotating (parse : List UInt8 → Option LogRecord) (id : FileId) (explorer : Explorer) : Prop where
  holds : explorer.Holds parse
  opened : ∀ other, explorer.tail.Caught explorer.read other → other = id ∧ explorer.files.path = some id
  counted : explorer.tail.malformed = unparsed parse (split newline explorer.read).1

theorem rotating_start (files : FileSystem) : (start files).Rotating parse id where
  holds := ⟨rfl, .inl ⟨rfl, rfl⟩⟩
  opened := fun _ hcaught => Option.noConfusion rfl (heq_of_eq hcaught.file)
  counted := rfl

theorem write_path {files next : FileSystem} {write : Write} (honFile : write.OnFile id)
    (h : files.write write = some next) (hpath : files.path = some id) : next.path = some id := by
  cases write with
  | append target chunk =>
      simp only [FileSystem.write] at h
      split at h
      · cases h
        exact hpath
      · cases h
  | truncate target =>
      cases h
      exact hpath
  | link target =>
      cases h
      exact honFile

theorem writeAll_path {files next : FileSystem} {writes : List Write}
    (hwrites : ∀ write ∈ writes, ∃ chunk, write = .append id chunk) (h : files.writeAll writes = some next) :
    next.path = files.path ∧ files.content id <+: next.content id := by
  refine ⟨?_, FileSystem.writeAll_keeps (fun write hmem => ?_) h id⟩
  · induction writes generalizing files with
    | nil =>
        cases h
        rfl
    | cons write rest ih =>
        obtain ⟨middle, hmiddle, hnext⟩ := Option.bind_eq_some_iff.mp h
        obtain ⟨chunk, rfl⟩ := hwrites write List.mem_cons_self
        rw [ih (fun other hmem => hwrites other (List.mem_cons_of_mem _ hmem)) hnext]
        simp only [FileSystem.write] at hmiddle
        split at hmiddle
        · cases hmiddle
          rfl
        · cases hmiddle
  · obtain ⟨chunk, rfl⟩ := hwrites write hmem
    trivial

theorem rotating_write {write : Write} (h : explorer.Rotating parse id) (honFile : write.OnFile id)
    (hstep : step parse explorer (.write write) = some next) : next.Rotating parse id := by
  obtain ⟨files, hfiles, rfl⟩ := step_write hstep
  refine ⟨⟨h.holds.records, h.holds.tail⟩, ?_, h.counted⟩
  intro other hcaught
  obtain ⟨hid, hpath⟩ := h.opened other hcaught
  exact ⟨hid, write_path honFile hfiles hpath⟩

theorem rotating_poll (h : explorer.Rotating parse id) (hguard : NoticedTruncation id explorer (.poll meanwhile))
    (hstep : step parse explorer (.poll meanwhile) = some next) : next.Rotating parse id ∧ next.Current parse := by
  obtain ⟨hpath, hcontent⟩ := writeAll_path (hguard.polls meanwhile rfl) (step_poll hstep).1
  have hgrows : ∀ other, explorer.tail.Caught explorer.read other →
      explorer.read.length ≤ (explorer.files.content other).length → explorer.read <+: next.files.content other := by
    intro other hcaught hlength
    rw [(h.opened other hcaught).1] at hlength ⊢
    rcases hguard.noticed meanwhile rfl with hread | ⟨hshort, _⟩
    · exact hread.trans hcontent
    · rw [hcaught.offset] at hshort
      omega
  rcases poll_outcome h.holds hstep hgrows with ⟨hnew, habsent, htail, hread, _, hrecords⟩ |
    ⟨other, base, appended, hpolled⟩
  · have hempty : explorer.records = [] := by
      rcases h.holds.tail with ⟨_, hempty⟩ | ⟨_, hcaught⟩
      · rw [h.holds.records, hempty]
        rfl
      · have hfile := hcaught.file
        rw [hnew] at hfile
        cases hfile
    refine ⟨⟨⟨?_, .inl ⟨htail, hread⟩⟩, ?_, ?_⟩, [], [], ?_, ?_, ?_⟩
    · rw [hrecords, hread, hempty]
      rfl
    · intro other hcaught
      have hfile := hcaught.file
      rw [htail] at hfile
      cases hfile
    · rw [htail, hread]
      rfl
    · rw [currentContent, hpath, habsent]
      exact split_splits newline []
    · rw [hrecords, hempty]
      rfl
    · rw [htail]
      rfl
  · -- the file that is read is the log, and it was a truncation that restarted the tail
    have hopened : other = id ∧ explorer.files.path = some id := by
      by_cases hmoved : ∀ file, explorer.tail.file = some file → file.id ≠ other
      · have hcurrent := hpolled.moves hmoved
        have hid := hguard.path other hcurrent
        rw [hid] at hcurrent
        exact ⟨hid, hcurrent⟩
      · push Not at hmoved
        obtain ⟨file, hopen, hsame⟩ := hmoved
        rcases h.holds.tail with ⟨hnew, _⟩ | ⟨third, hcaught⟩
        · rw [hnew] at hopen
          cases hopen
        · obtain ⟨hid, hcurrent⟩ := h.opened third hcaught
          rw [hcaught.file] at hopen
          cases hopen
          exact ⟨hsame.symm.trans hid, hcurrent⟩
    obtain ⟨rfl, hcurrent⟩ := hopened
    have hbase : explorer.tail.malformed = unparsed parse (split newline base).1 := by
      rw [hpolled.base]
      by_cases hrestarted : appended.restarted = true
      · rw [if_pos hrestarted]
        obtain ⟨file, hopen, hchanged⟩ := hpolled.restarted.mp hrestarted
        rcases h.holds.tail with ⟨hnew, _⟩ | ⟨third, hcaught⟩
        · rw [hnew] at hopen
          cases hopen
        · have hthird := (h.opened third hcaught).1
          rw [hcaught.file] at hopen
          cases hopen
          rcases hguard.noticed meanwhile rfl with hread | ⟨_, hzero⟩
          · have hlength := hread.length_le
            rcases hchanged with hother | hshort
            · exact absurd hthird hother
            · omega
          · rw [hzero]
            rfl
      · rw [if_neg hrestarted]
        exact h.counted
    have hnext : next.Rotating parse other := by
      refine ⟨hpolled.holds h.holds, ?_, hpolled.malformed hbase⟩
      intro third hcaught
      have hfile := hcaught.file
      rw [hpolled.advances.caught.file] at hfile
      cases hfile
      exact ⟨rfl, hpath.trans hcurrent⟩
    refine ⟨hnext, (split newline next.read).1, (split newline next.read).2, ?_, hnext.holds.records, hnext.counted⟩
    rw [currentContent, hpath, hcurrent, hpolled.read]
    exact split_splits newline _

theorem rotating_of_run {record : List (Step Explorer LogAction)}
    (hrun : Run (logSystem parse) (NoticedTruncation id) record explorer) : explorer.Rotating parse id := by
  refine hrun.invariant (I := Rotating parse id) ?_ ?_
  · rintro _ ⟨files, rfl⟩
    exact rotating_start files
  · intro state action next h hguard hstep
    cases action with
    | write write => exact rotating_write h (hguard.writes write rfl) hstep
    | poll meanwhile => exact (rotating_poll h hguard hstep).1

end Explorer

/-- A reader that starts over when told to holds the records of the log after every poll, as long as every poll
notices the truncation before it. -/
theorem noticed_truncations_are_followed (parse : List UInt8 → Option LogRecord) (id : FileId)
    (record : List (Step Explorer LogAction)) (explorer : Explorer)
    (hrun : Run (logSystem parse) (NoticedTruncation id) record explorer) :
    ∀ step ∈ record, ∀ meanwhile, step.action = .poll meanwhile → step.after.Current parse := by
  intro step hmem meanwhile haction
  obtain ⟨older, hstep, _⟩ := hrun.of_mem hmem
  obtain ⟨_, hbefore, hguard, hnext⟩ := hstep.cons_inv
  rw [haction] at hguard hnext
  exact (Explorer.rotating_poll (Explorer.rotating_of_run hbefore) hguard hnext).2

/-- Three records are read, the file is truncated and refilled with one that is a little longer. -/
def refilledScript : List LogAction :=
  [.write (.link (some logFile)), .write (.append logFile [123, 125, 10, 123, 125, 10, 123, 125, 10]), .poll [],
    .write (.truncate logFile), .write (.append logFile [123, 32, 32, 32, 32, 32, 32, 32, 125, 10])]

/-- A malformed line is read, and the file is truncated. -/
def clearedScript : List LogAction :=
  [.write (.link (some logFile)), .write (.append logFile [120, 10]), .poll [], .write (.truncate logFile)]

theorem OneFile.of_script {script : List LogAction}
    (hwrites : ∀ action ∈ script, ∀ write, action = .write write → write.OnFile logFile)
    (hpolls : ∀ action ∈ script, ∀ meanwhile, action = .poll meanwhile → meanwhile = [])
    (hpaths : ((logSystem parse).recordOf (.start noFiles) script []).all
      (fun step => step.before.files.path.all (· == logFile)) = true) :
    ∀ step ∈ (logSystem parse).recordOf (.start noFiles) script [], OneFile logFile step.before step.action := by
  intro step hmem
  have haction := System.action_of_mem_recordOf hmem
  refine ⟨?_, hwrites step.action haction, ?_⟩
  · intro current hcurrent
    have hpath := List.all_eq_true.mp hpaths step hmem
    rw [hcurrent] at hpath
    exact eq_of_beq hpath
  · intro meanwhile hpoll write hwrite
    rw [hpolls step.action haction meanwhile hpoll] at hwrite
    cases hwrite

theorem not_current_of_ne {explorer : Explorer}
    (h : explorer.records ≠ parsed parse (split newline explorer.currentContent).1 ∨
      explorer.tail.malformed ≠ unparsed parse (split newline explorer.currentContent).1) :
    ¬explorer.Current parse := by
  rintro ⟨lines, rest, hsplits, hrecords, hmalformed⟩
  have hlines : (split newline explorer.currentContent).1 = lines := by rw [hsplits.eq_split]
  rw [hlines] at h
  rcases h with hne | hne
  · exact hne hrecords
  · exact hne hmalformed

/-- After the refill the reader holds three records of a log with one; after the truncation it still counts the
line that is gone. -/
theorem truncations_are_missed :
    (∃ record explorer next, Run (logSystem parseEmptyObject) (OneFile logFile) record explorer ∧
        (logSystem parseEmptyObject).follow (.start noFiles) refilledScript = some explorer ∧
        (logSystem parseEmptyObject).step explorer (.poll []) = some next ∧ ¬next.Current parseEmptyObject) ∧
      ∃ record explorer next, Run (logSystem parseEmptyObject) (OneFile logFile) record explorer ∧
        (logSystem parseEmptyObject).follow (.start noFiles) clearedScript = some explorer ∧
        (logSystem parseEmptyObject).step explorer (.poll []) = some next ∧ ¬next.Current parseEmptyObject := by
  have hfacts : ∀ script ∈ [refilledScript, clearedScript],
      ((logSystem parseEmptyObject).follow (.start noFiles) script).any (fun explorer =>
        ((logSystem parseEmptyObject).step explorer (.poll [])).any fun next =>
          decide (next.records ≠ parsed parseEmptyObject (split newline next.currentContent).1) ||
            decide (next.tail.malformed ≠ unparsed parseEmptyObject (split newline next.currentContent).1)) = true ∧
      ((logSystem parseEmptyObject).recordOf (.start noFiles) script []).all
        (fun step => step.before.files.path.all (· == logFile)) = true := by
    decide +kernel
  have hmissed : ∀ script ∈ [refilledScript, clearedScript],
      (∀ action ∈ script, ∀ write, action = .write write → write.OnFile logFile) →
      (∀ action ∈ script, ∀ meanwhile, action = .poll meanwhile → meanwhile = []) →
      ∃ record explorer next, Run (logSystem parseEmptyObject) (OneFile logFile) record explorer ∧
        (logSystem parseEmptyObject).follow (.start noFiles) script = some explorer ∧
        (logSystem parseEmptyObject).step explorer (.poll []) = some next ∧ ¬next.Current parseEmptyObject := by
    intro script hmem hwrites hpolls
    obtain ⟨hfinal, hpaths⟩ := hfacts script hmem
    obtain ⟨explorer, hexplorer, hfinal⟩ := (Option.any_eq_true _ _).mp hfinal
    obtain ⟨next, hnext, hne⟩ := (Option.any_eq_true _ _).mp hfinal
    have hstart : Run (logSystem parseEmptyObject) (OneFile logFile) [] (.start noFiles) := .start ⟨noFiles, rfl⟩
    refine ⟨_, explorer, next, hstart.follow script hexplorer (OneFile.of_script hwrites hpolls hpaths), hexplorer,
      hnext, not_current_of_ne ?_⟩
    rw [Bool.or_eq_true, decide_eq_true_eq, decide_eq_true_eq] at hne
    exact hne
  refine ⟨hmissed refilledScript (by simp) ?_ ?_, hmissed clearedScript (by simp) ?_ ?_⟩ <;>
    simp [refilledScript, clearedScript, Write.OnFile]

/-- The log is truncated and the next record is shorter than what was read. -/
def rotatedScript : List LogAction :=
  [.write (.link (some logFile)), .write (.append logFile [123, 125, 10, 123, 125, 10]), .poll [],
    .write (.truncate logFile), .write (.append logFile [123, 125, 10]), .poll []]

theorem noticed_truncations_are_followed_rotated :
    ∃ record explorer, Run (logSystem parseEmptyObject) (NoticedTruncation logFile) record explorer ∧
      record.length = 6 ∧ explorer.records = [{}] ∧
      ∀ step ∈ record, ∀ meanwhile, step.action = .poll meanwhile → step.after.Current parseEmptyObject := by
  have hfacts : ((logSystem parseEmptyObject).follow (.start noFiles) rotatedScript).any (fun explorer =>
      decide (explorer.records = [{}])) = true ∧
      ((logSystem parseEmptyObject).recordOf (.start noFiles) rotatedScript []).all
        (fun step => step.before.files.path.all (· == logFile)) = true ∧
      ((logSystem parseEmptyObject).recordOf (.start noFiles) rotatedScript []).all (fun step =>
        step.before.read.isPrefixOf (step.before.files.content logFile) ||
          decide ((step.before.files.content logFile).length < step.before.tail.offset) &&
            decide (step.before.tail.malformed = 0)) = true ∧
      ((logSystem parseEmptyObject).recordOf (.start noFiles) rotatedScript []).length = 6 := by
    decide +kernel
  obtain ⟨hfinal, hpaths, hnoticed, hlength⟩ := hfacts
  obtain ⟨explorer, hexplorer, hrecords⟩ := (Option.any_eq_true _ _).mp hfinal
  have hone := OneFile.of_script (by simp [rotatedScript, Write.OnFile]) (by simp [rotatedScript]) hpaths
  have hstart : Run (logSystem parseEmptyObject) (NoticedTruncation logFile) [] (.start noFiles) :=
    .start ⟨noFiles, rfl⟩
  have hrun := hstart.follow rotatedScript hexplorer (fun step hmem => by
    refine ⟨hone step hmem, ?_⟩
    intro meanwhile _
    have hstep := List.all_eq_true.mp hnoticed step hmem
    simpa using hstep)
  exact ⟨_, explorer, hrun, hlength, of_decide_eq_true hrecords,
    noticed_truncations_are_followed parseEmptyObject logFile _ explorer hrun⟩

end MistralrsProxy
