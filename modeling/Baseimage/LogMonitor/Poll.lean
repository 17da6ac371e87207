import Baseimage.LogMonitor.Read

/-!
# One poll of a monitored file

The body of the main loop for one monitored file: skip a status file that was read recently,
re-open the file when the path names another inode than the descriptor, detect a change of a
status file, and read up to the end of the file in chunks of `BUFSIZ` bytes.

The file system is what the loop can see of it. A file keeps its identity when it is renamed and
stays readable through an open descriptor, so contents are looked up by identity and the
monitored path names at most one of them. `BUFSIZ` belongs to the C library and is a parameter.
-/

namespace Baseimage.LogMonitor

/-- Device and inode number, which identify a file. -/
structure FileId where
  stDev : Nat
  stIno : Nat
  deriving DecidableEq, Repr

structure File where
  content : Str
  mtime : Int := 0
  /-- Whether `open` is allowed. -/
  readable : Bool := true
  deriving DecidableEq, Repr

/-- The file system around one monitored path. -/
structure FileSystem where
  path : Option FileId
  file : FileId → File

/-- The fields of `struct stat` that the monitor compares. -/
structure Stat where
  stSize : Nat
  stMtime : Int
  id : FileId
  deriving DecidableEq, Repr

def FileSystem.fstat (fs : FileSystem) (id : FileId) : Stat :=
  { stSize := (fs.file id).content.length, stMtime := (fs.file id).mtime, id := id }

/-- `stat` on the monitored path; `none` is a failure. -/
def FileSystem.stat (fs : FileSystem) : Option Stat := fs.path.map fs.fstat

/-- `open` on the monitored path; `none` is a failure. -/
def FileSystem.open (fs : FileSystem) : Option FileId :=
  fs.path.filter (fun id => (fs.file id).readable)

/-- An open file and the position of its descriptor. -/
structure Descriptor where
  id : FileId
  offset : Nat
  deriving DecidableEq, Repr

/-- `lm_monitored_file_t`, without the path. -/
structure MonitoredFile where
  isStatus : Bool
  fd : Option Descriptor
  lastRead : Int := 0
  lastStat : Stat := { stSize := 0, stMtime := 0, id := { stDev := 0, stIno := 0 } }
  pendingBuf : Option Str := none
  deriving DecidableEq, Repr

/-- `STATUS_FILE_READ_INTERVAL`, in seconds. -/
def statusFileReadInterval : Int := 5

/-- Opening of the file at start-up: a log file is followed from its end. -/
def openAtStart (fs : FileSystem) (isStatus : Bool) : MonitoredFile :=
  { isStatus := isStatus
    fd := fs.open.map (fun id =>
      { id := id, offset := if isStatus then 0 else (fs.file id).content.length }) }

/-- The descriptor must be replaced: there is none, or the path does not name its file. -/
def needsReopen (fs : FileSystem) (fd : Option Descriptor) : Bool :=
  match fd, fs.stat with
  | some d, some st => d.id != st.id
  | _, _ => true

/-- "Re-open the file if needed." The old descriptor is closed as it is. -/
def reopen (fs : FileSystem) (fd : Option Descriptor) : Option Descriptor :=
  if needsReopen fs fd then fs.open.map (fun id => { id := id, offset := 0 }) else fd

/-- How a poll goes on once the file is open. -/
inductive Polled where
  /-- The file could not be opened. -/
  | closed
  /-- "Status file is the same. Skip it." -/
  | same
  /-- Read on from the descriptor. -/
  | reading (d : Descriptor)
  deriving DecidableEq, Repr

/-- The first half of a poll, up to the reading loop: `stat`, re-opening, and for a status file
the detection of a change and the move to its beginning. -/
def startPoll (fs : FileSystem) (mf : MonitoredFile) : Polled × MonitoredFile :=
  match reopen fs mf.fd with
  | none => (.closed, { mf with fd := none })
  | some d =>
      if mf.isStatus then
        match fs.stat with
        | some st =>
            if st = mf.lastStat then (.same, { mf with fd := some d })
            else
              (.reading { d with offset := 0 },
                { mf with fd := some { d with offset := 0 }, lastStat := st })
        | none => (.reading { d with offset := 0 }, { mf with fd := some { d with offset := 0 } })
      else (.reading d, { mf with fd := some d })

/-- "Check if the file has been truncated." -/
def rewindIfTruncated (fs : FileSystem) (d : Descriptor) : Descriptor :=
  if (fs.file d.id).content.length < d.offset then { d with offset := 0 } else d

/-- `tail_read`: at most `bufsiz` bytes at the position of the descriptor. -/
def tailRead (bufsiz : Nat) (fs : FileSystem) (d : Descriptor) : Str :=
  ((fs.file d.id).content.drop d.offset).take bufsiz

/-- One round of the loop "Read the file until its end": `none` when nothing is left to read,
otherwise the lines handled and the new state of the file. -/
def readOnce (bufsiz : Nat) (malloc : Nat → Bool) (fs : FileSystem) (d : Descriptor)
    (mf : MonitoredFile) : Option (List Str × Descriptor × MonitoredFile) :=
  let d := rewindIfTruncated fs d
  let tailbuf := tailRead bufsiz fs d
  if tailbuf.length = 0 then none
  else
    let after : Descriptor := { d with offset := d.offset + tailbuf.length }
    let handled := handleRead malloc mf.pendingBuf (CString.ofBuffer tailbuf)
    some (handled.1, after, { mf with fd := some after, pendingBuf := handled.2 })

/-- The reading loop on a file that does not change meanwhile. `fuel` bounds the number of
rounds; every round but the last one reads at least one byte. -/
def readToEnd (bufsiz : Nat) (malloc : Nat → Bool) (fs : FileSystem) :
    Nat → Descriptor → MonitoredFile → List Str × MonitoredFile
  | 0, _, mf => ([], mf)
  | fuel + 1, d, mf =>
      match readOnce bufsiz malloc fs d mf with
      | none => ([], mf)
      | some (lines, d', mf') =>
          let rest := readToEnd bufsiz malloc fs fuel d' mf'
          (lines ++ rest.1, rest.2)

/-- What a poll meets: the file system, and the clock when the poll starts and when it ends. -/
structure Observation where
  fs : FileSystem
  now : Int
  done : Int

/-- A poll that read the file: the content that was there and the lines that were handled. -/
structure Reading where
  content : Str
  lines : List Str
  deriving DecidableEq, Repr

/-- One whole poll. The result is `none` when nothing was read. -/
def poll (bufsiz : Nat) (malloc : Nat → Bool) (o : Observation) (mf : MonitoredFile) :
    Option Reading × MonitoredFile :=
  if mf.isStatus && decide (o.now - mf.lastRead < statusFileReadInterval) then (none, mf)
  else
    match startPoll o.fs mf with
    | (.closed, mf) => (none, mf)
    | (.same, mf) => (none, { mf with lastRead := o.done })
    | (.reading d, mf) =>
        let content := (o.fs.file d.id).content
        let result := readToEnd bufsiz malloc o.fs (content.length + 1) d mf
        (some { content := content, lines := result.1 }, { result.2 with lastRead := o.done })

/-- The polls of a run that read the file, in order. -/
def readings (bufsiz : Nat) (malloc : Nat → Bool) :
    List Observation → MonitoredFile → List Reading
  | [], _ => []
  | o :: os, mf =>
      let step := poll bufsiz malloc o mf
      step.1.toList ++ readings bufsiz malloc os step.2

variable {bufsiz : Nat} {malloc : Nat → Bool} {fs : FileSystem}

theorem readOnce_eq_none {d : Descriptor} {mf : MonitoredFile}
    (h : (fs.file d.id).content.length = d.offset) : readOnce bufsiz malloc fs d mf = none := by
  have tail : rewindIfTruncated fs d = d := by
    simp [rewindIfTruncated, h]
  simp [readOnce, tail, tailRead, ← h]

/-- A round that reads something: the chunk is the next piece of the content, and the pending
data takes one step of the assembler. -/
theorem readOnce_eq_some (hmalloc : ∀ n, malloc n = true) {d : Descriptor}
    {mf : MonitoredFile} {held chunk rest : Str} (hpending : mf.pendingBuf = pendingOf held)
    (hcontent : (fs.file d.id).content.drop d.offset = chunk ++ rest)
    (hchunk : chunk = (chunk ++ rest).take bufsiz) (hne : chunk ≠ [])
    (hnul : CString.NulFree chunk) (hheld : Lines.Open isLf held)
    (fits : held.length + chunk.length + 1 ≤ maxWorkBuf) :
    readOnce bufsiz malloc fs d mf =
      some (linesOf (Lines.feed isLf held chunk).1,
        { d with offset := d.offset + chunk.length },
        { mf with
          fd := some { d with offset := d.offset + chunk.length }
          pendingBuf := pendingOf (Lines.feed isLf held chunk).2 }) := by
  have inside : d.offset ≤ (fs.file d.id).content.length := by
    have hlen := congrArg List.length hcontent
    have := List.length_pos_of_ne_nil hne
    simp only [List.length_drop, List.length_append] at hlen
    omega
  have same : rewindIfTruncated fs d = d := by
    simp [rewindIfTruncated, Nat.not_lt.mpr inside]
  have read : tailRead bufsiz fs d = chunk := by
    rw [tailRead, hcontent, ← hchunk]
  have some_read : ¬ chunk.length = 0 := by simpa using hne
  simp only [readOnce, same, read, if_neg some_read, hpending, CString.ofBuffer_of_nulFree hnul,
    handleRead_eq_feed hmalloc hne hheld fits]

/-- The reading loop takes the whole unread rest through the assembler, however it is cut into
chunks, and leaves the descriptor at the end of the file. -/
theorem readToEnd_eq_feed (hbuf : 0 < bufsiz) (hmalloc : ∀ n, malloc n = true) {fuel : Nat}
    {d : Descriptor} {mf : MonitoredFile} {held rest : Str}
    (hpending : mf.pendingBuf = pendingOf held)
    (hcontent : (fs.file d.id).content.drop d.offset = rest)
    (hoffset : d.offset ≤ (fs.file d.id).content.length) (hfuel : rest.length < fuel)
    (hnul : CString.NulFree rest) (hheld : Lines.Open isLf held)
    (fits : held.length + rest.length + 1 ≤ maxWorkBuf) :
    (readToEnd bufsiz malloc fs fuel d mf).1 = linesOf (Lines.feed isLf held rest).1 ∧
      (readToEnd bufsiz malloc fs fuel d mf).2.pendingBuf =
        pendingOf (Lines.feed isLf held rest).2 := by
  induction fuel generalizing d mf held rest with
  | zero => exact absurd hfuel (Nat.not_lt_zero _)
  | succ fuel ih =>
      by_cases hne : rest = []
      · subst hne
        have atEnd : (fs.file d.id).content.length = d.offset := by
          have := List.drop_eq_nil_iff.mp hcontent
          omega
        simp [readToEnd, readOnce_eq_none atEnd, hpending]
      · obtain ⟨chunk, later, hcut, hchunk⟩ : ∃ chunk later,
            rest = chunk ++ later ∧ chunk = rest.take bufsiz :=
          ⟨_, _, (List.take_append_drop bufsiz rest).symm, rfl⟩
        have hchunkNe : chunk ≠ [] := by
          rw [hchunk, ne_eq, List.take_eq_nil_iff]
          rintro (zero | empty)
          · omega
          · exact hne empty
        have hchunkPos := List.length_pos_of_ne_nil hchunkNe
        have hlength : rest.length = chunk.length + later.length := by
          rw [hcut, List.length_append]
        have hread : chunk = (chunk ++ later).take bufsiz := by rw [← hcut]; exact hchunk
        have round := readOnce_eq_some hmalloc hpending (hcontent.trans hcut) hread hchunkNe
          (fun member => hnul (by rw [hcut]; exact List.mem_append_left _ member)) hheld (by omega)
        have restLength := congrArg List.length hcontent
        rw [List.length_drop] at restLength
        have heldLength : (Lines.feed isLf held chunk).2.length ≤ held.length + chunk.length := by
          have conserved := congrArg List.length (Lines.feed_flatten isLf held chunk)
          have := List.length_filter_le (fun c => !isLf c) chunk
          simp only [List.length_append] at conserved
          omega
        have hnext : MonitoredFile.pendingBuf
            { mf with
              fd := some { d with offset := d.offset + chunk.length }
              pendingBuf := pendingOf (Lines.feed isLf held chunk).2 } =
            pendingOf (Lines.feed isLf held chunk).2 := rfl
        have hlater : (fs.file d.id).content.drop (d.offset + chunk.length) = later := by
          rw [← List.drop_drop, hcontent, hcut, List.drop_left]
        obtain ⟨lines, pending⟩ :=
          ih (d := { d with offset := d.offset + chunk.length }) hnext hlater
          (by simp only; omega) (by omega)
          (fun member => hnul (by rw [hcut]; exact List.mem_append_right _ member))
          (Lines.open_feed hheld chunk) (by omega)
        simp only [readToEnd, round, lines, pending, hcut, Lines.feed_append, linesOf_append,
          and_self]

end Baseimage.LogMonitor
