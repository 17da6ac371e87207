import Baseimage.LogMonitor.Poll
import Baseimage.Run.Actions

/-!
# Following a log file across rotations

Writers append complete lines to a log file while `logrotate` renames the file away and creates
an empty one at its path, and the monitor polls in between. The parties' actions interleave
freely: the reading loop of a poll is one action for each round, so writers and rotations may
fall between any two rounds.

The monitor loses a line in one situation only. When it finds that the path names another file,
it closes the old descriptor as it is, and whatever was appended to the old file after the last
round that read it is gone. In every run where no poll re-opens the path with unread data behind
the descriptor, the lines handled are the lines appended.
-/

namespace Baseimage.LogMonitor.Rotation

/-- A line as it is written, without its line feed: not empty, without NUL, and short enough for
the work buffer whatever chunk comes with it. -/
def ValidLine (bufsiz : Nat) (raw : Str) : Prop :=
  '\n' ∉ raw ∧ CString.NulFree raw ∧ stripCr raw ≠ [] ∧ raw.length + bufsiz + 2 < maxWorkBuf

instance (bufsiz : Nat) (raw : Str) : Decidable (ValidLine bufsiz raw) :=
  inferInstanceAs (Decidable (_ ∧ _))

/-- The monitor, the file system, and what a reader of the history needs to know. -/
structure Config where
  fs : FileSystem
  mf : MonitoredFile
  /-- The descriptor, while a poll is in its reading loop. -/
  reading : Option Descriptor := none
  /-- The lines appended since start-up, and the lines passed to `handle_line`. -/
  appended : List Str := []
  handled : List Str := []
  /-- A whole poll has happened since the last rotation. -/
  polled : Bool := true
  /-- No rotation has happened since the current poll began. -/
  undisturbed : Bool := true
  /-- Nothing has been appended since the current poll began. -/
  quiet : Bool := true

inductive Action where
  /-- A writer appends a line to the file the path names. -/
  | append (raw : Str)
  /-- `logrotate` renames the file away and creates an empty one at the path. -/
  | rotate (new : FileId)
  /-- The monitor begins a poll. -/
  | startPoll
  /-- One round of the reading loop. A round that reads nothing ends the poll. -/
  | readRound
  deriving DecidableEq, Repr

def setFile (fs : FileSystem) (id : FileId) (f : File) : FileSystem :=
  { fs with file := fun other => if other = id then f else fs.file other }

def appendTo (fs : FileSystem) (id : FileId) (data : Str) : FileSystem :=
  setFile fs id { fs.file id with content := (fs.file id).content ++ data }

/-- A new file never has the identity of a file that is open or that the path names. -/
def Fresh (c : Config) (new : FileId) : Prop :=
  c.fs.path ≠ some new ∧ c.mf.fd.map Descriptor.id ≠ some new

instance (c : Config) (new : FileId) : Decidable (Fresh c new) :=
  inferInstanceAs (Decidable (_ ∧ _))

/-- One action of the run; `none` when it is not possible. -/
def step (bufsiz : Nat) (malloc : Nat → Bool) (c : Config) : Action → Option Config
  | .append raw =>
      match c.fs.path with
      | none => none
      | some id =>
          if ValidLine bufsiz raw then
            some { c with
              fs := appendTo c.fs id (raw ++ ['\n'])
              appended := c.appended ++ [stripCr raw]
              quiet := false }
          else none
  | .rotate new =>
      if c.polled = true ∧ Fresh c new then
        some { c with
          fs := { setFile c.fs new { content := [] } with path := some new }
          polled := false
          undisturbed := false }
      else none
  | .startPoll =>
      match c.reading with
      | some _ => none
      | none =>
          match LogMonitor.startPoll c.fs c.mf with
          | (.reading d, mf) =>
              some { c with mf := mf, reading := some d, undisturbed := true, quiet := true }
          | (_, mf) => some { c with mf := mf }
  | .readRound =>
      match c.reading with
      | none => none
      | some d =>
          match readOnce bufsiz malloc c.fs d c.mf with
          | none => some { c with reading := none, polled := c.polled || c.undisturbed }
          | some (lines, d', mf) =>
              some { c with mf := mf, reading := some d', handled := c.handled ++ lines }

/-- What is still unread behind the open descriptor. -/
def unreadBehind (c : Config) : Str :=
  match c.mf.fd with
  | none => []
  | some d => (c.fs.file d.id).content.drop d.offset

/-- A poll that finds the path rotated leaves nothing unread behind the old descriptor. -/
def Drained (c : Config) (a : Action) : Prop :=
  a = .startPoll → c.reading = none → needsReopen c.fs c.mf.fd = true → unreadBehind c = []

instance (c : Config) (a : Action) : Decidable (Drained c a) :=
  inferInstanceAs (Decidable (_ → _ → _ → _))

/-- The monitor has just been started on a log file that holds only complete lines. -/
def start (fs : FileSystem) : Config := { fs := fs, mf := openAtStart fs false }

/-- The bytes of a list of lines as writers append them. -/
def written (raws : List Str) : Str := raws.flatMap (fun raw => raw ++ ['\n'])

@[simp] theorem setFile_path (fs : FileSystem) (id : FileId) (f : File) :
    (setFile fs id f).path = fs.path := rfl

@[simp] theorem setFile_same (fs : FileSystem) (id : FileId) (f : File) :
    (setFile fs id f).file id = f := by
  simp [setFile]

theorem setFile_ne (fs : FileSystem) {id other : FileId} (f : File) (h : other ≠ id) :
    (setFile fs id f).file other = fs.file other := by
  simp [setFile, h]

@[simp] theorem written_nil : written [] = [] := rfl

theorem written_append (xs ys : List Str) : written (xs ++ ys) = written xs ++ written ys := by
  simp [written]

theorem written_singleton (raw : Str) : written [raw] = raw ++ ['\n'] := by
  simp [written]

variable {bufsiz : Nat} {malloc : Nat → Bool}

/-- Lines written one after the other are cut apart again, and nothing is left over. -/
theorem feed_written {raws : List Str} (h : ∀ raw ∈ raws, ValidLine bufsiz raw) :
    Lines.feed isLf [] (written raws) = (raws, []) := by
  have pieces := Lines.feed_pieces isLf (t := '\n') rfl raws
    (fun raw hraw => open_isLf.mpr (h raw hraw).1) []
  simpa [written] using pieces

/-- Valid lines are handled one for one: none of them is empty. -/
theorem linesOf_valid {raws : List Str} (h : ∀ raw ∈ raws, ValidLine bufsiz raw) :
    linesOf raws = raws.map stripCr := by
  rw [linesOf, List.filter_eq_self]
  intro line hline
  obtain ⟨raw, hraw, rfl⟩ := List.mem_map.mp hline
  simpa [List.length_pos_iff] using (h raw hraw).2.2.1

theorem nulFree_written {raws : List Str} (h : ∀ raw ∈ raws, ValidLine bufsiz raw) :
    CString.NulFree (written raws) := by
  intro member
  obtain ⟨raw, hraw, inside⟩ := List.mem_flatMap.mp member
  rcases List.mem_append.mp inside with here | lf
  · exact (h raw hraw).2.1 here
  · exact absurd (List.mem_singleton.mp lf) (by decide)

/-- The state of a run that has lost nothing. The descriptor is on file `d.id` and the path
names `id`. The lines `behind` are on their way through the descriptor: their first bytes are
pending and the others unread. The lines `ahead` are in a file that replaced the one that is
open, and none of them has been read. -/
structure Inv (bufsiz : Nat) (c : Config) (d : Descriptor) (id : FileId) (held : Str)
    (behind ahead : List Str) : Prop where
  fd : c.mf.fd = some d
  reading : ∀ d', c.reading = some d' → d' = d
  path : c.fs.path = some id
  readable : (c.fs.file id).readable = true
  log : c.mf.isStatus = false
  pending : c.mf.pendingBuf = pendingOf held
  held_open : Lines.Open isLf held
  offset : d.offset ≤ (c.fs.file d.id).content.length
  behind_valid : ∀ raw ∈ behind, ValidLine bufsiz raw
  ahead_valid : ∀ raw ∈ ahead, ValidLine bufsiz raw
  behind_eq : held ++ (c.fs.file d.id).content.drop d.offset = written behind
  ahead_same : d.id = id → ahead = []
  ahead_eq : d.id ≠ id → (c.fs.file id).content = written ahead
  appended : c.appended = c.handled ++ (behind ++ ahead).map stripCr
  polled : c.polled = true → d.id = id
  undisturbed : c.reading ≠ none → c.undisturbed = true → d.id = id
  quiet : c.quiet = true → ahead = []
  idle : c.quiet = true → c.reading = none → behind = []

/-- Some file is followed and nothing has been lost. -/
def NothingLost (bufsiz : Nat) (c : Config) : Prop :=
  ∃ d id held behind ahead, Inv bufsiz c d id held behind ahead

theorem nothingLost_start {fs : FileSystem} {id : FileId} (hpath : fs.path = some id)
    (hreadable : (fs.file id).readable = true) : NothingLost bufsiz (start fs) := by
  have opened : fs.open = some id := by simp [FileSystem.open, hpath, hreadable]
  refine ⟨{ id := id, offset := (fs.file id).content.length }, id, [], [], [], ?_⟩
  exact
    { fd := by simp [start, openAtStart, opened]
      reading := by simp [start]
      path := hpath
      readable := hreadable
      log := rfl
      pending := rfl
      held_open := Lines.open_nil
      offset := Nat.le_refl _
      behind_valid := by simp
      ahead_valid := by simp
      behind_eq := by simp [start]
      ahead_same := fun _ => rfl
      ahead_eq := fun h => absurd rfl h
      appended := by simp [start]
      polled := fun _ => rfl
      undisturbed := fun _ _ => rfl
      quiet := fun _ => rfl
      idle := fun _ _ => rfl }

/-- A line appended to the file that is being followed, or to the one that replaced it. -/
theorem nothingLost_append {c c' : Config} {raw : Str} (h : NothingLost bufsiz c)
    (hstep : step bufsiz malloc c (.append raw) = some c') : NothingLost bufsiz c' := by
  obtain ⟨d, id, held, behind, ahead, inv⟩ := h
  simp only [step, inv.path, Option.ite_none_right_eq_some, Option.some.injEq] at hstep
  obtain ⟨hvalid, rfl⟩ := hstep
  by_cases hsame : d.id = id
  · have noAhead := inv.ahead_same hsame
    subst hsame
    refine ⟨d, d.id, held, behind ++ [raw], [], ?_⟩
    have longer : d.offset ≤ ((c.fs.file d.id).content ++ (raw ++ ['\n'])).length := by
      rw [List.length_append]
      exact Nat.le_trans inv.offset (Nat.le_add_right _ _)
    exact
      { inv with
        readable := by simpa [appendTo] using inv.readable
        offset := by simpa [appendTo] using longer
        behind_valid := by
          intro other hother
          rcases List.mem_append.mp hother with old | new
          · exact inv.behind_valid other old
          · exact List.mem_singleton.mp new ▸ hvalid
        ahead_valid := by simp
        behind_eq := by
          simp only [appendTo, setFile_same]
          rw [List.drop_append_of_le_length inv.offset, ← List.append_assoc, inv.behind_eq,
            written_append, written_singleton]
        ahead_same := fun _ => rfl
        ahead_eq := fun h => absurd rfl h
        appended := by simp [inv.appended, noAhead]
        quiet := fun _ => rfl
        idle := fun hq => absurd hq (by simp) }
  · refine ⟨d, id, held, behind, ahead ++ [raw], ?_⟩
    have other : (appendTo c.fs id (raw ++ ['\n'])).file d.id = c.fs.file d.id :=
      setFile_ne _ _ hsame
    exact
      { inv with
        readable := by simpa [appendTo] using inv.readable
        offset := by simpa only [other] using inv.offset
        ahead_valid := by
          intro other hother
          rcases List.mem_append.mp hother with old | new
          · exact inv.ahead_valid other old
          · exact List.mem_singleton.mp new ▸ hvalid
        behind_eq := by simpa only [other] using inv.behind_eq
        ahead_same := fun h => absurd h hsame
        ahead_eq := by
          intro hne
          simp only [appendTo, setFile_same]
          rw [inv.ahead_eq hne, written_append, written_singleton]
        appended := by simp [inv.appended]
        quiet := fun hq => absurd hq (by simp)
        idle := fun hq => absurd hq (by simp) }

/-- Where nothing is unread behind the descriptor, no line is on its way there: what is pending
holds no line feed. -/
theorem Inv.nothing_behind {c : Config} {d : Descriptor} {id : FileId} {held : Str}
    {behind ahead : List Str} (inv : Inv bufsiz c d id held behind ahead)
    (nothing : (c.fs.file d.id).content.drop d.offset = []) : behind = [] ∧ held = [] := by
  have hwritten := inv.behind_eq
  rw [nothing, List.append_nil] at hwritten
  have cut := feed_written inv.behind_valid
  rw [← hwritten, Lines.feed_of_open inv.held_open, List.nil_append, Prod.mk.injEq] at cut
  exact ⟨cut.1.symm, cut.2⟩

/-- A rotation: a whole poll has happened since the one before, so the descriptor is still on
the file that is renamed away. -/
theorem nothingLost_rotate {c c' : Config} {new : FileId} (h : NothingLost bufsiz c)
    (hstep : step bufsiz malloc c (.rotate new) = some c') : NothingLost bufsiz c' := by
  obtain ⟨d, id, held, behind, ahead, inv⟩ := h
  simp only [step, Option.ite_none_right_eq_some, Option.some.injEq] at hstep
  obtain ⟨⟨hpolled, hpath, hfd⟩, rfl⟩ := hstep
  have hsame := inv.polled hpolled
  have noAhead := inv.ahead_same hsame
  have hne : d.id ≠ new := by
    rintro rfl
    exact hfd (by rw [inv.fd]; rfl)
  have other : (setFile c.fs new { content := [] }).file d.id = c.fs.file d.id :=
    setFile_ne _ _ hne
  refine ⟨d, new, held, behind, [], ?_⟩
  exact
    { inv with
      path := rfl
      readable := by simp
      offset := by simpa only [other] using inv.offset
      ahead_valid := by simp
      behind_eq := by simpa only [other] using inv.behind_eq
      ahead_same := fun _ => rfl
      ahead_eq := by simp
      appended := by simp [inv.appended, noAhead]
      polled := fun hp => absurd hp (by simp)
      undisturbed := fun _ hu => absurd hu (by simp)
      quiet := fun _ => rfl }

/-- The beginning of a poll. Re-opening is harmless when nothing is left behind the descriptor:
the file opened is then the one that replaced it, read from its beginning. -/
theorem nothingLost_startPoll {c c' : Config} (h : NothingLost bufsiz c)
    (hdrained : Drained c .startPoll)
    (hstep : step bufsiz malloc c .startPoll = some c') : NothingLost bufsiz c' := by
  obtain ⟨d, id, held, behind, ahead, inv⟩ := h
  have hidle : c.reading = none := by
    cases hr : c.reading with
    | none => rfl
    | some _ => simp [step, hr] at hstep
  by_cases hsame : d.id = id
  · have noAhead := inv.ahead_same hsame
    have stays : reopen c.fs c.mf.fd = some d := by
      simp [reopen, needsReopen, inv.fd, FileSystem.stat, FileSystem.fstat, inv.path, hsame]
    have started : LogMonitor.startPoll c.fs c.mf = (.reading d, c.mf) := by
      have isLog : ¬ c.mf.isStatus = true := by simp [inv.log]
      simp only [LogMonitor.startPoll, stays, if_neg isLog]
      rw [← inv.fd]
    simp only [step, hidle, started, Option.some.injEq] at hstep
    subst hstep
    refine ⟨d, id, held, behind, ahead, ?_⟩
    exact
      { inv with
        reading := fun d' hd => (Option.some.inj hd).symm
        undisturbed := fun _ _ => hsame
        quiet := fun _ => noAhead
        idle := fun _ hnone => absurd hnone (by simp) }
  · have needs : needsReopen c.fs c.mf.fd = true := by
      simp [needsReopen, inv.fd, FileSystem.stat, FileSystem.fstat, inv.path, hsame]
    have nothing : (c.fs.file d.id).content.drop d.offset = [] := by
      have := hdrained rfl hidle needs
      simpa only [unreadBehind, inv.fd] using this
    obtain ⟨rfl, rfl⟩ := inv.nothing_behind nothing
    have moved : reopen c.fs c.mf.fd = some { id := id, offset := 0 } := by
      simp [reopen, needs, FileSystem.open, inv.path, inv.readable]
    have started : LogMonitor.startPoll c.fs c.mf =
        (.reading { id := id, offset := 0 },
          { c.mf with fd := some { id := id, offset := 0 } }) := by
      simp [LogMonitor.startPoll, moved, inv.log]
    simp only [step, hidle, started, Option.some.injEq] at hstep
    subst hstep
    refine ⟨{ id := id, offset := 0 }, id, [], ahead, [], ?_⟩
    exact
      { fd := rfl
        reading := fun d' hd => (Option.some.inj hd).symm
        path := inv.path
        readable := inv.readable
        log := inv.log
        pending := inv.pending
        held_open := Lines.open_nil
        offset := Nat.zero_le _
        behind_valid := inv.ahead_valid
        ahead_valid := by simp
        behind_eq := by simpa using inv.ahead_eq hsame
        ahead_same := fun _ => rfl
        ahead_eq := fun hne => absurd rfl hne
        appended := by simpa using inv.appended
        polled := fun _ => rfl
        undisturbed := fun _ _ => rfl
        quiet := fun _ => rfl
        idle := fun _ hnone => absurd hnone (by simp) }

/-- What holds no line feed reaches no further than the first of the lines it begins. -/
theorem length_le_of_written {held more raw : Str} {raws : List Str} (isOpen : Lines.Open isLf held)
    (same : held ++ more = written (raw :: raws)) : held.length ≤ raw.length := by
  by_contra hlong
  have hlf : '\n' ∈ held := by
    have first : held = (raw ++ ['\n']) ++ held.drop (raw.length + 1) := by
      have whole := congrArg (List.take held.length) same
      rw [List.take_left, written, List.flatMap_cons] at whole
      have shorter : (raw ++ ['\n']).length ≤ held.length := by
        simp only [List.length_append, List.length_singleton]
        omega
      rw [List.take_append, List.take_of_length_le shorter] at whole
      conv_lhs => rw [whole]
      rw [List.append_cancel_left_eq]
      conv_rhs => rw [whole]
      simp
    rw [first]
    simp
  exact open_isLf.mp isOpen hlf

/-- A chunk fits in the work buffer: the pending bytes are the beginning of the first line on its
way, which is short. -/
theorem Inv.chunk_fits {c : Config} {d : Descriptor} {id : FileId} {held : Str}
    {behind ahead : List Str} (inv : Inv bufsiz c d id held behind ahead) {chunk rest : Str}
    (hwritten : held ++ (chunk ++ rest) = written behind) (hne : chunk ≠ [])
    (size : chunk.length ≤ bufsiz) : held.length + chunk.length + 1 ≤ maxWorkBuf := by
  cases hbehind : behind with
  | nil =>
      rw [hbehind, written_nil] at hwritten
      simp [hne] at hwritten
  | cons raw raws =>
      rw [hbehind] at hwritten
      have pending := length_le_of_written inv.held_open hwritten
      have short := (inv.behind_valid raw (by simp [hbehind])).2.2.2
      omega

/-- A round that reads a chunk delivers a prefix of the lines that were on their way. -/
theorem nothingLost_chunk (hbuf : 0 < bufsiz) (hmalloc : ∀ n, malloc n = true) {c : Config}
    {d : Descriptor} {id : FileId} {held : Str} {behind ahead : List Str}
    (inv : Inv bufsiz c d id held behind ahead) (hreading : c.reading = some d)
    (hunread : (c.fs.file d.id).content.drop d.offset ≠ []) :
    ∃ c', step bufsiz malloc c .readRound = some c' ∧ NothingLost bufsiz c' := by
  obtain ⟨chunk, rest, hcut, hchunk⟩ : ∃ chunk rest,
      (c.fs.file d.id).content.drop d.offset = chunk ++ rest ∧
        chunk = (chunk ++ rest).take bufsiz :=
    ⟨_, _, (List.take_append_drop bufsiz _).symm, by rw [List.take_append_drop]⟩
  have hne : chunk ≠ [] := by
    rw [hchunk, ← hcut, ne_eq, List.take_eq_nil_iff]
    rintro (zero | empty)
    · omega
    · exact hunread empty
  have hwritten := inv.behind_eq
  rw [hcut] at hwritten
  have hnul : CString.NulFree chunk := by
    intro member
    apply nulFree_written inv.behind_valid
    rw [← hwritten]
    exact List.mem_append_right _ (List.mem_append_left _ member)
  have hchunkLength : chunk.length ≤ bufsiz := by
    rw [hchunk]
    exact List.length_take_le _ _
  have fits := inv.chunk_fits hwritten hne hchunkLength
  have round := readOnce_eq_some hmalloc inv.pending hcut hchunk hne hnul
    inv.held_open fits
  -- The lines on their way split into those the chunk completes and those that remain.
  have cut := feed_written inv.behind_valid
  rw [← hwritten, Lines.feed_held inv.held_open, Lines.feed_append, Prod.mk.injEq] at cut
  obtain ⟨hsplit, hrest⟩ := cut
  have rebuilt := Lines.feed_rebuild isLf (t := '\n') (by simp [isLf])
    (Lines.feed isLf held chunk).2 rest
  rw [hrest, List.append_nil] at rebuilt
  have hlines : linesOf (Lines.feed isLf held chunk).1 =
      (Lines.feed isLf held chunk).1.map stripCr :=
    linesOf_valid (fun raw hraw =>
      inv.behind_valid raw (by rw [← hsplit]; exact List.mem_append_left _ hraw))
  have hoffset : d.offset + chunk.length ≤ (c.fs.file d.id).content.length := by
    have hlength := congrArg List.length hcut
    rw [List.length_drop, List.length_append] at hlength
    have := List.length_pos_of_ne_nil hne
    omega
  refine ⟨_, by simp only [step, hreading, round]; rfl, ?_⟩
  refine ⟨{ d with offset := d.offset + chunk.length }, id, (Lines.feed isLf held chunk).2,
    (Lines.feed isLf (Lines.feed isLf held chunk).2 rest).1, ahead, ?_⟩
  exact
    { inv with
      fd := rfl
      reading := fun d' hd => (Option.some.inj hd).symm
      pending := rfl
      held_open := Lines.open_feed inv.held_open chunk
      offset := hoffset
      behind_valid := fun raw hraw =>
        inv.behind_valid raw (by rw [← hsplit]; exact List.mem_append_right _ hraw)
      behind_eq := by
        rw [← List.drop_drop, hcut, List.drop_left, ← rebuilt]
        rfl
      appended := by
        rw [inv.appended, hlines, ← hsplit]
        simp
      undisturbed := fun _ hu => inv.undisturbed (by simp [hreading]) hu
      idle := fun _ hnone => absurd hnone (by simp) }

/-- A round that reads nothing ends the poll, and then no line is on its way. -/
theorem nothingLost_endPoll {c : Config} {d : Descriptor} {id : FileId} {held : Str}
    {behind ahead : List Str} (inv : Inv bufsiz c d id held behind ahead)
    (hreading : c.reading = some d)
    (hunread : (c.fs.file d.id).content.drop d.offset = []) :
    ∃ c', step bufsiz malloc c .readRound = some c' ∧ NothingLost bufsiz c' := by
  have atEnd : (c.fs.file d.id).content.length = d.offset := by
    have := List.drop_eq_nil_iff.mp hunread
    have := inv.offset
    omega
  have noBehind := (inv.nothing_behind hunread).1
  refine ⟨_, by simp only [step, hreading, readOnce_eq_none atEnd]; rfl, ?_⟩
  refine ⟨d, id, held, behind, ahead, ?_⟩
  exact
    { inv with
      reading := fun _ hd => absurd hd (by simp)
      polled := by
        intro hp
        rcases Bool.or_eq_true _ _ ▸ hp with before | now
        · exact inv.polled before
        · exact inv.undisturbed (by simp [hreading]) now
      undisturbed := fun hr => absurd rfl hr
      idle := fun _ _ => noBehind }

theorem nothingLost_readRound (hbuf : 0 < bufsiz) (hmalloc : ∀ n, malloc n = true) {c c' : Config}
    (h : NothingLost bufsiz c) (hstep : step bufsiz malloc c .readRound = some c') :
    NothingLost bufsiz c' := by
  obtain ⟨d, id, held, behind, ahead, inv⟩ := h
  cases hr : c.reading with
  | none => simp [step, hr] at hstep
  | some d' =>
      obtain rfl := inv.reading d' hr
      by_cases hunread : (c.fs.file d'.id).content.drop d'.offset = []
      · obtain ⟨c'', hstep', hc''⟩ : ∃ c'', step bufsiz malloc c .readRound = some c'' ∧
            NothingLost bufsiz c'' := nothingLost_endPoll inv hr hunread
        obtain rfl := Option.some.inj (hstep.symm.trans hstep')
        exact hc''
      · obtain ⟨c'', hstep', hc''⟩ := nothingLost_chunk hbuf hmalloc inv hr hunread
        obtain rfl := Option.some.inj (hstep.symm.trans hstep')
        exact hc''

/-- Every action keeps the invariant, as long as no poll abandons unread data. -/
theorem nothingLost_step (hbuf : 0 < bufsiz) (hmalloc : ∀ n, malloc n = true) {c c' : Config}
    {a : Action} (h : NothingLost bufsiz c) (hdrained : Drained c a)
    (hstep : step bufsiz malloc c a = some c') : NothingLost bufsiz c' := by
  cases a with
  | append raw => exact nothingLost_append h hstep
  | rotate new => exact nothingLost_rotate h hstep
  | startPoll => exact nothingLost_startPoll h hdrained hstep
  | readRound => exact nothingLost_readRound hbuf hmalloc h hstep

/-- In every run from start-up in which no poll re-opens the path with unread data behind the
descriptor, after a poll that follows the last write every line appended has been handled
exactly once, unmodified and in order. -/
theorem handled_eq_appended (hbuf : 0 < bufsiz) (hmalloc : ∀ n, malloc n = true)
    {fs : FileSystem} {id : FileId} (hpath : fs.path = some id)
    (hreadable : (fs.file id).readable = true) {actions : List Action} {c : Config}
    (hrun : Actions.run (step bufsiz malloc) (start fs) actions = some c)
    (hdrained : Actions.Along (step bufsiz malloc) Drained (start fs) actions)
    (hidle : c.reading = none) (hquiet : c.quiet = true) : c.handled = c.appended := by
  obtain ⟨d, id', held, behind, ahead, inv⟩ : NothingLost bufsiz c :=
    Actions.run_invariant_of_along
      (fun _ _ _ kept drained stepped => nothingLost_step hbuf hmalloc kept drained stepped)
      (nothingLost_start hpath hreadable) hdrained hrun
  rw [inv.appended, inv.idle hquiet hidle, inv.quiet hquiet]
  simp

/-- A file system where the monitored path names a log file with one line in it. -/
def logFs : FileSystem :=
  { path := some { stDev := 1, stIno := 10 }, file := fun _ => { content := "boot\n".toList } }

/-- A run with a rotation after a poll that read everything. -/
def drainedRun : List Action :=
  [.append "first".toList, .startPoll, .readRound, .readRound,
    .rotate { stDev := 1, stIno := 11 }, .append "second".toList,
    .startPoll, .readRound, .readRound]

/-- A run where a line is appended between the last poll and the rotation. -/
def undrainedRun : List Action :=
  [.startPoll, .readRound, .append "lost".toList, .rotate { stDev := 1, stIno := 11 },
    .append "kept".toList, .startPoll, .readRound, .readRound]

private theorem drainedRun_possible :
    (Actions.run (step 1024 (fun _ => true)) (start logFs) drainedRun).isSome = true := by
  decide +kernel

private theorem undrainedRun_possible :
    (Actions.run (step 1024 (fun _ => true)) (start logFs) undrainedRun).isSome = true := by
  decide +kernel

/-- Both lines of the first run are handled. -/
theorem handled_eq_appended_drainedRun :
    ∃ c, Actions.run (step 1024 (fun _ => true)) (start logFs) drainedRun = some c ∧
      c.appended = ["first".toList, "second".toList] ∧ c.handled = c.appended := by
  refine ⟨_, (Option.some_get drainedRun_possible).symm, by decide +kernel, ?_⟩
  have path : logFs.path = some { stDev := 1, stIno := 10 } := rfl
  exact handled_eq_appended (by decide) (fun _ => rfl) path rfl
    (Option.some_get drainedRun_possible).symm (by decide +kernel) (by decide +kernel)
    (by decide +kernel)

/-- In the second run the line appended before the rotation is never handled. -/
theorem rotation_loses_line :
    ∃ c, Actions.run (step 1024 (fun _ => true)) (start logFs) undrainedRun = some c ∧
      c.reading = none ∧ c.quiet = true ∧
      c.appended = ["lost".toList, "kept".toList] ∧ c.handled = ["kept".toList] := by
  refine ⟨_, (Option.some_get undrainedRun_possible).symm, ?_⟩
  decide +kernel

end Baseimage.LogMonitor.Rotation
