import Baseimage.LogMonitor.Debouncing
import Baseimage.LogMonitor.LongLines
import Baseimage.LogMonitor.Routing
import Baseimage.LogMonitor.StatusFile
import Baseimage.LogMonitor.Watch

/-!
# What the main loop makes of its files

A log file that only grows is followed from where it ended when the monitor was started: each line
that is completed is handled once and in order, whatever happens to the other files and however the
file grows between the chunks. After every round of the main loop nothing that was seen is left.
-/

namespace Baseimage.LogMonitor

open Script

/-! ## One file -/

/-- A file that only grows, as it was seen since it was opened, and what it held last. -/
inductive Appending (opened : FileSystem) (id : FileId) : List (FileSystem × Bool) → Str → Prop
  | opened (path : opened.path = some id) (readable : (opened.file id).readable = true) :
      Appending opened id [] (opened.file id).content
  | grown {seen : List (FileSystem × Bool)} {content : Str} {fs : FileSystem}
      (before : Appending opened id seen content) (path : fs.path = some id)
      (more : content <+: (fs.file id).content) :
      Appending opened id ((fs, true) :: seen) (fs.file id).content

/-- The descriptor stands behind what was read. -/
def Follows (opened : FileSystem) (mf : MonitoredFile) (seen : List (FileSystem × Bool))
    (chunks : List Str) : Prop :=
  ∀ id content, Appending opened id seen content →
    ∃ offset, mf.fd = some ⟨id, offset⟩ ∧ offset ≤ content.length ∧
      (opened.file id).content ++ chunks.flatten = content.take offset

/-- Everything that was seen was read. -/
def CaughtUp (opened : FileSystem) (seen : List (FileSystem × Bool)) (chunks : List Str) : Prop :=
  ∀ id content, Appending opened id seen content →
    (opened.file id).content ++ chunks.flatten = content

section File

variable {opened fs : FileSystem} {mf : MonitoredFile} {seen : List (FileSystem × Bool)}
  {chunks : List Str} {id : FileId} {content : Str}

theorem Appending.path {ok : Bool} (h : Appending opened id ((fs, ok) :: seen) content) :
    ok = true ∧ fs.path = some id ∧ content = (fs.file id).content ∧
      ∃ before, Appending opened id seen before ∧ before <+: content := by
  cases h with
  | grown before path more => exact ⟨rfl, path, rfl, _, before, more⟩

theorem Follows.onward {ok : Bool} (h : Follows opened mf seen chunks) :
    Follows opened mf ((fs, ok) :: seen) chunks := by
  intro id content appending
  obtain ⟨-, -, -, before, earlier, more⟩ := appending.path
  obtain ⟨offset, open_, inside, read⟩ := h id before earlier
  refine ⟨offset, open_, inside.trans more.length_le, ?_⟩
  rw [read, List.prefix_iff_eq_take.mp more, List.take_take]
  congr 1
  omega

theorem follows_opened : Follows opened (openAtStart opened false) [] [] := by
  intro id content appending
  cases appending with
  | opened path readable =>
      refine ⟨(opened.file id).content.length, ?_, Nat.le_refl _, ?_⟩
      · simp [openAtStart, FileSystem.open, path, readable, Option.filter]
      · simp

theorem caughtUp_opened : CaughtUp opened [] [] := by
  intro id content appending
  cases appending with
  | opened path readable => exact List.append_nil _

/-- The file is still at its path, so it is not opened again. -/
theorem Follows.startPoll (h : Follows opened mf seen chunks) (log : mf.isStatus = false)
    (appending : Appending opened id ((fs, true) :: seen) content) :
    ∃ d, startPoll fs mf = (.reading d, mf) := by
  obtain ⟨-, path, -, before, earlier, -⟩ := appending.path
  obtain ⟨offset, open_, -⟩ := h id before earlier
  refine ⟨⟨id, offset⟩, ?_⟩
  have same : reopen fs mf.fd = some ⟨id, offset⟩ := by
    simp [reopen, needsReopen, FileSystem.stat, FileSystem.fstat, path, open_]
  rw [LogMonitor.startPoll, same]
  obtain ⟨isStatus, fd, lastRead, lastStat, pendingBuf⟩ := mf
  obtain rfl : fd = some ⟨id, offset⟩ := open_
  obtain rfl : isStatus = false := log
  rfl

theorem Follows.begun (h : Follows opened mf seen chunks) (log : mf.isStatus = false) :
    Follows opened (LogMonitor.startPoll fs mf).2 ((fs, true) :: seen) chunks := by
  intro id content appending
  obtain ⟨d, begun⟩ := h.startPoll log appending
  rw [begun]
  exact h.onward id content appending

/-- A chunk is the next piece of what the file holds. -/
theorem Follows.readAt {ok : Bool} (h : Follows opened mf seen chunks) (bufsiz : Nat)
    (appending : Appending opened id ((fs, ok) :: seen) content) :
    ∃ offset, offset ≤ content.length ∧
      (opened.file id).content ++ chunks.flatten = content.take offset ∧
      readAt bufsiz fs ok mf.fd =
        (some ⟨id, offset + ((content.drop offset).take bufsiz).length⟩,
          (content.drop offset).take bufsiz) := by
  obtain ⟨offset, open_, inside, read⟩ := h.onward id content appending
  obtain ⟨rfl, -, rfl, -⟩ := appending.path
  refine ⟨offset, inside, read, ?_⟩
  have still : rewindIfTruncated fs ⟨id, offset⟩ = ⟨id, offset⟩ := if_neg (Nat.not_lt.mpr inside)
  rw [open_]
  unfold LogMonitor.readAt
  dsimp only
  rw [still, if_pos rfl]
  rfl

theorem Follows.read {ok : Bool} {fd : Option Descriptor} {tailbuf : Str} {bufsiz : Nat}
    (h : Follows opened mf seen chunks)
      (read : LogMonitor.readAt bufsiz fs ok mf.fd = (fd, tailbuf))
    {mf' : MonitoredFile} (same : mf'.fd = fd) :
    Follows opened mf' ((fs, ok) :: seen) (chunks ++ [tailbuf]) := by
  intro id content appending
  obtain ⟨offset, inside, before, chunk⟩ := h.readAt bufsiz appending
  obtain ⟨rfl, rfl⟩ := Prod.mk.inj (read.symm.trans chunk)
  refine ⟨_, same, ?_, ?_⟩
  · rw [List.length_take, List.length_drop]
    omega
  · rw [List.flatten_append, List.flatten_singleton, ← List.append_assoc, before, List.take_add]
    congr 1
    rw [List.length_take, List.take_eq_take_min]

/-- When nothing is left to read, everything was read. -/
theorem Follows.caughtUp {ok : Bool} {fd : Option Descriptor} {bufsiz : Nat} (hbuf : 0 < bufsiz)
    (h : Follows opened mf seen chunks) (read : LogMonitor.readAt bufsiz fs ok mf.fd = (fd, [])) :
    CaughtUp opened ((fs, ok) :: seen) chunks := by
  intro id content appending
  obtain ⟨offset, inside, before, chunk⟩ := h.readAt bufsiz appending
  have nothing := (Prod.mk.inj (read.symm.trans chunk)).2
  rw [before]
  obtain none_wanted | atEnd := List.take_eq_nil_iff.mp nothing.symm
  · omega
  · exact List.take_of_length_le (List.drop_eq_nil_iff.mp atEnd)

/-- A read that gives nothing leaves the file as it was. -/
theorem Follows.nothingRead {ok : Bool} {fd : Option Descriptor} {bufsiz : Nat}
    (h : Follows opened mf seen chunks) (read : LogMonitor.readAt bufsiz fs ok mf.fd = (fd, []))
    {mf' : MonitoredFile} (same : mf'.fd = fd) : Follows opened mf' ((fs, ok) :: seen) chunks := by
  have followed := h.read read same
  intro id content appending
  obtain ⟨offset, open_, inside, before⟩ := followed id content appending
  refine ⟨offset, open_, inside, ?_⟩
  rw [← before, List.flatten_append]
  simp

end File

/-! ## All files -/

variable {ctx : Context}

/-- The lines of a file. -/
def ofFile (mfid : Fin ctx.monitoredFiles.length)
    (lines : List (Fin ctx.monitoredFiles.length × Str)) : List Str :=
  (lines.filter fun line => line.1 = mfid).map Prod.snd

/-- The runs of its filter that a notification gets from some lines. -/
def runsOf (nidx : Fin ctx.notifications.length)
    (lines : List (Fin ctx.monitoredFiles.length × Str)) : List Str :=
  lines.flatMap fun line => Code.runsFor nidx (ctx.monitoredFiles.get line.1).path line.2

section

variable (bufsiz : Nat) (malloc : Nat → Bool)
  (begun : Fin ctx.monitoredFiles.length → FileSystem)

/-- What is known of a file. -/
structure FileSound (s : Watch ctx) (mfid : Fin ctx.monitoredFiles.length) : Prop where
  kind : (s.files mfid).isStatus = (ctx.monitoredFiles.get mfid).isStatus
  sizes : ∀ chunk ∈ s.chunks mfid, 1 ≤ chunk.length ∧ chunk.length ≤ bufsiz
  follows : (ctx.monitoredFiles.get mfid).isStatus = false →
    Follows (begun mfid) (s.files mfid) (s.seen mfid) (s.chunks mfid)

/-- Nothing is left of a log file. -/
def Caught (s : Watch ctx) (mfid : Fin ctx.monitoredFiles.length) : Prop :=
  (ctx.monitoredFiles.get mfid).isStatus = false →
    CaughtUp (begun mfid) (s.seen mfid) (s.chunks mfid)

/-- Between two lines, with some lines still to be handled. -/
structure Owing (left : List (Fin ctx.monitoredFiles.length × Str)) (s : Watch ctx) : Prop where
  sound : ∀ mfid, FileSound bufsiz begun s mfid
  assembled : ∀ mfid, handleReads malloc none (s.chunks mfid) =
    (ofFile mfid (s.handled ++ left), (s.files mfid).pendingBuf)
  routed : ∀ nidx, filterRuns nidx s.monitor.history.reverse = runsOf nidx s.handled
  ready : Ready s.monitor

/-- Anywhere. -/
structure Anywhere (s : Watch ctx) : Prop where
  sound : ∀ mfid, FileSound bufsiz begun s mfid
  assembled : ∀ mfid, ofFile mfid s.handled <+: (handleReads malloc none (s.chunks mfid)).1
  routed : ∀ nidx, filterRuns nidx s.monitor.history.reverse = runsOf nidx s.handled ∨
    filterRuns nidx s.monitor.history.reverse = runsOf nidx s.handled.dropLast
  debounced : Debounced s.monitor

end

theorem ofFile_append (mfid : Fin ctx.monitoredFiles.length)
    (xs ys : List (Fin ctx.monitoredFiles.length × Str)) :
    ofFile mfid (xs ++ ys) = ofFile mfid xs ++ ofFile mfid ys := by
  rw [ofFile, List.filter_append, List.map_append]
  rfl

theorem ofFile_self (mfid : Fin ctx.monitoredFiles.length) (lines : List Str) :
    ofFile mfid (lines.map (mfid, ·)) = lines := by
  induction lines with
  | nil => rfl
  | cons line lines ih => simpa [ofFile] using ih

theorem ofFile_other {mfid other : Fin ctx.monitoredFiles.length} (differ : mfid ≠ other)
    (lines : List Str) : ofFile other (lines.map (mfid, ·)) = [] := by
  simp [ofFile, differ]

variable {bufsiz : Nat} {malloc : Nat → Bool}
  {begun : Fin ctx.monitoredFiles.length → FileSystem}
  {mfid : Fin ctx.monitoredFiles.length} {s : Watch ctx}
  {left : List (Fin ctx.monitoredFiles.length × Str)}

theorem Owing.anywhere (h : Owing bufsiz malloc begun left s) : Anywhere bufsiz malloc begun s where
  sound := h.sound
  assembled mfid := by
    rw [h.assembled mfid, ofFile_append]
    exact List.prefix_append _ _
  routed nidx := .inl (h.routed nidx)
  debounced := h.ready.debounced

/-- Nothing was read yet. -/
theorem owing_opened : Owing bufsiz malloc begun [] (Watch.opened begun) where
  sound mfid :=
    { kind := rfl
      sizes := fun _ inside => absurd inside List.not_mem_nil
      follows := fun log => by
        show Follows _ (openAtStart (begun mfid) (ctx.monitoredFiles.get mfid).isStatus) [] []
        rw [log]
        exact follows_opened }
  assembled _ := rfl
  routed _ := rfl
  ready _ := rfl

theorem caught_opened (mfid : Fin ctx.monitoredFiles.length) :
    Caught begun (Watch.opened begun) mfid := fun _ => caughtUp_opened

/-! ### What happens to one file -/

/-- The file is as it was. -/
structure Untouched (s t : Watch ctx) (mfid : Fin ctx.monitoredFiles.length) : Prop where
  file : t.files mfid = s.files mfid
  seen : t.seen mfid = s.seen mfid
  chunks : t.chunks mfid = s.chunks mfid

theorem Untouched.look {other : Fin ctx.monitoredFiles.length} (differ : other ≠ mfid)
    (fs : FileSystem) (ok : Bool) (mf : MonitoredFile) :
    Untouched s (s.look mfid fs ok mf) other :=
  ⟨Function.update_of_ne differ _ _, Function.update_of_ne differ _ _, rfl⟩

theorem Untouched.chunk {other : Fin ctx.monitoredFiles.length} (differ : other ≠ mfid)
    (fs : FileSystem) (ok : Bool) (mf : MonitoredFile) (tailbuf : Str) :
    Untouched s ((s.look mfid fs ok mf).chunk mfid tailbuf) other :=
  ⟨Function.update_of_ne differ _ _, Function.update_of_ne differ _ _,
    Function.update_of_ne differ _ _⟩

theorem Untouched.sound {t : Watch ctx} (same : Untouched s t mfid)
    (h : FileSound bufsiz begun s mfid) : FileSound bufsiz begun t mfid where
  kind := by rw [same.file, h.kind]
  sizes := by rw [same.chunks]; exact h.sizes
  follows := by rw [same.file, same.seen, same.chunks]; exact h.follows

theorem Untouched.caught {t : Watch ctx} (same : Untouched s t mfid) (h : Caught begun s mfid) :
    Caught begun t mfid := by
  unfold Caught
  rw [same.seen, same.chunks]
  exact h

/-- A look at the file. -/
theorem FileSound.look (h : FileSound bufsiz begun s mfid) {fs : FileSystem} {ok : Bool}
    {mf : MonitoredFile} (kind : mf.isStatus = (s.files mfid).isStatus)
    (follows : (ctx.monitoredFiles.get mfid).isStatus = false →
      Follows (begun mfid) mf ((fs, ok) :: s.seen mfid) (s.chunks mfid)) :
    FileSound bufsiz begun (s.look mfid fs ok mf) mfid where
  kind := by simpa [Watch.look] using kind.trans h.kind
  sizes := h.sizes
  follows log := by simpa [Watch.look] using follows log

/-- A chunk of the file. -/
theorem FileSound.chunk (h : FileSound bufsiz begun s mfid) {fs : FileSystem} {ok : Bool}
    {mf : MonitoredFile} {tailbuf : Str} (kind : mf.isStatus = (s.files mfid).isStatus)
    (size : 1 ≤ tailbuf.length ∧ tailbuf.length ≤ bufsiz)
    (follows : (ctx.monitoredFiles.get mfid).isStatus = false →
      Follows (begun mfid) mf ((fs, ok) :: s.seen mfid) (s.chunks mfid ++ [tailbuf])) :
    FileSound bufsiz begun ((s.look mfid fs ok mf).chunk mfid tailbuf) mfid where
  kind := by simpa [Watch.look, Watch.chunk] using kind.trans h.kind
  sizes chunk inside := by
    have member : chunk ∈ s.chunks mfid ++ [tailbuf] := by
      simpa [Watch.look, Watch.chunk] using inside
    obtain old | new := List.mem_append.mp member
    · exact h.sizes chunk old
    · exact List.mem_singleton.mp new ▸ size
  follows log := by simpa [Watch.look, Watch.chunk] using follows log

theorem Owing.look (h : Owing bufsiz malloc begun left s) {fs : FileSystem} {ok : Bool}
    {mf : MonitoredFile} (kind : mf.isStatus = (s.files mfid).isStatus)
    (pending : mf.pendingBuf = (s.files mfid).pendingBuf)
    (follows : (ctx.monitoredFiles.get mfid).isStatus = false →
      Follows (begun mfid) mf ((fs, ok) :: s.seen mfid) (s.chunks mfid)) :
    Owing bufsiz malloc begun left (s.look mfid fs ok mf) where
  sound other := by
    by_cases same : other = mfid
    · subst same
      exact (h.sound other).look kind follows
    · exact (Untouched.look same fs ok mf).sound (h.sound other)
  assembled other := by
    by_cases same : other = mfid
    · subst same
      simpa [Watch.look, pending] using h.assembled other
    · simpa [Watch.look, Function.update_of_ne same] using h.assembled other
  routed := h.routed
  ready := h.ready

/-- The lines a chunk completes are to be handled next. -/
theorem Owing.chunk (h : Owing bufsiz malloc begun [] s) {fs : FileSystem} {ok : Bool}
    {mf : MonitoredFile} {tailbuf : Str} {lines : List Str}
    (kind : mf.isStatus = (s.files mfid).isStatus)
    (size : 1 ≤ tailbuf.length ∧ tailbuf.length ≤ bufsiz)
    (handled : handleRead malloc (s.files mfid).pendingBuf (CString.ofBuffer tailbuf) =
      (lines, mf.pendingBuf))
    (follows : (ctx.monitoredFiles.get mfid).isStatus = false →
      Follows (begun mfid) mf ((fs, ok) :: s.seen mfid) (s.chunks mfid ++ [tailbuf])) :
    Owing bufsiz malloc begun (lines.map (mfid, ·))
      ((s.look mfid fs ok mf).chunk mfid tailbuf) where
  sound other := by
    by_cases same : other = mfid
    · subst same
      exact (h.sound other).chunk kind size follows
    · exact (Untouched.chunk same fs ok mf tailbuf).sound (h.sound other)
  assembled other := by
    have before := h.assembled other
    rw [List.append_nil] at before
    rw [ofFile_append]
    by_cases same : other = mfid
    · subst same
      have chunks : ((s.look other fs ok mf).chunk other tailbuf).chunks other =
          s.chunks other ++ [tailbuf] := Function.update_self _ _ _
      have file : ((s.look other fs ok mf).chunk other tailbuf).files other = mf :=
        Function.update_self _ _ _
      rw [chunks, file, handleReads_append, before, ofFile_self]
      simp only [handleReads, handled, List.append_nil]
      rfl
    · have untouched := Untouched.chunk (s := s) same fs ok mf tailbuf
      rw [untouched.chunks, untouched.file, before, ofFile_other (Ne.symm same), List.append_nil]
      rfl
  routed := h.routed
  ready := h.ready

theorem length_readAt_le {fs : FileSystem} {ok : Bool} {fd fd' : Option Descriptor} {tailbuf : Str}
    (read : readAt bufsiz fs ok fd = (fd', tailbuf)) : tailbuf.length ≤ bufsiz := by
  unfold readAt at read
  split at read
  · cases read
    exact Nat.zero_le _
  · obtain ⟨-, rfl⟩ := Prod.mk.inj read
    split
    · exact List.length_take_le _ _
    · exact Nat.zero_le _

/-! ## One question at a time -/

/-- A line adds its runs to those of each filter, and leaves every target debounced. -/
theorem Code.handleLine_spec {E : Empty → Monitor ctx → Prop}
    (mfid : Fin ctx.monitoredFiles.length) (line : Str) {begun : Monitor ctx}
      (ready : Ready begun) :
    Spec (fun m => m = begun) (Code.handleLine mfid line)
      (fun _ m => Ready m ∧ ∀ nidx, filterRuns nidx m.history.reverse =
        filterRuns nidx begun.history.reverse ++
          Code.runsFor nidx (ctx.monitoredFiles.get mfid).path line) E
      (fun m => Debounced m ∧ ∀ nidx, filterRuns nidx m.history.reverse =
          filterRuns nidx begun.history.reverse ++
            Code.runsFor nidx (ctx.monitoredFiles.get mfid).path line ∨
        filterRuns nidx m.history.reverse = filterRuns nidx begun.history.reverse) := by
  rintro answers m rfl
  have debounces : Spec Ready (Code.handleLine mfid line) (fun _ => Ready) (fun e : Empty => e.elim)
      Debounced := Spec.forEach fun nidx => Code.handleNotification_spec _ line nidx
  have paired := debounces answers m ready
  have filters := handleLine_filtered mfid line answers m
  have joined (log : List (Event ctx)) (nidx : Fin ctx.notifications.length) :
      filterRuns nidx (log.reverse ++ m.history).reverse =
        filterRuns nidx m.history.reverse ++ filterRuns nidx log := by
    rw [List.reverse_append, List.reverse_reverse]
    exact List.filterMap_append
  generalize (Code.handleLine mfid line).run answers m = run at paired filters ⊢
  have unreturned (nidx : Fin ctx.notifications.length) :
    filterRuns nidx run.state.history.reverse =
        filterRuns nidx m.history.reverse ++
          Code.runsFor nidx (ctx.monitoredFiles.get mfid).path line ∨
      filterRuns nidx run.state.history.reverse = filterRuns nidx m.history.reverse := by
    obtain ⟨log, history, nothing | once, -⟩ := filters nidx
    · exact .inr (by rw [history, joined, nothing, List.append_nil])
    · exact .inl (by rw [history, joined, once])
  unfold Ends at paired ⊢
  split at paired
  · next returned =>
      refine ⟨paired, fun nidx => ?_⟩
      obtain ⟨log, history, -, complete⟩ := filters nidx
      rw [history, joined, complete returned]
  · next e _ => exact e.elim
  · exact ⟨paired, unreturned⟩
  · exact ⟨paired, unreturned⟩

namespace WatchCode

variable {E : Empty → Watch ctx → Prop}

/-- All log files but this one are caught up. -/
def OthersCaught (begun : Fin ctx.monitoredFiles.length → FileSystem)
    (mfid : Fin ctx.monitoredFiles.length) (s : Watch ctx) : Prop :=
  ∀ other ≠ mfid, Caught begun s other

/-- Between two files. -/
def Between (bufsiz : Nat) (malloc : Nat → Bool)
    (begun : Fin ctx.monitoredFiles.length → FileSystem) (s : Watch ctx) : Prop :=
  Owing bufsiz malloc begun [] s ∧ ∀ mfid, Caught begun s mfid

theorem getTime_spec {P R : Watch ctx → Prop} (stopped : ∀ s, P s → R s) :
    Spec P (getTime : WatchCode ctx Int) (fun _ => P) E R := by
  refine Spec.bind (M := fun _ => P) (Spec.ask stopped fun s k now t hs h => ?_) fun now => ?_
  · split at h
    · obtain ⟨-, rfl⟩ := Prod.mk.inj (Option.some.inj h)
      exact hs
    · cases h
  · cases now with
    | some now => exact Spec.pure fun _ hs => hs
    | none => exact Spec.abort stopped

theorem skipped_spec {P R : Watch ctx → Prop} (stopped : ∀ s, P s → R s)
    (mfid : Fin ctx.monitoredFiles.length) :
    Spec P (skipped mfid : WatchCode ctx Bool) (fun _ => P) E R := by
  refine Spec.bind (M := fun _ => P) (Spec.get fun _ hs => hs) fun s => ?_
  refine Spec.ite (fun _ => ?_) fun _ => Spec.pure fun _ hs => hs
  exact (getTime_spec stopped).bind fun now => Spec.pure fun _ hs => hs

/-- A look at a log file that only grows goes on to the reading. -/
theorem beginPoll_spec (mfid : Fin ctx.monitoredFiles.length) :
    Spec (Between bufsiz malloc begun) (beginPoll mfid : WatchCode ctx Polled)
      (fun polled s => Owing bufsiz malloc begun [] s ∧ OthersCaught begun mfid s ∧
        ((∀ d, polled ≠ .reading d) → Caught begun s mfid)) E (Anywhere bufsiz malloc begun) := by
  refine Spec.ask (fun _ hs => hs.1.anywhere) fun s k polled t hs h => ?_
  split at h
  · next fs =>
      obtain ⟨rfl, rfl⟩ := Prod.mk.inj (Option.some.inj h)
      obtain ⟨owing, caught⟩ := hs
      have old := owing.sound mfid
      obtain ⟨pending, kind⟩ := startPoll_frame fs (s.files mfid)
      refine ⟨owing.look kind pending fun log =>
        (old.follows log).begun (old.kind.trans log), ?_, ?_⟩
      · exact fun other differ => (Untouched.look differ _ _ _).caught (caught other)
      · intro unread log id content appending
        have looked : Appending (begun mfid) id ((fs, true) :: s.seen mfid) content := by
          simpa [Watch.look] using appending
        obtain ⟨d, reading⟩ := (old.follows log).startPoll (old.kind.trans log) looked
        exact absurd (congrArg Prod.fst reading) (unread d)
  · cases h

theorem readChunk_spec (hbuf : 0 < bufsiz) (mfid : Fin ctx.monitoredFiles.length) :
    Spec (fun s => Owing bufsiz malloc begun [] s ∧ OthersCaught begun mfid s)
      (readChunk bufsiz malloc mfid : WatchCode ctx (Option (List Str)))
      (fun lines s => Owing bufsiz malloc begun (((lines.getD []).map (mfid, ·))) s ∧
        OthersCaught begun mfid s ∧ (lines = none → Caught begun s mfid)) E
      (Anywhere bufsiz malloc begun) := by
  refine Spec.ask (fun _ hs => hs.1.anywhere) fun s k lines t hs h => ?_
  split at h
  · next fs ok =>
      obtain ⟨owing, caught⟩ := hs
      have old := owing.sound mfid
      cases read : readAt bufsiz fs ok (s.files mfid).fd with
      | mk fd tailbuf =>
          simp only [read] at h
          split at h
          · next nothing =>
              obtain ⟨rfl, rfl⟩ := Prod.mk.inj (Option.some.inj h)
              obtain rfl : tailbuf = [] := nothing
              refine ⟨owing.look rfl rfl fun log => (old.follows log).nothingRead read rfl,
                fun other differ => (Untouched.look differ _ _ _).caught (caught other differ),
                fun _ log => ?_⟩
              have all := (old.follows log).caughtUp hbuf read
              simpa [Watch.look] using all
          · next something =>
              obtain ⟨rfl, rfl⟩ := Prod.mk.inj (Option.some.inj h)
              have size : 1 ≤ tailbuf.length ∧ tailbuf.length ≤ bufsiz :=
                ⟨List.length_pos_of_ne_nil something, length_readAt_le read⟩
              refine ⟨owing.chunk rfl size rfl fun log => (old.follows log).read read rfl,
                fun other differ =>
                  (Untouched.chunk differ _ _ _ _).caught (caught other differ), ?_⟩
              rintro ⟨⟩
  · cases h

theorem handleLine_spec {C : Watch ctx → Prop}
    (frame : ∀ s monitor handled, C s → C { s with monitor := monitor, handled := handled })
    (mfid : Fin ctx.monitoredFiles.length) (line : Str) :
    Spec (fun s => Owing bufsiz malloc begun ((mfid, line) :: left) s ∧ C s)
      (handleLine mfid line : WatchCode ctx PUnit)
      (fun _ s => Owing bufsiz malloc begun left s ∧ C s) E (Anywhere bufsiz malloc begun) := by
  refine Spec.with_entry fun s ⟨owing, kept⟩ => ?_
  let t : Watch ctx := { s with handled := s.handled ++ [(mfid, line)] }
  have part := Spec.onPart WatchAnswer.forLine (Watch.monitorPart ctx)
    (F := fun u => u = { t with monitor := u.monitor })
    (fun u monitor same => by rw [same]; rfl)
    (Code.handleLine_spec (E := fun e => e.elim) mfid line owing.ready)
  have assembled : ∀ other, handleReads malloc none (s.chunks other) =
      (ofFile other (t.handled ++ left), (s.files other).pendingBuf) := by
    intro other
    rw [owing.assembled other, List.append_cons]
  have runs (nidx : Fin ctx.notifications.length) : runsOf nidx t.handled =
      filterRuns nidx s.monitor.history.reverse ++
        Code.runsFor nidx (ctx.monitoredFiles.get mfid).path line := by
    rw [owing.routed nidx]
    simp [runsOf, t]
  refine Spec.bind (M := fun _ u => u = t) (Spec.modify fun u same => by rw [same]) fun _ => ?_
  refine part.consequence (fun u same => ?_) (fun _ u h => ?_) (fun e => e.elim) (fun u h => ?_)
  · subst same
    exact ⟨rfl, rfl⟩
  · obtain ⟨⟨ready, routed⟩, same⟩ := h
    rw [same]
    refine ⟨⟨fun other => Untouched.sound (s := s) ⟨rfl, rfl, rfl⟩ (owing.sound other), assembled,
      fun nidx => ?_, ready⟩, ?_⟩
    · exact (routed nidx).trans (runs nidx).symm
    · exact frame s _ _ kept
  · obtain ⟨⟨debounced, routed⟩, same⟩ := h
    rw [same]
    refine ⟨fun other => Untouched.sound (s := s) ⟨rfl, rfl, rfl⟩ (owing.sound other),
      fun other => ?_, fun nidx => ?_, debounced⟩
    · rw [assembled other, ofFile_append other t.handled left]
      exact List.prefix_append _ _
    · obtain complete | nothing := routed nidx
      · exact .inl (complete.trans (runs nidx).symm)
      · refine .inr (nothing.trans ((owing.routed nidx).trans ?_))
        show runsOf nidx s.handled = runsOf nidx (s.handled ++ [(mfid, line)]).dropLast
        rw [List.dropLast_concat]

theorem forLines_spec {C : Watch ctx → Prop}
    (frame : ∀ s monitor handled, C s → C { s with monitor := monitor, handled := handled })
    (mfid : Fin ctx.monitoredFiles.length) (lines : List Str) :
    Spec (fun s => Owing bufsiz malloc begun (lines.map (mfid, ·)) s ∧ C s)
      (forEach lines (handleLine mfid) : WatchCode ctx PUnit)
      (fun _ s => Owing bufsiz malloc begun [] s ∧ C s) E (Anywhere bufsiz malloc begun) := by
  induction lines with
  | nil => exact Spec.pure fun _ hs => hs
  | cons line lines ih => exact (handleLine_spec frame mfid line).bind fun _ => ih

theorem readRound_spec (hbuf : 0 < bufsiz) (mfid : Fin ctx.monitoredFiles.length) :
    Spec (fun s => Owing bufsiz malloc begun [] s ∧ OthersCaught begun mfid s)
      (readRound bufsiz malloc mfid : WatchCode ctx (Option PUnit))
      (fun a => a.elim (fun s => Owing bufsiz malloc begun [] s ∧ OthersCaught begun mfid s)
        fun _ => Between bufsiz malloc begun) E (Anywhere bufsiz malloc begun) := by
  refine (readChunk_spec hbuf mfid).bind fun lines => ?_
  cases lines with
  | none =>
      refine Spec.pure fun s hs => ⟨hs.1, fun other => ?_⟩
      by_cases same : other = mfid
      · exact same ▸ hs.2.2 rfl
      · exact hs.2.1 other same
  | some lines =>
      have others : ∀ (s : Watch ctx) monitor handled, OthersCaught begun mfid s →
          OthersCaught begun mfid { s with monitor := monitor, handled := handled } :=
        fun _ _ _ caught => caught
      refine Spec.bind ((forLines_spec others mfid lines).pre fun s hs => ⟨hs.1, hs.2.1⟩) fun _ =>
        ?_
      exact Spec.pure fun _ hs => hs

theorem touch_spec (mfid : Fin ctx.monitoredFiles.length) :
    Spec (Between bufsiz malloc begun) (touch mfid : WatchCode ctx PUnit)
      (fun _ => Between bufsiz malloc begun) E (Anywhere bufsiz malloc begun) := by
  refine (getTime_spec fun _ hs => hs.1.anywhere).bind fun now => Spec.modify fun s hs => ?_
  obtain ⟨owing, caught⟩ := hs
  have file : ∀ other,
    ((Function.update s.files mfid { s.files mfid with lastRead := now }) other) =
      { s.files other with lastRead := ((Function.update s.files mfid
        { s.files mfid with lastRead := now }) other).lastRead } := by
    intro other
    by_cases same : other = mfid
    · subst same
      rw [Function.update_self]
    · rw [Function.update_of_ne same]
  refine ⟨⟨fun other => ?_, fun other => ?_, owing.routed, owing.ready⟩, caught⟩
  · have old := owing.sound other
    refine ⟨?_, old.sizes, fun log => ?_⟩
    · show (Function.update s.files mfid _ other).isStatus = _
      rw [file other]
      exact old.kind
    · show Follows _ (Function.update s.files mfid _ other) _ _
      rw [file other]
      exact old.follows log
  · show _ = (_, (Function.update s.files mfid _ other).pendingBuf)
    rw [file other]
    exact owing.assembled other

theorem pollFile_spec (hbuf : 0 < bufsiz) (mfid : Fin ctx.monitoredFiles.length) :
    Spec (Between bufsiz malloc begun) (pollFile bufsiz malloc mfid : WatchCode ctx PUnit)
      (fun _ => Between bufsiz malloc begun) E (Anywhere bufsiz malloc begun) := by
  have stopped : ∀ s, Between bufsiz malloc begun s → Anywhere bufsiz malloc begun s :=
    fun _ hs => hs.1.anywhere
  have whole : ∀ s : Watch ctx, OthersCaught begun mfid s → Caught begun s mfid →
      ∀ other, Caught begun s other := by
    intro s others this other
    by_cases same : other = mfid
    · exact same ▸ this
    · exact others other same
  refine (skipped_spec stopped mfid).bind fun skip => ?_
  refine Spec.ite (fun _ => Spec.pure fun _ hs => hs) fun _ => ?_
  refine (beginPoll_spec mfid).bind fun polled => ?_
  cases polled with
  | closed =>
      exact Spec.pure fun s hs => ⟨hs.1, whole s hs.2.1 (hs.2.2 fun _ same => by cases same)⟩
  | same =>
      refine (touch_spec mfid).pre fun s hs => ⟨hs.1, whole s hs.2.1 (hs.2.2 fun _ same => ?_)⟩
      cases same
  | reading d =>
      have reading : Spec (fun s => Owing bufsiz malloc begun [] s ∧ OthersCaught begun mfid s)
          (loop (readRound bufsiz malloc mfid)) (fun _ => Between bufsiz malloc begun) E
          (Anywhere bufsiz malloc begun) :=
        Spec.loop (fun _ hs => hs.1.anywhere) (readRound_spec hbuf mfid)
      exact (reading.pre fun s hs => ⟨hs.1, hs.2.1⟩).bind fun _ => touch_spec mfid

theorem round_spec (hbuf : 0 < bufsiz) :
    KeepsOr (Between bufsiz malloc begun) (Anywhere bufsiz malloc begun)
      (round bufsiz malloc : WatchCode ctx (Option PUnit)) := by
  refine Spec.bind (Spec.forEach (pollFile_spec hbuf)) fun _ => ?_
  refine Spec.ask (fun _ hs => hs.1.anywhere) fun s k a t hs h => ?_
  split at h
  · obtain ⟨-, rfl⟩ := Prod.mk.inj (Option.some.inj h)
    exact hs
  · cases h

end WatchCode

/-! ## Whole runs -/

/-- Chunks of a stream give the lines that are completed in them. -/
theorem handleReads_completes (hmalloc : ∀ n, malloc n = true) {chunks : List Str} {stream : Str}
    (sizes : ∀ chunk ∈ chunks, 1 ≤ chunk.length ∧ chunk.length ≤ bufsiz)
    (read : chunks.flatten <+: stream) (nulFree : CString.NulFree stream)
    (short : ∀ line ∈ stream.splitOn '\n', line.length < maxWorkBuf - bufsiz - 2) :
    (handleReads malloc none chunks).1 <+: linesOf (stream.splitOn '\n').dropLast ∧
      (chunks.flatten = stream →
        (handleReads malloc none chunks).1 = linesOf (stream.splitOn '\n').dropLast) := by
  obtain ⟨later, rfl⟩ := read
  have pieces : (chunks.flatten ++ later).splitOn '\n' =
      (Lines.feed isLf [] (chunks.flatten ++ later)).1 ++
        [(Lines.feed isLf [] (chunks.flatten ++ later)).2] := Lines.splitOnP_eq_feed _
  rw [pieces, Lines.feed_append] at short ⊢
  rw [List.dropLast_concat, linesOf_append]
  have shortSoFar : ∀ piece ∈ (Lines.feed isLf [] chunks.flatten).1 ++
      [(Lines.feed isLf [] chunks.flatten).2], piece.length < maxWorkBuf - bufsiz - 2 := by
    intro piece member
    obtain whole | last := List.mem_append.mp member
    · exact short piece (List.mem_append_left _ (List.mem_append_left _ whole))
    · obtain ⟨longer, inside, begins⟩ :=
        Lines.exists_piece_of_held isLf (Lines.feed isLf [] chunks.flatten).2 later
      rw [List.mem_singleton.mp last]
      refine begins.length_le.trans_lt (short longer ?_)
      rw [List.append_assoc]
      exact List.mem_append_right _ inside
  have feeds : handleReads malloc none chunks = _ :=
    handleReads_eq_feed hmalloc Lines.open_nil sizes
    (fun chunk member inside =>
      nulFree (List.mem_append_left _ (List.mem_flatten.mpr ⟨chunk, member, inside⟩))) shortSoFar
  rw [feeds]
  refine ⟨List.prefix_append _ _, fun same => ?_⟩
  obtain rfl : later = [] := by simpa using same
  rw [Lines.feed_nil, linesOf_nil, List.append_nil]

/-- The lines that were completed in a log file since the monitor was started, as far as it was
seen. The file only grew, and its lines are neither broken by a NUL nor too long. -/
def Completed (bufsiz : Nat) (begun : Fin ctx.monitoredFiles.length → FileSystem) (s : Watch ctx)
    (mfid : Fin ctx.monitoredFiles.length) (lines : List Str) : Prop :=
  (ctx.monitoredFiles.get mfid).isStatus = false ∧
    ∃ id appended, Appending (begun mfid) id (s.seen mfid)
        (((begun mfid).file id).content ++ appended) ∧
      CString.NulFree appended ∧
      (∀ line ∈ appended.splitOn '\n', line.length < maxWorkBuf - bufsiz - 2) ∧
      lines = linesOf (appended.splitOn '\n').dropLast

theorem Anywhere.handled (hmalloc : ∀ n, malloc n = true) (h : Anywhere bufsiz malloc begun s)
    {lines : List Str} (completed : Completed bufsiz begun s mfid lines) :
    s.handledOf mfid <+: lines := by
  obtain ⟨log, id, appended, appending, nulFree, short, rfl⟩ := completed
  have sound := h.sound mfid
  obtain ⟨offset, -, -, read⟩ := sound.follows log id _ appending
  have sofar : (s.chunks mfid).flatten <+: appended :=
    (List.prefix_append_right_inj _).mp (read ▸ List.take_prefix _ _)
  exact (h.assembled mfid).trans (handleReads_completes hmalloc sound.sizes sofar nulFree short).1

theorem WatchCode.Between.handled (hmalloc : ∀ n, malloc n = true)
    (h : WatchCode.Between bufsiz malloc begun s) {lines : List Str}
    (completed : Completed bufsiz begun s mfid lines) : s.handledOf mfid = lines := by
  obtain ⟨log, id, appended, appending, nulFree, short, rfl⟩ := completed
  have all : (s.chunks mfid).flatten = appended :=
    List.append_cancel_left (h.2 mfid log id _ appending)
  have assembled := h.1.assembled mfid
  rw [List.append_nil] at assembled
  have complete := (handleReads_completes hmalloc (h.1.sound mfid).sizes (all ▸ List.prefix_refl _)
    nulFree short).2 all
  rw [assembled] at complete
  exact complete

/-- In every run of the main loop the lines of a log file that only grows are handled once and in
order, each line goes once through the filters of the notifications that list its file, and every
target is debounced. After every round all lines that were completed are handled. -/
theorem tailFiles_followed (ctx : Context) {bufsiz : Nat} (hbuf : 0 < bufsiz) {malloc : Nat → Bool}
    (hmalloc : ∀ n, malloc n = true) (begun : Fin ctx.monitoredFiles.length → FileSystem)
    (answers : List WatchAnswer) :
    (∀ s, s = ((WatchCode.tailFiles bufsiz malloc).run answers (Watch.opened begun)).state →
      (∀ mfid lines, Completed bufsiz begun s mfid lines → s.handledOf mfid <+: lines) ∧
      (∀ nidx, filterRuns nidx s.monitor.history.reverse = runsOf nidx s.handled ∨
        filterRuns nidx s.monitor.history.reverse = runsOf nidx s.handled.dropLast) ∧
      ((∀ r ∈ clockReadings s.monitor.history.reverse, 0 < r) →
        (clockReadings s.monitor.history.reverse).Pairwise (· ≤ ·) →
          ∀ pair, PairDebounced pair s.monitor.history.reverse)) ∧
    ∀ rest s, Rounds (WatchCode.round bufsiz malloc) answers (Watch.opened begun) rest s →
      (∀ mfid lines, Completed bufsiz begun s mfid lines → s.handledOf mfid = lines) ∧
      ∀ nidx, filterRuns nidx s.monitor.history.reverse = runsOf nidx s.handled := by
  have start : WatchCode.Between bufsiz malloc begun (Watch.opened begun) :=
    ⟨owing_opened, caught_opened⟩
  constructor
  · rintro s rfl
    have anywhere := (KeepsOr.loop (fun _ hs => hs.1.anywhere) (WatchCode.round_spec hbuf)).state
      (fun _ hs => hs.1.anywhere) answers start
    refine ⟨fun mfid lines completed => Anywhere.handled hmalloc anywhere completed,
      anywhere.routed, fun hclock hmono pair => ?_⟩
    obtain ⟨state, pairAt⟩ := anywhere.debounced pair
    exact pairDebounced_of_at pairAt hclock hmono
  · intro rest s rounds
    have between := rounds.keeps (WatchCode.round_spec hbuf) start
    exact ⟨fun mfid lines completed => WatchCode.Between.handled hmalloc between completed,
      between.1.routed⟩

def appLog (content : Str) : FileSystem :=
  { path := some { stDev := 1, stIno := 2 }, file := fun _ => { content := content } }

def grownLog : FileSystem := appLog "old\nerror\nwar".toList

/-- A line and the beginning of another one are read in chunks of four bytes. -/
def appRound : List WatchAnswer :=
  [.polled grownLog, .read grownLog true, .read grownLog true, .line (.filter (some 1)),
    .read grownLog true, .read grownLog true, .clock (some 7), .slept]

/-- A file that was written to before it was looked at. -/
theorem Appending.of_written {opened : FileSystem} {id : FileId} {content : Str}
    (path : opened.path = some id) (readable : (opened.file id).readable = true)
    (more : (opened.file id).content <+: content) {seen : List (FileSystem × Bool)}
    (looked : seen ≠ [])
    (all : ∀ x ∈ seen, x.2 = true ∧ x.1.path = some id ∧ (x.1.file id).content = content) :
    Appending opened id seen content := by
  induction seen with
  | nil => exact absurd rfl looked
  | cons x seen ih =>
      obtain ⟨fs, ok⟩ := x
      obtain ⟨rfl, named, rfl⟩ := all _ List.mem_cons_self
      by_cases first : seen = []
      · subst first
        exact .grown (.opened path readable) named more
      · exact .grown (ih first fun x inside => all x (List.mem_cons_of_mem _ inside)) named
          List.prefix_rfl

theorem tailFiles_followed_appRound :
    ((WatchCode.round 4 fun _ => true).run appRound
      (Watch.opened fun _ => appLog "old\n".toList : Watch mailContext)).state.handledOf
        ⟨0, by decide⟩ = ["error".toList] := by
  let run := (WatchCode.round 4 fun _ => true).run appRound
    (Watch.opened fun _ => appLog "old\n".toList : Watch mailContext)
  have returned : run.result = some (.ok none) := by decide +kernel
  have rounds : Rounds (WatchCode.round 4 fun _ => true) appRound
      (Watch.opened fun _ => appLog "old\n".toList : Watch mailContext) run.rest run.state :=
    .round (by rw [← returned]) (.start _ _)
  have followed := (tailFiles_followed mailContext (by decide : 0 < 4) (fun _ => rfl)
    (fun _ => appLog "old\n".toList) appRound).2 _ _ rounds
  have grown : Appending (appLog "old\n".toList) { stDev := 1, stIno := 2 }
      (run.state.seen ⟨0, by decide⟩) ("old\n".toList ++ "error\nwar".toList) :=
    Appending.of_written rfl rfl (by decide)
      (List.ne_nil_of_length_pos (by decide +kernel)) (by decide +kernel)
  exact followed.1 ⟨0, by decide⟩ ["error".toList] ⟨rfl, { stDev := 1, stIno := 2 },
    "error\nwar".toList, grown, by decide, by decide +kernel, by decide +kernel⟩

end Baseimage.LogMonitor
