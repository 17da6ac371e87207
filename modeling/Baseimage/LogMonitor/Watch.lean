import Baseimage.LogMonitor.HandleLine
import Baseimage.Run.Part

/-!
# The main loop of the log monitor

The monitored files are polled in turns, again and again. A file is read in chunks, and the lines of
a chunk are handled before the next one is read. Files change at any time, so each look at one and
each chunk shows a file system of its own.
-/

namespace Baseimage.LogMonitor

open Script

/-- What the main loop is told. -/
inductive WatchAnswer where
  /-- While a line is handled. -/
  | line (k : Answer)
  /-- `get_time`; it may abort. -/
  | clock (now : Option Int)
  /-- `stat`, `fstat` and `open` of a monitored file. -/
  | polled (fs : FileSystem)
  /-- `fstat`, `lseek` and `read` of the descriptor; `read` may fail. -/
  | read (fs : FileSystem) (ok : Bool)
  /-- `sleep`. -/
  | slept

/-- The context of the main loop, and what a reader of its history needs to know. -/
structure Watch (ctx : Context) where
  monitor : Monitor ctx := {}
  files : Fin ctx.monitoredFiles.length → MonitoredFile
  /-- What was seen of a file and whether it could be read, newest first. -/
  seen : Fin ctx.monitoredFiles.length → List (FileSystem × Bool) := fun _ => []
  /-- The chunks read from a file. -/
  chunks : Fin ctx.monitoredFiles.length → List Str := fun _ => []
  /-- The lines that were handled. -/
  handled : List (Fin ctx.monitoredFiles.length × Str) := []

abbrev WatchCode (ctx : Context) := Script WatchAnswer (Watch ctx) Empty

variable {ctx : Context}

namespace Watch

/-- The monitor has opened its files. -/
def opened (fs : Fin ctx.monitoredFiles.length → FileSystem) : Watch ctx where
  files mfid := openAtStart (fs mfid) (ctx.monitoredFiles.get mfid).isStatus

/-- The part that handles lines. -/
def monitorPart (ctx : Context) : Part (Watch ctx) (Monitor ctx) where
  get s := s.monitor
  put s monitor := { s with monitor := monitor }
  get_put _ _ := rfl

/-- The file was looked at. -/
def look (s : Watch ctx) (mfid : Fin ctx.monitoredFiles.length) (fs : FileSystem) (ok : Bool)
    (mf : MonitoredFile) : Watch ctx :=
  { s with
    files := Function.update s.files mfid mf
    seen := Function.update s.seen mfid ((fs, ok) :: s.seen mfid) }

/-- A chunk was read from the file. -/
def chunk (s : Watch ctx) (mfid : Fin ctx.monitoredFiles.length) (tailbuf : Str) : Watch ctx :=
  { s with chunks := Function.update s.chunks mfid (s.chunks mfid ++ [tailbuf]) }

/-- The lines that were handled of a file. -/
def handledOf (s : Watch ctx) (mfid : Fin ctx.monitoredFiles.length) : List Str :=
  (s.handled.filter fun line => line.1 = mfid).map Prod.snd

end Watch

def WatchAnswer.forLine : WatchAnswer → Option Answer
  | .line k => some k
  | _ => none

/-- "Check if the file has been truncated", and `tail_read`. -/
def readAt (bufsiz : Nat) (fs : FileSystem) (ok : Bool) (fd : Option Descriptor) :
    Option Descriptor × Str :=
  match fd with
  | none => (none, [])
  | some d =>
      let d := rewindIfTruncated fs d
      let tailbuf := if ok then tailRead bufsiz fs d else []
      (some { d with offset := d.offset + tailbuf.length }, tailbuf)

namespace WatchCode

/-- `get_time`. -/
def getTime : WatchCode ctx Int := do
  let now ← ask fun s k =>
    match k with
    | .clock now => some (now, s)
    | _ => none
  match now with
  | some now => pure now
  | none => abort

/-- "Skip status file if we read it recently." -/
def skipped (mfid : Fin ctx.monitoredFiles.length) : WatchCode ctx Bool := do
  let s ← get
  if (s.files mfid).isStatus then do
    let now ← getTime
    pure (decide (now - (s.files mfid).lastRead < statusFileReadInterval))
  else pure false

/-- The file is looked at, and opened again if needed. -/
def beginPoll (mfid : Fin ctx.monitoredFiles.length) : WatchCode ctx Polled :=
  ask fun s k =>
    match k with
    | .polled fs =>
        let begun := startPoll fs (s.files mfid)
        some (begun.1, s.look mfid fs true begun.2)
    | _ => none

/-- The lines that a chunk completes, unless nothing was read. -/
def readChunk (bufsiz : Nat) (malloc : Nat → Bool) (mfid : Fin ctx.monitoredFiles.length) :
    WatchCode ctx (Option (List Str)) :=
  ask fun s k =>
    match k with
    | .read fs ok =>
        let mf := s.files mfid
        let got := readAt bufsiz fs ok mf.fd
        if got.2 = [] then some (none, s.look mfid fs ok { mf with fd := got.1 })
        else
          let handled := handleRead malloc mf.pendingBuf (CString.ofBuffer got.2)
          let mf := { mf with fd := got.1, pendingBuf := handled.2 }
          some (some handled.1, (s.look mfid fs ok mf).chunk mfid got.2)
    | _ => none

/-- `handle_line`. -/
def handleLine (mfid : Fin ctx.monitoredFiles.length) (line : Str) : WatchCode ctx PUnit := do
  modify fun s => { s with handled := s.handled ++ [(mfid, line)] }
  (Code.handleLine mfid line).onPart WatchAnswer.forLine (Watch.monitorPart ctx)

/-- A round of the loop "Read the file until its end." -/
def readRound (bufsiz : Nat) (malloc : Nat → Bool) (mfid : Fin ctx.monitoredFiles.length) :
    WatchCode ctx (Option PUnit) := do
  let lines ← readChunk bufsiz malloc mfid
  lines.elim (pure (some ⟨⟩)) fun lines => do
    forEach lines (handleLine mfid)
    pure none

/-- The time of the last read. -/
def touch (mfid : Fin ctx.monitoredFiles.length) : WatchCode ctx PUnit := do
  let now ← getTime
  modify fun s =>
    { s with files := Function.update s.files mfid { s.files mfid with lastRead := now } }

/-- The body of the loop over the monitored files. -/
def pollFile (bufsiz : Nat) (malloc : Nat → Bool) (mfid : Fin ctx.monitoredFiles.length) :
    WatchCode ctx PUnit := do
  let skip ← skipped mfid
  if skip then pure ⟨⟩
  else do
    let polled ← beginPoll mfid
    match polled with
    | .closed => pure ⟨⟩
    | .same => touch mfid
    | .reading _ => do
        loop (readRound bufsiz malloc mfid)
        touch mfid

/-- A round of the main loop. -/
def round (bufsiz : Nat) (malloc : Nat → Bool) : WatchCode ctx (Option PUnit) := do
  forEach (List.finRange ctx.monitoredFiles.length) (pollFile bufsiz malloc)
  ask fun s k =>
    match k with
    | .slept => some (none, s)
    | _ => none

/-- "Tail the files." -/
def tailFiles (bufsiz : Nat) (malloc : Nat → Bool) : WatchCode ctx PUnit :=
  loop (round bufsiz malloc)

end WatchCode

end Baseimage.LogMonitor
