import Baseimage.LogMonitor.Poll

/-!
# Status files, version by version

A status file is refreshed as a whole, and every version should be handled on its own: its
non-empty lines, and nothing of an earlier version. The monitor uses the assembler of append-only
logs for it, which keeps the part after the last line feed for the next reading. The readings are
right exactly as long as no version ends in an unterminated line.
-/

namespace Baseimage.LogMonitor

/-- The non-empty lines of a content, a last line without line feed included. -/
def nonEmptyLines (content : Str) : List Str :=
  linesOf (Lines.feed isLf [] content).1 ++ (pendingOf (Lines.feed isLf [] content).2).toList

/-- The content is empty or ends in a line feed. -/
def Terminated (content : Str) : Prop := content = [] ∨ content.getLast? = some '\n'

instance (content : Str) : Decidable (Terminated content) :=
  inferInstanceAs (Decidable (_ ∨ _))

theorem feed_rest_eq_nil_iff (content : Str) :
    (Lines.feed isLf [] content).2 = [] ↔ Terminated content := by
  rw [Lines.feed_held_eq_nil_iff, Terminated]
  simp [isLf]

/-- Handling only the terminated lines of a content handles all of them exactly if the content
is terminated: otherwise the last one is missing. -/
theorem linesOf_feed_eq_nonEmptyLines_iff (content : Str) :
    linesOf (Lines.feed isLf [] content).1 = nonEmptyLines content ↔ Terminated content := by
  rw [← feed_rest_eq_nil_iff, nonEmptyLines, List.self_eq_append_right]
  by_cases h : (Lines.feed isLf [] content).2 = [] <;> simp [pendingOf, h]

variable {bufsiz : Nat} {malloc : Nat → Bool}

/-- A reading of a status file starts at its beginning. -/
theorem startPoll_status {fs : FileSystem} {mf : MonitoredFile} (hstatus : mf.isStatus = true)
    {d : Descriptor} {mf' : MonitoredFile} (h : startPoll fs mf = (.reading d, mf')) :
    d.offset = 0 ∧ mf'.pendingBuf = mf.pendingBuf ∧ mf'.isStatus = true := by
  unfold startPoll at h
  grind

theorem startPoll_frame (fs : FileSystem) (mf : MonitoredFile) :
    (startPoll fs mf).2.pendingBuf = mf.pendingBuf ∧
      (startPoll fs mf).2.isStatus = mf.isStatus := by
  unfold startPoll
  grind

theorem readOnce_isStatus {fs : FileSystem} {d d' : Descriptor} {mf mf' : MonitoredFile}
    {lines : List Str} (h : readOnce bufsiz malloc fs d mf = some (lines, d', mf')) :
    mf'.isStatus = mf.isStatus := by
  unfold readOnce at h
  grind

theorem readToEnd_isStatus (fs : FileSystem) (fuel : Nat) (d : Descriptor) (mf : MonitoredFile) :
    (readToEnd bufsiz malloc fs fuel d mf).2.isStatus = mf.isStatus := by
  induction fuel generalizing d mf with
  | zero => rfl
  | succ fuel ih =>
      rw [readToEnd]
      split
      · rfl
      · next lines d' mf' h => exact (ih d' mf').trans (readOnce_isStatus h)

/-- A poll of a status file with nothing pending: either nothing is read and nothing becomes
pending, or the terminated lines of the content are handled and the rest becomes pending. -/
theorem poll_status (hbuf : 0 < bufsiz) (hmalloc : ∀ n, malloc n = true) {mf : MonitoredFile}
    (hstatus : mf.isStatus = true) (hpending : mf.pendingBuf = none) (o : Observation)
    (hin : ∀ r ∈ (poll bufsiz malloc o mf).1,
      CString.NulFree r.content ∧ r.content.length < maxWorkBuf) :
    (poll bufsiz malloc o mf).2.isStatus = true ∧
      match (poll bufsiz malloc o mf).1 with
      | none => (poll bufsiz malloc o mf).2.pendingBuf = none
      | some r =>
          r.lines = linesOf (Lines.feed isLf [] r.content).1 ∧
            (poll bufsiz malloc o mf).2.pendingBuf =
              pendingOf (Lines.feed isLf [] r.content).2 := by
  have frame := startPoll_frame o.fs mf
  unfold poll at hin ⊢
  split
  · exact ⟨hstatus, hpending⟩
  · next recent =>
      rw [if_neg recent] at hin
      split
      · next mf' h => grind
      · next mf' h => grind
      · next d mf' h =>
          obtain ⟨hoffset, hpending', hstatus'⟩ := startPoll_status hstatus h
          rw [h] at hin
          obtain ⟨hnul, hshort⟩ := hin _ rfl
          simp only at hnul hshort
          have nothing : mf'.pendingBuf = pendingOf [] := by
            rw [hpending', hpending, pendingOf_nil]
          have whole : (o.fs.file d.id).content.drop d.offset = (o.fs.file d.id).content := by
            rw [hoffset, List.drop_zero]
          have fits : ([] : Str).length + (o.fs.file d.id).content.length + 1 ≤ maxWorkBuf := by
            simp only [List.length_nil]
            omega
          obtain ⟨lines, pending⟩ := readToEnd_eq_feed hbuf hmalloc nothing whole (by omega)
            (Nat.lt_succ_self _) hnul Lines.open_nil fits
          exact ⟨(readToEnd_isStatus _ _ _ _).trans hstatus', lines, pending⟩

theorem readings_status_iff (hbuf : 0 < bufsiz) (hmalloc : ∀ n, malloc n = true)
    (os : List Observation) {mf : MonitoredFile} (hstatus : mf.isStatus = true)
    (hpending : mf.pendingBuf = none)
    (hin : ∀ r ∈ readings bufsiz malloc os mf,
      CString.NulFree r.content ∧ r.content.length < maxWorkBuf) :
    (∀ r ∈ readings bufsiz malloc os mf, r.lines = nonEmptyLines r.content) ↔
      ∀ r ∈ readings bufsiz malloc os mf, Terminated r.content := by
  induction os generalizing mf with
  | nil => simp [readings]
  | cons o os ih =>
      simp only [readings, List.mem_append, Option.mem_toList] at hin ⊢
      obtain ⟨hstatus', step⟩ := poll_status hbuf hmalloc hstatus hpending o
        (fun r hr => hin r (Or.inl hr))
      have rest := fun hnone => ih hstatus' hnone (fun r hr => hin r (Or.inr hr))
      cases hread : (poll bufsiz malloc o mf).1 with
      | none =>
          rw [hread] at step
          simpa using rest step
      | some r =>
          rw [hread] at step
          obtain ⟨hlines, hnext⟩ := step
          have here := linesOf_feed_eq_nonEmptyLines_iff r.content
          rw [← hlines] at here
          -- Past an unterminated version both sides have failed already.
          by_cases hterm : Terminated r.content
          · rw [(feed_rest_eq_nil_iff r.content).mpr hterm, pendingOf_nil] at hnext
            have later := rest hnext
            grind
          · grind

/-- The law of status files. From start-up on, the lines handled at every reading are the
non-empty lines of the version read, if and only if every version read is terminated. -/
theorem statusFile_versions_iff (hbuf : 0 < bufsiz) (hmalloc : ∀ n, malloc n = true)
    (start : FileSystem) (os : List Observation)
    (hin : ∀ r ∈ readings bufsiz malloc os (openAtStart start true),
      CString.NulFree r.content ∧ r.content.length < maxWorkBuf) :
    (∀ r ∈ readings bufsiz malloc os (openAtStart start true),
        r.lines = nonEmptyLines r.content) ↔
      ∀ r ∈ readings bufsiz malloc os (openAtStart start true), Terminated r.content :=
  readings_status_iff hbuf hmalloc os rfl rfl hin

/-- A status file that was refreshed in place with some content at some second. -/
def refreshed (content : Str) (time : Int) : Observation :=
  { fs :=
      { path := some { stDev := 1, stIno := 7 }
        file := fun _ => { content := content, mtime := time } }
    now := time
    done := time }

/-- Two terminated versions are handled one by one. -/
theorem statusFile_versions_terminated :
    (readings 1024 (fun _ => true)
        [refreshed "link up\n".toList 10, refreshed "load 3\nlink down\n".toList 20]
        (openAtStart (refreshed [] 1).fs true)).length = 2 ∧
      ∀ r ∈ readings 1024 (fun _ => true)
          [refreshed "link up\n".toList 10, refreshed "load 3\nlink down\n".toList 20]
          (openAtStart (refreshed [] 1).fs true),
        r.lines = nonEmptyLines r.content :=
  ⟨by decide +kernel, (statusFile_versions_iff (by decide) (fun _ => rfl) _ _
    (by decide +kernel)).mpr (by decide +kernel)⟩

/-- A version that ends in an unterminated line: its only line is not handled when the version
is read, and is glued to the first line of the next version instead. -/
theorem statusFile_unterminated_version :
    readings 1024 (fun _ => true)
        [refreshed "link up".toList 10, refreshed "link down\n".toList 20]
        (openAtStart (refreshed [] 1).fs true) =
      [{ content := "link up".toList, lines := [] },
        { content := "link down\n".toList, lines := ["link uplink down".toList] }] ∧
    ¬ ∀ r ∈ readings 1024 (fun _ => true)
        [refreshed "link up".toList 10, refreshed "link down\n".toList 20]
        (openAtStart (refreshed [] 1).fs true),
      r.lines = nonEmptyLines r.content := by
  constructor
  · decide +kernel
  · decide +kernel

end Baseimage.LogMonitor
