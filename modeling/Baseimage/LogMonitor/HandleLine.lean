import Baseimage.LogMonitor.Context
import Baseimage.Run.Completion

/-!
# Handling a line

A line of a monitored file goes through the filters of the notifications that list the file, and a
notification whose filter matches is sent to its targets. For each target the time of the last send
is kept, by the position of the notification.

Running a program and reading the clock are questions to the environment. The history is what was
done, newest first.
-/

namespace Baseimage.LogMonitor

open CString Script

/-- What `invoke_exec` reports: that it failed, or the exit code and what was read of the standard
output. -/
inductive Executed where
  | failed
  | exited (code : Nat) (output : Str)
  deriving DecidableEq, Repr

inductive Answer where
  /-- `invoke_exec` of a filter, whose output is not read. -/
  | filter (exitCode : Option Nat)
  /-- The program of a text; without memory for its output it is not run. -/
  | text (result : Option Executed)
  /-- `invoke_exec_no_wait` of a target. -/
  | launched (ok : Bool)
  /-- `get_time`; it may abort. -/
  | clock (now : Option Int)
  deriving DecidableEq, Repr

section

variable (ctx : Context)

/-- A target and the position of a notification. -/
abbrev Pair := Fin ctx.targets.length × Fin ctx.notifications.length

inductive Event where
  | filtered (nidx : Fin ctx.notifications.length) (filter line : Str) (matched : Bool)
  /-- What the program of a text printed, if that is of use. -/
  | text (exe line : Str) (result : Option Str)
  /-- "Ignoring target: debouncing." The clock reading is the one that was compared, if one was. -/
  | suppressed (pair : Pair ctx) (checked : Option Int)
  /-- `invoke_target`. -/
  | invoked (pair : Pair ctx) (checked : Option Int) (send title desc level : Str) (launched : Bool)
  /-- The time of the send. -/
  | recorded (pair : Pair ctx) (now : Int)
  deriving DecidableEq, Repr

/-- The part of the context that changes. -/
structure Monitor where
  /-- `last_notif_sent` of the targets. -/
  lastNotifSent : Pair ctx → Int := fun _ => 0
  history : List (Event ctx) := []

/-- The code that handles lines. -/
abbrev Code := Script Answer (Monitor ctx) Empty

end

variable {ctx : Context}

namespace Monitor

def record (s : Monitor ctx) (e : Event ctx) : Monitor ctx := { s with history := e :: s.history }

/-- `target->last_notif_sent[nidx] = get_time()`. -/
def sent (s : Monitor ctx) (pair : Pair ctx) (now : Int) : Monitor ctx :=
  { s with lastNotifSent := Function.update s.lastNotifSent pair now }.record (.recorded pair now)

end Monitor

/-- `terminate_str_at_first_eol`. -/
def terminateStrAtFirstEol (str : Str) : Str := str.takeWhile fun c => c != '\n' && c != '\r'

/-- `BUFFER_SIZE`. -/
def bufferSize : Nat := 512

def execError : Str := "EXECERROR".toList

/-- The levels. -/
def validLevel (level : Str) : Bool :=
  level == "ERROR".toList || level == "WARNING".toList || level == "INFO".toList

/-- The text in the output of a program, if it exited with 0 and the text is valid. -/
def Executed.text (valid : Str → Bool) : Executed → Option Str
  | .failed => none
  | .exited code output =>
      let text := terminateStrAtFirstEol (ofBuffer output)
      if code = 0 ∧ valid text = true then some text else none

def Executed.fits : Executed → Bool
  | .failed => true
  | .exited _ output => output.length < bufferSize

namespace Code

/-- `get_time`. -/
def getTime : Code ctx Int := do
  let now ← ask fun s k =>
    match k with
    | .clock now => some (now, s)
    | _ => none
  match now with
  | some now => pure now
  | none => abort

/-- `invoke_filter`: whether the line matches. -/
def invokeFilter (nidx : Fin ctx.notifications.length) (filter line : Str) : Code ctx Bool :=
  ask fun s k =>
    match k with
    | .filter exitCode =>
        some (exitCode == some 0, s.record (.filtered nidx filter line (exitCode == some 0)))
    | _ => none

/-- A text of the notification: its own, or what its program prints. -/
def getText (valid : Str → Bool) (text : Text) (line : Str) : Code ctx (Option Str) :=
  if text.isExe then
    ask fun s k =>
      match k with
      | .text none => some (none, s.record (.text text.text line none))
      | .text (some result) =>
          if result.fits then
            some (result.text valid, s.record (.text text.text line (result.text valid)))
          else none
      | _ => none
  else pure (some text.text)

/-- `invoke_target`. Whether the program could be launched does not matter. -/
def invokeTarget (pair : Pair ctx) (checked : Option Int) (send title desc level : Str) :
    Code ctx Unit :=
  ask fun s k =>
    match k with
    | .launched ok => some ((), s.record (.invoked pair checked send title desc level ok))
    | _ => none

/-- "Send the target." -/
def sendTarget (pair : Pair ctx) (checked : Option Int) (title desc level : Option Str) :
    Code ctx PUnit := do
  invokeTarget pair checked (ctx.targets.get pair.1).send (title.getD execError)
    (desc.getD execError) (level.getD execError)
  let now ← getTime
  modify (·.sent pair now)

/-- The body of the loop over the targets of a notification. -/
def handleTarget (nidx : Fin ctx.notifications.length) (title desc level : Option Str)
    (tid : Fin ctx.targets.length) : Code ctx PUnit := do
  let s ← get
  let last := s.lastNotifSent (tid, nidx)
  let debouncing := (ctx.targets.get tid).debouncing
  if last > 0 then
    -- Value of 0: send only once.
    if debouncing = 0 then modify (·.record (.suppressed (tid, nidx) none))
    else if debouncing > 0 then do
      let now ← getTime
      if now - last < debouncing then modify (·.record (.suppressed (tid, nidx) (some now)))
      else sendTarget (tid, nidx) (some now) title desc level
    else sendTarget (tid, nidx) none title desc level
  else sendTarget (tid, nidx) none title desc level

/-- The filter of the notification matches: its texts are made, and it is sent. -/
def handleMatch (line : Str) (nidx : Fin ctx.notifications.length) : Code ctx PUnit := do
  let notif := ctx.notifications.get nidx
  let title ← getText (fun _ => true) notif.title line
  let desc ← getText (fun _ => true) notif.desc line
  let level ← getText validLevel notif.level line
  forEach notif.targets (handleTarget nidx title desc level)

/-- The body of the loop over the notifications, for a line of a monitored file. -/
def handleNotification (path line : Str) (nidx : Fin ctx.notifications.length) :
    Code ctx PUnit := do
  let notif := ctx.notifications.get nidx
  if notif.lists path then do
    let matched ← invokeFilter nidx notif.filter line
    if matched then handleMatch line nidx else pure ⟨⟩
  else pure ⟨⟩

/-- `handle_line`. -/
def handleLine (mfid : Fin ctx.monitoredFiles.length) (line : Str) : Code ctx PUnit :=
  forEach (List.finRange ctx.notifications.length)
    (handleNotification (ctx.monitoredFiles.get mfid).path line)

/-- Lines of any monitored files, one after the other. -/
def handleLines (lines : List (Fin ctx.monitoredFiles.length × Str)) : Code ctx PUnit :=
  forEach lines fun line => handleLine line.1 line.2

/-! ## Every line is handled to its end -/

/-- `get_time` does not abort. -/
def ClockWorks (k : Answer) : Prop := k ≠ .clock none

/-- The questions that a target, a notification and a line ask at most. -/
def targetQuestions : Nat := 3

def notificationQuestions : Nat := 4 + maxNumTargets * targetQuestions

def lineQuestions : Nat := maxNumNotifications * notificationQuestions

theorem getTime_finishes : Finishes ClockWorks 1 (getTime : Code ctx Int) where
  steady := Steady.ask.bind fun now => by
    cases now with
    | none => exact Steady.ofOutcome .aborted
    | some now => exact Steady.pure now
  completes := by
    refine Completes.bind (M := fun now _ => now ≠ none) Steady.ask (Completes.ask ?_ ?_) fun now =>
      ?_
    · exact fun s _ => ⟨.clock (some 0), some 0, s, by simp [ClockWorks], rfl⟩
    · intro s k now t _ works h
      split at h
      · next reading =>
          obtain ⟨rfl, -⟩ := Prod.mk.inj (Option.some.inj h)
          rintro rfl
          exact works rfl
      · cases h
    · cases now with
      | none => exact fun _ _ _ _ absent => absurd rfl absent
      | some now => exact Completes.pure fun _ _ => trivial
  asksAtMost := by
    refine (AsksAtMost.bind AsksAtMost.ask fun now => ?_ : AsksAtMost (1 + 0) getTime)
    cases now with
    | none => exact AsksAtMost.abort
    | some now => exact AsksAtMost.pure now

theorem getText_finishes (valid : Str → Bool) (text : Text) (line : Str) :
    Finishes ClockWorks 1 (getText valid text line : Code ctx (Option Str)) :=
  Finishes.ite (Finishes.ask (.text none) (by simp [ClockWorks]) fun _ => ⟨_, _, rfl⟩)
    ((Finishes.pure _).mono (Nat.zero_le 1))

theorem sendTarget_finishes (pair : Pair ctx) (checked : Option Int)
    (title desc level : Option Str) :
    Finishes ClockWorks 2 (sendTarget pair checked title desc level) :=
  (Finishes.ask (.launched true) (by simp [ClockWorks]) fun _ => ⟨_, _, rfl⟩).bind fun _ =>
    getTime_finishes.bind fun _ => Finishes.modify _

theorem handleTarget_finishes (nidx : Fin ctx.notifications.length) (title desc level : Option Str)
    (tid : Fin ctx.targets.length) :
    Finishes ClockWorks targetQuestions (handleTarget nidx title desc level tid) := by
  have suppress : ∀ checked, Finishes ClockWorks 2
      (modify (·.record (.suppressed (tid, nidx) checked)) : Code ctx PUnit) :=
    fun checked => (Finishes.modify _).mono (Nat.zero_le 2)
  have send : ∀ checked, Finishes ClockWorks 2
      (sendTarget (tid, nidx) checked title desc level) :=
    fun checked => sendTarget_finishes _ checked _ _ _
  refine (Finishes.bind Finishes.get fun s => ?_ : Finishes ClockWorks (0 + targetQuestions) _)
  refine Finishes.ite ?_ ((send none).mono (Nat.le_succ 2))
  refine Finishes.ite ((suppress none).mono (Nat.le_succ 2)) ?_
  refine Finishes.ite ?_ ((send none).mono (Nat.le_succ 2))
  refine (getTime_finishes.bind fun now => ?_ : Finishes ClockWorks (1 + 2) _)
  exact Finishes.ite (suppress (some now)) (send (some now))

theorem handleMatch_finishes (line : Str) (nidx : Fin ctx.notifications.length) :
    Finishes ClockWorks (3 + maxNumTargets * targetQuestions) (handleMatch line nidx) := by
  refine ((getText_finishes _ _ _).bind fun title => (getText_finishes _ _ _).bind fun desc =>
    (getText_finishes _ _ _).bind fun level =>
      Finishes.forEach fun tid => handleTarget_finishes nidx title desc level tid).mono ?_
  have few := Nat.mul_le_mul_right targetQuestions (ctx.notifications.get nidx).targets_le
  omega

theorem handleNotification_finishes (path line : Str) (nidx : Fin ctx.notifications.length) :
    Finishes ClockWorks notificationQuestions (handleNotification path line nidx) := by
  refine Finishes.ite ?_ ((Finishes.pure _).mono (Nat.zero_le _))
  refine (Finishes.bind (Finishes.ask (.filter none) (by simp [ClockWorks]) fun _ => ⟨_, _, rfl⟩)
    fun matched => Finishes.ite (handleMatch_finishes line nidx)
      ((Finishes.pure _).mono (Nat.zero_le _))).mono ?_
  rw [notificationQuestions]
  omega

/-- `handle_line` asks so many questions at most, and returns when they are answered. -/
theorem handleLine_finishes (mfid : Fin ctx.monitoredFiles.length) (line : Str) :
    Finishes ClockWorks lineQuestions (handleLine mfid line) := by
  refine (Finishes.forEach fun nidx => handleNotification_finishes _ line nidx).mono ?_
  rw [List.length_finRange]
  exact Nat.mul_le_mul_right _ ctx.notifications_le

end Code

end Baseimage.LogMonitor
