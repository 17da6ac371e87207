import Baseimage.Cinit.Command
import Baseimage.Cinit.Loading
import Baseimage.Run.Script

/-!
# The supervisor and its children

The state is the service table with what the supervisor records about each process, the start
order, the shutdown flag and the exit code. Next to it stands what the kernel knows: the children
that were forked for a service and have not been reaped. The history is what the supervisor did
to its environment, newest first.

Every call whose result the supervisor does not decide is a question to the environment. A signal
is handled when `do_shutdown` is read next. The pid of an unreaped child is not used again, and
joining a logger thread that was started succeeds.
-/

namespace Baseimage.Cinit

/-- `status` of `waitpid`, as `WIFEXITED` and `WIFSIGNALED` see it. -/
inductive WaitStatus where
  | exited (status : Nat)
  | signaled (sig : Nat)
  | other
  deriving DecidableEq, Repr

/-- The exit code of a terminated service. -/
def WaitStatus.exitCode : WaitStatus → Nat
  | .exited status => status
  | .signaled sig => 128 + sig
  | .other => 1

/-- The argument of the `finish` program. -/
def WaitStatus.finishArg : WaitStatus → Str
  | .exited status => decimal status
  | .signaled sig => decimal (128 + sig : Nat)
  | .other => "126".toList

/-- What `waitpid` returns. -/
inductive Waited where
  | reaped (pid : Int) (status : WaitStatus)
  /-- 0: no child has terminated. -/
  | running
  /-- -1 with `EINTR`. -/
  | interrupted
  /-- -1 with another error; for any child it is that there is none. -/
  | failed
  deriving DecidableEq, Repr

inductive Answer where
  /-- `get_time`; it may abort. -/
  | clock (now : Option UInt64)
  /-- Whether SIGINT or SIGTERM came since `do_shutdown` was read last. -/
  | signals (received : Bool)
  | chdir (error : Option ChdirError)
  /-- `access(..., X_OK) == 0`. -/
  | access (ok : Bool)
  /-- `forkpty`: the child and the master of its terminal. -/
  | fork (child : Option (Int × Int))
  | malloc (ok : Bool)
  /-- `pthread_create`: 0 or the error. -/
  | pthreadCreate (error : Option Str)
  | errno (strerror : Str)
  | waited (result : Waited)
  /-- `kill(pid, 0) == 0`. -/
  | alive (ok : Bool)
  /-- `exec_cmd`. -/
  | program (code : Int)
  /-- `read` from the command FIFO. -/
  | read (buf : Str)
  deriving DecidableEq, Repr

/-- What the supervisor did, or was told. -/
inductive Event where
  | clock (now : UInt64)
  /-- `fork_and_exec` is called for a service. -/
  | forking (service : Nat)
  | forked (service : Nat) (pid : Int)
  /-- `start_service` has started a service. -/
  | started (service : Nat)
  | reaped (pid : Int) (status : WaitStatus)
  | ran (service : Nat) (cmd arg : Str)
  /-- `stop_service` sends SIGTERM; the owner is the service whose unreaped child this is. -/
  | sigterm (service : Nat) (pid : Int) (owner : Option Nat)
  /-- `kill(-1, SIGTERM)` and `kill(-1, SIGKILL)`. -/
  | sigtermAll
  | sigkillAll
  /-- The shutdown comes to an entry of the start order. -/
  | turn (entry : Int)
  /-- The shutdown calls `stop_service` for a service whose entry has this pid. -/
  | stopping (service : Nat) (pid : Int)
  /-- `waitpid(-1)` reports that there is no child. -/
  | childless
  /-- The interval of a service is over and the main loop starts it: whether a restart of it is
  requested. -/
  | intervalOver (service : Nat) (requested : Bool)
  /-- A service has to be started again and the main loop starts it: whether a restart of it is
  requested. -/
  | restartDue (service : Nat) (requested : Bool)
  /-- A command to restart a service was accepted. -/
  | restartAccepted (service : Nat)
  /-- The assertion "Logger thread already started" is violated. -/
  | loggerAlreadyStarted (service : Nat)
  deriving DecidableEq, Repr

/-- An entry of the service table: its settings and its process. -/
structure ServiceEntry where
  settings : Service
  pid : Int := 0
  startTime : UInt64 := 0
  outputFd : Int := -1
  loggerExit : Bool := false
  loggerStarted : Bool := false
  restartRequested : Bool := false

/-- An unused entry, as `memset` leaves it. -/
def ServiceEntry.unused : ServiceEntry where
  settings :=
    { name := [], uid := 0, gid := 0, sgidList := [], umask := 0, minRunningTime := 0,
      readyTimeout := 0 }
  outputFd := 0

/-- Join the logger thread if it was started. -/
def ServiceEntry.joinLogger (srv : ServiceEntry) : ServiceEntry :=
  if srv.loggerStarted then { srv with loggerExit := true, loggerStarted := false } else srv

/-- `close_fd`. -/
def ServiceEntry.closeFd (srv : ServiceEntry) : ServiceEntry :=
  if srv.outputFd ≥ 0 then { srv with outputFd := -1 } else srv

namespace ServiceEntry

variable (srv : ServiceEntry)

@[simp] theorem joinLogger_settings : srv.joinLogger.settings = srv.settings := by
  unfold joinLogger
  split <;> rfl

@[simp] theorem joinLogger_pid : srv.joinLogger.pid = srv.pid := by
  unfold joinLogger
  split <;> rfl

@[simp] theorem joinLogger_loggerStarted : srv.joinLogger.loggerStarted = false := by
  unfold joinLogger
  split
  · rfl
  · next h => exact Bool.eq_false_iff.mpr h

@[simp] theorem closeFd_settings : srv.closeFd.settings = srv.settings := by
  unfold closeFd
  split <;> rfl

@[simp] theorem closeFd_pid : srv.closeFd.pid = srv.pid := by
  unfold closeFd
  split <;> rfl

@[simp] theorem closeFd_loggerStarted : srv.closeFd.loggerStarted = srv.loggerStarted := by
  unfold closeFd
  split <;> rfl

theorem closeFd_outputFd : srv.closeFd.outputFd < 0 := by
  unfold closeFd
  split
  · exact Int.negSucc_lt_zero 0
  · omega

end ServiceEntry

/-- Where the main function is. -/
inductive Phase where
  | loading
  | starting
  | running
  | shuttingDown
  deriving DecidableEq, Repr

/-- A shutdown that `handle_killed` requested: for which service, how its process terminated and
when this was. -/
structure Cause where
  service : Nat
  status : WaitStatus
  phase : Phase
  deriving DecidableEq, Repr

structure Supervisor where
  services : List ServiceEntry := []
  startOrder : List Int := []
  doShutdown : Bool := false
  exitCode : Nat := 0
  /-- The unreaped children and the services they were forked for. -/
  children : List (Int × Nat) := []
  history : List Event := []
  phase : Phase := .loading
  shutdownCause : Option Cause := none

namespace Supervisor

/-- `SRV(sid)`. -/
def srv (s : Supervisor) (sid : Nat) : ServiceEntry := s.services.getD sid .unused

def updateSrv (s : Supervisor) (sid : Nat) (f : ServiceEntry → ServiceEntry) : Supervisor :=
  { s with services := s.services.modify sid f }

def record (s : Supervisor) (e : Event) : Supervisor := { s with history := e :: s.history }

/-- `REQUEST_SHUTDOWN`. -/
def requestShutdown (s : Supervisor) : Supervisor := { s with doShutdown := true }

def enter (s : Supervisor) (phase : Phase) : Supervisor := { s with phase := phase }

def setPid (s : Supervisor) (sid : Nat) (pid : Int) : Supervisor :=
  s.updateSrv sid fun srv => { srv with pid := pid }

def setStartTime (s : Supervisor) (sid : Nat) (now : UInt64) : Supervisor :=
  s.updateSrv sid fun srv => { srv with startTime := now }

def setRestartRequested (s : Supervisor) (sid : Nat) (requested : Bool) : Supervisor :=
  s.updateSrv sid fun srv => { srv with restartRequested := requested }

def setLoggerExit (s : Supervisor) (sid : Nat) (exit : Bool) : Supervisor :=
  s.updateSrv sid fun srv => { srv with loggerExit := exit }

def startLogger (s : Supervisor) (sid : Nat) : Supervisor :=
  s.updateSrv sid fun srv => { srv with loggerStarted := true }

/-- A child was forked: the parent keeps the descriptor of its terminal. -/
def forked (s : Supervisor) (sid : Nat) (pid fd : Int) : Supervisor :=
  ({ s with children := (pid, sid) :: s.children }.updateSrv sid
    fun srv => { srv with outputFd := fd }).record (.forked sid pid)

/-- A process was reaped. It is a child of a service or one that was left to the supervisor. -/
def reaped (s : Supervisor) (pid : Int) (status : WaitStatus) : Supervisor :=
  { s with children := s.children.filter (fun child => child.1 != pid) }.record
    (.reaped pid status)

/-- `find_service_by_pid`. -/
def findServiceByPid (s : Supervisor) (pid : Int) : Option Nat :=
  s.services.findIdx? (fun srv => srv.pid == pid)

/-- The entry of a service whose process has terminated. -/
def killed (s : Supervisor) (sid : Nat) : Supervisor :=
  s.updateSrv sid fun srv => { srv with pid := 0 }.joinLogger.closeFd

/-- `kill(SRV(service).pid, SIGTERM)`. -/
def sigterm (s : Supervisor) (sid : Nat) : Supervisor :=
  s.record (.sigterm sid (s.srv sid).pid (s.children.lookup (s.srv sid).pid))

/-- Termination of a service causes a shutdown with its exit code. -/
def shutdownBy (s : Supervisor) (sid : Nat) (status : WaitStatus) : Supervisor :=
  { s.requestShutdown with
    exitCode := status.exitCode
    shutdownCause := some { service := sid, status := status, phase := s.phase } }

/-- The services are loaded. -/
def load (s : Supervisor) (ctx : LoadContext) : Supervisor :=
  { s with
    services := ctx.services.map fun settings => { settings := settings }
    startOrder := ctx.startOrder }

/-- `unload_services`. -/
def unload (s : Supervisor) : Supervisor := { s with services := [] }

end Supervisor

/-- The code of the supervisor. -/
abbrev Code := Script Answer Supervisor Str

namespace Code

open Script Supervisor

/-- `get_time`. -/
def getTime : Code UInt64 := do
  let now ← ask fun s k =>
    match k with
    | .clock (some now) => some (some now, s.record (.clock now))
    | .clock none => some (none, s)
    | _ => none
  match now with
  | some now => pure now
  | none => abort

/-- `SHUTDOWN_REQUESTED`. -/
def shutdownRequested : Code Bool :=
  ask fun s k =>
    match k with
    | .signals true => some (true, s.requestShutdown)
    | .signals false => some (s.doShutdown, s)
    | _ => none

/-- `SRV(sid)`. -/
def srv (sid : Nat) : Code ServiceEntry := do
  let s ← get
  pure (s.srv sid)

/-- A question whose answer changes nothing. -/
def inquire {α : Type} (answer : Answer → Option α) : Code α :=
  ask fun s k => (answer k).map fun a => (a, s)

/-- `access(file, X_OK) == 0`. -/
def access : Code Bool :=
  inquire fun
    | .access ok => some ok
    | _ => none

def malloc : Code Bool :=
  inquire fun
    | .malloc ok => some ok
    | _ => none

def pthreadCreate : Code (Option Str) :=
  inquire fun
    | .pthreadCreate error => some error
    | _ => none

/-- `strerror(errno)`. -/
def errno : Code Str :=
  inquire fun
    | .errno strerror => some strerror
    | _ => none

/-- `chdir(SRV_ROOT()) || chdir(service)`. -/
def chdir : Code (Option ChdirError) :=
  inquire fun
    | .chdir error => some error
    | _ => none

/-- `kill(pid, 0) == 0`. -/
def alive : Code Bool :=
  inquire fun
    | .alive ok => some ok
    | _ => none

/-- `read(cmd_fd, buf, sizeof(buf) - 1)`. -/
def readCommand : Code Str :=
  inquire fun
    | .read buf => if buf.length ≤ Command.maxRead then some buf else none
    | _ => none

/-- `waitpid`, for one child or, when -1 is given, for any. -/
def waitpid (pid : Int) (nohang : Bool) : Code Waited :=
  ask fun s k =>
    match k with
    | .waited (.reaped child status) =>
        if 0 < child ∧ (pid = -1 ∨ child = pid) then
          some (.reaped child status, s.reaped child status)
        else none
    | .waited .running => if nohang then some (.running, s) else none
    | .waited .interrupted => if nohang then none else some (.interrupted, s)
    | .waited .failed =>
        if pid = -1 then
          if s.children = [] then some (.failed, s.record .childless) else none
        else some (.failed, s)
    | _ => none

def throwMessage {α : Type} (message : Str) : Code α := ofOutcome (Cinit.throwMessage message)

/-- `ThrowMessageWithErrno`. -/
def throwMessageWithErrno {α : Type} (message : Str) : Code α := do
  let strerror ← errno
  throwMessage (message ++ strerror)

/-- `chdir_to_service`. -/
def chdirToService (service : Str) : Code Unit :=
  if service = [] then abort
  else do
    let error ← chdir
    match error with
    | none => pure ()
    | some error => throwMessage error.message

/-- `exec_service_cmd`. -/
def execServiceCmd (sid : Nat) (cmd arg : Str) : Code Int :=
  ask fun s k =>
    match k with
    | .program code => some (code, s.record (.ran sid cmd arg))
    | _ => none

/-- `fork_and_exec`: the child, or 0 on error. -/
def forkAndExec (sid : Nat) : Code Int := do
  modify (·.record (.forking sid))
  ask fun s k =>
    match k with
    | .fork none => some (0, s)
    | .fork (some (pid, fd)) =>
        if 0 < pid ∧ 0 ≤ fd ∧ s.children.lookup pid = none then some (pid, s.forked sid pid fd)
        else none
    | _ => none

/-- The part of `start_service` behind a successful fork. -/
def started (sid : Nat) : Code Unit := do
  let now ← getTime
  modify (·.setStartTime sid now)
  let service ← srv sid
  if service.loggerStarted then do
    modify (·.record (.loggerAlreadyStarted sid))
    abort
  else do
    let memory ← malloc
    if memory then do
      modify (·.setLoggerExit sid false)
      let error ← pthreadCreate
      match error with
      | some strerror =>
          throwMessage ("Failed to create logger thread of service '".toList ++
            service.settings.name ++ "': ".toList ++ strerror)
      | none => do
          modify (·.startLogger sid)
          modify (·.record (.started sid))
    else throwMessage "out of memory".toList

/-- The attempts of `start_service` to fork. -/
def attempts (sid : Nat) : Nat → Code Unit
  | 0 => throwMessageWithErrno "could not fork".toList
  | count + 1 => do
      let pid ← forkAndExec sid
      modify (·.setPid sid pid)
      if pid > 0 then started sid else attempts sid count

/-- `start_service`. -/
def startService (sid : Nat) : Code Unit := do
  let service ← srv sid
  if service.pid ≠ 0 then pure ()
  else do
    chdirToService service.settings.name
    attempts sid 4

/-- `stop_service`. -/
def stopService (sid : Nat) : Code Unit := do
  let service ← srv sid
  if service.pid = 0 then pure ()
  else do
    chdirToService service.settings.name
    let hasKill ← access
    if hasKill then do
      let _ ← execServiceCmd sid "kill".toList (decimal service.pid)
      modify (·.sigterm sid)
    else modify (·.sigterm sid)

/-- The `finish` program of a service. A failure is only logged. -/
def runFinish (sid : Nat) (status : WaitStatus) : Code Unit :=
  tryCatch
    (do
      let service ← srv sid
      chdirToService service.settings.name
      let hasFinish ← access
      if hasFinish then do
        let _ ← execServiceCmd sid "finish".toList status.finishArg
        pure ()
      else pure ())
    (fun _ => pure ())

/-- The end of `handle_killed`: whether the termination of the service triggers a shutdown. -/
def shutdownOnTerminate (sid : Nat) (status : WaitStatus) : Code Unit := do
  let requested ← shutdownRequested
  if requested then pure ()
  else do
    let service ← srv sid
    if service.restartRequested = false ∧ service.settings.shutdownOnTerminate = true then
      modify (·.shutdownBy sid status)
    else pure ()

/-- `handle_killed`. -/
def handleKilled (killed : Int) (status : WaitStatus) : Code Unit :=
  if killed = -1 then pure ()
  else if killed = 0 then pure ()
  else do
    let s ← get
    match s.findServiceByPid killed with
    | none => pure ()
    | some sid => do
        modify (·.killed sid)
        runFinish sid status
        shutdownOnTerminate sid status

/-- A round of the inner loop of `child_handler`. -/
def reapRound : Code (Option Int) := do
  let result ← waitpid (-1) true
  match result with
  | .reaped pid status => do
      handleKilled pid status
      pure none
  | .running => pure (some 0)
  | _ => pure (some (-1))

/-- The inner loop of `child_handler`: reap until there is nothing to reap. -/
def reapTerminated : Code Int := loop reapRound

/-- The time `child_handler` is given is over. -/
def periodOver (period : Int) (start : UInt64) : Code Bool :=
  if period = 0 then pure true
  else if period > 0 then do
    let now ← getTime
    pure (period ≤ (now - start).toNat)
  else pure false

/-- A round of the outer loop of `child_handler`. -/
def handlerRound (period service : Int) (start : UInt64) : Code (Option Bool) := do
  let killed ← reapTerminated
  if killed = -1 then pure (some true)
  else do
    let elapsed ← periodOver period start
    if elapsed then pure (some false)
    else if service ≥ 0 ∧ killed ≠ 0 then do
      let entry ← srv service.toNat
      pure (if entry.pid = 0 then some false else none)
    else pure none

/-- `child_handler`. -/
def childHandler (period service : Int) : Code Bool := do
  let start ← getTime
  loop (handlerRound period service start)

/-! Every round asks something. -/

theorem getTime_asks : Asks getTime := Asks.bind Asks.ask _

theorem reapRound_asks : Asks reapRound := Asks.bind Asks.ask _

theorem handlerRound_asks (period service : Int) (start : UInt64) :
    Asks (handlerRound period service start) :=
  Asks.bind (Asks.loop reapRound_asks) _

end Code

end Baseimage.Cinit
