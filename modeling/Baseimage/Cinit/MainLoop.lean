import Baseimage.Cinit.Supervisor

/-!
# Start-up, main loop and shutdown

The services are started in the start order, and each is waited for: until it has terminated if
it is a sync service, otherwise for its minimum running time and until it is ready. The main loop
reaps, restarts what is due and acts on commands until a shutdown is requested.

`main` is modelled from the loading of the services to the status it passes to `cinit_exit`.
-/

namespace Baseimage.Cinit

/-- `SERVICE_RESTART_DELAY`. -/
def serviceRestartDelay : Nat := 500

/-- An `unsigned int` as an `int`. -/
def asInt (n : Nat) : Int := if n < 2 ^ 31 then n else n - 2 ^ 32

/-- The message of a service that failed to be started. -/
def failedToBeStarted (service message : Str) : Str :=
  "service '".toList ++ service ++ "' failed to be started: ".toList ++ message ++ ".".toList

/-- The process has to be started again. -/
def ServiceEntry.toBeRestarted (srv : ServiceEntry) : Bool :=
  (srv.settings.respawn || srv.restartRequested) && srv.pid == 0

namespace Code

open Script Supervisor

def terminationRound (sid : Nat) : Code (Option (Option WaitStatus)) := do
  let service ← srv sid
  let result ← waitpid service.pid false
  match result with
  | .reaped _ status => pure (some (some status))
  | .interrupted => do
      let requested ← shutdownRequested
      pure (if requested then some none else none)
  | _ =>
      throwMessageWithErrno ("could not wait for termination of service '".toList ++
        service.settings.name ++ "'".toList)

/-- Wait until the process of a sync service has terminated; `none` when a shutdown was requested
meanwhile. -/
def waitTermination (sid : Nat) : Code (Option WaitStatus) := loop (terminationRound sid)

/-- The part of `start_services` for a sync service. -/
def runSync (sid : Nat) : Code Unit := do
  let terminated ← waitTermination sid
  match terminated with
  | none => pure ()
  | some status => do
      let service ← srv sid
      handleKilled service.pid status
      if status = .exited 0 then pure () else throwMessage "termined with error".toList

def uptimeRound (sid : Nat) : Code (Option Bool) := do
  let requested ← shutdownRequested
  if requested then pure (some false)
  else do
    let now ← getTime
    let service ← srv sid
    if (now - service.startTime).toNat ≥ service.settings.minRunningTime then pure (some true)
    else do
      let result ← waitpid service.pid true
      match result with
      | .reaped _ status => do
          handleKilled service.pid status
          throwMessage "minimum uptime not met".toList
      | .running => pure none
      | _ =>
          throwMessageWithErrno ("could not wait for termination of service '".toList ++
            service.settings.name ++ "'".toList)

/-- Wait until the minimum running time is over; false when a shutdown was requested before. -/
def waitUptime (sid : Nat) : Code Bool := loop (uptimeRound sid)

def readyRound (sid : Nat) (service : ServiceEntry) : Code (Option Unit) := do
  let now ← getTime
  if (now - service.startTime).toNat ≥ service.settings.readyTimeout then
    throwMessage ("not ready after ".toList ++ decimal (asInt service.settings.readyTimeout) ++
      " msec, giving up".toList)
  else do
    let up ← alive
    if up then do
      let code ← execServiceCmd sid "is_ready".toList (decimal service.pid)
      if code = 0 then pure (some ())
      else do
        let requested ← shutdownRequested
        pure (if requested then some () else none)
    else throwMessage "terminated before being ready".toList

/-- Wait until the service is ready, or until a shutdown is requested. -/
def waitReady (sid : Nat) : Code Unit := do
  let service ← srv sid
  chdirToService service.settings.name
  let hasIsReady ← access
  if hasIsReady then loop (readyRound sid service) else pure ()

/-- What `start_services` does for a service between `Try` and `Catch`. -/
def bringUp (sid : Nat) : Code Unit := do
  startService sid
  let service ← srv sid
  if service.settings.sync then runSync sid
  else if service.settings.interval > 0 then pure ()
  else do
    let up ← waitUptime sid
    if up then waitReady sid else pure ()

/-- A failed start is only logged if the failure is to be ignored. -/
def startFailed (sid : Nat) (message : Str) : Code Unit := do
  let service ← srv sid
  if service.settings.ignoreFailure then pure ()
  else throwMessage (failedToBeStarted service.settings.name message)

/-- `start_services`, for the rest of the start order. -/
def startServices : List Int → Code Unit
  | [] => pure ()
  | sid :: order =>
      if sid < 0 then pure ()
      else do
        let service ← srv sid.toNat
        if service.settings.isServiceGroup then startServices order
        else do
          let requested ← shutdownRequested
          if requested then pure ()
          else do
            tryCatch (bringUp sid.toNat) (startFailed sid.toNat)
            startServices order

/-- The first step of `cinit_shutdown`: stop the services of the reversed start order. True when
all processes have terminated. -/
def stopServices : List Int → Code Bool
  | [] => pure false
  | sid :: order => do
      modify (·.record (.turn sid))
      if sid < 0 then stopServices order
      else do
        let service ← srv sid.toNat
        if service.settings.isServiceGroup ∨ service.pid = 0 then stopServices order
        else do
          modify (·.record (.stopping sid.toNat service.pid))
          tryCatch (stopService sid.toNat) (fun _ => pure ())
          let all ← childHandler 250 sid
          if all then pure true else stopServices order

/-- `cinit_shutdown`. -/
def cinitShutdown (servicesGracetime : Nat) : Code Unit := do
  let s ← get
  let all ← stopServices s.startOrder.reverse
  if all then pure ()
  else do
    let all ← childHandler 0 (-1)
    if all then pure ()
    else do
      modify (·.record .sigtermAll)
      let all ← childHandler (asInt servicesGracetime) (-1)
      if all then pure ()
      else do
        modify (·.record .sigkillAll)
        let _ ← childHandler (-1) (-1)
        pure ()

/-- Start a service that runs at a regular interval, when it is due. -/
def runInterval (sid : Nat) : Code Unit := do
  let service ← srv sid
  if service.settings.interval > 0 then do
    let now ← getTime
    if (now - service.startTime).toNat ≥ service.settings.interval * 1000 % 2 ^ 32 then
      if service.pid > 0 then do
        let now ← getTime
        modify (·.setStartTime sid now)
      else do
        modify (·.record (.intervalOver sid service.restartRequested))
        tryCatch (startService sid) (fun _ => pure ())
    else pure ()
  else pure ()

/-- Restart a service, when it is due. -/
def runRestart (sid : Nat) : Code Unit := do
  let service ← srv sid
  if service.toBeRestarted then do
    let now ← getTime
    if (now - service.startTime).toNat > serviceRestartDelay then do
      modify (·.record (.restartDue sid service.restartRequested))
      tryCatch
        (do
          startService sid
          modify (·.setRestartRequested sid false))
        (fun _ => pure ())
    else pure ()
  else pure ()

/-- Process a command received from the named pipe. -/
def runCommand : Code Unit := do
  let buf ← readCommand
  match Command.restartRequest buf with
  | none => pure ()
  | some [] => abort
  | some service => do
      let s ← get
      match findService (s.services.map ServiceEntry.settings) service with
      | none => pure ()
      | some sid =>
          tryCatch
            (do
              stopService sid
              modify (·.setRestartRequested sid true)
              modify (·.record (.restartAccepted sid)))
            (fun _ => pure ())

/-- The part of the main loop behind the checks for a shutdown. -/
def processServices : Code Unit := do
  let s ← get
  forEach (List.range s.services.length) runInterval
  forEach (List.range s.services.length) runRestart
  runCommand

/-- One iteration of the main loop. -/
def mainIteration : Code (Option Unit) := do
  let requested ← shutdownRequested
  if requested then pure (some ())
  else do
    let allChildrenTerminated ← childHandler 0 (-1)
    let requested ← shutdownRequested
    if requested then pure (some ())
    else do
      let s ← get
      if allChildrenTerminated = true ∧
        s.services.all (fun srv => !srv.toBeRestarted) = true then do
        modify requestShutdown
        pure (some ())
      else do
        processServices
        pure none

def mainLoop : Code Unit := loop mainIteration

/-! Every round asks something, so a loop that is still running waits for an answer. -/

theorem uptimeRound_asks (sid : Nat) : Asks (uptimeRound sid) := Asks.bind Asks.ask _

theorem readyRound_asks (sid : Nat) (service : ServiceEntry) : Asks (readyRound sid service) :=
  Asks.bind getTime_asks _

/-- The loading of the services. -/
def loadDefault (view : View) (cwd : Str) : Outcome Str Unit × LoadContext :=
  loadServiceWithDeps view "default".toList (-1) { cwd := cwd }

/-- Load the services. -/
def loadServices (view : View) (cwd : Str) : Code Unit := do
  modify (·.load (loadDefault view cwd).2)
  ofOutcome (loadDefault view cwd).1

/-- Bring up services: the exit status so far. -/
def bringUpServices (view : View) (cwd : Str) : Code Nat :=
  tryCatch
    (do
      loadServices view cwd
      modify (·.enter .starting)
      let s ← get
      startServices s.startOrder
      pure 0)
    (fun _ => do
      modify requestShutdown
      pure 1)

/-- `main`: the status that is passed to `cinit_exit`. -/
def main (view : View) (cwd : Str) (servicesGracetime : Nat) : Code Nat := do
  let exitStatus ← bringUpServices view cwd
  modify (·.enter .running)
  mainLoop
  let s ← get
  let exitStatus := if exitStatus = 0 ∧ s.exitCode ≠ 0 then s.exitCode else exitStatus
  let requested ← shutdownRequested
  if requested then do
    modify (·.enter .shuttingDown)
    cinitShutdown servicesGracetime
    modify unload
    pure exitStatus
  else abort

end Code

/-- The supervisor before anything was loaded. -/
def booted : Supervisor := {}

end Baseimage.Cinit
