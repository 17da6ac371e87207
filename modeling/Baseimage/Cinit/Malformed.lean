import Baseimage.Cinit.Dependencies
import Baseimage.Cinit.Findings
import Baseimage.Cinit.MainLoop

/-!
# Malformed services

The loading of `default` stops at the first thing that is wrong in the directories it comes to,
depth first and in the order `readdir` lists them. What is wrong is reported with the names of the
file and of the service in front of it. `main` catches the exception, logs its message and shuts
down.

Two things are not reported but end the supervisor: a message that does not fit in the exception,
and a file called `.dep` that counts as a dependency, because the service it is about has no name.
-/

namespace Baseimage.Cinit

open CString

/-- What is wrong in what loading finds in the file system. -/
structure ViewFindings (view : View) where
  chdir : Str → Finding
  settings : Str → Finding
  depends : (cwd service dName : Str) → Nat → Finding
  reports_chdir : ∀ service, Reports maxMessage (view.chdirToService service) (chdir service)
  reports_settings : ∀ service, Reports maxMessage (view.settings service) (settings service)
  reports_depends : ∀ cwd service dName n,
    Reports maxMessage (view.depends cwd service dName n) (depends cwd service dName n)

variable {view : View}

/-- What `load_service` comes to. -/
def ViewFindings.service (f : ViewFindings view) (service : Str) (ctx : LoadContext) : Finding :=
  if service = [] then some .fatal
  else
    match findService ctx.services service with
    | some _ => none
    | none =>
        if service.length ≥ serviceNameSize then finding "name too long".toList
        else
          f.chdir service <|>
            if ctx.services.length ≥ maxNumServices then
              finding "maximum number of services reached".toList
            else f.settings service

/-- What the loop over the directory of a service comes to, where loading a service comes to
`find`. -/
def ViewFindings.dependencies (f : ViewFindings view)
    (load : Str → Int → LoadContext → Outcome Str Unit × LoadContext)
    (find : Str → Int → LoadContext → Finding) (service : Str) (sid : Nat) :
    List DirEntry → LoadContext → Finding
  | [], _ => none
  | entry :: entries, ctx =>
      if entry.isDep = false then f.dependencies load find service sid entries ctx
      else
        f.depends ctx.cwd service entry.dName ctx.checks.length <|>
          match view.depends ctx.cwd service entry.dName ctx.checks.length with
          | .ok depends =>
              let ctx := ctx.note service entry.dName depends
              if depends then
                find (removeDepSuffix entry.dName) sid ctx <|>
                  f.dependencies load find service sid entries
                    (load (removeDepSuffix entry.dName) sid ctx).2
              else f.dependencies load find service sid entries ctx
          | _ => none

/-- What `load_service_with_deps` comes to. -/
def ViewFindings.load (f : ViewFindings view) : Nat → Str → Int → LoadContext → Finding
  | 0, _, _, _ => some .fatal
  | depth + 1, service, dependent, ctx =>
      if service = [] then some .fatal
      else
        match findService ctx.services service with
        | some _ => none
        | none =>
            (f.service service ctx).map (Problem.within (couldNotLoadService service)) <|>
              match loadService view service ctx with
              | (.ok sid, ctx) =>
                  if (ctx.services[sid]?.map Service.disabled).getD false then none
                  else
                    let ctx :=
                      { ctx with startOrder := addToStartOrder sid dependent ctx.startOrder }
                    match view.listing service with
                    | .threw strerror =>
                        finding (couldNotLoadService service
                          ("could not open stream for service directory".toList ++ strerror))
                    | .aborted => some .fatal
                    | .ok entries =>
                        f.dependencies (loadWithDepth view depth) (f.load depth) service sid
                          entries ctx
              | _ => none

theorem couldNotLoadService_longer (service text : Str) :
    text.length ≤ (couldNotLoadService service text).length :=
  (List.suffix_append _ text).length_le

/-- The outcome of `load_service`, without what becomes of the table. -/
theorem loadService_fst (service : Str) (ctx : LoadContext) :
    (loadService view service ctx).1 =
      if service = [] then .aborted
      else
        match findService ctx.services service with
        | some sid => .ok sid
        | none =>
            if service.length ≥ serviceNameSize then throwMessage "name too long".toList
            else
              view.chdirToService service >>= fun _ =>
                if ctx.services.length ≥ maxNumServices then
                  throwMessage "maximum number of services reached".toList
                else view.settings service >>= fun _ => .ok ctx.services.length := by
  unfold loadService
  split
  · rfl
  · cases findService ctx.services service with
    | some sid => rfl
    | none =>
        simp only
        split
        · rfl
        · cases view.chdirToService service with
          | threw message => rfl
          | aborted => rfl
          | ok _ =>
              simp only [Outcome.ok_bind]
              split
              · rfl
              · cases view.settings service <;> rfl

theorem loadService_reports (f : ViewFindings view) (service : Str) (ctx : LoadContext) :
    Reports maxMessage (loadService view service ctx).1 (f.service service ctx) := by
  rw [loadService_fst]
  refine reports_ite (fun _ => Reports.raise .fatal) fun _ => ?_
  cases findService ctx.services service with
  | some sid => exact Reports.ok sid
  | none =>
      refine reports_ite (fun _ => reports_throwMessage _) fun _ => ?_
      apply (f.reports_chdir service).bind
      intro _ _
      refine reports_ite (fun _ => reports_throwMessage _) fun _ => ?_
      exact (f.reports_settings service).map fun _ _ => ⟨_, rfl⟩

theorem goOn_fst (result : Outcome Str Unit × LoadContext)
    (rest : LoadContext → Outcome Str Unit × LoadContext) :
    (goOn result rest).1 = result.1 >>= fun _ => (rest result.2).1 := by
  obtain ⟨outcome, ctx⟩ := result
  cases outcome <;> rfl

theorem loadDependencies_reports (f : ViewFindings view)
    {load : Str → Int → LoadContext → Outcome Str Unit × LoadContext}
    {find : Str → Int → LoadContext → Finding}
    (h : ∀ name dependent ctx, Reports maxMessage (load name dependent ctx).1
      (find name dependent ctx))
    (service : Str) (sid : Nat) (entries : List DirEntry) (ctx : LoadContext) :
    Reports maxMessage (loadDependencies view load service sid entries ctx).1
      (f.dependencies load find service sid entries ctx) := by
  induction entries generalizing ctx with
  | nil => exact Reports.ok ()
  | cons entry entries ih =>
      rw [loadDependencies, ViewFindings.dependencies]
      split
      · exact ih ctx
      · have first := f.reports_depends ctx.cwd service entry.dName ctx.checks.length
        cases checked : view.depends ctx.cwd service entry.dName ctx.checks.length with
        | threw message =>
            rw [checked] at first
            exact first.of_threw.orElse_of_ne_ok (by simp)
        | aborted =>
            rw [checked] at first
            exact first.of_aborted.orElse_of_ne_ok (by simp)
        | ok depends =>
            rw [checked] at first
            rw [first.eq_none_of_ok]
            show Reports maxMessage (goOn _ _).1 _
            rw [goOn_fst]
            cases depends with
            | false => exact ih _
            | true => exact (h _ _ _).bind fun _ _ => ih _

theorem loadWithDepth_reports (f : ViewFindings view) (depth : Nat) (service : Str)
    (dependent : Int) (ctx : LoadContext) :
    Reports maxMessage (loadWithDepth view depth service dependent ctx).1
      (f.load depth service dependent ctx) := by
  induction depth generalizing service dependent ctx with
  | zero => exact Reports.raise .fatal
  | succ depth ih =>
      rw [loadWithDepth, ViewFindings.load]
      split
      · exact Reports.raise .fatal
      · cases findService ctx.services service with
        | some sid => exact Reports.ok ()
        | none =>
            have first := loadService_reports f service ctx
            cases run : loadService view service ctx with
            | mk outcome ctx' =>
                rw [run] at first
                cases outcome with
                | threw message =>
                    have wrapped := (first.of_threw (β := Unit)).handle
                      (couldNotLoadService_longer service)
                    refine wrapped.orElse_of_ne_ok fun a h => ?_
                    exact absurd h (throwMessage_ne_ok _ a)
                | aborted =>
                    have wrapped := (first.of_aborted (β := Unit)).handle
                      (couldNotLoadService_longer service)
                    exact wrapped.orElse_of_ne_ok fun _ same => by cases same
                | ok sid =>
                    rw [first.eq_none_of_ok]
                    show Reports maxMessage
                      (ite _ _ _ : Outcome Str Unit × LoadContext).1 (ite _ _ _)
                    split
                    · exact Reports.ok ()
                    · simp only
                      cases view.listing service with
                      | threw strerror => exact reports_throwMessage _
                      | aborted => exact Reports.raise .fatal
                      | ok entries =>
                          exact loadDependencies_reports f (fun _ _ _ => ih _ _ _) _ _ _ _

/-! ## The services root -/

/-- What is wrong in the services root, as the supervisor sees it. -/
def ServicesRoot.findings (sys : System) (defaults : ServiceDefaults) (root : ServicesRoot)
    (memory : Memory) : ViewFindings (root.view sys defaults memory) where
  chdir service :=
    match root.dir service with
    | .ok _ => none
    | .error error => finding error.message
  settings service :=
    match root.dir service with
    | .ok dir => settingsFinding sys defaults dir (memory.settings service)
    | .error _ => some .fatal
  depends cwd _ dName n :=
    valueFinding 32 boolFinding sys dName (root.lookup cwd dName) (memory.stack n)
  reports_chdir service := by
    simp only [ServicesRoot.view, ServicesRoot.chdirToService]
    cases root.dir service with
    | ok dir => exact Reports.ok ()
    | error error => exact reports_throwMessage _
  reports_settings service := by
    simp only [ServicesRoot.view]
    cases root.dir service with
    | ok dir => exact loadSettings_reports defaults dir _ service
    | error error => exact Reports.raise .fatal
  reports_depends cwd service dName n :=
    (loadValueAsBool_reports (memory.stack n)).map fun _ _ => ⟨_, rfl⟩

/-- The first thing that is wrong with the services root, where the loading of `default` comes to
it. -/
def ServicesRoot.firstFinding (sys : System) (defaults : ServiceDefaults) (root : ServicesRoot)
    (memory : Memory) (cwd : Str) : Finding :=
  (root.findings sys defaults memory).load (maxNumServices + 1) "default".toList (-1) { cwd := cwd }

/-- The loading succeeds, or it throws an exception that `main` catches: the supervisor is going
to shut down, and its status is 1. -/
def FailsByException (view : View) (cwd : Str) : Prop :=
  (Code.loadDefault view cwd).1 = .ok () ∨
    ∃ message, (Code.loadDefault view cwd).1 = .threw message ∧ message.length < maxMessage ∧
      ∀ answers, ((Code.bringUpServices view cwd).run answers booted).result = some (.ok 1) ∧
        ((Code.bringUpServices view cwd).run answers booted).state.doShutdown = true

/-- `main` catches what the loading throws. -/
theorem bringUpServices_of_threw {cwd message : Str}
    (h : (Code.loadDefault view cwd).1 = .threw message) (answers : List Answer) :
    (Code.bringUpServices view cwd).run answers booted =
      ⟨some (.ok 1), answers, (booted.load (Code.loadDefault view cwd).2).requestShutdown⟩ := by
  have failed : (Code.loadServices view cwd).run answers booted =
      ⟨some (.threw message), answers, booted.load (Code.loadDefault view cwd).2⟩ := by
    rw [Code.loadServices, h]
    rfl
  rw [Code.bringUpServices, Script.tryCatch_run, Script.bind_run, failed]
  rfl

/-- A services root makes the supervisor abort exactly when the first thing that is wrong with it
cannot be reported. -/
theorem failsByException_iff (sys : System) (defaults : ServiceDefaults) (root : ServicesRoot)
    (memory : Memory) (cwd : Str) :
    FailsByException (root.view sys defaults memory) cwd ↔
      ∀ problem ∈ root.firstFinding sys defaults memory cwd, problem.Fits maxMessage := by
  have reports : Reports maxMessage (Code.loadDefault (root.view sys defaults memory) cwd).1
      (root.firstFinding sys defaults memory cwd) :=
    loadWithDepth_reports (root.findings sys defaults memory) _ _ _ _
  rw [← reports.ne_aborted_iff, FailsByException]
  cases outcome : (Code.loadDefault (root.view sys defaults memory) cwd).1 with
  | ok _ => exact iff_of_true (.inl rfl) nofun
  | aborted =>
      refine iff_of_false ?_ (fun ne => ne rfl)
      rintro (returned | ⟨message, threw, -⟩)
      · cases returned
      · cases threw
  | threw message =>
      refine iff_of_true (.inr ⟨message, rfl, ?_, fun answers => ?_⟩) nofun
      · rw [outcome] at reports
        exact reports.threw_fits
      · rw [bringUpServices_of_threw outcome]
        exact ⟨rfl, rfl⟩

/-! ## How long a name may be -/

theorem couldNotLoad_length (filepath text : Str) :
    (couldNotLoad filepath text).length = 16 + filepath.length + 3 + text.length :=
  length_append_of (length_append_of (length_append_of (by decide +kernel) rfl) (by decide +kernel))
    rfl

theorem couldNotLoadService_length (service text : Str) :
    (couldNotLoadService service text).length = 24 + service.length + 3 + text.length :=
  length_append_of (length_append_of (length_append_of (by decide +kernel) rfl) (by decide +kernel))
    rfl

/-- A user that is not known, in the file `uid` of a service. -/
theorem unknownUser_fits_iff (service user : Str) :
    (Problem.message (couldNotLoadService service (couldNotLoad "uid".toList
      ("unknown user '".toList ++ user ++ "'".toList)))).Fits maxMessage ↔
      service.length + user.length < 192 := by
  have text : ("unknown user '".toList ++ user ++ "'".toList).length = 14 + user.length + 1 :=
    length_append_of (length_append_of (by decide +kernel) rfl) (by decide +kernel)
  have file : "uid".toList.length = 3 := by decide +kernel
  show (couldNotLoadService service _).length < 256 ↔ _
  rw [couldNotLoadService_length, couldNotLoad_length, text, file]
  clear text file
  omega

/-- A dependency on a service that does not exist. -/
theorem missingService_fits_iff (service : Str) :
    (Problem.message (couldNotLoadService service ChdirError.enoent.message)).Fits maxMessage ↔
      service.length < 202 := by
  have text : ChdirError.enoent.message.length = 27 := by decide +kernel
  show (couldNotLoadService service _).length < 256 ↔ _
  rw [couldNotLoadService_length, text]
  clear text
  omega

/-- A dependency file that holds anything but a boolean value. -/
theorem notBoolean_fits_iff (dName : Str) :
    (Problem.message (couldNotLoad dName "not a boolean value".toList)).Fits maxMessage ↔
      dName.length < 218 := by
  have text : "not a boolean value".toList.length = 19 := by decide +kernel
  show (couldNotLoad dName _).length < 256 ↔ _
  rw [couldNotLoad_length, text]
  clear text
  omega

/-! ## Services roots that end the supervisor -/

/-- A services root with nothing but `default`. -/
def onlyDefault (dir : ServiceDir) : ServicesRoot where
  dir service := if service = "default".toList then .ok dir else .error .enoent

/-- `default` has a file `.dep`. -/
def namelessDependency : ServicesRoot :=
  onlyDefault { entries := [{ dName := ".dep".toList, isReg := true, node := some (.file []) }] }

/-- `default` depends on a service that does not exist, with a name of 202 characters. -/
def missingDependency : ServicesRoot :=
  onlyDefault
    { entries :=
        [{ dName := List.replicate 202 'a' ++ ".dep".toList, isReg := true
           node := some (.file []) }] }

/-- `default` is to be run by a user that is not known, with a name of 185 characters. -/
def longUser : ServicesRoot :=
  onlyDefault
    { entries :=
        [{ dName := "run".toList, isReg := true, node := some (.program [] 0) },
          { dName := "uid".toList, isReg := true, node := some (.file (List.replicate 185 'u')) }] }

theorem not_failsByException_of_aborted {cwd : Str}
    (h : (Code.loadDefault view cwd).1 = .aborted) : ¬ FailsByException view cwd := by
  rintro (returned | ⟨message, threw, -⟩)
  · cases h.symm.trans returned
  · cases h.symm.trans threw

/-- An empty service name and messages that are too long violate assertions. -/
theorem malformed_aborts :
    ¬ FailsByException (namelessDependency.view plainSystem {} zeroMemory) "/".toList ∧
      ¬ FailsByException (missingDependency.view plainSystem {} zeroMemory) "/".toList ∧
      ¬ FailsByException (longUser.view plainSystem {} zeroMemory) "/".toList := by
  refine ⟨?_, ?_, ?_⟩
  · exact not_failsByException_of_aborted (by decide +kernel)
  · exact not_failsByException_of_aborted (by decide +kernel)
  · exact not_failsByException_of_aborted (by decide +kernel)

end Baseimage.Cinit
