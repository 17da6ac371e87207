import Baseimage.Cinit.ServiceEnvironment
import Baseimage.Run.Credentials
import Baseimage.Run.Told

/-!
# From the fork to the program of a service

The child that `fork_and_exec` forks sets its priority, umask, groups, user and working directory
and then becomes the program. If the kernel refuses one of these it exits, so there is no program
with another identity than the one of its service. Groups are set before the user, for a process
that is not root any more may not set them; and a program that is not root stays with its identity.
-/

namespace Baseimage.Cinit

open Script

/-! ## The child -/

/-- What the kernel knows of a process. -/
structure Process where
  credentials : Credentials
  nice : Int
  umask : Nat
  cwd : Str
  deriving DecidableEq, Repr

/-- The arguments of `execve`. -/
structure Image where
  path : Str
  argv : List StringCell
  envp : List StringCell
  deriving DecidableEq, Repr

namespace Process

/-- `setpriority`. The value is brought into the range there is. -/
def setpriority (priority : Int) (p : Process) : Option Process :=
  let nice := max (-20) (min 19 priority)
  if p.credentials.privileged ∨ p.nice ≤ nice then some { p with nice := nice } else none

def setUmask (mask : Nat) (p : Process) : Process := { p with umask := mask % 0o1000 }

def withCredentials (p : Process) (changed : Option Credentials) : Option Process :=
  changed.map fun c => { p with credentials := c }

def chdir (path : Str) (p : Process) : Option Process := some { p with cwd := path }

end Process

/-- Code of the child: the environment says whether the kernel grants a call that is permitted, and
what is thrown is the exit status. -/
abbrev ChildCode := Script Bool Process Nat

/-- A system call, and `err` if it fails. -/
def request (status : Nat) (call : Process → Option Process) : ChildCode Unit := do
  let granted ← ask fun p granted => if granted then (call p).map (true, ·) else some (false, p)
  if granted then pure () else ofOutcome (.threw status)

/-- What is behind the last slash. -/
def programName (argv0 : Str) : Str := (argv0.reverse.takeWhile (· ≠ '/')).reverse

/-- A round of the loop over the arguments. -/
def argvRound (argv0 : Str) (params : List Str) (argvSize : Nat)
    (argv : List StringCell) (i : Nat) :
    Option (List StringCell) :=
  if i = 0 then Cells.store argv i (.string (programName argv0))
  else if i = argvSize - 1 then Cells.store argv i .null
  else Cells.load params (i - 1) >>= fun param => Cells.store argv i (.string param)

/-- The list of arguments. -/
def passedArgv (argv0 : Str) (params : List Str) : Option (List StringCell) :=
  let argvSize := params.length + 2
  (List.range argvSize).foldlM (argvRound argv0 params argvSize) (List.replicate argvSize .unset)

/-- The arrays of the child. Nothing is known of a child that works outside of them. -/
def prepared {α : Type} (array : Option α) : ChildCode α :=
  match array with
  | some array => pure array
  | none => abort

/-- A system call that is only made under a condition. -/
def requestIf (asked : Prop) [Decidable asked] (call : Process → Option Process) : ChildCode Unit :=
  if asked then request 50 call else pure ()

/-- What the child sets before it becomes the program. -/
def setProcess (srv : Service) : ChildCode Unit := do
  requestIf (srv.priority ≠ 0) (·.setpriority srv.priority)
  modify (·.setUmask srv.umask)
  request 50 fun p => p.withCredentials (p.credentials.setgroups srv.sgidList)
  requestIf (srv.gid > 0) fun p => p.withCredentials (p.credentials.setgid srv.gid)
  requestIf (srv.uid > 0) fun p => p.withCredentials (p.credentials.setuid srv.uid)
  requestIf (srv.workingDirectory.length > 0) (·.chdir srv.workingDirectory)

/-- The child of `fork_and_exec`. -/
def child (srv : Service) (environ : List Str) : ChildCode Image :=
  match srv.runAbsPath with
  | none => ofOutcome (.threw 50)
  | some argv0 => do
      let argv ← prepared (passedArgv argv0 srv.paramList)
      let envp ← prepared (passedEnvironment environ srv.environment srv.environmentExtra)
      setProcess srv
      request 126 some
      pure { path := argv0, argv := argv, envp := envp }

/-! ## The arguments -/

/-- The rounds for the rest of the parameters, and the last one. -/
theorem argvRounds (argv0 : Str) {params front rest : List Str} (split : params = front ++ rest) :
    (List.range' (front.length + 1) (rest.length + 1)).foldlM
        (argvRound argv0 params (params.length + 2))
        ((programName argv0 :: front).map .string ++ List.replicate (rest.length + 1) .unset) =
      some ((programName argv0 :: params).map .string ++ [.null]) := by
  induction rest generalizing front with
  | nil =>
      rw [List.append_nil] at split
      subst split
      have last := Cells.store_append
        ((programName argv0 :: params).map .string) [] StringCell.unset
        .null
      rw [List.length_map, List.length_cons] at last
      simpa [argvRound] using last
  | cons param rest ih =>
      have within : front.length + 1 ≠ params.length + 2 - 1 := by
        rw [split, List.length_append, List.length_cons]
        omega
      have stored := Cells.store_append ((programName argv0 :: front).map .string)
        (List.replicate (rest.length + 1) .unset) StringCell.unset (.string param)
      rw [List.length_map, List.length_cons] at stored
      have round : argvRound argv0 params (params.length + 2)
          ((programName argv0 :: front).map .string ++ List.replicate (rest.length + 1 + 1) .unset)
          (front.length + 1) =
            some ((programName argv0 :: (front ++ [param])).map .string ++
              List.replicate (rest.length + 1) .unset) := by
        have read : Cells.load params (front.length + 1 - 1) = some param := by
          rw [split]
          exact Cells.load_append front rest param
        rw [argvRound, if_neg (by omega), if_neg within, read, List.replicate_succ]
        refine stored.trans ?_
        simp
      rw [List.length_cons, List.range'_succ, List.foldlM_cons, round]
      have shifted : params = (front ++ [param]) ++ rest := by simpa using split
      have onward := ih shifted
      rwa [List.length_append] at onward

theorem passedArgv_eq (argv0 : Str) (params : List Str) :
    passedArgv argv0 params = some ((programName argv0 :: params).map .string ++ [.null]) := by
  have first : argvRound argv0 params (params.length + 2)
      (List.replicate (params.length + 2) .unset) 0 =
        some (.string (programName argv0) :: List.replicate (params.length + 1) .unset) := rfl
  rw [passedArgv, List.range_eq_range', List.range'_succ, List.foldlM_cons, first]
  exact @argvRounds argv0 params [] params rfl

/-! ## What becomes of the process -/

/-- The credentials of a service, for a child that is root. An id that is 0 is left as it is. -/
def identity (srv : Service) (c : Credentials) : Credentials where
  ruid := if srv.uid > 0 then srv.uid else c.ruid
  euid := if srv.uid > 0 then srv.uid else c.euid
  suid := if srv.uid > 0 then srv.uid else c.suid
  rgid := if srv.gid > 0 then srv.gid else c.rgid
  egid := if srv.gid > 0 then srv.gid else c.egid
  sgid := if srv.gid > 0 then srv.gid else c.sgid
  groups := srv.sgidList

/-- The process of a service. -/
def becomes (srv : Service) (p : Process) : Process where
  credentials := identity srv p.credentials
  nice := if srv.priority ≠ 0 then max (-20) (min 19 srv.priority) else p.nice
  umask := srv.umask % 0o1000
  cwd := if srv.workingDirectory.length > 0 then srv.workingDirectory else p.cwd

/-- Nothing was refused so far. -/
def Granted (I : Process → Prop) (past : List Bool) (p : Process) : Prop := false ∉ past ∧ I p

section Rules

variable {I J : Process → Prop} {status : Nat} {call : Process → Option Process}

/-- An exit status, and that something was refused. -/
def Refused (status : Nat) (past : List Bool) (_ : Process) : Prop :=
  (status = 50 ∨ status = 126) ∧ false ∈ past

theorem request_told (h : ∀ p q, I p → call p = some q → J q) (known : status = 50 ∨ status = 126) :
    Told (Granted I) (request status call) (fun _ => Granted J) Refused fun _ _ => True := by
  refine Told.bind (M := fun granted past q => if granted then Granted J past q else
    Refused status past q) (Told.ask (fun _ _ _ => trivial) ?_) fun granted => Told.ite ?_ ?_
  · rintro past p k granted q ⟨none, hp⟩ accepted
    cases k with
    | true =>
        obtain ⟨q', done, same⟩ := Option.map_eq_some_iff.mp accepted
        cases same
        refine ⟨?_, h p q hp done⟩
        simpa using none
    | false =>
        cases accepted
        exact ⟨known, by simp⟩
  · intro granted
    subst granted
    exact Told.pure fun _ _ h => h
  · intro refused
    obtain rfl : granted = false := Bool.eq_false_iff.mpr refused
    exact Told.ofOutcome nofun (fun _ _ _ same h => by cases same; exact h) nofun

theorem requestIf_told {asked : Prop} [Decidable asked]
    (yes : ∀ p q, asked → I p → call p = some q → J q) (no : ∀ p, ¬ asked → I p → J p) :
    Told (Granted I) (requestIf asked call) (fun _ => Granted J) Refused fun _ _ => True :=
  Told.ite (fun asked => request_told (fun p q => yes p q asked) (.inl rfl)) fun not =>
    Told.pure fun _ p hp => ⟨hp.1, no p not hp.2⟩

end Rules

/-- With the umask and the groups of the service. -/
def grouped (srv : Service) (p : Process) : Process where
  credentials := { p.credentials with groups := srv.sgidList }
  nice := if srv.priority ≠ 0 then max (-20) (min 19 srv.priority) else p.nice
  umask := srv.umask % 0o1000
  cwd := p.cwd

/-- With its group, too. -/
def inGroup (srv : Service) (p : Process) : Process :=
  { grouped srv p with
    credentials := { identity srv p.credentials with
      ruid := p.credentials.ruid, euid := p.credentials.euid, suid := p.credentials.suid } }

/-- Where the groups could be set, the child was root, and it has come to be the process of the
service. -/
theorem setProcess_told (srv : Service) (p : Process) :
    Told (Granted (· = p)) (setProcess srv)
      (fun _ => Granted fun q => p.credentials.privileged = true ∧ q = becomes srv p) Refused
      fun _ _ => True := by
  refine Told.bind (M := fun _ => Granted (· = { p with nice := (grouped srv p).nice }))
    (requestIf_told ?_ ?_) fun _ => ?_
  · rintro _ q asked rfl granted
    obtain ⟨-, ⟨⟩⟩ := Option.ite_none_right_eq_some.mp granted
    simp [grouped, asked]
  · rintro _ same rfl
    simp [grouped, same]
  refine Told.bind (M := fun _ => Granted (· = { grouped srv p with credentials := p.credentials }))
    (Told.modify ?_) fun _ => ?_
  · rintro past _ ⟨none, rfl⟩
    exact ⟨none, rfl⟩
  refine Told.bind (M := fun _ => Granted fun q =>
    p.credentials.privileged = true ∧ q = grouped srv p) (request_told ?_ (.inl rfl)) fun _ => ?_
  · rintro _ q rfl granted
    obtain ⟨c, changed, rfl⟩ := Option.map_eq_some_iff.mp granted
    obtain ⟨root, ⟨⟩⟩ := Option.ite_none_right_eq_some.mp changed
    exact ⟨root, rfl⟩
  -- Setting the groups has left root what it is.
  refine Told.bind (M := fun _ => Granted fun q =>
    p.credentials.privileged = true ∧ q = inGroup srv p) (requestIf_told ?_ ?_) fun _ => ?_
  · rintro _ q asked ⟨root, rfl⟩ granted
    obtain ⟨c, changed, rfl⟩ := Option.map_eq_some_iff.mp granted
    have still : (grouped srv p).credentials.privileged = true := root
    simp only [Credentials.setgid, still, if_true] at changed
    cases changed
    exact ⟨root, by simp [inGroup, grouped, identity, asked]⟩
  · rintro _ same ⟨root, rfl⟩
    exact ⟨root, by simp [inGroup, grouped, identity, same]⟩
  refine Told.bind (M := fun _ => Granted fun q => p.credentials.privileged = true ∧
    q = { grouped srv p with credentials := identity srv p.credentials }) (requestIf_told ?_ ?_)
    fun _ => requestIf_told ?_ ?_
  · rintro _ q asked ⟨root, rfl⟩ granted
    obtain ⟨c, changed, rfl⟩ := Option.map_eq_some_iff.mp granted
    have still : (inGroup srv p).credentials.privileged = true := root
    simp only [Credentials.setuid, still, if_true] at changed
    cases changed
    exact ⟨root, by simp [inGroup, identity, asked]⟩
  · rintro _ same ⟨root, rfl⟩
    exact ⟨root, by simp [inGroup, identity, same]⟩
  · rintro _ q asked ⟨root, rfl⟩ ⟨⟩
    exact ⟨root, by simp only [becomes, grouped, if_pos asked]⟩
  · rintro _ same ⟨root, rfl⟩
    exact ⟨root, by simp only [becomes, grouped, if_neg same]⟩

theorem passedEnvironment_some (environ : List Str) (environment : List (Option Str))
    (extra : List Str) : ∃ envp, passedEnvironment environ environment extra = some envp := by
  cases environment with
  | cons entry environment => exact ⟨_, passed_environment environ extra (by simp)⟩
  | nil =>
      cases extra with
      | cons entry extra => exact ⟨_, passed_extra environ (by simp)⟩
      | nil => exact ⟨_, passed_inherited environ⟩

/-- The program that is executed, and in which process. -/
structure Executes (srv : Service) (environ : List Str) (p q : Process) (image : Image) : Prop where
  root : p.credentials.privileged = true
  process : q = becomes srv p
  path : srv.runAbsPath = some image.path
  argv : terminated image.argv = some (programName image.path :: srv.paramList)
  envp : passedEnvironment environ srv.environment srv.environmentExtra = some image.envp

theorem child_told (srv : Service) (environ : List Str) (p : Process) :
    Told (Granted (· = p)) (child srv environ)
      (fun image => Granted fun q => Executes srv environ p q image)
      (fun status past _ => (status = 50 ∨ status = 126) ∧ (srv.runAbsPath = none ∨ false ∈ past))
      fun _ _ => True := by
  have failed : ∀ status past q, Refused status past q →
      (status = 50 ∨ status = 126) ∧ (srv.runAbsPath = none ∨ false ∈ past) :=
    fun _ _ _ h => ⟨h.1, .inr h.2⟩
  unfold child
  split
  · next absent =>
      exact Told.ofOutcome nofun (fun _ _ _ same _ => by cases same; exact ⟨.inl rfl, .inl absent⟩)
        nofun
  · next argv0 path =>
      obtain ⟨envp, passed⟩ := passedEnvironment_some environ srv.environment srv.environmentExtra
      rw [passedArgv_eq, passed]
      change Told _ (setProcess srv >>= fun _ => request 126 some >>= fun _ => pure _) _ _ _
      refine Told.bind ((setProcess_told srv p).consequence (fun _ _ h => h) (fun _ _ _ h => h)
        failed fun _ _ h => h) fun _ => ?_
      have executed : Told (Granted fun q => p.credentials.privileged = true ∧ q = becomes srv p)
          (request 126 some)
          (fun _ => Granted fun q => p.credentials.privileged = true ∧ q = becomes srv p) Refused
          fun _ _ => True := by
        refine request_told ?_ (.inr rfl)
        rintro q _ h ⟨⟩
        exact h
      refine Told.bind (executed.consequence (fun _ _ h => h) (fun _ _ _ h => h) failed
        fun _ _ h => h) fun _ => Told.pure ?_
      · rintro past q ⟨none, root, same⟩
        exact ⟨none, root, same, path, terminated_append _ [], passed⟩

theorem request_neverAborts (status : Nat) (call : Process → Option Process) :
    NeverAborts (request status call) := by
  refine NeverAborts.ask.bind fun granted => ?_
  split
  · exact NeverAborts.pure _
  · rintro answers s ⟨⟩

theorem requestIf_neverAborts (asked : Prop) [Decidable asked] (call : Process → Option Process) :
    NeverAborts (requestIf asked call) := by
  unfold requestIf
  split
  · exact request_neverAborts 50 call
  · exact NeverAborts.pure _

/-- The child stays in its arrays. -/
theorem child_neverAborts (srv : Service) (environ : List Str) :
    NeverAborts (child srv environ) := by
  unfold child
  split
  · rintro answers s ⟨⟩
  · obtain ⟨envp, passed⟩ := passedEnvironment_some environ srv.environment srv.environmentExtra
    rw [passedArgv_eq, passed]
    refine NeverAborts.bind (NeverAborts.pure _) fun _ =>
      NeverAborts.bind (NeverAborts.pure _) fun _ =>
      NeverAborts.bind ?_ fun _ => (request_neverAborts _ _).bind fun _ => NeverAborts.pure _
    exact (requestIf_neverAborts _ _).bind fun _ => (NeverAborts.modify _).bind fun _ =>
      (request_neverAborts _ _).bind fun _ => (requestIf_neverAborts _ _).bind fun _ =>
        (requestIf_neverAborts _ _).bind fun _ => requestIf_neverAborts _ _

theorem identity_confined {srv : Service} (user : 0 < srv.uid) (c : Credentials) :
    Credentials.Confined [srv.uid] (if 0 < srv.gid then [srv.gid] else c.gids) srv.sgidList
      (identity srv c) where
  uids := by simp [Credentials.uids, identity, user]
  gids := by
    by_cases group : 0 < srv.gid
    · simp [Credentials.gids, identity, group]
    · simp [Credentials.gids, identity, group]
  groups := rfl

/-- A program is only executed by a child that was root and in which everything is set as its
service has it, with its arguments and its environment; and what is not root has no other users and
groups from then on, whatever it calls. The child stays in its arrays, and exits with 50 or 126 only
where a call failed or where there is no program. -/
theorem child_runsAs (srv : Service) (environ : List Str) (p : Process) (answers : List Bool) :
    let run := (child srv environ).run answers p
    run.result ≠ some .aborted ∧
    (∀ status, run.result = some (.threw status) →
      (status = 50 ∨ status = 126) ∧ (srv.runAbsPath = none ∨ false ∈ answers)) ∧
    ∀ image, run.result = some (.ok image) → Executes srv environ p run.state image ∧
      (0 < srv.uid → ∀ calls : List CredentialCall,
        Credentials.Confined [srv.uid] (if 0 < srv.gid then [srv.gid] else p.credentials.gids)
          srv.sgidList (run.state.credentials.attempt calls)) := by
  intro run
  have outset : Granted (· = p) [] p := ⟨List.not_mem_nil, rfl⟩
  obtain ⟨taken, split, ends⟩ := (child_told srv environ p).ends outset
  change Ends _ _ _ run at ends
  refine ⟨child_neverAborts srv environ answers p, fun status threw => ?_, fun image ok => ?_⟩
  · rw [Ends, threw] at ends
    refine ⟨ends.1, ends.2.imp_right fun refused => ?_⟩
    rw [split]
    exact List.mem_append_left _ refused
  · rw [Ends, ok] at ends
    obtain ⟨-, executes⟩ := ends
    refine ⟨executes, fun user calls => ?_⟩
    rw [executes.process]
    refine (identity_confined user p.credentials).attempt ?_ calls
    rw [List.mem_singleton]
    omega

/-- A service with the defaults. -/
def appService : Service :=
  { (Service.init {} "app".toList) with runAbsPath := some "/a/run".toList }

/-- A process of root. -/
def rootProcess : Process :=
  { credentials := ⟨0, 0, 0, 0, 0, 0, [0]⟩, nice := 0, umask := 0, cwd := [] }

/-- Nothing is refused, and the program runs as the user of the service and stays with it. -/
theorem child_runsAs_appService :
    ∃ image, ((child appService []).run [true, true, true, true] rootProcess).result =
        some (.ok image) ∧
      Executes appService [] rootProcess
        ((child appService []).run [true, true, true, true] rootProcess).state image ∧
      ∀ calls : List CredentialCall, Credentials.Confined [1000] [1000] []
        (((child appService []).run [true, true, true, true]
          rootProcess).state.credentials.attempt calls) := by
  have runs := (child_runsAs appService [] rootProcess [true, true, true, true]).2.2 _ rfl
  exact ⟨_, rfl, runs.1, runs.2 (by decide)⟩

end Baseimage.Cinit
