import Baseimage.Cinit.Children
import Baseimage.Cinit.LoadedTable

/-!
# What the starts of the services depend on

Whether a service is started depends on its settings, on the time of its last start, on whether a
restart was requested, and on what the supervisor has done so far. Only the code that starts a
service, the main loop and a command change this. A condition on it is therefore kept by all of
the supervisor if it is kept there, and the conditions here say what "there" is, without the rest
of the state.
-/

namespace Baseimage.Cinit

open Script Supervisor Code

/-- What is known about a service when it comes to starting it. -/
structure Standing where
  settings : Service
  startTime : UInt64
  restartRequested : Bool

def ServiceEntry.standing (srv : ServiceEntry) : Standing :=
  { settings := srv.settings
    startTime := srv.startTime
    restartRequested := srv.restartRequested }

/-- The standings of the services and the history. -/
structure Ledger where
  standings : List Standing
  history : List Event

def Supervisor.ledger (s : Supervisor) : Ledger :=
  { standings := s.services.map ServiceEntry.standing
    history := s.history }

namespace Ledger

variable (l : Ledger)

def standing (sid : Nat) : Standing := l.standings.getD sid ServiceEntry.unused.standing

def settings (sid : Nat) : Service := (l.standing sid).settings

def record (e : Event) : Ledger := { l with history := e :: l.history }

/-- Change what is known about a service. -/
def modify (sid : Nat) (f : Standing → Standing) : Ledger :=
  { l with standings := l.standings.modify sid f }

def setStartTime (sid : Nat) (now : UInt64) : Ledger :=
  l.modify sid fun st => { st with startTime := now }

def setRestartRequested (sid : Nat) (requested : Bool) : Ledger :=
  l.modify sid fun st => { st with restartRequested := requested }

@[simp] theorem standing_record (e : Event) (i : Nat) :
    (l.record e).standing i = l.standing i := rfl

@[simp] theorem settings_record (e : Event) (i : Nat) :
    (l.record e).settings i = l.settings i := rfl

@[simp] theorem history_record (e : Event) : (l.record e).history = e :: l.history := rfl

@[simp] theorem history_setStartTime (sid : Nat) (now : UInt64) :
    (l.setStartTime sid now).history = l.history := rfl

@[simp] theorem history_setRestartRequested (sid : Nat) (requested : Bool) :
    (l.setRestartRequested sid requested).history = l.history := rfl

variable {l}

theorem standing_modify (sid i : Nat) (f : Standing → Standing) :
    (l.modify sid f).standing i =
      if sid = i ∧ i < l.standings.length then f (l.standing i) else l.standing i := by
  simp only [standing, modify, List.getD_eq_getElem?_getD, List.getElem?_modify]
  by_cases used : i < l.standings.length
  · rw [List.getElem?_eq_getElem used]
    split <;> simp_all
  · rw [List.getElem?_eq_none (Nat.le_of_not_lt used)]
    simp [used]

/-- What a change leaves alone. -/
theorem standing_modify_same {β : Type} {sid : Nat} {f : Standing → Standing} (p : Standing → β)
    (same : ∀ st, p (f st) = p st) (i : Nat) : p ((l.modify sid f).standing i) =
      p (l.standing i) := by
  rw [standing_modify]
  split
  · exact same _
  · rfl

theorem standing_modify_of_ne {sid i : Nat} (f : Standing → Standing) (other : i ≠ sid) :
    (l.modify sid f).standing i = l.standing i := by
  rw [standing_modify, if_neg fun h => other h.1.symm]

@[simp] theorem settings_setStartTime (sid : Nat) (now : UInt64) (i : Nat) :
    (l.setStartTime sid now).settings i = l.settings i := by
  refine standing_modify_same Standing.settings ?_ i
  exact fun _ => rfl

@[simp] theorem restartRequested_setStartTime (sid : Nat) (now : UInt64) (i : Nat) :
    ((l.setStartTime sid now).standing i).restartRequested = (l.standing i).restartRequested := by
  refine standing_modify_same Standing.restartRequested ?_ i
  exact fun _ => rfl

@[simp] theorem settings_setRestartRequested (sid : Nat) (requested : Bool) (i : Nat) :
    (l.setRestartRequested sid requested).settings i = l.settings i := by
  refine standing_modify_same Standing.settings ?_ i
  exact fun _ => rfl

@[simp] theorem startTime_setRestartRequested (sid : Nat) (requested : Bool) (i : Nat) :
    ((l.setRestartRequested sid requested).standing i).startTime = (l.standing i).startTime := by
  refine standing_modify_same Standing.startTime ?_ i
  exact fun _ => rfl

theorem unused_of_length_le {sid : Nat} (h : l.standings.length ≤ sid) :
    l.standing sid = ServiceEntry.unused.standing := by
  rw [standing, List.getD_eq_getElem?_getD, List.getElem?_eq_none h, Option.getD_none]

/-- No restart is requested for an unused entry. -/
theorem restartRequested_cleared (sid : Nat) :
    ((l.setRestartRequested sid false).standing sid).restartRequested = false := by
  rw [setRestartRequested, standing_modify]
  split
  · rfl
  · next outside =>
      rw [unused_of_length_le (by omega)]
      rfl

/-- Only a service with settings of its own has a start time. -/
theorem startTime_setStartTime {sid : Nat} (now : UInt64)
    (used : l.settings sid ≠ ServiceEntry.unused.settings) :
    ((l.setStartTime sid now).standing sid).startTime = now := by
  rw [setStartTime, standing_modify]
  split
  · rfl
  · next outside =>
      exact absurd (congrArg Standing.settings (unused_of_length_le (by omega))) used

end Ledger

/-! ## How the code changes the ledger -/

namespace Supervisor

variable (s : Supervisor)

theorem ledger_standing (sid : Nat) : s.ledger.standing sid = (s.srv sid).standing := by
  simp only [Ledger.standing, ledger, srv, List.getD_eq_getElem?_getD, List.getElem?_map]
  cases s.services[sid]? with
  | none => rfl
  | some srv => rfl

theorem ledger_updateSrv (sid : Nat) {f : ServiceEntry → ServiceEntry} {g : Standing → Standing}
    (h : ∀ srv, (f srv).standing = g srv.standing) :
    (s.updateSrv sid f).ledger = s.ledger.modify sid g := by
  have same : (s.services.modify sid f).map ServiceEntry.standing =
      (s.services.map ServiceEntry.standing).modify sid g := by
    apply List.ext_getElem?
    intro i
    simp only [List.getElem?_map, List.getElem?_modify]
    cases s.services[i]? with
    | none => simp
    | some srv =>
        split
        · simp [h]
        · simp
  simp only [ledger, updateSrv, Ledger.modify, same]

theorem ledger_updateSrv_same (sid : Nat) {f : ServiceEntry → ServiceEntry}
    (h : ∀ srv, (f srv).standing = srv.standing) : (s.updateSrv sid f).ledger = s.ledger := by
  rw [ledger_updateSrv s sid (g := id) h]
  simp [Ledger.modify]

@[simp] theorem ledger_record (e : Event) : (s.record e).ledger = s.ledger.record e := rfl

@[simp] theorem ledger_requestShutdown : s.requestShutdown.ledger = s.ledger := rfl

@[simp] theorem ledger_shutdownBy (sid : Nat) (status : WaitStatus) :
    (s.shutdownBy sid status).ledger = s.ledger := rfl

@[simp] theorem ledger_enter (phase : Phase) : (s.enter phase).ledger = s.ledger := rfl

@[simp] theorem ledger_reaped (pid : Int) (status : WaitStatus) :
    (s.reaped pid status).ledger = s.ledger.record (.reaped pid status) := rfl

@[simp] theorem ledger_sigterm (sid : Nat) : (s.sigterm sid).ledger =
    s.ledger.record (.sigterm sid (s.srv sid).pid (s.children.lookup (s.srv sid).pid)) := rfl

@[simp] theorem ledger_setPid (sid : Nat) (pid : Int) : (s.setPid sid pid).ledger = s.ledger :=
  ledger_updateSrv_same s sid fun _ => rfl

@[simp] theorem ledger_setLoggerExit (sid : Nat) (exit : Bool) :
    (s.setLoggerExit sid exit).ledger = s.ledger :=
  ledger_updateSrv_same s sid fun _ => rfl

@[simp] theorem ledger_startLogger (sid : Nat) : (s.startLogger sid).ledger = s.ledger :=
  ledger_updateSrv_same s sid fun _ => rfl

@[simp] theorem ledger_forked (sid : Nat) (pid fd : Int) :
    (s.forked sid pid fd).ledger = s.ledger.record (.forked sid pid) := by
  have same := ledger_updateSrv_same { s with children := (pid, sid) :: s.children } sid
    (f := fun srv => { srv with outputFd := fd }) fun _ => rfl
  exact congrArg (Ledger.record · (.forked sid pid)) same

@[simp] theorem ledger_killed (sid : Nat) : (s.killed sid).ledger = s.ledger := by
  apply ledger_updateSrv_same
  intro srv
  simp only [ServiceEntry.closeFd, ServiceEntry.joinLogger]
  split <;> split <;> rfl

@[simp] theorem ledger_setStartTime (sid : Nat) (now : UInt64) :
    (s.setStartTime sid now).ledger = s.ledger.setStartTime sid now :=
  ledger_updateSrv s sid fun _ => rfl

@[simp] theorem ledger_setRestartRequested (sid : Nat) (requested : Bool) :
    (s.setRestartRequested sid requested).ledger = s.ledger.setRestartRequested sid requested :=
  ledger_updateSrv s sid fun _ => rfl

end Supervisor

/-! ## What the code keeps -/

/-- Anything but what happens when a service is started or a command is accepted. -/
def Event.Aside : Event → Prop
  | .forking _ => False
  | .forked _ _ => False
  | .started _ => False
  | .intervalOver _ _ => False
  | .restartDue _ _ => False
  | .restartAccepted _ => False
  | .loggerAlreadyStarted _ => False
  | _ => True

theorem Event.Passive.aside {e : Event} (h : e.Passive) : e.Aside := by
  cases e with
  | clock _ => trivial
  | ran _ _ _ => trivial
  | childless => trivial
  | _ => exact h.elim

theorem Event.Stopping.aside {e : Event} (h : e.Stopping) : e.Aside := by
  cases e with
  | turn _ => trivial
  | stopping _ _ => trivial
  | sigtermAll => trivial
  | sigkillAll => trivial
  | _ => exact h.elim

/-- The table is consistent and the ledger meets the condition. -/
def Holds (C : Ledger → Prop) (s : Supervisor) : Prop := Consistent s ∧ C s.ledger

/-- The condition is kept by every event that has nothing to do with a start. -/
def KeptAside (C : Ledger → Prop) : Prop := ∀ l e, Event.Aside e → C l → C (l.record e)

theorem KeptAside.stops {C : Ledger → Prop} (h : KeptAside C) : Stops (Holds C) where
  passive he hs := ⟨Consistent.kept.record he.neutral hs.1, h _ _ he.aside hs.2⟩
  requestShutdown hs := ⟨Consistent.kept.requestShutdown hs.1, hs.2⟩
  reapedOther hs _ other := ⟨hs.1.reapedOther other, h _ _ (by trivial) hs.2⟩
  reapedService hs hpid own := by
    refine ⟨hs.1.reapedService hpid own, ?_⟩
    rw [ledger_killed]
    exact h _ _ (by trivial) hs.2
  shutdownBy hs down := ⟨Consistent.kept.shutdownBy hs.1 down, hs.2⟩
  stopping he hs := ⟨Consistent.kept.record he.neutral hs.1, h _ _ he.aside hs.2⟩
  sigterm hs up := ⟨Consistent.kept.sigterm hs.1 up, h _ _ (by trivial) hs.2⟩

/-- What the ledger meets while a service is started: `P` until its process is forked, then `F`,
`K` from when its start time is known, and `J` when it has been started. -/
structure Stages (P F K J R : Ledger → Prop) (sid : Nat) : Prop where
  before : ∀ l, P l → K l
  running : ∀ l, P l → J l
  forking : ∀ l, P l → P (l.record (.forking sid))
  forked : ∀ l pid, P l → F (l.record (.forked sid pid))
  startTime : ∀ l now, F l → K ((l.record (.clock now)).setStartTime sid now)
  started : ∀ l, K l → J (l.record (.started sid))
  stopped : ∀ l, K l → R l
  stoppedForked : ∀ l, F l → R l

theorem Stages.starts {P F K J R : Ledger → Prop} {sid : Nat} (h : Stages P F K J R sid) :
    Starts (Holds P) (Holds F) (Holds K) (Holds J) (fun s => R s.ledger) sid where
  before hs := ⟨hs.1, h.before _ hs.2⟩
  idle hs := Consistent.kept.idle hs.1
  running hs _ := ⟨hs.1, h.running _ hs.2⟩
  forking hs := ⟨Consistent.kept.record trivial hs.1, h.forking _ hs.2⟩
  forked hs down hpid hfd fresh := by
    refine ⟨hs.1.forked down hpid hfd fresh, ?_⟩
    rw [ledger_setPid, ledger_forked]
    exact h.forked _ _ hs.2
  startTime hs := by
    refine ⟨Consistent.kept.setStartTime (Consistent.kept.record trivial hs.1), ?_⟩
    rw [ledger_setStartTime]
    exact h.startTime _ _ hs.2
  loggerExit hs := by
    refine ⟨Consistent.kept.setLoggerExit hs.1, ?_⟩
    rw [ledger_setLoggerExit]
    exact hs.2
  started hs up := by
    refine ⟨Consistent.kept.record trivial (Consistent.kept.startLogger hs.1 up), ?_⟩
    rw [ledger_record, ledger_startLogger]
    exact h.started _ hs.2
  stopped _ hs := h.stopped _ hs.2
  stoppedForked _ hs := h.stoppedForked _ hs.2

/-- Starting the service leads from `A` to `J`, or to `I` when it throws. -/
def StartsFrom (A I J R : Ledger → Prop) (sid : Nat) : Prop :=
  Spec (Holds A) (startService sid) (fun _ => Holds J) (fun _ => Holds I) fun s => R s.ledger

theorem Stages.startsFrom {P F K J R A I : Ledger → Prop} {sid : Nat} (h : Stages P F K J R sid)
    (pre : ∀ l, A l → P l) (threw : ∀ l, K l → I l) : StartsFrom A I J R sid :=
  (startService_spec h.starts).consequence (fun _ hs => ⟨hs.1, pre _ hs.2⟩) (fun _ _ hs => hs)
    (fun _ _ hs => ⟨hs.1, threw _ hs.2⟩) fun _ hs => hs

/-- What the main loop does where it starts services and accepts commands. -/
structure LoopKeeps (I R : Ledger → Prop) : Prop where
  aside : KeptAside I
  stopped : ∀ l, I l → R l
  stillRunning : ∀ l sid now, I l → I ((l.record (.clock now)).setStartTime sid now)
  interval : ∀ sid : Nat, StartsFrom
    (fun t => ∃ l now, I l ∧ 0 < (l.settings sid).interval ∧
      (l.settings sid).interval * 1000 % 2 ^ 32 ≤ (now - (l.standing sid).startTime).toNat ∧
      t = (l.record (.clock now)).record (.intervalOver sid (l.standing sid).restartRequested))
    I I R sid
  restart : ∀ sid : Nat, StartsFrom
    (fun t => ∃ l now, I l ∧
      ((l.settings sid).respawn = true ∨ (l.standing sid).restartRequested = true) ∧
      t = (l.record (.clock now)).record (.restartDue sid (l.standing sid).restartRequested))
    I (fun l => I (l.setRestartRequested sid false)) R sid
  accepted : ∀ l sid, I l → I ((l.setRestartRequested sid true).record (.restartAccepted sid))

theorem LoopKeeps.cycles {I R : Ledger → Prop} (h : LoopKeeps I R) :
    Cycles (Holds I) fun s => R s.ledger where
  toReaps := h.aside.stops.toReaps
  stopped _ hs := h.stopped _ hs.2
  sigterm := h.aside.stops.sigterm
  stillRunning hs := by
    refine ⟨Consistent.kept.setStartTime (Consistent.kept.record trivial hs.1), ?_⟩
    rw [ledger_setStartTime]
    exact h.stillRunning _ _ _ hs.2
  interval sid := by
    refine Spec.pre (h.interval sid) ?_
    rintro _ ⟨s, now, hs, regular, due, rfl⟩
    refine ⟨Consistent.kept.record trivial (Consistent.kept.record trivial hs.1), ?_⟩
    refine ⟨s.ledger, now, hs.2, ?_, ?_, ?_⟩
    · rw [Ledger.settings, ledger_standing]
      exact regular
    · rw [Ledger.settings, ledger_standing]
      exact due
    · rw [ledger_standing]
      rfl
  restart sid := by
    refine (h.restart sid).consequence ?_ ?_ (fun _ _ hs => hs) fun _ hs => hs
    · rintro _ ⟨s, now, hs, asked, rfl⟩
      refine ⟨Consistent.kept.record trivial (Consistent.kept.record trivial hs.1), ?_⟩
      refine ⟨s.ledger, now, hs.2, ?_, ?_⟩
      · rw [Ledger.settings, ledger_standing]
        exact Bool.or_eq_true_iff.mp (Bool.and_eq_true_iff.mp asked).1
      · rw [ledger_standing]
        rfl
    · intro _ s hs
      refine ⟨Consistent.kept.setRestartRequested hs.1, ?_⟩
      rw [ledger_setRestartRequested]
      exact hs.2
  accepted hs := by
    refine ⟨Consistent.kept.record trivial (Consistent.kept.setRestartRequested hs.1), ?_⟩
    rw [ledger_record, ledger_setRestartRequested]
    exact h.accepted _ _ hs.2

/-- What the start-up does where it starts a service of the start order. -/
structure BootKeeps (I R : Ledger → Prop) (order : List Int) : Prop where
  aside : KeptAside I
  stopped : ∀ l, I l → R l
  start : ∀ sid : Nat, (sid : Int) ∈ order →
    StartsFrom (fun l => I l ∧ (l.settings sid).isServiceGroup = false) I I R sid

theorem BootKeeps.boots {I R : Ledger → Prop} {order : List Int} (h : BootKeeps I R order) :
    Boots (Holds I) (fun s => R s.ledger) order where
  toReaps := h.aside.stops.toReaps
  valid _ hs := Consistent.kept.toCalm.pid_nonneg hs.1 _
  stopped _ hs := h.stopped _ hs.2
  start sid hsid := by
    refine Spec.pre (h.start sid hsid) ?_
    rintro s ⟨hs, notGroup⟩
    refine ⟨hs.1, hs.2, ?_⟩
    rw [Ledger.settings, ledger_standing]
    exact notGroup

/-- The ledger when the services have been loaded. -/
def loadedLedger (view : View) (cwd : Str) : Ledger :=
  (booted.load (loadDefault view cwd).2).ledger

theorem loadedLedger_standings (view : View) (cwd : Str) :
    (loadedLedger view cwd).standings = (loadDefault view cwd).2.services.map
      fun settings => { settings := settings, startTime := 0, restartRequested := false } := by
  simp only [loadedLedger, Supervisor.ledger, Supervisor.load, List.map_map]
  rfl

theorem loadedLedger_standing (view : View) (cwd : Str) (sid : Nat) :
    (loadedLedger view cwd).standing sid =
      { settings := ((loadDefault view cwd).2.services[sid]?).getD ServiceEntry.unused.settings
        startTime := 0
        restartRequested := false } := by
  rw [Ledger.standing, loadedLedger_standings, List.getD_eq_getElem?_getD, List.getElem?_map]
  cases (loadDefault view cwd).2.services[sid]? with
  | none => rfl
  | some settings => rfl

/-- The settings of the entries of the loaded table. -/
def loadedSettings (view : View) (cwd : Str) (sid : Nat) : Service :=
  ((loadDefault view cwd).2.services[sid]?).getD ServiceEntry.unused.settings

theorem loadedLedger_settings (view : View) (cwd : Str) (sid : Nat) :
    (loadedLedger view cwd).settings sid = loadedSettings view cwd sid := by
  rw [Ledger.settings, loadedLedger_standing]
  rfl

theorem Enrolled.settled_loaded {view : View} {cwd : Str} (h : Enrolled (loadDefault view cwd).2)
    (sid : Nat) : (loadedSettings view cwd sid).Settled := by
  rw [loadedSettings]
  cases hsrv : (loadDefault view cwd).2.services[sid]? with
  | none => exact Service.unused_settled
  | some srv => exact h.settled srv (List.mem_of_getElem? hsrv)

/-- What the start-up leaves to the main loop. -/
theorem BootKeeps.spec {I R : Ledger → Prop} {view : View} {cwd : Str}
    (h : BootKeeps I R (loadDefault view cwd).2.startOrder) (load : I (loadedLedger view cwd)) :
    Spec (fun s => s = booted) (bringUpServices view cwd) (fun _ s => Holds I (s.enter .running))
      (fun _ => Holds I) fun s => R s.ledger :=
  (bringUpServices_keeps h.boots ⟨Consistent.load _, load⟩ fun _ hs => ⟨hs.1.enter _, hs.2⟩)
    |>.consequence (fun _ hs => hs) (fun _ _ hs => ⟨hs.1.enter _, hs.2⟩) (fun _ _ hs => hs)
      fun _ hs => hs

/-- What comes after the beginning is not part of it. -/
theorem not_cons_suffix {since older : List Event} (begun : since <:+ older) (e : Event) :
    ¬ e :: older <:+ since := by
  intro start
  have longer := start.length_le
  have shorter := begun.length_le
  rw [List.length_cons] at longer
  omega

/-- A run of the supervisor comes to the main loop in this state, with these answers ahead. -/
def EntersLoop (view : View) (cwd : Str) (answers : List Answer) (s : Supervisor) : Prop :=
  ∃ past status t, (bringUpServices view cwd).run past booted = ⟨some (.ok status), answers, t⟩ ∧
    s = t.enter .running

theorem EntersLoop.of_run {view : View} {cwd : Str} {past answers : List Answer} (status : Nat)
    (result : ((bringUpServices view cwd).run past booted).result = some (.ok status))
    (rest : ((bringUpServices view cwd).run past booted).rest = answers) :
    EntersLoop view cwd answers
      (((bringUpServices view cwd).run past booted).state.enter .running) := by
  subst rest
  refine ⟨past, status, _, ?_, rfl⟩
  rw [← result]

theorem BootKeeps.enters {I R : Ledger → Prop} {view : View} {cwd : Str}
    (h : BootKeeps I R (loadDefault view cwd).2.startOrder) (load : I (loadedLedger view cwd))
    {answers : List Answer} {s : Supervisor} (entered : EntersLoop view cwd answers s) :
    Holds I s := by
  obtain ⟨past, status, t, run, rfl⟩ := entered
  have ends := h.spec load past booted rfl
  rw [run] at ends
  exact ends

/-- What the main loop keeps holds wherever a run of it waits or ends. -/
theorem LoopKeeps.state {I R : Ledger → Prop} (h : LoopKeeps I R) {s : Supervisor} (hs : Holds I s)
    (answers : List Answer) : R (mainLoop.run answers s).state.ledger :=
  (mainLoop_keeps h.cycles).state (fun _ hs => h.stopped _ hs.2) answers hs

end Baseimage.Cinit
