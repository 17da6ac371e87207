import Baseimage.Cinit.MainLoop

/-!
# What the code of the supervisor keeps

An invariant of the supervisor is kept by all of its code when it is kept by the few ways in
which the code changes the state. `Calm` lists those of starting and stopping, `Reaps` those of
`child_handler`, and `Kept` has both. Where the code does several of them without asking anything in
between, such as reaping a process and clearing its entry, the list has the result.
-/

namespace Baseimage.Cinit

open Script Supervisor

namespace Supervisor

@[simp] theorem getElem?_updateSrv (s : Supervisor) (sid i : Nat)
    (f : ServiceEntry → ServiceEntry) :
    (s.updateSrv sid f).services[i]? =
      if sid = i then (s.services[i]?).map f else s.services[i]? := by
  simp only [updateSrv, List.getElem?_modify]
  split <;> simp

theorem srv_of_getElem? {s : Supervisor} {sid : Nat} {srv : ServiceEntry}
    (h : s.services[sid]? = some srv) : s.srv sid = srv := by
  simp [Supervisor.srv, h]

theorem srv_of_none {s : Supervisor} {sid : Nat} (h : s.services[sid]? = none) :
    s.srv sid = .unused := by
  simp [Supervisor.srv, h]

theorem getElem?_of_pid {s : Supervisor} {sid : Nat} (h : (s.srv sid).pid ≠ 0) :
    s.services[sid]? = some (s.srv sid) := by
  cases hsrv : s.services[sid]? with
  | none => exact absurd (congrArg ServiceEntry.pid (srv_of_none hsrv)) h
  | some srv => rw [srv_of_getElem? hsrv]

/-- Storing the pid that is there already. -/
theorem setPid_same {s : Supervisor} {sid : Nat} {pid : Int} (h : (s.srv sid).pid = pid) :
    s.setPid sid pid = s := by
  have same : (s.setPid sid pid).services = s.services := by
    apply List.ext_getElem?
    intro i
    simp only [setPid, getElem?_updateSrv]
    split
    · next heq =>
        subst heq
        cases hsrv : s.services[sid]? with
        | none => rfl
        | some srv =>
            rw [srv_of_getElem? hsrv] at h
            rw [Option.map_some, ← h]
    · rfl
  cases s
  simp only [setPid, updateSrv, Supervisor.mk.injEq, and_true] at same ⊢
  exact same

end Supervisor

/-- Anything but a SIGTERM to a service or a violated assertion. -/
def Event.Neutral : Event → Prop
  | .sigterm _ _ _ => False
  | .loggerAlreadyStarted _ => False
  | _ => True

/-- A question, or a program that was run. -/
def Event.Passive : Event → Prop
  | .clock _ => True
  | .ran _ _ _ => True
  | .childless => True
  | _ => False

theorem Event.Passive.neutral {e : Event} (h : e.Passive) : e.Neutral := by
  cases e with
  | sigterm _ _ _ => exact h
  | loggerAlreadyStarted _ => exact h
  | _ => trivial

/-- The condition is kept while nothing is started, stopped or reaped. -/
structure Quiet (I : Supervisor → Prop) : Prop where
  passive : ∀ {s : Supervisor} {e : Event}, e.Passive → I s → I (s.record e)
  requestShutdown : ∀ {s : Supervisor}, I s → I s.requestShutdown

/-- The condition is kept where terminated processes are reaped. -/
structure Reaps (I : Supervisor → Prop) : Prop extends Quiet I where
  reapedOther : ∀ {s : Supervisor} {pid : Int} {status : WaitStatus}, I s → 0 < pid →
    s.findServiceByPid pid = none → I (s.reaped pid status)
  reapedService : ∀ {s : Supervisor} {pid : Int} {status : WaitStatus} {sid : Nat}, I s → 0 < pid →
    s.findServiceByPid pid = some sid → I ((s.reaped pid status).killed sid)
  shutdownBy : ∀ {s : Supervisor} {sid : Nat} {status : WaitStatus}, I s → s.doShutdown = false →
    I (s.shutdownBy sid status)

/-- The condition is kept where services are started and stopped. -/
structure Calm (I : Supervisor → Prop) : Prop where
  valid : ∀ {s : Supervisor} {sid : Nat} {srv : ServiceEntry}, I s → s.services[sid]? = some srv →
    0 ≤ srv.pid
  idle : ∀ {s : Supervisor} {sid : Nat} {srv : ServiceEntry}, I s → s.services[sid]? = some srv →
    srv.pid = 0 → srv.loggerStarted = false
  record : ∀ {s : Supervisor} {e : Event}, e.Neutral → I s → I (s.record e)
  requestShutdown : ∀ {s : Supervisor}, I s → I s.requestShutdown
  setStartTime : ∀ {s : Supervisor} {sid : Nat} {now : UInt64}, I s → I (s.setStartTime sid now)
  setRestartRequested : ∀ {s : Supervisor} {sid : Nat} {requested : Bool}, I s →
    I (s.setRestartRequested sid requested)
  setLoggerExit : ∀ {s : Supervisor} {sid : Nat} {exit : Bool}, I s → I (s.setLoggerExit sid exit)
  forked : ∀ {s : Supervisor} {sid : Nat} {pid fd : Int}, I s → (s.srv sid).pid = 0 → 0 < pid →
    0 ≤ fd → s.children.lookup pid = none → I ((s.forked sid pid fd).setPid sid pid)
  startLogger : ∀ {s : Supervisor} {sid : Nat}, I s →
    (∀ srv, s.services[sid]? = some srv → srv.pid ≠ 0) → I (s.startLogger sid)
  sigterm : ∀ {s : Supervisor} {sid : Nat}, I s → (s.srv sid).pid ≠ 0 → I (s.sigterm sid)

/-- The condition is kept by all code of the supervisor. -/
structure Kept (I : Supervisor → Prop) : Prop extends Calm I where
  reapedOther : ∀ {s : Supervisor} {pid : Int} {status : WaitStatus}, I s → 0 < pid →
    s.findServiceByPid pid = none → I (s.reaped pid status)
  reapedService : ∀ {s : Supervisor} {pid : Int} {status : WaitStatus} {sid : Nat}, I s → 0 < pid →
    s.findServiceByPid pid = some sid → I ((s.reaped pid status).killed sid)
  shutdownBy : ∀ {s : Supervisor} {sid : Nat} {status : WaitStatus}, I s → s.doShutdown = false →
    I (s.shutdownBy sid status)

theorem Calm.quiet {I : Supervisor → Prop} (h : Calm I) : Quiet I where
  passive he hs := h.record he.neutral hs
  requestShutdown := h.requestShutdown

theorem Kept.reaps {I : Supervisor → Prop} (h : Kept I) : Reaps I where
  toQuiet := h.quiet
  reapedOther := h.reapedOther
  reapedService := h.reapedService
  shutdownBy := h.shutdownBy

theorem Calm.pid_nonneg {P : Supervisor → Prop} (h : Calm P) {s : Supervisor} (hs : P s)
    (sid : Nat) : 0 ≤ (s.srv sid).pid := by
  cases hsrv : s.services[sid]? with
  | none => simp [srv_of_none hsrv, ServiceEntry.unused]
  | some srv =>
      rw [srv_of_getElem? hsrv]
      exact h.valid hs hsrv

/-- What holds while a service is started: `P` until its process is forked, then `F`, `I` from
when its start time is known, and `J` when it has been started. Wherever this ends, `R` holds. -/
structure Starts (P F I J R : Supervisor → Prop) (sid : Nat) : Prop where
  before : ∀ {s : Supervisor}, P s → I s
  idle : ∀ {s : Supervisor} {srv : ServiceEntry}, P s → s.services[sid]? = some srv →
    srv.pid = 0 → srv.loggerStarted = false
  running : ∀ {s : Supervisor}, P s → (s.srv sid).pid ≠ 0 → J s
  forking : ∀ {s : Supervisor}, P s → P (s.record (.forking sid))
  forked : ∀ {s : Supervisor} {pid fd : Int}, P s → (s.srv sid).pid = 0 → 0 < pid → 0 ≤ fd →
    s.children.lookup pid = none → F ((s.forked sid pid fd).setPid sid pid)
  startTime : ∀ {s : Supervisor} {now : UInt64}, F s →
    I ((s.record (.clock now)).setStartTime sid now)
  loggerExit : ∀ {s : Supervisor}, I s → I (s.setLoggerExit sid false)
  started : ∀ {s : Supervisor}, I s → (∀ srv, s.services[sid]? = some srv → srv.pid ≠ 0) →
    J ((s.startLogger sid).record (.started sid))
  stopped : ∀ s : Supervisor, I s → R s
  stoppedForked : ∀ s : Supervisor, F s → R s

theorem Calm.starts {I : Supervisor → Prop} (h : Calm I) (sid : Nat) : Starts I I I I I sid where
  before hs := hs
  idle hs := h.idle hs
  running hs _ := hs
  forking hs := h.record (by trivial) hs
  forked := h.forked
  startTime hs := h.setStartTime (h.record (by trivial) hs)
  loggerExit := h.setLoggerExit
  started hs up := h.record (by trivial) (h.startLogger hs up)
  stopped _ hs := hs
  stoppedForked _ hs := hs

/-- What is kept where a service of the start order is started. -/
structure Boots (I R : Supervisor → Prop) (order : List Int) : Prop extends Reaps I where
  valid : ∀ {sid : Nat} (s : Supervisor), I s → 0 ≤ (s.srv sid).pid
  stopped : ∀ s : Supervisor, I s → R s
  start : ∀ sid : Nat, (sid : Int) ∈ order →
    Spec (fun s => I s ∧ (s.srv sid).settings.isServiceGroup = false) (Code.startService sid)
      (fun _ => I) (fun _ => I) R

theorem Boots.tail {I R : Supervisor → Prop} {order : List Int} {sid : Int}
    (h : Boots I R (sid :: order)) :
    Boots I R order :=
  { h with start := fun sid hsid => h.start sid (List.mem_cons_of_mem _ hsid) }

/-- A step of the shutdown. -/
def Event.Stopping : Event → Prop
  | .turn _ => True
  | .stopping _ _ => True
  | .sigtermAll => True
  | .sigkillAll => True
  | _ => False

theorem Event.Stopping.neutral {e : Event} (h : e.Stopping) : e.Neutral := by
  cases e with
  | turn _ => trivial
  | stopping _ _ => trivial
  | sigtermAll => trivial
  | sigkillAll => trivial
  | _ => exact h.elim

/-- The condition is kept by the shutdown. -/
structure Stops (I : Supervisor → Prop) : Prop extends Reaps I where
  stopping : ∀ {s : Supervisor} {e : Event}, e.Stopping → I s → I (s.record e)
  sigterm : ∀ {s : Supervisor} {sid : Nat}, I s → (s.srv sid).pid ≠ 0 → I (s.sigterm sid)

/-- The main loop comes to start a service whose interval is over. -/
def IntervalOver (I : Supervisor → Prop) (sid : Nat) (t : Supervisor) : Prop :=
  ∃ s now, I s ∧ 0 < (s.srv sid).settings.interval ∧
    (s.srv sid).settings.interval * 1000 % 2 ^ 32 ≤ (now - (s.srv sid).startTime).toNat ∧
    t = (s.record (.clock now)).record (.intervalOver sid (s.srv sid).restartRequested)

/-- The main loop comes to start a service that has to be started again. -/
def RestartDue (I : Supervisor → Prop) (sid : Nat) (t : Supervisor) : Prop :=
  ∃ s now, I s ∧ (s.srv sid).toBeRestarted = true ∧
    t = (s.record (.clock now)).record (.restartDue sid (s.srv sid).restartRequested)

/-- What is kept where the main loop starts a service or accepts a command. -/
structure Cycles (I R : Supervisor → Prop) : Prop extends Reaps I where
  stopped : ∀ s : Supervisor, I s → R s
  sigterm : ∀ {s : Supervisor} {sid : Nat}, I s → (s.srv sid).pid ≠ 0 → I (s.sigterm sid)
  stillRunning : ∀ {s : Supervisor} {sid : Nat} {now : UInt64}, I s →
    I ((s.record (.clock now)).setStartTime sid now)
  interval : ∀ sid : Nat,
    Spec (IntervalOver I sid) (Code.startService sid) (fun _ => I) (fun _ => I) R
  restart : ∀ sid : Nat, Spec (RestartDue I sid) (Code.startService sid)
    (fun _ s => I (s.setRestartRequested sid false)) (fun _ => I) R
  accepted : ∀ {s : Supervisor} {sid : Nat}, I s →
    I ((s.setRestartRequested sid true).record (.restartAccepted sid))

namespace Code

/-! ## Questions -/

section Questions

variable {I : Supervisor → Prop}

theorem inquire_keeps {α : Type} (answer : Answer → Option α) : Keeps I (inquire answer) := by
  refine Keeps.ask fun s k a t hs h => ?_
  obtain ⟨a, -, heq⟩ := Option.map_eq_some_iff.mp h
  obtain ⟨-, rfl⟩ := Prod.mk.inj heq
  exact hs

theorem throwMessage_spec {P X R : Supervisor → Prop} {α : Type} {Q : α → Supervisor → Prop}
    (threw : ∀ s, P s → X s) (stopped : ∀ s, P s → R s) (message : Str) :
    Spec P (throwMessage message) Q (fun _ => X) R := by
  intro answers s hs
  unfold throwMessage Cinit.throwMessage
  split
  · exact threw s hs
  · exact stopped s hs

theorem throwMessageWithErrno_spec {P X R : Supervisor → Prop} {α : Type}
    {Q : α → Supervisor → Prop} (threw : ∀ s, P s → X s) (stopped : ∀ s, P s → R s)
    (message : Str) : Spec P (throwMessageWithErrno message) Q (fun _ => X) R :=
  Spec.step ((inquire_keeps _).spec (fun _ _ hs => hs) (fun _ => threw) stopped)
    fun _ => throwMessage_spec threw stopped _

theorem chdirToService_keeps (service : Str) : Keeps I (chdirToService service) := by
  refine Spec.ite (fun _ => Keeps.ofOutcome _) fun _ => ?_
  refine Keeps.bind (inquire_keeps _) fun error => ?_
  cases error with
  | none => exact Keeps.pure _
  | some error => exact throwMessage_spec (fun _ hs => hs) (fun _ hs => hs) _

theorem getTime_spec {P R : Supervisor → Prop} {E : Str → Supervisor → Prop}
    (stopped : ∀ s, P s → R s) :
    Spec P getTime (fun now t => ∃ s, P s ∧ t = s.record (.clock now)) E R := by
  refine Spec.bind (M := fun now t =>
    now.elim (P t) fun now => ∃ s, P s ∧ t = s.record (.clock now))
      (Spec.ask stopped fun s k now t hs h => ?_) fun now => ?_
  · cases k with
    | clock reading =>
        cases reading with
        | some now =>
            cases h
            exact ⟨s, hs, rfl⟩
        | none =>
            cases h
            exact hs
    | _ => cases h
  · cases now with
    | some now => exact Spec.pure fun _ hs => hs
    | none => exact Spec.abort stopped

theorem getTime_keeps (record : ∀ {s : Supervisor} {e : Event}, e.Passive → I s → I (s.record e)) :
    Keeps I getTime := by
  refine (getTime_spec fun _ hs => hs).consequence (fun _ hs => hs) ?_ (fun _ _ hs => hs)
    fun _ hs => hs
  rintro now _ ⟨s, hs, rfl⟩
  exact record trivial hs

theorem execServiceCmd_keeps
    (record : ∀ {s : Supervisor} {e : Event}, e.Passive → I s → I (s.record e)) (sid : Nat)
    (cmd arg : Str) : Keeps I (execServiceCmd sid cmd arg) := by
  refine Keeps.ask fun s k code t hs h => ?_
  split at h
  · obtain ⟨-, rfl⟩ := h
    exact record trivial hs
  · simp at h

end Questions

section Specs

variable {P : Supervisor → Prop} {R : Supervisor → Prop} {E : Str → Supervisor → Prop}

theorem srv_spec (sid : Nat) :
    Spec P (srv sid) (fun service s => P s ∧ service = s.srv sid) E R :=
  Spec.bind (Spec.get (Q := fun s t => P t ∧ s = t) fun _ hs => ⟨hs, rfl⟩)
    fun _ => Spec.pure fun _ hs => ⟨hs.1, hs.2 ▸ rfl⟩

theorem shutdownRequested_spec (stopped : ∀ s, P s → R s)
    (signal : ∀ {s : Supervisor}, P s → P s.requestShutdown) :
    Spec P shutdownRequested (fun b s => P s ∧ s.doShutdown = b) E R := by
  refine Spec.ask stopped fun s k b t hs h => ?_
  split at h
  · obtain ⟨rfl, rfl⟩ := h
    exact ⟨signal hs, rfl⟩
  · obtain ⟨rfl, rfl⟩ := h
    exact ⟨hs, rfl⟩
  · simp at h

theorem shutdownRequested_keeps (signal : ∀ {s : Supervisor}, P s → P s.requestShutdown) :
    Keeps P shutdownRequested := by
  have spec : Spec P shutdownRequested (fun b s => P s ∧ s.doShutdown = b) (fun _ => P) P :=
    shutdownRequested_spec (fun _ hs => hs) signal
  exact spec.consequence (fun _ hs => hs) (fun _ _ hs => hs.1) (fun _ _ hs => hs) fun _ hs => hs

theorem waitpid_spec (stopped : ∀ s, P s → R s) (pid : Int) (nohang : Bool) :
    Spec P (waitpid pid nohang)
      (fun result t =>
        match result with
        | .reaped child status =>
            ∃ s, P s ∧ 0 < child ∧ (pid = -1 ∨ child = pid) ∧ t = s.reaped child status
        | .running => P t
        | .interrupted => P t ∧ nohang = false
        | .failed =>
            ∃ s, P s ∧ (pid = -1 → s.children = []) ∧
              t = if pid = -1 then s.record .childless else s) E R := by
  refine Spec.ask stopped fun s k result t hs h => ?_
  split at h
  · obtain ⟨fits, h⟩ := Option.ite_none_right_eq_some.mp h
    obtain ⟨rfl, rfl⟩ := h
    exact ⟨s, hs, fits.1, fits.2, rfl⟩
  · obtain ⟨-, h⟩ := Option.ite_none_right_eq_some.mp h
    obtain ⟨rfl, rfl⟩ := h
    exact hs
  · obtain ⟨wait, h⟩ := Option.ite_none_left_eq_some.mp h
    obtain ⟨rfl, rfl⟩ := h
    exact ⟨hs, Bool.eq_false_iff.mpr wait⟩
  · split at h
    · next any =>
        obtain ⟨childless, h⟩ := Option.ite_none_right_eq_some.mp h
        obtain ⟨rfl, rfl⟩ := h
        exact ⟨s, hs, fun _ => childless, (if_pos any).symm⟩
    · next one =>
        obtain ⟨rfl, rfl⟩ := h
        exact ⟨s, hs, fun any => absurd any one, (if_neg one).symm⟩
  · cases h

end Specs

/-! ## Starting and stopping -/

section Calm

variable {I : Supervisor → Prop}

/-- A process was forked for the service and its logger has not been started. -/
def Forked (I : Supervisor → Prop) (sid : Nat) (s : Supervisor) : Prop :=
  I s ∧ ∀ srv, s.services[sid]? = some srv → srv.pid ≠ 0 ∧ srv.loggerStarted = false

theorem Forked.updateSrv {I F : Supervisor → Prop} {sid : Nat} {s : Supervisor}
    {f : ServiceEntry → ServiceEntry} (hs : Forked F sid s) (keeps : I (s.updateSrv sid f))
    (pid : ∀ srv, (f srv).pid = srv.pid)
    (logger : ∀ srv, (f srv).loggerStarted = srv.loggerStarted) :
    Forked I sid (s.updateSrv sid f) := by
  refine ⟨keeps, ?_⟩
  intro srv hsrv
  simp only [getElem?_updateSrv, if_pos] at hsrv
  obtain ⟨old, hold, rfl⟩ := Option.map_eq_some_iff.mp hsrv
  rw [pid, logger]
  exact hs.2 old hold

theorem started_spec {P F I J R : Supervisor → Prop} {sid : Nat} (h : Starts P F I J R sid) :
    Spec (Forked F sid) (started sid) (fun _ => J) (fun _ => I) R := by
  have stopped : ∀ s, Forked I sid s → R s := fun s hs => h.stopped s hs.1
  have threw : ∀ s, Forked I sid s → I s := fun s hs => hs.1
  have asked {α : Type} {m : Code α} (hm : Keeps (Forked I sid) m) :
      Spec (Forked I sid) m (fun _ => Forked I sid) (fun _ => I) R :=
    hm.spec (fun _ _ hs => hs) (fun _ => threw) stopped
  refine Spec.bind (getTime_spec fun s hs => h.stoppedForked s hs.1) fun now => ?_
  refine Spec.bind (M := fun _ => Forked I sid) (Spec.modify ?_) fun _ => ?_
  · rintro _ ⟨s, hs, rfl⟩
    have forked : Forked F sid s := hs
    refine Forked.updateSrv (F := fun t => ∃ s, F s ∧ t = s.record (.clock now))
      ⟨⟨s, hs.1, rfl⟩, hs.2⟩ (h.startTime hs.1) (fun _ => rfl) fun _ => rfl
  refine Spec.bind (srv_spec sid) fun service => Spec.ite ?_ ?_
  · intro already
    refine Spec.bind (M := fun _ _ => False) (Spec.modify ?_) fun _ =>
      Spec.abort fun _ hs => hs.elim
    rintro s ⟨hs, rfl⟩
    cases hsrv : s.services[sid]? with
    | none =>
        rw [srv_of_none hsrv] at already
        exact absurd already (by decide)
    | some srv =>
        rw [srv_of_getElem? hsrv] at already
        exact absurd already (by simp [(hs.2 srv hsrv).2])
  · intro _
    apply Spec.pre (P := Forked I sid) _ fun _ hs => hs.1
    refine Spec.step (asked (inquire_keeps _)) fun memory => Spec.ite ?_ ?_
    · intro _
      refine Spec.step (Spec.modify fun s hs =>
        hs.updateSrv (h.loggerExit hs.1) (fun _ => rfl) (fun _ => rfl)) fun _ => ?_
      refine Spec.step (asked (inquire_keeps _)) fun error => ?_
      cases error with
      | some strerror => exact throwMessage_spec threw stopped _
      | none =>
          refine Spec.bind (M := fun _ t => J (t.record (.started sid))) (Spec.modify ?_) fun _ =>
            Spec.modify fun _ ht => ht
          exact fun s hs => h.started hs.1 fun srv hsrv => (hs.2 srv hsrv).1
    · intro _
      exact throwMessage_spec threw stopped _

theorem forkAndExec_spec (sid : Nat) {P X R : Supervisor → Prop} (stopped : ∀ s, P s → R s)
    (forking : ∀ s, P s → P (s.record (.forking sid))) :
    Spec P (forkAndExec sid)
      (fun pid t => pid = 0 ∧ P t ∨
        ∃ s fd, P s ∧ 0 < pid ∧ 0 ≤ fd ∧ s.children.lookup pid = none ∧ t = s.forked sid pid fd)
      (fun _ => X) R := by
  refine Spec.step (Spec.modify forking) fun _ => Spec.ask stopped fun s k pid t hs h => ?_
  split at h
  · obtain ⟨rfl, rfl⟩ := h
    exact Or.inl ⟨rfl, hs⟩
  · next child fd =>
      split at h
      · next fits =>
          obtain ⟨rfl, rfl⟩ := h
          exact Or.inr ⟨s, fd, hs, fits.1, fits.2.1, fits.2.2, rfl⟩
      · simp at h
  · simp at h

section Starts

variable {P F I J R : Supervisor → Prop} {sid : Nat}

/-- A fork and the storing of its result leave the process of the service in its entry. -/
theorem forked_setPid (h : Starts P F I J R sid) {s : Supervisor} {pid fd : Int} (hs : P s)
    (down : (s.srv sid).pid = 0) (hpid : 0 < pid) (hfd : 0 ≤ fd)
    (fresh : s.children.lookup pid = none) :
      Forked F sid ((s.forked sid pid fd).setPid sid pid) := by
  refine ⟨h.forked hs down hpid hfd fresh, ?_⟩
  intro srv hsrv
  simp only [setPid, forked, record, getElem?_updateSrv, if_pos] at hsrv
  obtain ⟨srv', hsrv', rfl⟩ := Option.map_eq_some_iff.mp hsrv
  obtain ⟨old, hold, rfl⟩ := Option.map_eq_some_iff.mp hsrv'
  rw [srv_of_getElem? hold] at down
  have logger := h.idle hs hold down
  exact ⟨by simp only; omega, logger⟩

theorem attempts_spec (h : Starts P F I J R sid) (count : Nat) :
    Spec (fun s => P s ∧ (s.srv sid).pid = 0) (attempts sid count) (fun _ => J) (fun _ => I) R := by
  have threw : ∀ s, P s ∧ (s.srv sid).pid = 0 → I s := fun _ hs => h.before hs.1
  have stopped : ∀ s, P s ∧ (s.srv sid).pid = 0 → R s := fun s hs => h.stopped s (threw s hs)
  induction count with
  | zero => exact throwMessageWithErrno_spec threw stopped _
  | succ count ih =>
      refine Spec.bind (forkAndExec_spec sid stopped fun _ hs => ⟨h.forking hs.1, hs.2⟩)
        fun pid => ?_
      refine Spec.bind (M := fun _ s => (pid = 0 ∧ P s ∧ (s.srv sid).pid = 0) ∨
        (0 < pid ∧ Forked F sid s)) (Spec.modify ?_) fun _ => Spec.ite ?_ ?_
      · rintro s (⟨rfl, hs, down⟩ | ⟨s, fd, ⟨hs, down⟩, hpid, hfd, fresh, rfl⟩)
        · rw [setPid_same down]
          exact Or.inl ⟨rfl, hs, down⟩
        · exact Or.inr ⟨hpid, forked_setPid h hs down hpid hfd fresh⟩
      · intro hpid
        apply (started_spec h).pre
        rintro s (⟨rfl, -⟩ | ⟨-, hs⟩)
        · exact absurd hpid (by decide)
        · exact hs
      · intro hpid
        apply ih.pre
        rintro s (⟨-, hs⟩ | ⟨hpos, -⟩)
        · exact hs
        · exact absurd hpos hpid

theorem startService_spec (h : Starts P F I J R sid) :
    Spec P (startService sid) (fun _ => J) (fun _ => I) R := by
  refine Spec.bind (srv_spec sid) fun service => Spec.ite ?_ ?_
  · intro up
    apply Spec.pure
    rintro s ⟨hs, rfl⟩
    exact h.running hs up
  · intro down
    have down : service.pid = 0 := not_not.mp down
    apply Spec.pre (P := fun s => P s ∧ (s.srv sid).pid = 0)
    · refine Spec.step ?_ fun _ => attempts_spec h 4
      exact (chdirToService_keeps _).spec (fun _ _ hs => hs) (fun _ _ hs => h.before hs.1)
        fun s hs => h.stopped s (h.before hs.1)
    · rintro s ⟨hs, rfl⟩
      exact ⟨hs, down⟩

end Starts

theorem startService_keeps (h : Calm I) (sid : Nat) : Keeps I (startService sid) :=
  startService_spec (h.starts sid)

theorem stopService_keeps (h : Quiet I)
    (sigterm : ∀ {s : Supervisor} {sid : Nat}, I s → (s.srv sid).pid ≠ 0 → I (s.sigterm sid))
    (sid : Nat) : Keeps I (stopService sid) := by
  have asked {α : Type} {m : Code α} (hm : Keeps (fun s => I s ∧ (s.srv sid).pid ≠ 0) m) :
      Spec (fun s => I s ∧ (s.srv sid).pid ≠ 0) m (fun _ s => I s ∧ (s.srv sid).pid ≠ 0)
        (fun _ => I) I :=
    hm.spec (fun _ _ hs => hs) (fun _ _ hs => hs.1) fun _ hs => hs.1
  refine Spec.bind (srv_spec sid) fun service => Spec.ite ?_ ?_
  · intro _
    exact Spec.pure fun _ hs => hs.1
  · intro up
    apply Spec.pre (P := fun s => I s ∧ (s.srv sid).pid ≠ 0)
    · refine Spec.step (asked (chdirToService_keeps _)) fun _ => ?_
      refine Spec.step (asked (inquire_keeps _)) fun hasKill => Spec.ite ?_ ?_
      · intro _
        refine Spec.step (asked (execServiceCmd_keeps ?_ _ _ _)) fun _ => ?_
        · exact fun he hs => ⟨h.passive he hs.1, hs.2⟩
        · exact Spec.modify fun s hs => sigterm hs.1 hs.2
      · intro _
        exact Spec.modify fun s hs => sigterm hs.1 hs.2
    · rintro s ⟨hs, rfl⟩
      exact ⟨hs, up⟩

theorem runFinish_spec (h : Quiet I) {E : Str → Supervisor → Prop} (sid : Nat)
    (status : WaitStatus) : Spec I (runFinish sid status) (fun _ => I) E I := by
  refine Spec.tryCatch (T := fun _ => I) ?_ fun _ => Spec.pure fun _ hs => hs
  refine Spec.bind (srv_spec sid) fun service => Spec.pre (P := I) ?_ fun _ hs => hs.1
  refine Keeps.bind (chdirToService_keeps _) fun _ => ?_
  refine Keeps.bind (inquire_keeps _) fun hasFinish => Spec.ite ?_ ?_
  · intro _
    exact Keeps.bind (execServiceCmd_keeps h.passive _ _ _) fun _ => Keeps.pure _
  · intro _
    exact Keeps.pure _

theorem shutdownOnTerminate_spec (h : Quiet I) {E : Str → Supervisor → Prop} (sid : Nat)
    (status : WaitStatus)
    (shutdownBy : ∀ {s : Supervisor}, I s → s.doShutdown = false → I (s.shutdownBy sid status)) :
    Spec I (shutdownOnTerminate sid status) (fun _ => I) E I := by
  refine Spec.bind (shutdownRequested_spec (fun _ hs => hs) h.requestShutdown) fun requested => ?_
  refine Spec.ite ?_ ?_
  · intro _
    exact Spec.pure fun _ hs => hs.1
  · intro notRequested
    refine Spec.bind (srv_spec sid) fun service => Spec.ite ?_ ?_
    · intro _
      refine Spec.modify fun s hs => shutdownBy hs.1.1 ?_
      exact hs.1.2.trans (Bool.eq_false_iff.mpr notRequested)
    · intro _
      exact Spec.pure fun _ hs => hs.1.1

/-- What `handle_killed` makes of a state in which a process has just been reaped. It does not
throw. -/
theorem handleKilled_spec {P : Supervisor → Prop} {E : Str → Supervisor → Prop} (h : Quiet I)
    {pid : Int} {status : WaitStatus} (hpid : 0 < pid)
    (other : ∀ {s : Supervisor}, P s → s.findServiceByPid pid = none → I (s.reaped pid status))
    (service : ∀ {s : Supervisor} {sid : Nat}, P s → s.findServiceByPid pid = some sid →
      I ((s.reaped pid status).killed sid))
    (shutdownBy : ∀ {s t : Supervisor} {sid : Nat}, P s → s.findServiceByPid pid = some sid →
      I t → t.doShutdown = false → I (t.shutdownBy sid status)) :
    Spec (fun t => ∃ s, P s ∧ t = s.reaped pid status) (handleKilled pid status) (fun _ => I) E
      I := by
  unfold handleKilled
  rw [if_neg (by omega), if_neg (by omega)]
  refine Spec.bind (Spec.get (Q := fun a t => a = t ∧ ∃ s, P s ∧ t = s.reaped pid status)
    fun _ hs => ⟨rfl, hs⟩) fun t => Spec.with_entry ?_
  rintro _ ⟨rfl, s, hs, rfl⟩
  have same : (s.reaped pid status).findServiceByPid pid = s.findServiceByPid pid := rfl
  rw [same]
  cases found : s.findServiceByPid pid with
  | none =>
      apply Spec.pure
      rintro _ rfl
      exact other hs found
  | some sid =>
      refine Spec.bind (M := fun _ => I) (Spec.modify ?_) fun _ => ?_
      · rintro _ rfl
        exact service hs found
      · refine Spec.step (runFinish_spec h sid status) fun _ => ?_
        exact shutdownOnTerminate_spec h sid status (shutdownBy hs found)

end Calm

/-! ## Waiting for a service that was started -/

section Waiting

variable {P O X R : Supervisor → Prop} {I : WaitStatus → Supervisor → Prop}

/-- What `handle_killed` makes of a state in which the process of the service has just been
reaped. -/
def OwnKilled (P : Supervisor → Prop) (I : WaitStatus → Supervisor → Prop)
    (R : Supervisor → Prop) (sid : Nat) : Prop :=
  ∀ pid status, 0 < pid →
    Spec (fun t => ∃ s, (P s ∧ (s.srv sid).pid = pid) ∧ t = s.reaped pid status)
      (handleKilled pid status) (fun _ => I status) (fun _ _ => False) R

/-- Waiting for the process of a service reaps no other process. -/
theorem waitpid_own (h : Quiet P) {sid : Nat} (valid : ∀ s, P s → 0 ≤ (s.srv sid).pid)
    (stopped : ∀ s, P s → R s) {E : Str → Supervisor → Prop} (service : ServiceEntry)
      (nohang : Bool) :
    Spec (fun s => P s ∧ service = s.srv sid) (waitpid service.pid nohang)
      (fun result t =>
        match result with
        | .reaped child status =>
            0 < child ∧ child = service.pid ∧
              ∃ s, (P s ∧ (s.srv sid).pid = service.pid) ∧ t = s.reaped service.pid status
        | _ => P t) E R := by
  apply (waitpid_spec (P := fun s => P s ∧ service = s.srv sid) (R := R) (E := E)
    (fun s hs => stopped s hs.1) service.pid nohang).consequence (fun _ hs => hs) _
      (fun _ _ hs => hs) (fun _ hs => hs)
  intro result t ht
  cases result with
  | reaped child status =>
      obtain ⟨s, ⟨hs, rfl⟩, hpos, hchild, rfl⟩ := ht
      have nonneg := valid s hs
      have own : child = (s.srv sid).pid := by omega
      subst own
      exact ⟨hpos, rfl, s, ⟨hs, rfl⟩, rfl⟩
  | running => exact ht.1
  | interrupted => exact ht.1.1
  | failed =>
      obtain ⟨s, ⟨hs, -⟩, -, rfl⟩ := ht
      show P (if _ then _ else _)
      split
      · exact h.passive (by trivial) hs
      · exact hs

theorem waitTermination_spec (h : Quiet P) {sid : Nat} (valid : ∀ s, P s → 0 ≤ (s.srv sid).pid)
    (threw : ∀ s, P s → X s) (stopped : ∀ s, P s → R s) :
    Spec P (waitTermination sid)
      (fun result t =>
        match result with
        | none => P t
        | some status =>
            ∃ pid, 0 < pid ∧
              ∃ s, (P s ∧ (s.srv sid).pid = pid) ∧ t = s.reaped pid status) (fun _ => X) R := by
  refine Spec.loop stopped ?_
  refine Spec.bind (srv_spec sid) fun service => ?_
  refine Spec.bind (waitpid_own h valid stopped service false) fun result => ?_
  cases result with
  | reaped child status =>
      apply Spec.pure
      rintro t ⟨hpos, rfl, hs⟩
      exact ⟨_, hpos, hs⟩
  | interrupted =>
      refine Spec.bind (shutdownRequested_spec stopped h.requestShutdown) fun requested => ?_
      cases requested with
      | true => exact Spec.pure fun _ hs => hs.1
      | false => exact Spec.pure fun _ hs => hs.1
  | running => exact throwMessageWithErrno_spec threw stopped _
  | failed => exact throwMessageWithErrno_spec threw stopped _

/-- A sync service: whether its termination is an error depends on its status. -/
theorem runSync_spec (h : Quiet P) {sid : Nat} (valid : ∀ s, P s → 0 ≤ (s.srv sid).pid)
    (threw : ∀ s, P s → X s) (stopped : ∀ s, X s → R s) (ok : ∀ s, P s → O s)
      (killed : OwnKilled P I R sid)
    (killedOk : ∀ s, I (.exited 0) s → O s)
    (killedThrew : ∀ status s, status ≠ .exited 0 → I status s → X s) :
    Spec P (runSync sid) (fun _ => O) (fun _ => X) R := by
  refine Spec.bind (waitTermination_spec h valid threw fun s hs => stopped s (threw s hs))
    fun terminated => ?_
  cases terminated with
  | none => exact Spec.pure ok
  | some status =>
      refine Spec.with_entry ?_
      rintro _ ⟨pid, hpos, s, ⟨hs, rfl⟩, rfl⟩
      refine Spec.bind (srv_spec sid) fun service => Spec.with_entry ?_
      rintro _ ⟨rfl, rfl⟩
      refine Spec.bind (M := fun _ => I status) ((killed _ status hpos).consequence ?_
        (fun _ _ ht => ht) (fun _ _ ht => ht.elim) fun _ ht => ht) fun _ => Spec.ite ?_ ?_
      · rintro _ rfl
        exact ⟨s, ⟨hs, rfl⟩, rfl⟩
      · rintro rfl
        exact Spec.pure killedOk
      · intro error
        exact throwMessage_spec (fun s ht => killedThrew status s error ht)
          (fun s ht => stopped s (killedThrew status s error ht)) _

/-- A service that has to run for a minimum time. That it terminates before is an error. -/
theorem waitUptime_spec (h : Quiet P) {sid : Nat} (valid : ∀ s, P s → 0 ≤ (s.srv sid).pid)
    (threw : ∀ s, P s → X s) (stopped : ∀ s, X s → R s) (killed : OwnKilled P I R sid)
      (killedThrew : ∀ status s, I status s → X s) :
    Spec P (waitUptime sid) (fun _ => P) (fun _ => X) R := by
  have pStopped : ∀ s, P s → R s := fun s hs => stopped s (threw s hs)
  refine Spec.loop pStopped ?_
  refine Spec.bind (shutdownRequested_spec pStopped h.requestShutdown) fun requested => ?_
  refine Spec.ite (fun _ => Spec.pure fun _ hs => hs.1) fun _ =>
    Spec.pre (P := P) ?_ fun _ hs => hs.1
  refine Spec.step ((getTime_keeps h.passive).spec (fun _ _ hs => hs) (fun _ => threw) pStopped)
    fun now => ?_
  refine Spec.bind (srv_spec sid) fun service => ?_
  refine Spec.ite (fun _ => Spec.pure fun _ hs => hs.1) fun _ => ?_
  refine Spec.bind (waitpid_own h valid pStopped service true) fun result => ?_
  cases result with
  | reaped child status =>
      refine Spec.with_entry ?_
      rintro _ ⟨hpos, rfl, hs⟩
      refine Spec.bind (M := fun _ => I status) ((killed _ status hpos).consequence ?_
        (fun _ _ ht => ht) (fun _ _ ht => ht.elim) fun _ ht => ht) fun _ => ?_
      · rintro _ rfl
        exact hs
      · exact throwMessage_spec (killedThrew status)
          (fun s ht => stopped s (killedThrew status s ht)) _
  | running => exact Spec.pure fun _ hs => hs
  | interrupted => exact throwMessageWithErrno_spec threw pStopped _
  | failed => exact throwMessageWithErrno_spec threw pStopped _

theorem waitReady_keeps (h : Quiet P) (sid : Nat) : Keeps P (waitReady sid) := by
  refine Spec.bind (srv_spec sid) fun service => Spec.pre (P := P) ?_ fun _ hs => hs.1
  refine Keeps.bind (chdirToService_keeps _) fun _ => ?_
  refine Keeps.bind (inquire_keeps _) fun hasIsReady => Spec.ite ?_ fun _ => Keeps.pure _
  intro _
  refine Keeps.loop (Keeps.bind (getTime_keeps h.passive) fun now => Spec.ite ?_ ?_)
  · intro _
    exact throwMessage_spec (fun _ hs => hs) (fun _ hs => hs) _
  · intro _
    refine Keeps.bind (inquire_keeps _) fun up => Spec.ite ?_ ?_
    · intro _
      refine Keeps.bind (execServiceCmd_keeps h.passive _ _ _) fun code => Spec.ite ?_ ?_
      · intro _
        exact Keeps.pure _
      · intro _
        exact Keeps.bind (shutdownRequested_keeps h.requestShutdown) fun _ => Keeps.pure _
    · intro _
      exact throwMessage_spec (fun _ hs => hs) (fun _ hs => hs) _

end Waiting

/-! ## All of the code -/

section Kept

variable {I R : Supervisor → Prop}

theorem handleKilled_keeps (h : Reaps I) {E : Str → Supervisor → Prop} {pid : Int}
    {status : WaitStatus} (hpid : 0 < pid) :
    Spec (fun t => ∃ s, I s ∧ t = s.reaped pid status) (handleKilled pid status) (fun _ => I) E I :=
  handleKilled_spec h.toQuiet hpid (fun hs found => h.reapedOther hs hpid found)
    (fun hs found => h.reapedService hs hpid found) fun _ _ ht down => h.shutdownBy ht down

theorem ownKilled_keeps (h : Reaps I) (sid : Nat) : OwnKilled I (fun _ => I) I sid := by
  intro pid status hpid
  apply (handleKilled_keeps h hpid).pre
  rintro t ⟨s, ⟨hs, -⟩, rfl⟩
  exact ⟨s, hs, rfl⟩

theorem reapTerminated_keeps (h : Reaps I) : Keeps I reapTerminated := by
  refine Keeps.loop ?_
  refine Spec.bind (waitpid_spec (fun _ hs => hs) (-1) true) fun result => ?_
  cases result with
  | reaped pid status =>
      refine Spec.with_entry ?_
      rintro _ ⟨s, hs, hpos, -, rfl⟩
      refine Spec.bind (M := fun _ => I) ((handleKilled_keeps h hpos).pre ?_)
        fun _ => Spec.pure fun _ hs => hs
      rintro _ rfl
      exact ⟨s, hs, rfl⟩
  | running => exact Spec.pure fun _ hs => hs
  | interrupted => exact Spec.pure fun _ hs => hs.1
  | failed =>
      apply Spec.pure
      rintro _ ⟨s, hs, -, rfl⟩
      exact h.passive (by trivial) hs

theorem periodOver_keeps (h : Reaps I) (period : Int) (start : UInt64) :
    Keeps I (periodOver period start) := by
  refine Spec.ite (fun _ => Keeps.pure _) fun _ => Spec.ite (fun _ => ?_) fun _ => Keeps.pure _
  exact Keeps.bind (getTime_keeps h.passive) fun _ => Keeps.pure _

theorem childHandler_keeps (h : Reaps I) (period service : Int) :
    Keeps I (childHandler period service) := by
  refine Keeps.bind (getTime_keeps h.passive) fun start => Keeps.loop ?_
  refine Keeps.bind (reapTerminated_keeps h) fun killed => ?_
  refine Spec.ite (fun _ => Keeps.pure _) fun _ => ?_
  refine Keeps.bind (periodOver_keeps h period start) fun elapsed => ?_
  refine Spec.ite (fun _ => Keeps.pure _) fun _ => Spec.ite (fun _ => ?_) fun _ => Keeps.pure _
  exact Spec.bind (srv_spec _) fun entry => Spec.pure fun _ hs => hs.1

/-! ### Start-up -/

theorem bringUp_keeps (h : Reaps I) {P : Supervisor → Prop} (stopped : ∀ s, I s → R s) {sid : Nat}
    (valid : ∀ s, I s → 0 ≤ (s.srv sid).pid)
    (start : Spec P (startService sid) (fun _ => I) (fun _ => I) R) :
    Spec P (bringUp sid) (fun _ => I) (fun _ => I) R := by
  have same : ∀ s, I s → I s := fun _ hs => hs
  have killed : OwnKilled I (fun _ => I) R sid := fun pid status hpid =>
    (ownKilled_keeps h sid pid status hpid).consequence (fun _ hs => hs) (fun _ _ hs => hs)
      (fun _ _ hs => hs) stopped
  refine Spec.bind start fun _ => ?_
  refine Spec.bind (srv_spec sid) fun service => Spec.pre (P := I) ?_ fun _ hs => hs.1
  refine Spec.ite (fun _ => ?_) fun _ => Spec.ite (fun _ => Spec.pure same) fun _ => ?_
  · exact runSync_spec h.toQuiet valid same stopped same killed same fun _ _ _ hs => hs
  · refine Spec.step (waitUptime_spec h.toQuiet valid same stopped killed fun _ => same)
      fun up => Spec.ite (fun _ => ?_) fun _ => Spec.pure same
    exact (waitReady_keeps h.toQuiet sid).or stopped

theorem startFailed_keeps (sid : Nat) (message : Str) : Keeps I (startFailed sid message) := by
  refine Spec.bind (srv_spec sid) fun service => Spec.pre (P := I) ?_ fun _ hs => hs.1
  exact Spec.ite (fun _ => Keeps.pure _) fun _ =>
    throwMessage_spec (fun _ hs => hs) (fun _ hs => hs) _

theorem startServices_keeps {order : List Int} (h : Boots I R order) :
    KeepsOr I R (startServices order) := by
  have pass {α : Type} (a : α) : KeepsOr I R (pure a : Code α) := (Keeps.pure a).or h.stopped
  induction order with
  | nil => exact pass ()
  | cons sid order ih =>
      refine Spec.ite (fun _ => pass ()) fun valid => ?_
      refine Spec.bind (srv_spec _) fun service => ?_
      refine Spec.ite (fun _ => Spec.pre (P := I) (ih h.tail) fun _ hs => hs.1) fun notGroup => ?_
      apply Spec.pre (P := fun s => I s ∧ (s.srv sid.toNat).settings.isServiceGroup = false)
      · refine Spec.bind (shutdownRequested_spec (fun s hs => h.stopped s hs.1)
          fun hs => ⟨h.requestShutdown hs.1, hs.2⟩) fun requested => ?_
        refine Spec.ite (fun _ => Spec.pure fun _ hs => hs.1.1) fun _ => ?_
        refine Spec.pre (P := fun s => I s ∧ (s.srv sid.toNat).settings.isServiceGroup = false) ?_
          fun _ hs => hs.1
        refine Spec.bind (M := fun _ => I) (Spec.tryCatch (T := fun _ => I) ?_ fun message =>
          (startFailed_keeps sid.toNat message).or h.stopped) fun _ => ih h.tail
        have listed : (sid.toNat : Int) ∈ sid :: order := by
          rw [Int.toNat_of_nonneg (by omega)]
          exact List.mem_cons_self
        exact bringUp_keeps h.toReaps h.stopped h.valid (h.start sid.toNat listed)
      · rintro s ⟨hs, rfl⟩
        exact ⟨hs, Bool.eq_false_iff.mpr notGroup⟩

/-- What the start-up leaves to the main loop. -/
theorem bringUpServices_keeps {view : View} {cwd : Str}
    (h : Boots I R (loadDefault view cwd).2.startOrder)
    (load : I (booted.load (loadDefault view cwd).2)) (enter : ∀ s, I s → I (s.enter .starting)) :
    Spec (fun s => s = booted) (bringUpServices view cwd) (fun _ => I) (fun _ => I) R := by
  refine Spec.tryCatch (T := fun _ => I) ?_ fun _ =>
    Spec.bind (M := fun _ => I) (Spec.modify fun _ hs => h.requestShutdown hs) fun _ =>
      (Keeps.pure _).or h.stopped
  refine Spec.bind (M := fun _ s => s = booted.load (loadDefault view cwd).2) ?_ fun _ => ?_
  · refine Spec.bind (M := fun _ s => s = booted.load (loadDefault view cwd).2)
      (Spec.modify (by rintro _ rfl; rfl)) fun _ => ?_
    refine (Keeps.ofOutcome _).spec (fun _ _ hs => hs) ?_ ?_
    · rintro _ _ rfl
      exact load
    · rintro _ rfl
      exact h.stopped _ load
  · refine Spec.bind (M := fun _ s => I s ∧ s.startOrder = (loadDefault view cwd).2.startOrder)
      (Spec.modify ?_) fun _ => ?_
    · rintro _ rfl
      exact ⟨enter _ load, rfl⟩
    refine Spec.bind (M := fun t s => I s ∧ t.startOrder = (loadDefault view cwd).2.startOrder)
      (Spec.get fun _ hs => hs) fun t => Spec.with_entry ?_
    rintro s ⟨hs, order⟩
    rw [order]
    refine Spec.bind (M := fun _ => I) ((startServices_keeps h).pre ?_) fun _ =>
      (Keeps.pure _).or h.stopped
    rintro _ rfl
    exact hs

/-! ### Shutdown -/

theorem stopServices_keeps (h : Stops I) (order : List Int) : Keeps I (stopServices order) := by
  induction order with
  | nil => exact Keeps.pure _
  | cons sid order ih =>
      refine Spec.step (Spec.modify fun _ hs => h.stopping (by trivial) hs) fun _ => ?_
      refine Spec.ite (fun _ => ih) fun _ => ?_
      refine Spec.bind (srv_spec _) fun service => Spec.pre (P := I) ?_ fun _ hs => hs.1
      refine Spec.ite (fun _ => ih) fun _ => ?_
      refine Spec.step (Spec.modify fun _ hs => h.stopping (by trivial) hs) fun _ => ?_
      refine Keeps.bind
        (Keeps.tryCatch (stopService_keeps h.toQuiet h.sigterm _) fun _ => Keeps.pure _)
        fun _ => ?_
      refine Keeps.bind (childHandler_keeps h.toReaps _ _) fun all => ?_
      exact Spec.ite (fun _ => Keeps.pure _) fun _ => ih

theorem cinitShutdown_keeps (h : Stops I) (servicesGracetime : Nat) :
    Keeps I (cinitShutdown servicesGracetime) := by
  have wait (period : Int) : Keeps I (childHandler period (-1)) := childHandler_keeps h.toReaps _ _
  refine Spec.bind (Spec.get (Q := fun _ => I) fun _ hs => hs) fun s => ?_
  refine Keeps.bind (stopServices_keeps h _) fun all => Spec.ite (fun _ => Keeps.pure _) fun _ => ?_
  refine Keeps.bind (wait _) fun all => Spec.ite (fun _ => Keeps.pure _) fun _ => ?_
  refine Spec.step (Spec.modify fun _ hs => h.stopping (by trivial) hs) fun _ => ?_
  refine Keeps.bind (wait _) fun all => Spec.ite (fun _ => Keeps.pure _) fun _ => ?_
  refine Spec.step (Spec.modify fun _ hs => h.stopping (by trivial) hs) fun _ => ?_
  exact Keeps.bind (wait _) fun _ => Keeps.pure _

/-! ### Main loop -/

theorem runInterval_keeps (h : Cycles I R) (sid : Nat) : KeepsOr I R (runInterval sid) := by
  have done : ∀ s, I s → I s := fun _ hs => hs
  refine Spec.bind (srv_spec sid) fun service => ?_
  refine Spec.ite (fun regular => ?_) fun _ => Spec.pure fun _ hs => hs.1
  refine Spec.bind (getTime_spec fun s hs => h.stopped s hs.1) fun now => ?_
  have told : ∀ t, (∃ s, (I s ∧ service = s.srv sid) ∧ t = s.record (.clock now)) → I t := by
    rintro _ ⟨s, hs, rfl⟩
    exact h.passive (by trivial) hs.1
  refine Spec.ite (fun due => ?_) fun _ => Spec.pure told
  refine Spec.ite (fun _ => ?_) fun _ => ?_
  · refine Spec.pre (P := I) (Spec.bind (getTime_spec h.stopped) fun later => Spec.modify ?_) told
    rintro _ ⟨s, hs, rfl⟩
    exact h.stillRunning hs
  · refine Spec.bind (M := fun _ => IntervalOver I sid) (Spec.modify ?_) fun _ => ?_
    · rintro _ ⟨s, ⟨hs, rfl⟩, rfl⟩
      exact ⟨s, now, hs, regular, due, rfl⟩
    · exact Spec.tryCatch (h.interval sid) fun _ => Spec.pure done

theorem runRestart_keeps (h : Cycles I R) (sid : Nat) : KeepsOr I R (runRestart sid) := by
  refine Spec.bind (srv_spec sid) fun service => ?_
  refine Spec.ite (fun asked => ?_) fun _ => Spec.pure fun _ hs => hs.1
  refine Spec.bind (getTime_spec fun s hs => h.stopped s hs.1) fun now => ?_
  refine Spec.ite (fun _ => ?_) fun _ => Spec.pure ?_
  · refine Spec.bind (M := fun _ => RestartDue I sid) (Spec.modify ?_) fun _ => ?_
    · rintro _ ⟨s, ⟨hs, rfl⟩, rfl⟩
      exact ⟨s, now, hs, asked, rfl⟩
    · refine Spec.tryCatch (T := fun _ => I) ?_ fun _ => Spec.pure fun _ hs => hs
      exact Spec.bind (h.restart sid) fun _ => Spec.modify fun _ hs => hs
  · rintro _ ⟨s, hs, rfl⟩
    exact h.passive (by trivial) hs.1

theorem runCommand_keeps (h : Cycles I R) : KeepsOr I R runCommand := by
  refine Spec.step ((inquire_keeps _).or h.stopped) fun buf => ?_
  split
  · exact (Keeps.pure _).or h.stopped
  · exact (Keeps.ofOutcome _).or h.stopped
  · refine Spec.bind (Spec.get (Q := fun _ => I) fun _ hs => hs) fun s => ?_
    split
    · exact (Keeps.pure _).or h.stopped
    · next sid _ =>
        refine Spec.tryCatch (T := fun _ => I) ?_ fun _ => (Keeps.pure _).or h.stopped
        refine Spec.step ((stopService_keeps h.toQuiet h.sigterm _).or h.stopped) fun _ => ?_
        refine Spec.bind (M := fun _ t => I (t.record (.restartAccepted sid))) (Spec.modify ?_)
          fun _ => Spec.modify fun _ ht => ht
        exact fun _ hs => h.accepted hs

theorem processServices_keeps (h : Cycles I R) : KeepsOr I R processServices := by
  refine Spec.bind (Spec.get (Q := fun _ => I) fun _ hs => hs) fun s => ?_
  refine Spec.step (Spec.forEach (runInterval_keeps h)) fun _ => ?_
  exact Spec.step (Spec.forEach (runRestart_keeps h)) fun _ => runCommand_keeps h

theorem mainIteration_keeps (h : Cycles I R) : KeepsOr I R mainIteration := by
  have leave (a : Option Unit) : KeepsOr I R (pure a : Code (Option Unit)) :=
    (Keeps.pure a).or h.stopped
  have signals : Keeps I shutdownRequested := shutdownRequested_keeps h.requestShutdown
  have requested : KeepsOr I R shutdownRequested := signals.or h.stopped
  refine Spec.step requested fun _ => Spec.ite (fun _ => leave _) fun _ => ?_
  refine Spec.step ((childHandler_keeps h.toReaps _ _).or h.stopped) fun all => ?_
  refine Spec.step requested fun _ => Spec.ite (fun _ => leave _) fun _ => ?_
  refine Spec.bind (Spec.get (Q := fun _ => I) fun _ hs => hs) fun s => ?_
  refine Spec.ite (fun _ => ?_) fun _ => ?_
  · exact Spec.step (Spec.modify fun _ hs => h.requestShutdown hs) fun _ => leave _
  · exact Spec.step (processServices_keeps h) fun _ => leave _

theorem mainLoop_keeps (h : Cycles I R) : KeepsOr I R mainLoop :=
  KeepsOr.loop h.stopped (mainIteration_keeps h)

/-- What the start-up leaves to the main loop, and the loop to the shutdown, holds until the
services are unloaded. -/
theorem main_keeps {view : View} {cwd : Str}
    (boots : Spec (fun s => s = booted) (bringUpServices view cwd)
      (fun _ s => I (s.enter .running)) (fun _ => R) R)
    (cycles : Cycles I R) (stops : Stops I) (enter : ∀ s, I s → I (s.enter .shuttingDown))
    (unload : ∀ s, I s → R s.unload) (servicesGracetime : Nat) :
    Spec (fun s => s = booted) (main view cwd servicesGracetime) (fun _ => R) (fun _ => R) R := by
  have asked {α : Type} {m : Code α} (hm : KeepsOr I R m) :
      Spec I m (fun _ => I) (fun _ => R) R :=
    hm.spec (fun _ _ hs => hs) (fun _ => cycles.stopped) fun _ hs => hs
  refine Spec.bind boots fun exitStatus => ?_
  refine Spec.bind (M := fun _ => I) (Spec.modify fun _ hs => hs) fun _ => ?_
  refine Spec.step (asked (mainLoop_keeps cycles)) fun _ => ?_
  refine Spec.bind (Spec.get (Q := fun _ => I) fun _ hs => hs) fun s => ?_
  have signals : Keeps I shutdownRequested := shutdownRequested_keeps stops.requestShutdown
  refine Spec.step (asked (signals.or cycles.stopped)) fun requested => ?_
  refine Spec.ite (fun _ => ?_) fun _ => Spec.abort cycles.stopped
  refine Spec.step (Spec.modify fun _ hs => enter _ hs) fun _ => ?_
  refine Spec.step (asked ((cinitShutdown_keeps stops _).or cycles.stopped)) fun _ => ?_
  exact Spec.bind (M := fun _ => R) (Spec.modify unload) fun _ => Spec.pure fun _ hs => hs

end Kept

end Code

/-! ## A condition that all of the code keeps -/

theorem Kept.boots {I : Supervisor → Prop} (h : Kept I) (order : List Int) : Boots I I order where
  toReaps := h.reaps
  valid _ hs := h.toCalm.pid_nonneg hs _
  stopped _ hs := hs
  start sid _ := (Code.startService_keeps h.toCalm sid).pre fun _ hs => hs.1

theorem Kept.cycles {I : Supervisor → Prop} (h : Kept I) : Cycles I I where
  toReaps := h.reaps
  stopped _ hs := hs
  sigterm := h.sigterm
  stillRunning hs := h.setStartTime (h.record (by trivial) hs)
  interval sid := by
    apply (Code.startService_keeps h.toCalm sid).pre
    rintro _ ⟨s, now, hs, -, -, rfl⟩
    exact h.record (by trivial) (h.record (by trivial) hs)
  restart sid := by
    refine Spec.pre (P := I) ((Code.startService_keeps h.toCalm sid).spec ?_ (fun _ _ hs => hs)
      fun _ hs => hs) ?_
    · exact fun _ s hs => h.setRestartRequested hs
    · rintro _ ⟨s, now, hs, -, rfl⟩
      exact h.record (by trivial) (h.record (by trivial) hs)
  accepted hs := h.record (by trivial) (h.setRestartRequested hs)

theorem Kept.stops {I : Supervisor → Prop} (h : Kept I) : Stops I where
  toReaps := h.reaps
  stopping he hs := h.record he.neutral hs
  sigterm := h.sigterm

/-- The state in which a run has come to its end or waits. -/
theorem Code.main_state {I : Supervisor → Prop} (h : Kept I) {view : View} {cwd : Str}
    (load : I (booted.load (loadDefault view cwd).2))
    (enter : ∀ s phase, I s → I (s.enter phase)) (unload : ∀ s, I s → I s.unload)
    (servicesGracetime : Nat) (answers : List Answer) :
    I ((main view cwd servicesGracetime).run answers booted).state := by
  have boots := bringUpServices_keeps (h.boots _) load fun s hs => enter s _ hs
  have ends := main_keeps (boots.consequence (fun _ hs => hs) (fun _ s hs => enter s _ hs)
    (fun _ _ hs => hs) fun _ hs => hs) h.cycles h.stops (fun s hs => enter s _ hs) unload
    servicesGracetime answers booted rfl
  unfold Ends at ends
  split at ends <;> exact ends

end Baseimage.Cinit
