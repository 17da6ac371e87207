import Baseimage.Cinit.Ledger

/-!
# When a restart request is consumed

A command sets the restart flag of a service. `handle_killed` reads it, so that the termination
that the command brought about does not shut the container down, and the restart loop clears it
when it has started the service. The interval loop starts services too, in front of the restart
loop, and leaves the flag alone.
-/

namespace Baseimage.Cinit

open Script Supervisor Code

/-- Since the last accepted command to restart the service it has not been started. -/
def pending (sid : Nat) : List Event → Bool
  | [] => false
  | e :: older =>
      if e = .restartAccepted sid then true
      else if e = .started sid then false
      else pending sid older

theorem pending_of_ne {sid : Nat} {e : Event} (accepted : e ≠ .restartAccepted sid)
    (started : e ≠ .started sid) (history : List Event) :
    pending sid (e :: history) = pending sid history := by
  rw [pending, if_neg accepted, if_neg started]

theorem pending_accepted (sid : Nat) (history : List Event) :
    pending sid (.restartAccepted sid :: history) = true := by
  rw [pending, if_pos rfl]

/-! ## The end of `handle_killed` -/

section Killed

variable {E : Str → Supervisor → Prop}

/-- The termination of the service has to shut the container down. -/
def Vital (sid : Nat) (s : Supervisor) : Prop :=
  (s.srv sid).restartRequested = false ∧ (s.srv sid).settings.shutdownOnTerminate = true

theorem vital_quiet (sid : Nat) : Quiet (Vital sid) where
  passive _ hs := hs
  requestShutdown hs := hs

theorem shutdownOnTerminate_requests (sid : Nat) (status : WaitStatus) :
    Spec (Vital sid) (shutdownOnTerminate sid status) (fun _ s => s.doShutdown = true) E
      fun _ => True := by
  refine Spec.bind (shutdownRequested_spec (fun _ _ => trivial) (vital_quiet sid).requestShutdown)
    fun requested => Spec.ite ?_ ?_
  · rintro rfl
    exact Spec.pure fun _ hs => hs.2
  · intro _
    refine Spec.bind (srv_spec sid) fun service => Spec.ite ?_ ?_
    · intro _
      exact Spec.modify fun _ _ => rfl
    · intro spared
      apply Spec.pure
      rintro s ⟨⟨vital, -⟩, rfl⟩
      exact absurd vital spared

theorem killed_vital {s : Supervisor} {sid : Nat} (h : Vital sid s) : Vital sid (s.killed sid) := by
  have same : ((s.killed sid).srv sid).standing = (s.srv sid).standing := by
    rw [← ledger_standing, ← ledger_standing, ledger_killed]
  exact ⟨(congrArg Standing.restartRequested same).trans h.1,
    (congrArg (fun st => st.settings.shutdownOnTerminate) same).trans h.2⟩

theorem handleKilled_requests {pid : Int} {sid : Nat} (hpid : 0 < pid) (status : WaitStatus) :
    Spec (fun s => s.findServiceByPid pid = some sid ∧ Vital sid s) (handleKilled pid status)
      (fun _ s => s.doShutdown = true) E fun _ => True := by
  unfold handleKilled
  rw [if_neg (by omega), if_neg (by omega)]
  refine Spec.bind (Spec.get (Q := fun a t => a = t ∧ t.findServiceByPid pid = some sid ∧
    Vital sid t) fun _ hs => ⟨rfl, hs⟩) fun t => Spec.with_entry ?_
  rintro _ ⟨rfl, found, vital⟩
  rw [found]
  refine Spec.bind (M := fun _ => Vital sid) (Spec.modify ?_) fun _ => ?_
  · rintro _ rfl
    exact killed_vital vital
  · exact Spec.bind ((runFinish_spec (vital_quiet sid) sid status).consequence (fun _ hs => hs)
      (fun _ _ hs => hs) (fun _ _ hs => hs) fun _ _ => trivial)
      fun _ => shutdownOnTerminate_requests sid status

end Killed

/-! ## What the main loop keeps -/

section Loop

variable (loaded : Nat → Service) (base : List Event)

/-- The interval loop has started the service although its restart was requested. -/
def Overtaken (sid : Nat) (history : List Event) : Prop := .intervalOver sid true ∈ history

/-- The restart of the service is pending, or was overtaken. -/
def Awaited (sid : Nat) (history : List Event) : Prop :=
  pending sid history = true ∨ Overtaken sid history

/-- The restart loop has only acted on requests that were pending, and of the services that neither
respawn nor run at an interval the main loop has only started those whose restart was pending. -/
structure StartsAwaited (history : List Event) : Prop where
  due : ∀ sid older, .restartDue sid true :: older <:+ history →
    pending sid older = true ∨ Overtaken sid history
  started : ∀ sid older, base <:+ older → .started sid :: older <:+ history →
    (loaded sid).respawn = false → (loaded sid).interval = 0 →
    pending sid older = true ∨ Overtaken sid history

/-- A restart is only requested while it is pending. -/
structure RequestsPending (l : Ledger) : Prop where
  settings : ∀ sid, l.settings sid = loaded sid
  requested : ∀ sid, (l.standing sid).restartRequested = true → Awaited sid l.history
  starts : StartsAwaited loaded base l.history

variable {loaded base}

theorem Overtaken.cons {sid : Nat} {history : List Event} (h : Overtaken sid history)
    (e : Event) : Overtaken sid (e :: history) :=
  List.mem_cons_of_mem e h

theorem Awaited.cons {sid : Nat} {history : List Event} (h : Awaited sid history) {e : Event}
    (accepted : e ≠ .restartAccepted sid) (started : e ≠ .started sid) :
    Awaited sid (e :: history) := by
  rw [Awaited, pending_of_ne accepted started]
  exact h.imp_right (Overtaken.cons · e)

theorem StartsAwaited.cons {history : List Event}
    (h : StartsAwaited loaded base history) {e : Event}
    (due : ∀ sid, e = .restartDue sid true → Awaited sid history)
    (started : ∀ sid, e = .started sid → (loaded sid).respawn = false →
      (loaded sid).interval = 0 → Awaited sid history) :
    StartsAwaited loaded base (e :: history) where
  due sid older act := by
    rcases List.suffix_cons_iff.mp act with new | old
    · obtain ⟨rfl, rfl⟩ := List.cons.inj new
      exact (due sid rfl).imp_right (Overtaken.cons · _)
    · exact (h.due sid older old).imp_right (Overtaken.cons · e)
  started sid older since start respawn interval := by
    rcases List.suffix_cons_iff.mp start with new | old
    · obtain ⟨rfl, rfl⟩ := List.cons.inj new
      exact (started sid rfl respawn interval).imp_right (Overtaken.cons · _)
    · exact (h.started sid older since old respawn interval).imp_right (Overtaken.cons · e)

/-- Nothing is started or restarted, and no command is accepted. -/
def Event.Uneventful : Event → Prop
  | .started _ => False
  | .restartDue _ _ => False
  | .restartAccepted _ => False
  | _ => True

theorem RequestsPending.record {l : Ledger} (h : RequestsPending loaded base l) {e : Event}
    (he : e.Uneventful) : RequestsPending loaded base (l.record e) where
  settings := h.settings
  requested sid requested := by
    refine (h.requested sid requested).cons ?_ ?_
    · rintro rfl
      exact he
    · rintro rfl
      exact he
  starts := by
    refine h.starts.cons ?_ ?_
    · rintro sid rfl
      exact he.elim
    · rintro sid rfl
      exact he.elim

theorem RequestsPending.setStartTime {l : Ledger} (h : RequestsPending loaded base l) (sid : Nat)
    (now : UInt64) : RequestsPending loaded base (l.setStartTime sid now) where
  settings i := by
    rw [Ledger.settings_setStartTime]
    exact h.settings i
  requested i := by
    rw [Ledger.restartRequested_setStartTime]
    exact h.requested i
  starts := h.starts

theorem RequestsPending.cleared {l : Ledger} (h : RequestsPending loaded base l) (sid : Nat) :
    RequestsPending loaded base (l.setRestartRequested sid false) where
  settings i := by
    rw [Ledger.settings_setRestartRequested]
    exact h.settings i
  requested i requested := by
    rw [Ledger.setRestartRequested, Ledger.standing_modify] at requested
    split at requested
    · exact absurd requested Bool.false_ne_true
    · exact h.requested i requested
  starts := h.starts

theorem requestsPending_aside : KeptAside (RequestsPending loaded base) := by
  intro l e he h
  apply h.record
  cases e with
  | started _ => exact he
  | restartDue _ _ => exact he
  | restartAccepted _ => exact he
  | _ => trivial

theorem RequestsPending.accepted {l : Ledger} (h : RequestsPending loaded base l) (sid : Nat) :
    RequestsPending loaded base
      ((l.setRestartRequested sid true).record (.restartAccepted sid)) where
  settings i := by
    rw [Ledger.settings_record, Ledger.settings_setRestartRequested]
    exact h.settings i
  requested i requested := by
    by_cases same : i = sid
    · rw [same, Ledger.history_record]
      exact .inl (pending_accepted sid _)
    · rw [Ledger.standing_record, Ledger.setRestartRequested, Ledger.standing_modify_of_ne _ same]
        at requested
      exact (h.requested i requested).cons
        (fun this => same (Event.restartAccepted.inj this).symm) (by simp)
  starts := h.starts.cons (by simp) (by simp)

/-- The restart loop comes to a service. -/
theorem RequestsPending.restartDue {l : Ledger} (h : RequestsPending loaded base l) (sid : Nat) :
    RequestsPending loaded base
      (l.record (.restartDue sid (l.standing sid).restartRequested)) where
  settings := h.settings
  requested i requested := (h.requested i requested).cons (by simp) (by simp)
  starts := by
    refine h.starts.cons ?_ (by simp)
    intro i same
    obtain ⟨rfl, requested⟩ := Event.restartDue.inj same
    exact h.requested sid requested

/-- A service has been started. Unless it respawns or runs at an interval, its restart was
pending. -/
theorem RequestsPending.restarted {l : Ledger} (h : RequestsPending loaded base l) (sid : Nat)
    (asked : (loaded sid).respawn = false → (loaded sid).interval = 0 → Awaited sid l.history)
    (unrequested : (l.standing sid).restartRequested = true → Overtaken sid l.history) :
    RequestsPending loaded base (l.record (.started sid)) where
  settings := h.settings
  requested i requested := by
    by_cases same : i = sid
    · subst same
      exact .inr ((unrequested requested).cons _)
    · exact (h.requested i requested).cons (by simp)
        fun this => same (Event.started.inj this).symm
  starts := by
    refine h.starts.cons (by simp) ?_
    intro i same
    exact Event.started.inj same ▸ asked

/-- The interval loop starts a service. -/
theorem interval_stages (sid : Nat) :
    Stages (fun l => RequestsPending loaded base l ∧ 0 < (loaded sid).interval ∧
        ((l.standing sid).restartRequested = true → Overtaken sid l.history))
      (fun l => RequestsPending loaded base l ∧ 0 < (loaded sid).interval ∧
        ((l.standing sid).restartRequested = true → Overtaken sid l.history))
      (fun l => RequestsPending loaded base l ∧ 0 < (loaded sid).interval ∧
        ((l.standing sid).restartRequested = true → Overtaken sid l.history))
      (RequestsPending loaded base) (RequestsPending loaded base) sid where
  before _ h := h
  running _ h := h.1
  forking l h := ⟨h.1.record trivial, h.2.1, fun asked => (h.2.2 asked).cons _⟩
  forked l pid h :=
    ⟨h.1.record trivial, h.2.1, fun asked => (h.2.2 asked).cons _⟩
  startTime l now h := by
    refine ⟨(h.1.record (e := .clock now) trivial).setStartTime sid now, h.2.1, fun asked => ?_⟩
    rw [Ledger.restartRequested_setStartTime] at asked
    exact (h.2.2 asked).cons _
  started l h := by
    exact h.1.restarted sid (fun _ none => absurd h.2.1 (by omega)) h.2.2
  stopped l h := h.1
  stoppedForked l h := h.1

/-- The restart loop starts a service and clears its flag. -/
theorem restart_stages (sid : Nat) :
    Stages (fun l => RequestsPending loaded base l ∧
        ((loaded sid).respawn = true ∨ (l.standing sid).restartRequested = true))
      (fun l => RequestsPending loaded base l ∧
        ((loaded sid).respawn = true ∨ (l.standing sid).restartRequested = true))
      (fun l => RequestsPending loaded base l ∧
        ((loaded sid).respawn = true ∨ (l.standing sid).restartRequested = true))
      (fun l => RequestsPending loaded base (l.setRestartRequested sid false))
      (RequestsPending loaded base) sid where
  before _ h := h
  running _ h := h.1.cleared sid
  forking l h := ⟨h.1.record trivial, h.2⟩
  forked l pid h := ⟨h.1.record trivial, h.2⟩
  startTime l now h := by
    refine ⟨(h.1.record (e := .clock now) trivial).setStartTime sid now, ?_⟩
    rw [Ledger.restartRequested_setStartTime]
    exact h.2
  started l h := by
    refine (h.1.cleared sid).restarted sid (fun respawn _ => ?_) ?_
    · rcases h.2 with respawned | requested
      · exact absurd (respawn.symm.trans respawned) Bool.false_ne_true
      · exact h.1.requested sid requested
    · intro asked
      rw [Ledger.restartRequested_cleared] at asked
      exact absurd asked Bool.false_ne_true
  stopped l h := h.1
  stoppedForked l h := h.1

theorem requestsPending_loop :
    LoopKeeps (RequestsPending loaded base) (RequestsPending loaded base) where
  aside := requestsPending_aside
  stopped _ h := h
  stillRunning l sid now h := (h.record (e := .clock now) trivial).setStartTime sid now
  interval sid := by
    refine (interval_stages sid).startsFrom ?_ fun _ h => h.1
    rintro _ ⟨l, now, h, interval, -, rfl⟩
    rw [h.settings] at interval
    refine ⟨(h.record (e := .clock now) trivial).record trivial, interval, fun asked => ?_⟩
    rw [Ledger.standing_record, Ledger.standing_record] at asked
    rw [asked]
    exact List.mem_cons_self
  restart sid := by
    refine (restart_stages sid).startsFrom ?_ fun _ h => h.1
    rintro _ ⟨l, now, h, asked, rfl⟩
    rw [h.settings] at asked
    have told : RequestsPending loaded base (l.record (.clock now)) := h.record trivial
    exact ⟨told.restartDue sid, asked⟩
  accepted l sid h := h.accepted sid

end Loop

/-! ## What the start-up leaves to the main loop -/

/-- No restart is requested, and the restart loop has not acted on a request. -/
structure Unrequested (loaded : Nat → Service) (l : Ledger) : Prop where
  settings : ∀ sid, l.settings sid = loaded sid
  requested : ∀ sid, (l.standing sid).restartRequested = false
  due : ∀ sid, .restartDue sid true ∉ l.history

theorem Unrequested.requestsPending {loaded : Nat → Service} {l : Ledger}
    (h : Unrequested loaded l) : RequestsPending loaded l.history l where
  settings := h.settings
  requested sid requested := absurd requested (by simp [h.requested sid])
  starts :=
    { due := fun sid older act => absurd (act.subset List.mem_cons_self) (h.due sid)
      started := fun sid older begun start => absurd start (not_cons_suffix begun _) }

theorem Unrequested.record {loaded : Nat → Service} {l : Ledger} (h : Unrequested loaded l)
    {e : Event} (other : ∀ sid, e ≠ .restartDue sid true) : Unrequested loaded (l.record e) where
  settings := h.settings
  requested := h.requested
  due sid hmem := by
    rcases List.mem_cons.mp hmem with new | old
    · exact other sid new.symm
    · exact h.due sid old

theorem unrequested_boot (loaded : Nat → Service) (order : List Int) :
    BootKeeps (Unrequested loaded) (Unrequested loaded) order where
  aside l e he h := by
    apply h.record
    rintro sid rfl
    exact he
  stopped _ h := h
  start sid _ := by
    have stages : Stages (Unrequested loaded) (Unrequested loaded) (Unrequested loaded)
        (Unrequested loaded) (Unrequested loaded) sid :=
      { before := fun _ h => h
        running := fun _ h => h
        forking := fun _ h => h.record (by simp)
        forked := fun _ _ h => h.record (by simp)
        startTime := fun l now h =>
          { settings := by simpa using h.settings
            requested := by simpa using h.requested
            due := (h.record (e := .clock now) (by simp)).due }
        started := fun _ h => h.record (by simp)
        stopped := fun _ h => h
        stoppedForked := fun _ h => h }
    exact stages.startsFrom (fun _ h => h.1) fun _ h => h

/-- A restart request is consumed by the start it causes; the main loop has begun with the history
`since`. -/
structure Consumed (since : List Event) (t : Supervisor) : Prop where
  /-- No successful start came after the last accepted command. -/
  requested : ∀ sid, (t.srv sid).restartRequested = true → pending sid t.history = true
  /-- One command does not lead to two restarts: the restart loop acts on the request of a command
  that no start has followed. -/
  due : ∀ sid older, .restartDue sid true :: older <:+ t.history → pending sid older = true
  /-- A service that would not be started otherwise is started once for a command. -/
  started : ∀ sid older, since <:+ older → .started sid :: older <:+ t.history →
    (t.srv sid).settings.respawn = false → (t.srv sid).settings.interval = 0 →
    pending sid older = true
  /-- The termination of a service that was started again is subject to
  `shutdown_on_terminate`. -/
  terminated : ∀ sid, pending sid t.history = false → (t.srv sid).pid ≠ 0 →
    (t.srv sid).settings.shutdownOnTerminate = true → ∀ status answers rest u,
    (handleKilled (t.srv sid).pid status).run answers (t.reaped (t.srv sid).pid status) =
      ⟨some (.ok ()), rest, u⟩ → u.doShutdown = true

theorem findServiceByPid_of_consistent {t : Supervisor} (h : Consistent t) {sid : Nat}
    (up : (t.srv sid).pid ≠ 0) : t.findServiceByPid (t.srv sid).pid = some sid := by
  have entry := getElem?_of_pid up
  cases found : t.findServiceByPid (t.srv sid).pid with
  | none =>
      have none_has := List.findIdx?_eq_none_iff.mp found _ (List.mem_of_getElem? entry)
      exact absurd (beq_self_eq_true _) (Bool.eq_false_iff.mp none_has)
  | some other =>
      obtain ⟨srv, hsrv, same⟩ := findServiceByPid_eq_some found
      rw [h.eq_of_pid hsrv entry (by omega) same]

/-- In every run in which the interval loop starts no service whose restart is requested, every
state of the main loop is one in which the requests are consumed by the starts they cause. -/
theorem restartRequests_consumed (view : View) (cwd : Str) {answers : List Answer} {s : Supervisor}
    (entered : EntersLoop view cwd answers s)
    (notOvertaken : ∀ sid, .intervalOver sid true ∉ (mainLoop.run answers s).state.history) :
    Consumed s.history (mainLoop.run answers s).state := by
  have unrequested : Holds (Unrequested (loadedSettings view cwd)) s := by
    refine (unrequested_boot _ _).enters
      ⟨loadedLedger_settings view cwd, fun sid => ?_, fun _ => ?_⟩ entered
    · rw [loadedLedger_standing]
    · exact List.not_mem_nil
  have begins : Holds (RequestsPending (loadedSettings view cwd) s.history) s :=
    ⟨unrequested.1, unrequested.2.requestsPending⟩
  have kept := requestsPending_loop.state begins answers
  have consistent : Consistent (mainLoop.run answers s).state :=
    (mainLoop_keeps Consistent.kept.cycles).state (fun _ hs => hs) answers unrequested.1
  have pending_of {sid : Nat} {older : List Event}
      (h : pending sid older = true ∨ Overtaken sid (mainLoop.run answers s).state.history) :
      pending sid older = true :=
    h.resolve_right (notOvertaken sid)
  have settings (sid : Nat) : ((mainLoop.run answers s).state.srv sid).settings =
      loadedSettings view cwd sid := by
    rw [← kept.settings sid, Ledger.settings, ledger_standing]
    rfl
  have requested (sid : Nat) : ((mainLoop.run answers s).state.srv sid).restartRequested = true →
      pending sid (mainLoop.run answers s).state.history = true := by
    intro flag
    refine pending_of (kept.requested sid ?_)
    rw [ledger_standing]
    exact flag
  refine
    { requested := requested
      due := fun sid older act => pending_of (kept.starts.due sid older act)
      started := ?_
      terminated := ?_ }
  · intro sid older since start respawn interval
    rw [settings sid] at respawn interval
    exact pending_of (kept.starts.started sid older since start respawn interval)
  · intro sid notPending up vital status later rest u run
    have flag := Bool.eq_false_iff.mpr (mt (requested sid) (Bool.eq_false_iff.mp notPending))
    have found := findServiceByPid_of_consistent consistent up
    have nonneg := Consistent.kept.toCalm.pid_nonneg consistent sid
    have ends := @handleKilled_requests (fun _ _ => True) _ sid (by omega) status later
      ((mainLoop.run answers s).state.reaped ((mainLoop.run answers s).state.srv sid).pid status)
      ⟨found, flag, vital⟩
    rw [run] at ends
    exact ends

/-- The events that overtake a request. -/
def Event.overtakes : Event → Bool
  | .intervalOver _ requested => requested
  | _ => false

/-- A services root with a service that runs at an interval of some seconds. -/
def everySeconds (interval : String) : ServicesRoot where
  dir service :=
    if service = "default".toList then .ok (intervalDir interval) else .error .enoent

/-- The start-up starts the service. -/
def secondStarted : List Answer :=
  [.signals false, .chdir none, .fork (some (100, 5)), .clock (some 1000), .malloc true,
    .pthreadCreate none]

/-- Half a second later the main loop reads a command to restart it. -/
def secondAsked : List Answer :=
  [.signals false, .clock (some 1400), .waited .running, .signals false, .clock (some 1500),
    .read "restart:default\n".toList, .chdir none, .access false]

/-- Its process has terminated before the next iteration, which looks whether the interval is
over. -/
def secondDown : List Answer :=
  [.signals false, .clock (some 2500), .waited (.reaped 100 (.signaled 15)), .chdir none,
    .access false, .signals false, .waited .failed, .signals false, .clock (some 2500)]

/-- It is started again. -/
def secondStartedAgain : List Answer :=
  [.chdir none, .fork (some (200, 6)), .clock (some 2501), .malloc true, .pthreadCreate none]

/-- The interval was over. -/
def secondOver : List Answer := secondAsked ++ secondDown ++ secondStartedAgain

/-- The interval was not over, and it is time for the restart. -/
def secondRestarted : List Answer :=
  secondAsked ++ secondDown ++ .clock (some 2500) :: secondStartedAgain

/-- The main loop begins. -/
def secondLoop (interval : String) (answers : List Answer) : Supervisor :=
  ((bringUpServices ((everySeconds interval).view plainSystem {} zeroMemory) []).run
    (secondStarted ++ answers) booted).state.enter .running

/-- A service that runs once in a minute is started again on the command, which is then done
with. -/
theorem restartRequests_consumed_once :
    Event.forked 0 200 ∈
        (mainLoop.run secondRestarted (secondLoop "60\n" secondRestarted)).state.history ∧
      ((mainLoop.run secondRestarted (secondLoop "60\n" secondRestarted)).state.srv
        0).restartRequested = false ∧
      Consumed (secondLoop "60\n" secondRestarted).history
        (mainLoop.run secondRestarted (secondLoop "60\n" secondRestarted)).state := by
  refine ⟨by decide +kernel, by decide +kernel, ?_⟩
  have plain : ∀ e ∈
      (mainLoop.run secondRestarted (secondLoop "60\n" secondRestarted)).state.history,
      e.overtakes = false := by decide +kernel
  exact restartRequests_consumed ((everySeconds "60\n").view plainSystem {} zeroMemory) []
    (.of_run 0 (by decide +kernel) (by decide +kernel))
    fun sid overtaken => Bool.noConfusion (plain _ overtaken)

/-- The interval of a second is over. The interval loop has started the service, and its restart is
still requested. -/
theorem request_outlives_start :
    EntersLoop ((everySeconds "1\n").view plainSystem {} zeroMemory) [] secondOver
        (secondLoop "1\n" secondOver) ∧
      ¬ Consumed (secondLoop "1\n" secondOver).history
        (mainLoop.run secondOver (secondLoop "1\n" secondOver)).state := by
  refine ⟨.of_run 0 (by decide +kernel) (by decide +kernel), fun consumed => ?_⟩
  have notPending := consumed.requested 0 (by decide +kernel)
  exact absurd notPending (by decide +kernel)

end Baseimage.Cinit
