import Baseimage.Cinit.Runnable
import Baseimage.Cinit.Shutdown
import Baseimage.Run.Leases

/-!
# Every process is reaped before its successor

A service holds a process from the fork until the process is reaped. The history of every run
keeps to the rules for such leases: a service is forked again only after its process was reaped,
SIGTERM goes to the process that was forked last, and when the supervisor comes to its end, all
the processes it has forked are reaped.
-/

namespace Baseimage.Cinit

open Script Supervisor Code

/-- What an event means for the processes of the services. -/
def Event.lease : Event → Leases.Action Nat Int
  | .forked sid pid => .take sid pid
  | .reaped pid _ => .giveBack pid
  | .sigterm sid pid _ => .use sid pid
  | _ => .aside

theorem Event.Passive.lease {e : Event} (h : e.Passive) : e.lease = .aside := by
  cases e with
  | clock _ => rfl
  | ran _ _ _ => rfl
  | childless => rfl
  | _ => exact h.elim

theorem Event.Stopping.lease {e : Event} (h : e.Stopping) : e.lease = .aside := by
  cases e with
  | turn _ => rfl
  | stopping _ _ => rfl
  | sigtermAll => rfl
  | sigkillAll => rfl
  | _ => exact h.elim

/-- The processes that a history leaves to the services, if it keeps to the rules. -/
def leases (history : List Event) : Option (Leases.Held Nat Int) :=
  Actions.run Leases.step [] (history.reverse.map Event.lease)

theorem leases_cons {e : Event} {history : List Event} {held next : Leases.Held Nat Int}
    (before : leases history = some held) (step : Leases.step held e.lease = some next) :
    leases (e :: history) = some next := by
  rw [leases, List.reverse_cons, List.map_append]
  exact Actions.run_concat before step

/-- The unreaped children are what the history leaves. -/
def Recorded (s : Supervisor) : Prop := leases s.history = some s.children

/-- This holds of a consistent table with so many entries. -/
structure Leased (count : Nat) (s : Supervisor) : Prop where
  consistent : Consistent s
  length : s.services.length = count
  recorded : Recorded s

namespace Leased

variable {count : Nat} {s : Supervisor}

theorem distinct (h : Leased count s) : (s.children.map Prod.fst).Nodup :=
  Leases.nodup_of_run h.recorded

theorem length_updateSrv (s : Supervisor) (sid : Nat) (f : ServiceEntry → ServiceEntry) :
    (s.updateSrv sid f).services.length = s.services.length :=
  List.length_modify f s.services sid

/-- The entry of a service changes, and nothing happens to its process. -/
theorem updateSrv (h : Leased count s) {sid : Nat} {f : ServiceEntry → ServiceEntry}
    (consistent : Consistent (s.updateSrv sid f)) : Leased count (s.updateSrv sid f) where
  consistent := consistent
  length := (length_updateSrv s sid f).trans h.length
  recorded := h.recorded

/-- Something happened that has nothing to do with the processes. -/
theorem record (h : Leased count s) {e : Event} (neutral : e.Neutral) (aside : e.lease = .aside) :
    Leased count (s.record e) where
  consistent := Consistent.kept.record neutral h.consistent
  length := h.length
  recorded := leases_cons h.recorded (by rw [aside]; rfl)

theorem requestShutdown (h : Leased count s) : Leased count s.requestShutdown where
  consistent := Consistent.kept.requestShutdown h.consistent
  length := h.length
  recorded := h.recorded

/-- A service without a process has none according to the history. -/
theorem free (h : Leased count s) {sid : Nat} (used : sid < count) (down : (s.srv sid).pid = 0)
    {pid : Int} (fresh : s.children.lookup pid = none) :
    ∀ lease ∈ s.children, lease.1 ≠ pid ∧ lease.2 ≠ sid := by
  rintro ⟨q, i⟩ own
  have found : s.children.lookup q = some i := (Leases.lookup_iff h.distinct).mpr own
  constructor
  · rintro rfl
    exact absurd (fresh.symm.trans found) nofun
  · rintro rfl
    have positive := h.consistent.positive q i found
    have entry := List.getElem?_eq_getElem (h.length.symm ▸ used)
    have single := (h.consistent.entries i _ entry).single q found
    rw [srv_of_getElem? entry] at down
    omega

theorem forked (h : Leased count s) {sid : Nat} (used : sid < count) {pid fd : Int}
    (down : (s.srv sid).pid = 0) (hpid : 0 < pid) (hfd : 0 ≤ fd)
    (fresh : s.children.lookup pid = none) :
      Leased count ((s.forked sid pid fd).setPid sid pid) where
  consistent := h.consistent.forked down hpid hfd fresh
  length := (length_updateSrv _ _ _).trans ((length_updateSrv _ _ _).trans h.length)
  recorded := leases_cons (e := .forked sid pid) h.recorded
    (Leases.step_take (h.free used down fresh))

theorem sigterm (h : Leased count s) {sid : Nat} (up : (s.srv sid).pid ≠ 0) :
    Leased count (s.sigterm sid) where
  consistent := Consistent.kept.sigterm h.consistent up
  length := h.length
  recorded := by
    have owned := (h.consistent.entries sid _ (getElem?_of_pid up)).owned up
    exact leases_cons (e := .sigterm sid _ _) h.recorded
      (Leases.step_use ((Leases.lookup_iff h.distinct).mp owned))

theorem recorded_reaped (h : Leased count s) (pid : Int) (status : WaitStatus) :
    Recorded (s.reaped pid status) :=
  leases_cons (e := .reaped pid status) h.recorded rfl

/-- What is kept where processes are stopped and reaped. -/
theorem stops (count : Nat) : Stops (Leased count) where
  passive he h := h.record he.neutral he.lease
  requestShutdown h := h.requestShutdown
  reapedOther h _ other :=
    { consistent := h.consistent.reapedOther other
      length := h.length
      recorded := h.recorded_reaped _ _ }
  reapedService h hpid own :=
    { consistent := h.consistent.reapedService hpid own
      length := (length_updateSrv _ _ _).trans h.length
      recorded := h.recorded_reaped _ _ }
  shutdownBy h down :=
    { consistent := Consistent.kept.shutdownBy h.consistent down
      length := h.length
      recorded := h.recorded }
  stopping he h := h.record he.neutral he.lease
  sigterm h up := h.sigterm up

/-- What is kept while a service with an entry is started. -/
theorem starts (count sid : Nat) :
    Starts (fun s => Leased count s ∧ sid < count) (Leased count) (Leased count) (Leased count)
      Recorded sid where
  before h := h.1
  idle h := Consistent.kept.idle h.1.consistent
  running h _ := h.1
  forking h := ⟨h.1.record (e := .forking sid) trivial rfl, h.2⟩
  forked h down hpid hfd fresh := h.1.forked h.2 down hpid hfd fresh
  startTime h := (h.record (e := .clock _) trivial rfl).updateSrv
    (Consistent.kept.setStartTime (Consistent.kept.record trivial h.consistent))
  loggerExit h := h.updateSrv (Consistent.kept.setLoggerExit h.consistent)
  started h up := (h.updateSrv (Consistent.kept.startLogger h.consistent up)).record
    (e := .started sid) trivial rfl
  stopped _ h := h.recorded
  stoppedForked _ h := h.recorded

end Leased

/-! ## The start-up, the main loop and the shutdown -/

theorem length_of_interval {s : Supervisor} {sid : Nat}
    (regular : 0 < (s.srv sid).settings.interval) : sid < s.services.length := by
  by_contra unused
  rw [srv_of_none (List.getElem?_eq_none (Nat.le_of_not_lt unused))] at regular
  exact Nat.lt_irrefl 0 regular

theorem length_of_toBeRestarted {s : Supervisor} {sid : Nat}
    (due : (s.srv sid).toBeRestarted = true) : sid < s.services.length := by
  by_contra unused
  rw [srv_of_none (List.getElem?_eq_none (Nat.le_of_not_lt unused))] at due
  exact Bool.false_ne_true due

theorem leased_boots {view : View} {cwd : Str} (enrolled : Enrolled (loadDefault view cwd).2) :
    Boots (Leased (loadDefault view cwd).2.services.length) Recorded
      (loadDefault view cwd).2.startOrder where
  toReaps := (Leased.stops _).toReaps
  valid _ hs := Consistent.kept.toCalm.pid_nonneg hs.consistent _
  stopped _ hs := hs.recorded
  start sid hsid := by
    obtain ⟨srv, hsrv, -⟩ := enrolled.enabled sid hsid
    obtain ⟨used, -⟩ := List.getElem?_eq_some_iff.mp hsrv
    exact (startService_spec (Leased.starts _ sid)).pre fun _ hs => ⟨hs.1, used⟩

theorem leased_cycles (count : Nat) : Cycles (Leased count) Recorded where
  toReaps := (Leased.stops count).toReaps
  stopped _ hs := hs.recorded
  sigterm := (Leased.stops count).sigterm
  stillRunning hs := (hs.record (e := .clock _) trivial rfl).updateSrv
    (Consistent.kept.setStartTime (Consistent.kept.record trivial hs.consistent))
  interval sid := by
    apply (startService_spec (Leased.starts count sid)).pre
    rintro _ ⟨s, now, hs, regular, -, rfl⟩
    exact ⟨(hs.record (e := .clock now) trivial rfl).record (e := .intervalOver sid _) trivial rfl,
      hs.length ▸ length_of_interval regular⟩
  restart sid := by
    refine (startService_spec (Leased.starts count sid)).consequence ?_ ?_ (fun _ _ hs => hs)
      fun _ hs => hs
    · rintro _ ⟨s, now, hs, due, rfl⟩
      exact ⟨(hs.record (e := .clock now) trivial rfl).record (e := .restartDue sid _) trivial rfl,
        hs.length ▸ length_of_toBeRestarted due⟩
    · exact fun _ s hs => hs.updateSrv (Consistent.kept.setRestartRequested hs.consistent)
  accepted hs := (hs.updateSrv (Consistent.kept.setRestartRequested hs.consistent)).record
    (e := .restartAccepted _) trivial rfl

section Childless

variable {I : Supervisor → Prop} {E : Str → Supervisor → Prop}

theorem reapTerminated_leaves (h : Reaps I) :
    Spec I reapTerminated (fun killed t => I t ∧ (killed = -1 → t.children = [])) E I := by
  refine Spec.loop (fun _ hs => hs) ?_
  refine Spec.bind (waitpid_spec (fun _ hs => hs) (-1) true) fun result => ?_
  cases result with
  | reaped pid status =>
      refine Spec.with_entry ?_
      rintro _ ⟨s, hs, hpos, -, rfl⟩
      refine Spec.bind (M := fun _ => I) ((handleKilled_spec h.toQuiet hpos
        (fun hs found => h.reapedOther hs hpos found)
        (fun hs found => h.reapedService hs hpos found)
        fun _ _ ht down => h.shutdownBy ht down).pre ?_) fun _ => Spec.pure fun _ hs => hs
      rintro _ rfl
      exact ⟨s, hs, rfl⟩
  | running => exact Spec.pure fun _ hs => ⟨hs, fun absurdity => absurd absurdity (by decide)⟩
  | interrupted => exact Spec.pure fun _ hs => nomatch hs.2
  | failed =>
      apply Spec.pure
      rintro _ ⟨s, hs, childless, rfl⟩
      exact ⟨h.passive trivial hs, fun _ => childless rfl⟩

/-- Where `child_handler` returns true there is no child, and without a limit it does not return
before. -/
theorem childHandler_leaves (h : Reaps I) (period service : Int) :
    Spec I (childHandler period service)
      (fun all t => I t ∧ (all = true → t.children = []) ∧
        (all = false → service < 0 → 0 ≤ period)) E I := by
  have clock : Spec I getTime (fun _ => I) E I := by
    refine (getTime_spec fun _ hs => hs).consequence (fun _ hs => hs) ?_ (fun _ _ hs => hs)
      fun _ hs => hs
    rintro now _ ⟨s, hs, rfl⟩
    exact h.passive trivial hs
  have elapsed (start : UInt64) : Spec I (periodOver period start)
      (fun elapsed t => I t ∧ (elapsed = true → 0 ≤ period)) E I := by
    refine Spec.ite (fun zero => Spec.pure fun _ ht => ⟨ht, fun _ => zero.ge⟩) fun _ => ?_
    refine Spec.ite (fun positive => ?_) fun _ => Spec.pure fun _ ht => ⟨ht, nofun⟩
    exact Spec.step clock fun _ => Spec.pure fun _ ht => ⟨ht, fun _ => by omega⟩
  refine Spec.step clock fun start => Spec.loop (fun _ hs => hs) ?_
  refine Spec.bind (reapTerminated_leaves h) fun killed => ?_
  refine Spec.ite (fun noneLeft => Spec.pure fun t ht => ⟨ht.1, fun _ => ht.2 noneLeft, nofun⟩)
    fun _ => Spec.pre (P := I) ?_ fun _ ht => ht.1
  refine Spec.bind (elapsed start) fun elapsed => Spec.ite (fun isOver => ?_) fun _ => ?_
  · exact Spec.pure fun t ht => ⟨ht.1, nofun, fun _ _ => ht.2 isOver⟩
  · refine Spec.ite (fun waiting => ?_) fun _ => Spec.pure fun _ ht => ht.1
    refine Spec.bind (srv_spec _) fun entry => Spec.pure fun t ht => ?_
    split
    · refine ⟨ht.1.1, nofun, fun _ negative => ?_⟩
      omega
    · exact ht.1.1

theorem stopServices_leaves (h : Stops I) (order : List Int) :
    Spec I (stopServices order) (fun all t => I t ∧ (all = true → t.children = [])) E I := by
  induction order with
  | nil => exact Spec.pure fun _ hs => ⟨hs, nofun⟩
  | cons sid order ih =>
      refine Spec.step (Spec.modify fun _ hs => h.stopping (by trivial) hs) fun _ => ?_
      refine Spec.ite (fun _ => ih) fun _ => ?_
      refine Spec.bind (srv_spec _) fun service => Spec.pre (P := I) ?_ fun _ hs => hs.1
      refine Spec.ite (fun _ => ih) fun _ => ?_
      refine Spec.step (Spec.modify fun _ hs => h.stopping (by trivial) hs) fun _ => ?_
      have stopped : Spec I (Script.tryCatch (stopService sid.toNat) fun _ => pure ())
          (fun _ => I) E I :=
        Spec.tryCatch (stopService_keeps h.toQuiet h.sigterm _) fun _ => Spec.pure fun _ hs => hs
      refine Spec.step stopped fun _ => ?_
      refine Spec.bind (childHandler_leaves h.toReaps 250 sid) fun all => ?_
      refine Spec.ite (fun all => ?_) fun _ => Spec.pre ih fun _ ht => ht.1
      exact Spec.pure fun _ ht => ⟨ht.1, fun _ => ht.2.1 all⟩

/-- Where the shutdown returns there is no child. -/
theorem cinitShutdown_leaves (h : Stops I) (servicesGracetime : Nat) :
    Spec I (cinitShutdown servicesGracetime) (fun _ t => I t ∧ t.children = []) E I := by
  have wait (period : Int) := childHandler_leaves (E := E) h.toReaps period (-1)
  refine Spec.bind (Spec.get (Q := fun _ => I) fun _ hs => hs) fun s => ?_
  refine Spec.bind (stopServices_leaves h _) fun all => ?_
  refine Spec.ite (fun all => Spec.pure fun _ ht => ⟨ht.1, ht.2 all⟩) fun _ =>
    Spec.pre (P := I) ?_ fun _ ht => ht.1
  refine Spec.bind (wait 0) fun all => ?_
  refine Spec.ite (fun all => Spec.pure fun _ ht => ⟨ht.1, ht.2.1 all⟩) fun _ =>
    Spec.pre (P := I) ?_ fun _ ht => ht.1
  refine Spec.step (Spec.modify fun _ hs => h.stopping (by trivial) hs) fun _ => ?_
  refine Spec.bind (wait _) fun all => ?_
  refine Spec.ite (fun all => Spec.pure fun _ ht => ⟨ht.1, ht.2.1 all⟩) fun _ =>
    Spec.pre (P := I) ?_ fun _ ht => ht.1
  refine Spec.step (Spec.modify fun _ hs => h.stopping (by trivial) hs) fun _ => ?_
  refine Spec.bind (wait (-1)) fun all => Spec.pure fun t ht => ⟨ht.1, ?_⟩
  -- Without a limit the reaping only ends where there is no child.
  cases all with
  | true => exact ht.2.1 rfl
  | false => exact absurd (ht.2.2 rfl (by decide)) (by decide)

end Childless

/-- What the start-up, the main loop and the shutdown leave, where `main` returns. -/
theorem main_returns {I R F : Supervisor → Prop} {view : View} {cwd : Str}
    (boots : Spec (fun s => s = booted) (bringUpServices view cwd)
      (fun _ s => I (s.enter .running)) (fun _ => R) R)
    (cycles : Cycles I R) (enter : ∀ s, I s → I (s.enter .shuttingDown)) {servicesGracetime : Nat}
    (shutdown : Spec I (cinitShutdown servicesGracetime) (fun _ => F) (fun _ => R) R) :
    Spec (fun s => s = booted) (main view cwd servicesGracetime)
      (fun _ s => ∃ t, F t ∧ s = t.unload) (fun _ => R) R := by
  have asked {α : Type} {m : Code α} (hm : KeepsOr I R m) :
      Spec I m (fun _ => I) (fun _ => R) R :=
    hm.spec (fun _ _ hs => hs) (fun _ => cycles.stopped) fun _ hs => hs
  refine Spec.bind boots fun exitStatus => ?_
  refine Spec.bind (M := fun _ => I) (Spec.modify fun _ hs => hs) fun _ => ?_
  refine Spec.step (asked (mainLoop_keeps cycles)) fun _ => ?_
  refine Spec.bind (Spec.get (Q := fun _ => I) fun _ hs => hs) fun s => ?_
  have signals : Keeps I shutdownRequested := shutdownRequested_keeps cycles.requestShutdown
  refine Spec.step (asked (signals.or cycles.stopped)) fun requested => ?_
  refine Spec.ite (fun _ => ?_) fun _ => Spec.abort cycles.stopped
  refine Spec.step (Spec.modify fun _ hs => enter _ hs) fun _ => ?_
  refine Spec.bind shutdown fun _ => ?_
  refine Spec.bind (M := fun _ s => ∃ t, F t ∧ s = t.unload) (Spec.modify ?_) fun _ =>
    Spec.pure fun _ hs => hs
  exact fun s hs => ⟨s, hs, rfl⟩

/-! ## What the history says -/

/-- The processes that the supervisor forks for its services, as the history tells. The latest
event is the first. -/
structure ProcessesSerial (history : List Event) : Prop where
  /-- A service is forked again when its process was reaped. -/
  successor : ∀ newer between older sid p q,
    history = newer ++ .forked sid q :: (between ++ .forked sid p :: older) →
    ∃ status, .reaped p status ∈ between
  /-- SIGTERM goes to the process of the service, and this was not reaped. -/
  target : ∀ newer older sid pid owner, history = newer ++ .sigterm sid pid owner :: older →
    ∃ between earlier, older = between ++ .forked sid pid :: earlier ∧
      ∀ status, .reaped pid status ∉ between

/-- Every process that was forked for a service was reaped later. -/
def AllReaped (history : List Event) : Prop :=
  ∀ newer older sid pid, history = newer ++ .forked sid pid :: older →
    ∃ status, .reaped pid status ∈ newer

theorem mem_lease_giveBack {pid : Int} {log : List Event} :
    .giveBack pid ∈ log.map Event.lease ↔ ∃ status, .reaped pid status ∈ log := by
  rw [List.mem_map]
  constructor
  · rintro ⟨e, he, same⟩
    cases e with
    | reaped p status =>
        cases same
        exact ⟨status, he⟩
    | _ => cases same
  · rintro ⟨status, he⟩
    exact ⟨_, he, rfl⟩

theorem lease_eq_take {e : Event} {sid : Nat} {pid : Int} (h : e.lease = .take sid pid) :
    e = .forked sid pid := by
  cases e with
  | forked i p =>
      cases h
      rfl
  | _ => cases h

theorem processesSerial_of_leases {history : List Event} {held : Leases.Held Nat Int}
    (h : leases history = some held) : ProcessesSerial history := by
  constructor
  · rintro newer between older sid p q rfl
    have done : Actions.run Leases.step [] (older.reverse.map Event.lease ++
        .take sid p :: (between.reverse.map Event.lease ++
          .take sid q :: newer.reverse.map Event.lease)) = some held := by
      simpa [leases, Event.lease] using h
    obtain ⟨status, member⟩ := mem_lease_giveBack.mp (Leases.giveBack_between done (.inl rfl))
    exact ⟨status, List.mem_reverse.mp member⟩
  · rintro newer older sid pid owner rfl
    have done : Actions.run Leases.step [] (older.reverse.map Event.lease ++
        .use sid pid :: newer.reverse.map Event.lease) = some held := by
      simpa [leases, Event.lease] using h
    obtain ⟨earlier, since, split, kept⟩ := Leases.taken_before_use done
    obtain ⟨before, rest, split', rfl, tail⟩ := List.map_eq_append_iff.mp split
    obtain ⟨e, after, rfl, taken, rfl⟩ := List.map_eq_cons_iff.mp tail
    refine ⟨after.reverse, before.reverse, ?_, fun status member => kept ?_⟩
    · rw [← List.reverse_inj, split', lease_eq_take taken]
      simp
    · exact mem_lease_giveBack.mpr ⟨status, List.mem_reverse.mp member⟩

theorem allReaped_of_leases {history : List Event} (h : leases history = some []) :
    AllReaped history := by
  rintro newer older sid pid rfl
  have done : Actions.run Leases.step [] (older.reverse.map Event.lease ++
      .take sid pid :: newer.reverse.map Event.lease) = some [] := by
    simpa [leases, Event.lease] using h
  obtain ⟨status, member⟩ := mem_lease_giveBack.mp (Leases.giveBack_after done)
  exact ⟨status, List.mem_reverse.mp member⟩

/-- In every run the processes of a service come one after the other, and when `main` returns, all
processes that were forked for a service are reaped. -/
theorem main_processesSerial (sys : System) (defaults : ServiceDefaults) (root : ServicesRoot)
    (memory : Memory) (cwd : Str) (servicesGracetime : Nat) (answers : List Answer) :
    ProcessesSerial ((Code.main (root.view sys defaults memory) cwd servicesGracetime).run answers
        booted).state.history ∧
      ∀ status, ((Code.main (root.view sys defaults memory) cwd servicesGracetime).run answers
          booted).result = some (.ok status) →
        AllReaped ((Code.main (root.view sys defaults memory) cwd servicesGracetime).run answers
          booted).state.history := by
  have enrolled := loadDefault_enrolled (root.settings_settled sys defaults memory) cwd
  have loaded : Leased (loadDefault (root.view sys defaults memory) cwd).2.services.length
      (booted.load (loadDefault (root.view sys defaults memory) cwd).2) :=
    { consistent := Consistent.load _
      length := by simp [Supervisor.load]
      recorded := rfl }
  have entered {s : Supervisor} {phase : Phase}
      (hs : Leased (loadDefault (root.view sys defaults memory) cwd).2.services.length s) :
      Leased (loadDefault (root.view sys defaults memory) cwd).2.services.length (s.enter phase) :=
    { consistent := hs.consistent.enter phase, length := hs.length, recorded := hs.recorded }
  have boots := bringUpServices_keeps (leased_boots enrolled) loaded fun _ hs => entered hs
  have shutdown := cinitShutdown_leaves (E := fun _ => Recorded)
    (Leased.stops (loadDefault (root.view sys defaults memory) cwd).2.services.length)
    servicesGracetime
  have ends := main_returns (boots.consequence (fun _ hs => hs) (fun _ _ hs => entered hs)
      (fun _ _ hs => hs.recorded) fun _ hs => hs) (leased_cycles _) (fun _ hs => entered hs)
    (shutdown.consequence (fun _ hs => hs) (fun _ _ hs => hs) (fun _ _ hs => hs)
      fun _ hs => hs.recorded) answers booted rfl
  unfold Ends at ends
  split at ends
  · next status result =>
      obtain ⟨t, ⟨ht, childless⟩, same⟩ := ends
      have recorded := ht.recorded
      rw [Recorded, childless] at recorded
      rw [same]
      exact ⟨processesSerial_of_leases recorded, fun _ _ => allReaped_of_leases recorded⟩
  all_goals
    next result =>
      exact ⟨processesSerial_of_leases ends, fun status returned =>
        nomatch result.symm.trans returned⟩

/-- The application is started again, on a command, and terminates later. No service is left. -/
def restartedOnce : List Answer :=
  appAsked ++
    ([.clock (some 3100), .malloc true, .pthreadCreate none, .read [],
      .signals false, .clock (some 4100), .waited (.reaped 200 (.exited 0)), .chdir none,
      .access false, .signals false, .waited .failed, .signals false, .signals false,
      .clock (some 4200), .waited .failed] : List Answer)

/-- Both processes of the application are reaped. -/
theorem main_processesSerial_restartedOnce :
    AllReaped ((Code.main (groupAndApp.view plainSystem {} zeroMemory) [] 5000).run restartedOnce
      booted).state.history :=
  (main_processesSerial plainSystem {} groupAndApp zeroMemory [] 5000 restartedOnce).2 0
    (by decide +kernel)

end Baseimage.Cinit
