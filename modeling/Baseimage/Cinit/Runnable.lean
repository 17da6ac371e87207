import Baseimage.Cinit.Ledger

/-!
# Which entries are forked

A disabled service and a service group have an entry in the service table but no program that is
to be run. The start-up passes over them: a disabled entry is not in the start order, and a group
is skipped there. The main loop filters in another way. It looks at the interval, at `respawn` and
at the restart flag, and the first two are never set for such entries. The flag is set by a
command for whatever entry has the name.
-/

namespace Baseimage.Cinit

open Script Supervisor

/-- The entry is a service to be run: it is neither disabled nor a service group. -/
def Service.IsRun (srv : Service) : Prop := srv.disabled = false ∧ srv.isServiceGroup = false

instance (srv : Service) : Decidable srv.IsRun := inferInstanceAs (Decidable (_ ∧ _))

theorem Service.Settled.isRun_of_respawn {srv : Service} (h : srv.Settled)
    (respawn : srv.respawn = true) : srv.IsRun := by
  have plain := mt h.notRun fun idle => Bool.false_ne_true (idle.1.symm.trans respawn)
  simpa [Service.IsRun] using plain

theorem Service.Settled.isRun_of_interval {srv : Service} (h : srv.Settled)
    (interval : 0 < srv.interval) : srv.IsRun := by
  have plain := mt h.notRun fun idle => Nat.ne_of_gt interval idle.2
  simpa [Service.IsRun] using plain

/-- The entry is a service to be run, or a command to restart it was accepted. -/
def Entitled (loaded : Nat → Service) (history : List Event) (sid : Nat) : Prop :=
  (loaded sid).IsRun ∨ .restartAccepted sid ∈ history

theorem Entitled.record {loaded : Nat → Service} {history : List Event} {sid : Nat}
    (h : Entitled loaded history sid) (e : Event) : Entitled loaded (e :: history) sid :=
  h.imp_right (List.mem_cons_of_mem e)

/-- `fork_and_exec` has only been called for entries that are entitled to it. -/
def ForksEntitled (loaded : Nat → Service) (l : Ledger) : Prop :=
  ∀ sid, .forking sid ∈ l.history → Entitled loaded l.history sid

theorem ForksEntitled.record {loaded : Nat → Service} {l : Ledger}
    (h : ForksEntitled loaded l) {e : Event} (new : ∀ sid, e = .forking sid →
      Entitled loaded l.history sid) : ForksEntitled loaded (l.record e) := by
  intro sid hmem
  rcases List.mem_cons.mp hmem with this | old
  · exact (new sid this.symm).record e
  · exact (h sid old).record e

/-- The settings are the loaded ones, and a restart is only requested for an entitled entry. -/
structure OnlyEntitled (loaded : Nat → Service) (l : Ledger) : Prop where
  settings : ∀ sid, l.settings sid = loaded sid
  requested : ∀ sid, (l.standing sid).restartRequested = true → Entitled loaded l.history sid
  forks : ForksEntitled loaded l

section Entitled

variable {loaded : Nat → Service}

theorem OnlyEntitled.record {l : Ledger} (h : OnlyEntitled loaded l) {e : Event}
    (new : ∀ sid, e = .forking sid → Entitled loaded l.history sid) :
    OnlyEntitled loaded (l.record e) where
  settings := h.settings
  requested sid requested := (h.requested sid requested).record e
  forks := h.forks.record new

theorem OnlyEntitled.setStartTime {l : Ledger} (h : OnlyEntitled loaded l) (sid : Nat)
    (now : UInt64) : OnlyEntitled loaded (l.setStartTime sid now) where
  settings i := by
    rw [Ledger.settings_setStartTime]
    exact h.settings i
  requested i := by
    rw [Ledger.restartRequested_setStartTime]
    exact h.requested i
  forks := h.forks

theorem OnlyEntitled.setRestartRequested {l : Ledger} (h : OnlyEntitled loaded l) (sid : Nat)
    {requested : Bool} (entitled : requested = true → Entitled loaded l.history sid) :
    OnlyEntitled loaded (l.setRestartRequested sid requested) where
  settings i := by
    rw [Ledger.settings_setRestartRequested]
    exact h.settings i
  requested i asked := by
    rw [Ledger.setRestartRequested, Ledger.standing_modify] at asked
    split at asked
    · next this => exact this.1 ▸ entitled asked
    · exact h.requested i asked
  forks := h.forks

theorem onlyEntitled_aside : KeptAside (OnlyEntitled loaded) := by
  intro l e he h
  refine h.record ?_
  rintro sid rfl
  exact he.elim

/-- An entry that is entitled may be started. -/
theorem entitled_stages (sid : Nat) :
    Stages (fun l => OnlyEntitled loaded l ∧ Entitled loaded l.history sid)
      (OnlyEntitled loaded) (OnlyEntitled loaded) (OnlyEntitled loaded)
      (ForksEntitled loaded) sid where
  before _ h := h.1
  running _ h := h.1
  forking l h := by
    refine ⟨h.1.record ?_, h.2.record _⟩
    rintro other hother
    exact Event.forking.inj hother ▸ h.2
  forked l pid h := h.1.record (e := .forked sid pid) nofun
  startTime l now h := (h.record (e := .clock now) nofun).setStartTime sid now
  started l h := h.record (e := .started sid) nofun
  stopped l h := h.forks
  stoppedForked l h := h.forks

theorem entitled_loop (settled : ∀ sid, (loaded sid).Settled) :
    LoopKeeps (OnlyEntitled loaded) (ForksEntitled loaded) where
  aside := onlyEntitled_aside
  stopped l h := h.forks
  stillRunning l sid now h := (h.record (e := .clock now) nofun).setStartTime sid now
  interval sid := by
    refine (entitled_stages sid).startsFrom ?_ fun _ h => h
    rintro _ ⟨l, now, h, interval, -, rfl⟩
    refine ⟨(h.record (e := .clock now) nofun).record nofun, .inl ?_⟩
    rw [h.settings] at interval
    exact (settled sid).isRun_of_interval interval
  restart sid := by
    have cleared : Stages (fun l => OnlyEntitled loaded l ∧ Entitled loaded l.history sid)
        (OnlyEntitled loaded) (OnlyEntitled loaded)
        (fun l => OnlyEntitled loaded (l.setRestartRequested sid false))
        (ForksEntitled loaded) sid :=
      { entitled_stages sid with
        running := fun l h => h.1.setRestartRequested sid nofun
        started := fun l h => (h.record (e := .started sid) nofun).setRestartRequested sid nofun }
    refine cleared.startsFrom ?_ fun _ h => h
    rintro _ ⟨l, now, h, asked, rfl⟩
    refine ⟨(h.record (e := .clock now) nofun).record nofun, (Entitled.record ?_ _).record _⟩
    rcases asked with respawn | requested
    · rw [h.settings] at respawn
      exact .inl ((settled sid).isRun_of_respawn respawn)
    · exact h.requested sid requested
  accepted l sid h := by
    have accepted : OnlyEntitled loaded (l.record (.restartAccepted sid)) := h.record nofun
    exact accepted.setRestartRequested sid fun _ => .inr List.mem_cons_self

end Entitled

theorem entitled_boot {view : View} {cwd : Str}
    (enrolled : Enrolled (Code.loadDefault view cwd).2) :
    BootKeeps (OnlyEntitled (loadedSettings view cwd)) (ForksEntitled (loadedSettings view cwd))
      (Code.loadDefault view cwd).2.startOrder where
  aside := onlyEntitled_aside
  stopped l h := h.forks
  start sid hsid := by
    refine (entitled_stages sid).startsFrom ?_ fun _ h => h
    rintro l ⟨h, notGroup⟩
    obtain ⟨srv, hsrv, enabled⟩ := enrolled.enabled sid hsid
    have entry : loadedSettings view cwd sid = srv := by rw [loadedSettings, hsrv, Option.getD_some]
    refine ⟨h, .inl ⟨?_, ?_⟩⟩
    · rw [entry]
      exact enabled
    · rw [← h.settings]
      exact notGroup

/-- In every run `fork_and_exec` is called for a disabled entry or a service group only if a
command to restart it was accepted before. -/
theorem main_forksEntitled {view : View} {cwd : Str}
    (enrolled : Enrolled (Code.loadDefault view cwd).2) (servicesGracetime : Nat)
    (answers : List Answer) :
    ForksEntitled (loadedSettings view cwd)
      ((Code.main view cwd servicesGracetime).run answers booted).state.ledger := by
  have loaded : OnlyEntitled (loadedSettings view cwd) (loadedLedger view cwd) := by
    refine { settings := ?_, requested := ?_, forks := ?_ }
    · exact loadedLedger_settings view cwd
    · intro sid requested
      rw [loadedLedger_standing] at requested
      exact absurd requested Bool.false_ne_true
    · exact fun sid hmem => absurd hmem List.not_mem_nil
  have loop := @entitled_loop (loadedSettings view cwd) enrolled.settled_loaded
  have ends := Code.main_keeps (((entitled_boot enrolled).spec loaded).consequence (fun _ hs => hs)
    (fun _ _ hs => hs) (fun _ s hs => hs.2.forks) fun _ hs => hs) loop.cycles
    onlyEntitled_aside.stops (fun _ hs => ⟨hs.1.enter _, hs.2⟩) (fun _ hs => hs.2.forks)
    servicesGracetime answers booted rfl
  unfold Ends at ends
  split at ends <;> exact ends

/-- Every entry for which the event happened is a service to be run. -/
def OnlyRun (table : List Service) (event : Nat → Event) (history : List Event) : Prop :=
  ∀ (sid : Nat) (h : sid < table.length), event sid ∈ history → table[sid].IsRun

instance (table : List Service) (event : Nat → Event) (history : List Event) :
    Decidable (OnlyRun table event history) :=
  inferInstanceAs (Decidable (∀ (sid : Nat) (_ : sid < table.length), _))

/-- In every run, `fork_and_exec` is called for no entry that is disabled or a service group if no
command to restart such an entry is accepted. -/
theorem forking_onlyRun (sys : System) (defaults : ServiceDefaults) (root : ServicesRoot)
    (memory : Memory) (cwd : Str) (servicesGracetime : Nat) (answers : List Answer)
    (asked : OnlyRun (Code.loadDefault (root.view sys defaults memory) cwd).2.services
      .restartAccepted ((Code.main (root.view sys defaults memory) cwd servicesGracetime).run
        answers booted).state.history) :
    OnlyRun (Code.loadDefault (root.view sys defaults memory) cwd).2.services
      .forking ((Code.main (root.view sys defaults memory) cwd servicesGracetime).run
        answers booted).state.history := by
  intro sid bound forking
  have enrolled := loadDefault_enrolled (root.settings_settled sys defaults memory) cwd
  rcases main_forksEntitled enrolled servicesGracetime answers sid forking with isRun | accepted
  · rw [loadedSettings, List.getElem?_eq_getElem bound] at isRun
    exact isRun
  · exact asked sid bound accepted

/-- A group with a dependency on an application. -/
def groupAndApp : ServicesRoot where
  dir service :=
    if service = "default".toList then
      .ok { entries := [{ dName := "app.dep".toList, isReg := true, node := some (.file []) }] }
    else if service = "app".toList then
      .ok { entries := [{ dName := "run".toList, isReg := true, node := some (.program [] 0) }] }
    else .error .enoent

/-- The application is up, and the main loop reads a command. -/
def commandFor (name : String) : List Answer :=
  [.signals false, .chdir none, .fork (some (100, 5)), .clock (some 1000), .malloc true,
    .pthreadCreate none, .signals false, .clock (some 2000), .chdir none, .access false,
    .signals false, .clock (some 2100), .waited .running, .signals false,
    .read ("restart:" ++ name ++ "\n").toList]

/-- The next iteration starts what it is asked to. -/
def startAsked : List Answer :=
  [.signals false, .clock (some 3100), .waited .running, .signals false, .clock (some 3100),
    .chdir none, .fork (some (200, 6))]

/-- The application gets SIGTERM, terminates and is forked again. -/
def appAsked : List Answer :=
  commandFor "app" ++
    ([.chdir none, .access false, .signals false, .clock (some 3100),
      .waited (.reaped 100 (.signaled 15)), .chdir none, .access false, .signals false,
      .waited .failed, .signals false, .clock (some 3100), .chdir none,
      .fork (some (200, 6))] : List Answer)

theorem forking_onlyRun_app :
    OnlyRun (Code.loadDefault (groupAndApp.view plainSystem {} zeroMemory) []).2.services
      .forking ((Code.main (groupAndApp.view plainSystem {} zeroMemory) [] 5000).run appAsked
        booted).state.history :=
  forking_onlyRun plainSystem {} groupAndApp zeroMemory [] 5000 appAsked (by decide +kernel)

/-- The group is asked for: the next iteration forks it. -/
theorem group_forked :
    ¬ OnlyRun (Code.loadDefault (groupAndApp.view plainSystem {} zeroMemory) []).2.services
      .forking ((Code.main (groupAndApp.view plainSystem {} zeroMemory) [] 5000).run
        (commandFor "default" ++ startAsked) booted).state.history := by
  decide +kernel

end Baseimage.Cinit
