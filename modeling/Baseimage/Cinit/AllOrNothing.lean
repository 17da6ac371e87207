import Baseimage.Cinit.CommandChannel

/-!
# Starting a service, or not

`start_service` changes to the directory of the service, forks it, asks for the time, and makes
the logger of its output. What its callers make of an exception is that the service was not
started. This is what the exceptions before a fork mean. Once there is a child nothing is undone:
where the memory for the logger or its thread cannot be had, the child runs on, its entry has its
pid and its terminal, and nobody reads what it prints.
-/

namespace Baseimage.Cinit

open Script Supervisor

/-- The entry of a service that has no process, no open descriptor, no logger and no child. -/
structure NotStarted (srv : ServiceEntry) (sid : Nat) (s : Supervisor) : Prop where
  entry : s.services[sid]? = some srv
  pid : srv.pid = 0
  outputFd : srv.outputFd < 0
  logger : srv.loggerStarted = false
  childless : ∀ pid, s.children.lookup pid ≠ some sid

/-- The process of the service is an unreaped child of it, and its logger was started. -/
def RunsWithLogger (sid : Nat) (s : Supervisor) : Prop :=
  ∃ srv, s.services[sid]? = some srv ∧ s.children.lookup srv.pid = some sid ∧
    srv.loggerStarted = true

/-- A run returns with the service running, or throws and has left the entry as it was and no
child. Nothing is said of a run that waits for an answer. -/
def AllOrNothing (srv : ServiceEntry) (sid : Nat)
    (r : ScriptRun Answer Supervisor Str Unit) : Prop :=
  match r.result with
  | some (.ok _) => RunsWithLogger sid r.state
  | some (.threw _) => NotStarted srv sid r.state
  | some .aborted => False
  | none => True

/-- A step behind the fork fails: the time, the memory for the argument of the logger, or its
thread. -/
def Answer.FailsLate : Answer → Prop
  | .clock none => True
  | .malloc false => True
  | .pthreadCreate (some _) => True
  | _ => False

/-- Where a run has taken all its answers, it did all or nothing unless one of them is a failure
behind the fork. -/
def Judged (srv : ServiceEntry) (sid : Nat) (answers : List Answer)
    (r : ScriptRun Answer Supervisor Str Unit) : Prop :=
  r.rest = [] → (AllOrNothing srv sid r ↔ ∀ k ∈ answers, ¬ k.FailsLate)

section Judging

variable {srv : ServiceEntry} {sid : Nat} {answers rest : List Answer} {s : Supervisor}

/-- No answer is left to be a failure. -/
theorem Judged.ended {r : ScriptRun Answer Supervisor Str Unit} (same : r.rest = answers)
    (good : AllOrNothing srv sid r) : Judged srv sid answers r := by
  intro all
  refine iff_of_true good ?_
  rw [← same, all]
  exact fun k hk => absurd hk List.not_mem_nil

theorem Judged.stopped : Judged srv sid answers ⟨none, answers, s⟩ :=
  Judged.ended rfl trivial

theorem Judged.cons {k : Answer} {r : ScriptRun Answer Supervisor Str Unit}
    (passed : ¬ k.FailsLate) (later : Judged srv sid rest r) : Judged srv sid (k :: rest) r := by
  intro all
  rw [later all, List.forall_mem_cons, and_iff_right passed]

theorem Judged.late {k : Answer} {r : ScriptRun Answer Supervisor Str Unit}
    (failed : k.FailsLate) (bad : ¬ AllOrNothing srv sid r) : Judged srv sid (k :: rest) r :=
  fun _ => iff_of_false bad fun passed => passed k List.mem_cons_self failed

end Judging

/-! ## The entry of the service -/

/-- A child was forked for the service and has its entry. Its logger has not been started. -/
structure HasChild (sid : Nat) (s : Supervisor) : Prop where
  owned : s.children.lookup (s.srv sid).pid = some sid
  entry : ∃ srv, s.services[sid]? = some srv
  logger : (s.srv sid).loggerStarted = false

theorem NotStarted.record {srv : ServiceEntry} {sid : Nat} {s : Supervisor}
    (h : NotStarted srv sid s) (e : Event) : NotStarted srv sid (s.record e) :=
  { entry := h.entry, pid := h.pid, outputFd := h.outputFd, logger := h.logger,
    childless := h.childless }

theorem NotStarted.forked {srv : ServiceEntry} {sid : Nat} {s : Supervisor}
    (h : NotStarted srv sid s) (pid fd : Int) :
      HasChild sid ((s.forked sid pid fd).setPid sid pid) := by
  have entry : ((s.forked sid pid fd).setPid sid pid).services[sid]? =
      some { srv with outputFd := fd, pid := pid } := by
    simp only [setPid, Supervisor.forked, Supervisor.record, getElem?_updateSrv, h.entry, if_true,
      Option.map_some]
  refine { owned := ?_, entry := ⟨_, entry⟩, logger := ?_ }
  · rw [srv_of_getElem? entry]
    show ((pid, sid) :: s.children).lookup pid = some sid
    rw [lookup_cons_eq, if_pos rfl]
  · rw [srv_of_getElem? entry]
    exact h.logger

/-- An update of the entry that leaves the process and the logger alone. -/
theorem HasChild.updateSrv {sid : Nat} {s : Supervisor} (h : HasChild sid s)
    {f : ServiceEntry → ServiceEntry} (pid : ∀ srv, (f srv).pid = srv.pid)
    (logger : ∀ srv, (f srv).loggerStarted = srv.loggerStarted) : HasChild sid
      (s.updateSrv sid f) := by
  obtain ⟨srv, hsrv⟩ := h.entry
  have entry : (s.updateSrv sid f).services[sid]? = some (f srv) := by
    rw [getElem?_updateSrv, if_pos rfl, hsrv, Option.map_some]
  have owned := h.owned
  have off := h.logger
  rw [srv_of_getElem? hsrv] at owned off
  refine { owned := ?_, entry := ⟨_, entry⟩, logger := ?_ }
  · rw [srv_of_getElem? entry, pid]
    exact owned
  · rw [srv_of_getElem? entry, logger]
    exact off

theorem HasChild.record {sid : Nat} {s : Supervisor} (h : HasChild sid s) (e : Event) :
    HasChild sid (s.record e) :=
  { owned := h.owned, entry := h.entry, logger := h.logger }

theorem HasChild.setStartTime {sid : Nat} {s : Supervisor} (h : HasChild sid s) (now : UInt64) :
    HasChild sid (s.setStartTime sid now) :=
  h.updateSrv (fun _ => rfl) (fun _ => rfl)

theorem HasChild.setLoggerExit {sid : Nat} {s : Supervisor} (h : HasChild sid s) (exit : Bool) :
    HasChild sid (s.setLoggerExit sid exit) :=
  h.updateSrv (fun _ => rfl) (fun _ => rfl)

/-- The child is there, so the service cannot be said not to have been started. -/
theorem HasChild.not_notStarted {srv : ServiceEntry} {sid : Nat} {s : Supervisor}
    (h : HasChild sid s) :
    ¬ NotStarted srv sid s :=
  fun idle => idle.childless _ h.owned

theorem HasChild.startLogger {sid : Nat} {s : Supervisor} (h : HasChild sid s) (e : Event) :
    RunsWithLogger sid ((s.startLogger sid).record e) := by
  obtain ⟨srv, hsrv⟩ := h.entry
  have entry : (s.startLogger sid).services[sid]? = some { srv with loggerStarted := true } := by
    rw [Supervisor.startLogger, getElem?_updateSrv, if_pos rfl, hsrv, Option.map_some]
  have owned := h.owned
  rw [srv_of_getElem? hsrv] at owned
  exact ⟨_, entry, owned, rfl⟩

/-! ## The steps -/

namespace Code

/-- Throwing an exception behind the fork does not undo it. -/
theorem throwMessage_hasChild {srv : ServiceEntry} {sid : Nat} {answers : List Answer}
    {s : Supervisor} (h : HasChild sid s) (message : Str) :
    ¬ AllOrNothing srv sid ((throwMessage message : Code Unit).run answers s) := by
  unfold throwMessage Cinit.throwMessage
  split
  · exact h.not_notStarted
  · exact id

theorem srv_bind_run {β : Type} (sid : Nat) (g : ServiceEntry → Code β) (answers : List Answer)
    (s : Supervisor) : (srv sid >>= g).run answers s = (g (s.srv sid)).run answers s := rfl

/-- The logger is made for a service that has its process. -/
theorem logger_run {srv : ServiceEntry} {sid : Nat} {s : Supervisor} (h : HasChild sid s)
    (name : Str) (answers : List Answer) :
    Judged srv sid answers
      ((do
        let memory ← malloc
        if memory then do
          modify (·.setLoggerExit sid false)
          let error ← pthreadCreate
          match error with
          | some strerror =>
              throwMessage ("Failed to create logger thread of service '".toList ++ name ++
                "': ".toList ++ strerror)
          | none => do
              modify (·.startLogger sid)
              modify (·.record (.started sid))
        else throwMessage "out of memory".toList : Code Unit).run answers s) := by
  apply inquire_bind_run Judged.stopped
  rintro k rest memory rfl answered
  cases k with
  | malloc ok =>
      cases answered
      cases memory with
      | false => exact Judged.late trivial (throwMessage_hasChild h _)
      | true =>
          refine Judged.cons id ?_
          change Judged srv sid rest ((modify _ >>= _ : Code Unit).run rest s)
          rw [modify_bind_run]
          apply inquire_bind_run Judged.stopped
          rintro k rest error rfl answered
          cases k with
          | pthreadCreate error' =>
              cases answered
              have ready := h.setLoggerExit false
              cases error with
              | some strerror => exact Judged.late trivial (throwMessage_hasChild ready _)
              | none => exact Judged.cons id (Judged.ended rfl (ready.startLogger _))
          | _ => cases answered
  | _ => cases answered

/-- Behind a fork a failure leaves the child. -/
theorem started_run {srv : ServiceEntry} {sid : Nat} {s : Supervisor} (h : HasChild sid s)
    (answers : List Answer) : Judged srv sid answers ((started sid).run answers s) := by
  rw [started, getTime, Script.bind_assoc]
  apply ask_bind_run Judged.stopped
  rintro k rest now t rfl taken
  cases k with
  | clock now =>
      cases now with
      | none =>
          cases taken
          exact Judged.late trivial id
      | some now =>
          cases taken
          refine Judged.cons id ?_
          have timed := (h.record (.clock now)).setStartTime now
          change Judged srv sid rest ((pure now >>= _ : Code Unit).run rest _)
          rw [pure_bind_run, modify_bind_run, srv_bind_run]
          rw [if_neg (by rw [timed.logger]; exact Bool.false_ne_true)]
          exact logger_run timed _ rest
  | _ => cases taken

/-- Before a fork nothing has been done, so nothing has to be undone. -/
theorem throwMessage_notStarted {srv : ServiceEntry} {sid : Nat} {answers : List Answer}
    {s : Supervisor} (idle : NotStarted srv sid s) {message : Str}
    (fits : message.length < maxMessage) :
    Judged srv sid answers ((throwMessage message : Code Unit).run answers s) := by
  rw [throwMessage_run fits]
  exact Judged.ended rfl idle

theorem attempts_run {srv : ServiceEntry} {sid : Nat} (count : Nat) {answers : List Answer}
    {s : Supervisor} (idle : NotStarted srv sid s) (short : ShortErrorTexts answers) :
    Judged srv sid answers ((attempts sid count).run answers s) := by
  induction count generalizing answers s with
  | zero =>
      apply inquire_bind_run Judged.stopped
      rintro k rest strerror rfl answered
      cases k with
      | errno text =>
          cases answered
          refine Judged.cons id (throwMessage_notStarted idle ?_)
          have told : strerror.length < 128 := short _ List.mem_cons_self
          have length : ("could not fork".toList ++ strerror).length = 14 + strerror.length :=
            CString.length_append_of (by decide +kernel) rfl
          rw [length, maxMessage]
          omega
      | _ => cases answered
  | succ count ih =>
      rw [attempts, forkAndExec, Script.bind_assoc, modify_bind_run]
      apply ask_bind_run Judged.stopped
      rintro k rest pid t rfl taken
      have later : ShortErrorTexts rest := fun k hk => short k (List.mem_cons_of_mem _ hk)
      cases k with
      | fork child =>
          refine Judged.cons id ?_
          rw [modify_bind_run]
          cases child with
          | none =>
              cases taken
              have same := idle.record (.forking sid)
              rw [setPid_same (by rw [srv_of_getElem? same.entry, same.pid])]
              exact ih same later
          | some child =>
              obtain ⟨pid, fd⟩ := child
              obtain ⟨valid, found⟩ := Option.ite_none_right_eq_some.mp taken
              cases found
              show Judged srv sid rest
                ((if pid > 0 then started sid else attempts sid count).run rest _)
              rw [if_pos valid.1]
              exact started_run ((idle.record (.forking sid)).forked pid fd) rest
      | _ => cases taken

theorem startService_run {srv : ServiceEntry} {sid : Nat} {answers : List Answer}
    {s : Supervisor} (idle : NotStarted srv sid s) (named : srv.settings.name ≠ [])
    (short : ShortErrorTexts answers) :
    Judged srv sid answers ((startService sid).run answers s) := by
  have entry := srv_of_getElem? idle.entry
  rw [startService, srv_bind_run, if_neg (by rw [entry]; exact fun up => up idle.pid), entry,
    chdirToService, if_neg named, Script.bind_assoc]
  apply inquire_bind_run Judged.stopped
  rintro k rest error rfl answered
  have later : ShortErrorTexts rest := fun k hk => short k (List.mem_cons_of_mem _ hk)
  cases k with
  | chdir error' =>
      cases answered
      refine Judged.cons id ?_
      cases error with
      | none => exact attempts_run 4 idle later
      | some error =>
          have fits := ChdirError.message_fits (short _ List.mem_cons_self)
          change Judged srv sid rest ((throwMessage error.message >>= _ : Code Unit).run rest s)
          rw [bind_run, throwMessage_run fits]
          exact Judged.ended rfl idle
  | _ => cases answered

end Code

/-! ## Every state of the supervisor -/

/-- An entry without a process has nothing else of a started service either. -/
theorem Consistent.notStarted {s : Supervisor} (h : Consistent s) {sid : Nat} {srv : ServiceEntry}
    (hsrv : s.services[sid]? = some srv) (down : srv.pid = 0) : NotStarted srv sid s := by
  have tracks := h.entries sid srv hsrv
  refine { entry := hsrv, pid := down, outputFd := ?_, logger := ?_, childless := ?_ }
  · have closed := tracks.outputFd
    omega
  · cases logger : srv.loggerStarted with
    | false => rfl
    | true => exact absurd down (tracks.logger logger)
  · intro pid owned
    have single := tracks.single pid owned
    have positive := h.positive pid sid owned
    omega

/-- In every state that a run of the supervisor passes, whatever the steps of `start_service`
come to, it does all or nothing unless one of them fails behind a fork. -/
theorem startService_allOrNothing_iff (view : View) (cwd : Str) (servicesGracetime : Nat)
    (past : List Answer) {s : Supervisor}
    (reached : ((Code.main view cwd servicesGracetime).run past booted).state = s) {sid : Nat}
    {srv : ServiceEntry} (hsrv : s.services[sid]? = some srv) (down : srv.pid = 0)
    {answers : List Answer} (short : ShortErrorTexts answers)
    (all : ((Code.startService sid).run answers s).rest = []) :
    AllOrNothing srv sid ((Code.startService sid).run answers s) ↔
      ∀ k ∈ answers, ¬ k.FailsLate := by
  have consistent : Consistent s := reached ▸ main_consistent view cwd servicesGracetime past
  have names : Named s.names := reached ▸ main_named view cwd servicesGracetime past
  have here : srv.settings.name ∈ s.names :=
    List.mem_map.mpr ⟨srv, List.mem_of_getElem? hsrv, rfl⟩
  have named : srv.settings.name ≠ [] := fun empty => names.nonempty (empty ▸ here)
  exact Code.startService_run (consistent.notStarted hsrv down) named short all

/-- The services are loaded and none has been started. -/
def servicesLoaded : Supervisor := ((Code.main defaultOnly "/".toList 5000).run [] booted).state

/-- The second attempt to fork succeeds. -/
theorem startService_allOrNothing_iff_default :
    AllOrNothing (servicesLoaded.srv 0) 0
      ((Code.startService 0).run [.chdir none, .fork none, .fork (some (5, 7)), .clock (some 1000),
        .malloc true, .pthreadCreate none] servicesLoaded) :=
  (startService_allOrNothing_iff defaultOnly "/".toList 5000 [] rfl (by rfl) (by rfl)
    (by decide) (by rfl)).mpr (by simp [Answer.FailsLate])

/-- There is no memory for the argument of the logger: the service has not been started, says the
exception, but its child runs. -/
theorem outOfMemory_leavesChild :
    ¬ AllOrNothing (servicesLoaded.srv 0) 0
        ((Code.startService 0).run [.chdir none, .fork (some (5, 7)), .clock (some 1000),
          .malloc false] servicesLoaded) ∧
      ((Code.startService 0).run [.chdir none, .fork (some (5, 7)), .clock (some 1000),
          .malloc false] servicesLoaded).result = some (.threw "out of memory".toList) ∧
      ((Code.startService 0).run [.chdir none, .fork (some (5, 7)), .clock (some 1000),
          .malloc false] servicesLoaded).state.children.lookup 5 = some 0 := by
  refine ⟨fun good => ?_, by rfl, by rfl⟩
  exact NotStarted.childless good 5 rfl

end Baseimage.Cinit
