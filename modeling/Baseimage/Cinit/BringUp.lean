import Baseimage.Cinit.Ledger
import Baseimage.Run.Told

/-!
# How a service comes up

The start-up brings up one service at a time. A sync service has come up when it has terminated
without an error, and one that runs at a regular interval when it was started. Any other service
has to run for its minimum time and then, if it has a program that says so, to be ready in time.

What a service shows while it comes up are answers of the environment, so the conditions here are
about the answers that were given so far.
-/

namespace Baseimage.Cinit

open Script Supervisor Code

/-! ## What a service shows while it comes up -/

/-- The answers to the last attempt to fork a service, which is then started. -/
def launch (pid fd : Int) (start : UInt64) : List Answer :=
  [.fork (some (pid, fd)), .clock (some start), .malloc true, .pthreadCreate none]

/-- No process is reaped. -/
def NoneReaped (answers : List Answer) : Prop :=
  ∀ pid status, .waited (.reaped pid status) ∉ answers

/-- The service has no `is_ready` program, or one that was started before the time was over, by the
clock reading in front of it, exited with 0. -/
inductive ReadyInTime (srv : Service) (start : UInt64) : List Answer → Prop
  | noProgram : ReadyInTime srv start [.chdir none, .access false]
  | ready {tries : List Answer} {now : UInt64}
      (inTime : (now - start).toNat < srv.readyTimeout) :
      ReadyInTime srv start
        (.chdir none :: .access true :: (tries ++ [.clock (some now), .alive true, .program 0]))

/-- The answers with which a service comes up in its process. -/
inductive CameUp (srv : Service) (pid : Int) : List Answer → Prop
  /-- A sync service exits with 0, and `handle_killed` goes on from there. -/
  | sync {attempts waiting after : List Answer} {fd : Int} {start : UInt64}
      (sync : srv.sync = true) (noneReaped : NoneReaped waiting) :
      CameUp srv pid (attempts ++ launch pid fd start ++ waiting ++
        .waited (.reaped pid (.exited 0)) :: after)
  | interval {attempts : List Answer} {fd : Int} {start : UInt64}
      (regular : srv.sync = false ∧ 0 < srv.interval) :
      CameUp srv pid (attempts ++ launch pid fd start)
  /-- The minimum time is over, and the process was not reaped before. -/
  | running {attempts waiting ready : List Answer} {fd : Int} {start now : UInt64}
      (plain : srv.sync = false ∧ srv.interval = 0) (noneReaped : NoneReaped waiting)
      (uptime : srv.minRunningTime ≤ (now - start).toNat) (inTime : ReadyInTime srv start ready) :
      CameUp srv pid (attempts ++ launch pid fd start ++ waiting ++ .clock (some now) :: ready)

theorem noneReaped_append {xs ys : List Answer} (hxs : NoneReaped xs) (hys : NoneReaped ys) :
    NoneReaped (xs ++ ys) := by
  intro pid status member
  rcases List.mem_append.mp member with left | right
  · exact hxs pid status left
  · exact hys pid status right

/-! ## Questions -/

section Questions

variable {P R : List Answer → Supervisor → Prop} {E : Str → List Answer → Supervisor → Prop}

theorem inquire_told {α : Type} {answer : Answer → Option α}
    (stopped : ∀ past s, P past s → R past s) :
    Told P (inquire answer)
      (fun a past s => ∃ before k, P before s ∧ past = before ++ [k] ∧ answer k = some a) E R := by
  refine Told.ask stopped fun past s k a t hs accepted => ?_
  obtain ⟨a', found, same⟩ := Option.map_eq_some_iff.mp accepted
  obtain ⟨rfl, rfl⟩ := Prod.mk.inj same
  exact ⟨past, k, hs, rfl, found⟩

/-- A question for which the answer says what it is. -/
theorem inquire_told_of {α : Type} {answer : Answer → Option α} {made : α → Answer}
    (only : ∀ k a, answer k = some a → k = made a) (stopped : ∀ past s, P past s → R past s) :
    Told P (inquire answer)
      (fun a past s => ∃ before, P before s ∧ past = before ++ [made a]) E R := by
  refine (inquire_told stopped).consequence (fun _ _ hs => hs) ?_ (fun _ _ _ hs => hs)
    fun _ _ hs => hs
  rintro a _ s ⟨before, k, hs, rfl, found⟩
  exact ⟨before, hs, by rw [only k a found]⟩

theorem access_told (stopped : ∀ past s, P past s → R past s) :
    Told P access (fun ok past s => ∃ before, P before s ∧ past = before ++ [.access ok]) E R := by
  refine inquire_told_of (fun k ok found => ?_) stopped
  cases k with
  | access ok => cases found; rfl
  | _ => cases found

theorem alive_told (stopped : ∀ past s, P past s → R past s) :
    Told P alive (fun ok past s => ∃ before, P before s ∧ past = before ++ [.alive ok]) E R := by
  refine inquire_told_of (fun k ok found => ?_) stopped
  cases k with
  | alive ok => cases found; rfl
  | _ => cases found

theorem malloc_told (stopped : ∀ past s, P past s → R past s) :
    Told P malloc (fun ok past s => ∃ before, P before s ∧ past = before ++ [.malloc ok]) E R := by
  refine inquire_told_of (fun k ok found => ?_) stopped
  cases k with
  | malloc ok => cases found; rfl
  | _ => cases found

theorem pthreadCreate_told (stopped : ∀ past s, P past s → R past s) :
    Told P pthreadCreate
      (fun error past s => ∃ before, P before s ∧ past = before ++ [.pthreadCreate error]) E R := by
  refine inquire_told_of (fun k error found => ?_) stopped
  cases k with
  | pthreadCreate error => cases found; rfl
  | _ => cases found

theorem srv_told (sid : Nat) :
    Told P (srv sid) (fun service past s => P past s ∧ service = s.srv sid) E R :=
  Told.bind (Told.get (Q := fun s past t => P past t ∧ s = t) fun _ _ hs => ⟨hs, rfl⟩)
    fun _ => Told.pure fun _ _ hs => ⟨hs.1, hs.2 ▸ rfl⟩

theorem shutdownRequested_told (stopped : ∀ past s, P past s → R past s) :
    Told P shutdownRequested
      (fun b past t => ∃ before s k, P before s ∧ past = before ++ [.signals k] ∧ t.doShutdown = b ∧
        (t = s ∨ t = s.requestShutdown)) E R := by
  refine Told.ask stopped fun past s k b t hs accepted => ?_
  split at accepted
  · cases accepted
    exact ⟨past, s, true, hs, rfl, rfl, .inr rfl⟩
  · cases accepted
    exact ⟨past, s, false, hs, rfl, rfl, .inl rfl⟩
  · cases accepted

theorem getTime_told (stopped : ∀ past s, P past s → R past s)
    (aborted : ∀ past s, P past s → R (past ++ [.clock none]) s) :
    Told P getTime
      (fun now past t => ∃ before s, P before s ∧ past = before ++ [.clock (some now)] ∧
        t = s.record (.clock now)) E R := by
  refine Told.bind (M := fun now past t => ∃ before s, P before s ∧ past = before ++ [.clock now] ∧
    t = now.elim s fun now => s.record (.clock now)) (Told.ask stopped ?_) fun now => ?_
  · intro past s k now t hs accepted
    cases k with
    | clock reading =>
        cases reading with
        | some now =>
            cases accepted
            exact ⟨past, s, hs, rfl, rfl⟩
        | none =>
            cases accepted
            exact ⟨past, s, hs, rfl, rfl⟩
    | _ => cases accepted
  · cases now with
    | some now => exact Told.pure fun _ _ hs => hs
    | none =>
        apply Told.abort
        rintro _ _ ⟨before, s, hs, rfl, rfl⟩
        exact aborted before _ hs

theorem chdirToService_told {X : List Answer → Supervisor → Prop} (service : Str)
    (threw : ∀ past s k, P past s → X (past ++ [k]) s) (stopped : ∀ past s, P past s → R past s)
    (stoppedChdir : ∀ past s k, P past s → R (past ++ [k]) s) :
    Told P (chdirToService service)
      (fun _ past s => ∃ before, P before s ∧ past = before ++ [.chdir none]) (fun _ => X) R := by
  refine Told.ite (fun _ => Told.abort stopped) fun _ => ?_
  refine Told.bind (inquire_told stopped) fun error => ?_
  cases error with
  | none =>
      apply Told.pure
      rintro _ s ⟨before, k, hs, rfl, found⟩
      cases k with
      | chdir error =>
          cases found
          exact ⟨before, hs, rfl⟩
      | _ => cases found
  | some error =>
      refine Told.ofOutcome (fun a past s ok => absurd ok (Cinit.throwMessage_ne_ok _ a)) ?_ ?_
      · rintro e _ s - ⟨before, k, hs, rfl, -⟩
        exact threw before s k hs
      · rintro _ s - ⟨before, k, hs, rfl, -⟩
        exact stoppedChdir before s k hs

theorem throwMessage_told {α : Type} {X : List Answer → Supervisor → Prop}
    {Q : α → List Answer → Supervisor → Prop} (message : Str)
    (threw : ∀ past s, P past s → X past s) (stopped : ∀ past s, P past s → R past s) :
    Told P (Code.throwMessage message : Code α) Q (fun _ => X) R :=
  Told.ofOutcome (fun a _ _ ok => absurd ok (Cinit.throwMessage_ne_ok _ a))
    (fun _ past s _ => threw past s) fun past s _ => stopped past s

theorem execServiceCmd_told (sid : Nat) (cmd arg : Str) (stopped : ∀ past s, P past s → R past s) :
    Told P (execServiceCmd sid cmd arg)
      (fun code past t => ∃ before s, P before s ∧ past = before ++ [.program code] ∧
        t = s.record (.ran sid cmd arg)) E R := by
  refine Told.ask stopped fun past s k code t hs accepted => ?_
  cases k with
  | program code' =>
      cases accepted
      exact ⟨past, s, hs, rfl, rfl⟩
  | _ => cases accepted

end Questions

/-! ## The turn of a service -/

theorem srv_updateSrv (s : Supervisor) (sid i : Nat) (f : ServiceEntry → ServiceEntry) :
    (s.updateSrv sid f).srv i =
      if sid = i ∧ i < s.services.length then f (s.srv i) else s.srv i := by
  simp only [Supervisor.srv, updateSrv, List.getD_eq_getElem?_getD, List.getElem?_modify]
  by_cases used : i < s.services.length
  · rw [List.getElem?_eq_getElem used]
    split <;> simp_all
  · rw [List.getElem?_eq_none (Nat.le_of_not_lt used)]
    simp [used]

theorem forked_srv (s : Supervisor) (sid : Nat) (pid fd : Int) :
    ((s.forked sid pid fd).srv sid).loggerStarted = (s.srv sid).loggerStarted := by
  have same := srv_updateSrv { s with children := (pid, sid) :: s.children } sid sid
    fun srv => { srv with outputFd := fd }
  refine (congrArg ServiceEntry.loggerStarted same).trans ?_
  split <;> rfl

/-- What holds while a service is brought up: the services whose turn comes later have no process,
and nothing else is forked. -/
structure Turn (loaded : Nat → Service) (count : Nat) (rest : List Int) (sid : Nat)
    (since : List Event) (s : Supervisor) : Prop where
  consistent : Consistent s
  length : s.services.length = count
  settings : ∀ i, s.ledger.settings i = loaded i
  down : ∀ i : Nat, (i : Int) ∈ rest → (s.srv i).pid = 0
  grown : since <:+ s.history
  forks : ∀ i, .forking i ∈ s.history → i = sid ∨ .forking i ∈ since

namespace Turn

variable {loaded : Nat → Service} {count sid : Nat} {rest : List Int} {since : List Event}
variable {s : Supervisor}

theorem srv_settings (h : Turn loaded count rest sid since s) (i : Nat) :
    (s.srv i).settings = loaded i := by
  rw [← h.settings i, Ledger.settings, ledger_standing]
  rfl

theorem entry (h : Turn loaded count rest sid since s) {i : Nat} (used : i < count) :
    s.services[i]? = some (s.srv i) := by
  have found := List.getElem?_eq_getElem (h.length.symm ▸ used)
  rw [found, srv_of_getElem? found]

theorem record (h : Turn loaded count rest sid since s) {e : Event} (neutral : e.Neutral)
    (own : ∀ i, e = .forking i → i = sid) : Turn loaded count rest sid since (s.record e) where
  consistent := Consistent.kept.record neutral h.consistent
  length := h.length
  settings := h.settings
  down := h.down
  grown := h.grown.trans (List.suffix_cons e s.history)
  forks i member := by
    rcases List.mem_cons.mp member with new | old
    · exact .inl (own i new.symm)
    · exact h.forks i old

/-- An update of an entry that leaves its process alone or notes that it has terminated. -/
theorem updateSrv (h : Turn loaded count rest sid since s) {i : Nat}
    {f : ServiceEntry → ServiceEntry} (consistent : Consistent (s.updateSrv i f))
    (settings : ∀ srv, (f srv).settings = srv.settings)
    (pid : ∀ srv, (f srv).pid = srv.pid ∨ (f srv).pid = 0) :
    Turn loaded count rest sid since (s.updateSrv i f) where
  consistent := consistent
  length := (List.length_modify f s.services i).trans h.length
  settings j := by
    rw [Ledger.settings, ledger_standing, srv_updateSrv]
    split
    · exact (settings _).trans (h.srv_settings j)
    · exact h.srv_settings j
  down j later := by
    have before := h.down j later
    rw [srv_updateSrv]
    split
    · rcases pid (s.srv j) with same | gone
      · exact same.trans before
      · exact gone
    · exact before
  grown := h.grown
  forks := h.forks

theorem requestShutdown (h : Turn loaded count rest sid since s) :
    Turn loaded count rest sid since s.requestShutdown :=
  { h with consistent := Consistent.kept.requestShutdown h.consistent }

theorem clock (h : Turn loaded count rest sid since s) (now : UInt64) :
    Turn loaded count rest sid since (s.record (.clock now)) :=
  h.record trivial nofun

theorem reaped (h : Turn loaded count rest sid since s) {pid : Int} {status : WaitStatus}
    (consistent : Consistent (s.reaped pid status)) :
    Turn loaded count rest sid since (s.reaped pid status) where
  consistent := consistent
  length := h.length
  settings := h.settings
  down := h.down
  grown := h.grown.trans (List.suffix_cons _ s.history)
  forks i member := by
    rcases List.mem_cons.mp member with new | old
    · cases new
    · exact h.forks i old

/-- What is kept where processes are reaped. -/
theorem reaps : Reaps (Turn loaded count rest sid since) where
  passive := by
    intro s e passive h
    refine h.record passive.neutral ?_
    rintro i rfl
    exact passive.elim
  requestShutdown h := h.requestShutdown
  reapedOther h _ other := h.reaped (h.consistent.reapedOther other)
  reapedService := by
    intro s pid status i h hpid own
    have gone : Turn loaded count rest sid since ((s.reaped pid status).killed i) :=
      { consistent := h.consistent.reapedService hpid own
        length := (List.length_modify _ s.services i).trans h.length
        settings := fun j => by
          rw [ledger_killed]
          exact h.settings j
        down := fun j later => by
          have before : ((s.reaped pid status).srv j).pid = 0 := h.down j later
          rw [killed, srv_updateSrv]
          split
          · simp
          · exact before
        grown := h.grown.trans (List.suffix_cons _ s.history)
        forks := fun j member => by
          rcases List.mem_cons.mp member with new | old
          · cases new
          · exact h.forks j old }
    exact gone
  shutdownBy h down := { h with consistent := Consistent.kept.shutdownBy h.consistent down }

/-- The service whose turn it is was forked. -/
theorem forked (h : Turn loaded count rest sid since s) {pid fd : Int} (own : (sid : Int) ∉ rest)
    (down : (s.srv sid).pid = 0) (hpid : 0 < pid) (hfd : 0 ≤ fd)
    (fresh : s.children.lookup pid = none) :
    Turn loaded count rest sid since ((s.forked sid pid fd).setPid sid pid) where
  consistent := h.consistent.forked down hpid hfd fresh
  length := (List.length_modify _ _ _).trans ((List.length_modify _ _ _).trans h.length)
  settings j := by
    rw [ledger_setPid, ledger_forked]
    exact h.settings j
  down j later := by
    have before := h.down j later
    have other : sid ≠ j := by
      rintro rfl
      exact own later
    rw [setPid, srv_updateSrv, if_neg fun same => other same.1]
    show (((s.forked sid pid fd)).srv j).pid = 0
    have same : (s.forked sid pid fd).srv j = s.srv j := by
      simp only [Supervisor.forked]
      exact (srv_updateSrv { s with children := (pid, sid) :: s.children } sid j _).trans
        (if_neg fun same => other same.1)
    rw [same]
    exact before
  grown := h.grown.trans (List.suffix_cons _ s.history)
  forks j member := by
    rcases List.mem_cons.mp member with new | old
    · cases new
    · exact h.forks j old

end Turn

/-! ## Starting it -/

section Starting

variable {loaded : Nat → Service} {count sid : Nat} {rest : List Int} {since : List Event}
variable {past₀ : List Answer} {pid fd : Int}

/-- The turn is not over: there are at least these answers. -/
def During (T : Supervisor → Prop) (past₀ past : List Answer) (s : Supervisor) : Prop :=
  past₀ <+: past ∧ T s

/-- The service was forked, and its logger is not started. -/
structure Fresh (T : Supervisor → Prop) (sid : Nat) (pid : Int) (s : Supervisor) : Prop where
  turn : T s
  process : (s.srv sid).pid = pid
  positive : 0 < pid
  idle : (s.srv sid).loggerStarted = false
  forked : .forked sid pid ∈ s.history

/-- The service was started. -/
structure Started (T : Supervisor → Prop) (sid : Nat) (pid : Int) (start : UInt64)
    (s : Supervisor) : Prop where
  turn : T s
  process : (s.srv sid).pid = pid
  startTime : (s.srv sid).startTime = start
  forked : .forked sid pid ∈ s.history

theorem Fresh.updateSrv {T : Supervisor → Prop} {s : Supervisor} (h : Fresh T sid pid s)
    {f : ServiceEntry → ServiceEntry} (turn : T (s.updateSrv sid f))
    (same : ∀ srv, (f srv).pid = srv.pid ∧ (f srv).loggerStarted = srv.loggerStarted) :
    Fresh T sid pid (s.updateSrv sid f) where
  turn := turn
  process := by
    rw [srv_updateSrv]
    split
    · exact (same _).1.trans h.process
    · exact h.process
  positive := h.positive
  idle := by
    rw [srv_updateSrv]
    split
    · exact (same _).2.trans h.idle
    · exact h.idle
  forked := h.forked

/-- The part of `start_service` behind a successful fork. -/
theorem started_told (used : sid < count) :
    Told (fun past s => past = past₀ ++ [.fork (some (pid, fd))] ∧
        Fresh (Turn loaded count rest sid since) sid pid s) (started sid)
      (fun _ past s => ∃ start, past = past₀ ++ launch pid fd start ∧
        Started (Turn loaded count rest sid since) sid pid start s)
      (fun _ => During (Turn loaded count rest sid since) past₀)
      (During (Turn loaded count rest sid since) past₀) := by
  have during {taken : List Answer} {T : Supervisor → Prop} {s : Supervisor} (hs : T s) :
      During T past₀ (past₀ ++ taken) s := ⟨List.prefix_append _ _, hs⟩
  refine Told.bind (getTime_told ?_ ?_) fun start => ?_
  · rintro _ s ⟨rfl, hs⟩
    exact during hs.turn
  · rintro _ s ⟨rfl, hs⟩
    rw [List.append_assoc]
    exact during hs.turn
  refine Told.bind
    (M := fun _ past s => past = past₀ ++ [.fork (some (pid, fd)), .clock (some start)] ∧
    Fresh (Turn loaded count rest sid since) sid pid s ∧ (s.srv sid).startTime = start)
    (Told.modify ?_) fun _ => ?_
  · rintro _ _ ⟨_, s, ⟨rfl, hs⟩, rfl, rfl⟩
    have clocked : Fresh (Turn loaded count rest sid since) sid pid (s.record (.clock start)) :=
      { hs with turn := hs.turn.clock start, forked := List.mem_cons_of_mem _ hs.forked }
    have timed : Turn loaded count rest sid since
      ((s.record (.clock start)).setStartTime sid start) :=
      clocked.turn.updateSrv (Consistent.kept.setStartTime clocked.turn.consistent) (fun _ => rfl)
        fun _ => .inl rfl
    refine ⟨by simp, clocked.updateSrv timed fun _ => ⟨rfl, rfl⟩, ?_⟩
    rw [setStartTime, srv_updateSrv, if_pos ⟨rfl, clocked.turn.length.symm ▸ used⟩]
  refine Told.bind (srv_told sid) fun service => Told.ite (fun already => ?_) fun _ => ?_
  · -- The logger of a service without a process is not started.
    refine Told.bind (M := fun _ _ _ => False) (Told.modify ?_) fun _ =>
      Told.abort fun _ _ hs => hs.elim
    rintro _ s ⟨⟨-, hs, -⟩, rfl⟩
    exact Bool.false_ne_true (hs.idle.symm.trans already)
  refine Told.bind (malloc_told ?_) fun memory => ?_
  · rintro _ s ⟨⟨rfl, hs, -⟩, -⟩
    exact during hs.turn
  refine Told.pre (P := fun past s => past = past₀ ++ [.fork (some (pid, fd)), .clock (some start),
      .malloc memory] ∧ Fresh (Turn loaded count rest sid since) sid pid s ∧
      (s.srv sid).startTime = start) ?_ ?_
  · refine Told.ite (fun allocated => ?_) fun _ => throwMessage_told _ ?_ ?_
    · refine Told.step (Told.modify ?_) fun _ => ?_
      · rintro _ s ⟨rfl, hs, time⟩
        have ready : Turn loaded count rest sid since (s.setLoggerExit sid false) :=
          hs.turn.updateSrv (Consistent.kept.setLoggerExit hs.turn.consistent) (fun _ => rfl)
            fun _ => .inl rfl
        refine ⟨rfl, hs.updateSrv ready fun _ => ⟨rfl, rfl⟩, ?_⟩
        rw [setLoggerExit, srv_updateSrv]
        split <;> exact time
      refine Told.bind (pthreadCreate_told ?_) fun error => ?_
      · rintro _ s ⟨rfl, hs, -⟩
        exact during hs.turn
      cases error with
      | some strerror =>
          refine throwMessage_told _ ?_ ?_
          all_goals
            rintro _ s ⟨_, ⟨rfl, hs, -⟩, rfl⟩
            rw [List.append_assoc]
            exact during hs.turn
      | none =>
          refine Told.bind (M := fun _ past s => ∃ t, past = past₀ ++ launch pid fd start ∧
            Fresh (Turn loaded count rest sid since) sid pid t ∧ (t.srv sid).startTime = start ∧
            s = t.startLogger sid) (Told.modify ?_) fun _ => Told.modify ?_
          · rintro _ s ⟨_, ⟨rfl, hs, time⟩, rfl⟩
            exact ⟨s, by simp [launch, allocated], hs, time, rfl⟩
          · rintro _ _ ⟨t, rfl, ht, time, rfl⟩
            have up : ∀ srv, t.services[sid]? = some srv → srv.pid ≠ 0 := by
              intro srv hsrv
              have process := srv_of_getElem? hsrv ▸ ht.process
              have positive := ht.positive
              omega
            have logged : Turn loaded count rest sid since (t.startLogger sid) :=
              ht.turn.updateSrv (Consistent.kept.startLogger ht.turn.consistent up) (fun _ => rfl)
                fun _ => .inl rfl
            refine ⟨start, rfl,
              { turn := logged.record (e := .started sid) trivial nofun
                process := ?_
                startTime := ?_
                forked := List.mem_cons_of_mem _ ht.forked }⟩
            · show ((t.startLogger sid).srv sid).pid = pid
              rw [startLogger, srv_updateSrv]
              split <;> exact ht.process
            · show ((t.startLogger sid).srv sid).startTime = start
              rw [startLogger, srv_updateSrv]
              split <;> exact time
    · rintro _ s ⟨rfl, hs, -⟩
      exact during hs.turn
    · rintro _ s ⟨rfl, hs, -⟩
      exact during hs.turn
  · rintro _ s ⟨before, ⟨⟨rfl, hs, time⟩, -⟩, rfl⟩
    exact ⟨by simp, hs, time⟩

/-- The service is to be forked. -/
def Waiting (T : Supervisor → Prop) (sid : Nat) (past₀ past : List Answer) (s : Supervisor) :
    Prop :=
  ∃ tries, past = past₀ ++ tries ∧ T s ∧ (s.srv sid).pid = 0

theorem Waiting.during {T : Supervisor → Prop} {past : List Answer} {s : Supervisor}
    (h : Waiting T sid past₀ past s) : During T past₀ past s := by
  obtain ⟨tries, rfl, hs, -⟩ := h
  exact ⟨List.prefix_append _ _, hs⟩

theorem forkAndExec_told {X : Str → List Answer → Supervisor → Prop} :
    Told (Waiting (Turn loaded count rest sid since) sid past₀) (forkAndExec sid)
      (fun pid past t => pid = 0 ∧ Waiting (Turn loaded count rest sid since) sid past₀ past t ∨
        ∃ tries fd s, past = past₀ ++ tries ++ [.fork (some (pid, fd))] ∧
          Turn loaded count rest sid since s ∧ (s.srv sid).pid = 0 ∧ 0 < pid ∧ 0 ≤ fd ∧
          s.children.lookup pid = none ∧ t = s.forked sid pid fd) X
      (During (Turn loaded count rest sid since) past₀) := by
  refine Told.step (Told.modify ?_) fun _ => Told.ask (fun _ _ hs => hs.during) ?_
  · rintro past s ⟨tries, rfl, hs, down⟩
    exact ⟨tries, rfl, hs.record (e := .forking sid) trivial fun i same =>
      (Event.forking.inj same).symm, down⟩
  · rintro _ s k pid t ⟨tries, rfl, hs, down⟩ accepted
    cases k with
    | fork child =>
        cases child with
        | none =>
            cases accepted
            exact .inl ⟨rfl, tries ++ [.fork none], by simp, hs, down⟩
        | some child =>
            obtain ⟨fits, accepted⟩ := Option.ite_none_right_eq_some.mp accepted
            cases accepted
            exact .inr ⟨tries, child.2, s, rfl, hs, down, fits.1, fits.2.1, fits.2.2, rfl⟩
    | _ => cases accepted

/-- `start_service` has started the service. -/
def Launches (T : Supervisor → Prop) (sid : Nat) (past₀ past : List Answer) (s : Supervisor) :
    Prop :=
  ∃ tries pid fd start, past = past₀ ++ tries ++ launch pid fd start ∧ 0 < pid ∧
    Started T sid pid start s

theorem attempts_told (used : sid < count) (own : (sid : Int) ∉ rest) (n : Nat) :
    Told (Waiting (Turn loaded count rest sid since) sid past₀) (attempts sid n)
      (fun _ => Launches (Turn loaded count rest sid since) sid past₀)
      (fun _ => During (Turn loaded count rest sid since) past₀)
      (During (Turn loaded count rest sid since) past₀) := by
  induction n with
  | zero =>
      refine Told.bind (inquire_told fun _ _ hs => hs.during) fun strerror => ?_
      refine throwMessage_told _ ?_ ?_
      all_goals
        rintro _ s ⟨_, k, ⟨tries, rfl, hs, -⟩, rfl, -⟩
        exact ⟨by simp, hs⟩
  | succ n ih =>
      refine Told.bind forkAndExec_told fun pid => ?_
      refine Told.bind (M := fun _ past s =>
        (pid = 0 ∧ Waiting (Turn loaded count rest sid since) sid past₀ past s) ∨
          (0 < pid ∧ ∃ tries fd, past = past₀ ++ tries ++ [.fork (some (pid, fd))] ∧
            Fresh (Turn loaded count rest sid since) sid pid s)) (Told.modify ?_) fun _ => ?_
      · rintro past t (⟨rfl, tries, rfl, hs, down⟩
          | ⟨tries, fd, s, rfl, hs, down, hpid, hfd, fresh, rfl⟩)
        · rw [setPid_same down]
          exact .inl ⟨rfl, tries, rfl, hs, down⟩
        · have entry := hs.entry used
          have idle := Consistent.kept.idle hs.consistent entry down
          refine .inr ⟨hpid, tries, fd, rfl,
            { turn := hs.forked own down hpid hfd fresh
              process := ?_
              positive := hpid
              idle := ?_
              forked := List.mem_cons_self }⟩
          · have valid : sid < (s.forked sid pid fd).services.length := by
              simpa [Supervisor.forked, Supervisor.record, updateSrv, hs.length] using used
            rw [setPid, srv_updateSrv, if_pos ⟨rfl, valid⟩]
          · have same := forked_srv s sid pid fd
            rw [setPid, srv_updateSrv]
            split <;> exact same.trans idle
      · refine Told.ite (fun positive => ?_) fun notPositive => ?_
        · refine Told.pre (P := fun past s => ∃ tries fd, past = past₀ ++ tries ++
            [.fork (some (pid, fd))] ∧ Fresh (Turn loaded count rest sid since) sid pid s) ?_ ?_
          · refine Told.of_exists fun tries => Told.of_exists fun fd => ?_
            apply (started_told used).consequence (fun _ _ hs => hs)
            · rintro _ past s ⟨start, rfl, hs⟩
              exact ⟨tries, pid, fd, start, rfl, positive, hs⟩
            · exact fun _ past s hs => ⟨(List.prefix_append _ _).trans hs.1, hs.2⟩
            · exact fun past s hs => ⟨(List.prefix_append _ _).trans hs.1, hs.2⟩
          · rintro past s (⟨rfl, -⟩ | ⟨-, hs⟩)
            · exact absurd positive (by decide)
            · exact hs
        · apply ih.pre
          rintro past s (⟨-, hs⟩ | ⟨positive, -⟩)
          · exact hs
          · exact absurd positive notPositive

theorem startService_told (used : sid < count) (own : (sid : Int) ∉ rest) :
    Told (fun past s => past = past₀ ∧ Turn loaded count rest sid since s ∧ (s.srv sid).pid = 0)
      (startService sid) (fun _ => Launches (Turn loaded count rest sid since) sid past₀)
      (fun _ => During (Turn loaded count rest sid since) past₀)
      (During (Turn loaded count rest sid since) past₀) := by
  refine Told.bind (srv_told sid) fun service => Told.ite (fun up => ?_) fun _ => ?_
  · apply Told.pure
    rintro past s ⟨⟨-, -, down⟩, rfl⟩
    exact absurd down up
  · refine Told.bind (chdirToService_told _ ?_ ?_ ?_) fun _ => (attempts_told used own 4).pre ?_
    · rintro _ s k ⟨⟨rfl, hs, -⟩, -⟩
      exact ⟨List.prefix_append _ _, hs⟩
    · rintro _ s ⟨⟨rfl, hs, -⟩, -⟩
      exact ⟨List.prefix_rfl, hs⟩
    · rintro _ s k ⟨⟨rfl, hs, -⟩, -⟩
      exact ⟨List.prefix_append _ _, hs⟩
    · rintro _ s ⟨_, ⟨⟨rfl, hs, down⟩, -⟩, rfl⟩
      exact ⟨[.chdir none], rfl, hs, down⟩

end Starting

/-! ## Waiting for it -/

section Waits

variable {loaded : Nat → Service} {count sid : Nat} {rest : List Int} {since : List Event}
variable {past₀ tries : List Answer} {pid fd : Int} {start : UInt64}

/-- The service has a process, and no process was reaped since it was started. -/
def Runs (T : Supervisor → Prop) (sid : Nat) (past₀ : List Answer) (pid : Int) (start : UInt64)
    (past : List Answer) (s : Supervisor) : Prop :=
  ∃ waiting, past = past₀ ++ waiting ∧ NoneReaped waiting ∧ Started T sid pid start s

theorem Runs.during {T : Supervisor → Prop} {past : List Answer} {s : Supervisor}
    (h : Runs T sid past₀ pid start past s) : During T past₀ past s := by
  obtain ⟨waiting, rfl, -, hs⟩ := h
  exact ⟨List.prefix_append _ _, hs.turn⟩

/-- Another answer, and another state in which the service runs. -/
theorem Runs.answer {T : Supervisor → Prop} {past : List Answer} {s t : Supervisor}
    (h : Runs T sid past₀ pid start past s) {k : Answer} (kept : ∀ p st, .waited (.reaped p st) ≠ k)
    (ht : Started T sid pid start s → Started T sid pid start t) :
    Runs T sid past₀ pid start (past ++ [k]) t := by
  obtain ⟨waiting, rfl, none, hs⟩ := h
  refine ⟨waiting ++ [k], by simp, noneReaped_append none ?_, ht hs⟩
  exact fun p st member => kept p st (List.mem_singleton.mp member)

theorem Started.requestShutdown (h : Started (Turn loaded count rest sid since) sid pid start s) :
    Started (Turn loaded count rest sid since) sid pid start s.requestShutdown :=
  { h with turn := h.turn.requestShutdown }

theorem Started.record (h : Started (Turn loaded count rest sid since) sid pid start s) {e : Event}
    (passive : e.Passive) : Started (Turn loaded count rest sid since) sid pid start (s.record e) :=
  { h with turn := Turn.reaps.passive passive h.turn, forked := List.mem_cons_of_mem _ h.forked }

/-- Whether a shutdown is requested, asked while the service runs. -/
theorem signals_told {X : Str → List Answer → Supervisor → Prop} :
    Told (Runs (Turn loaded count rest sid since) sid past₀ pid start) shutdownRequested
      (fun b past s => Runs (Turn loaded count rest sid since) sid past₀ pid start past s ∧
        s.doShutdown = b) X (During (Turn loaded count rest sid since) past₀) := by
  apply (shutdownRequested_told fun _ _ hs => hs.during).consequence (fun _ _ hs => hs)
  · rintro b _ t ⟨before, s, k, hs, rfl, down, rfl | rfl⟩
    · exact ⟨hs.answer nofun id, down⟩
    · exact ⟨hs.answer nofun Started.requestShutdown, down⟩
  · exact fun _ _ _ hs => hs
  · exact fun _ _ hs => hs

/-- What `waitpid` says about the process of the service. -/
theorem waitpid_told {X : Str → List Answer → Supervisor → Prop} (positive : 0 < pid)
    (start : UInt64) (nohang : Bool) :
    Told (Runs (Turn loaded count rest sid since) sid past₀ pid start) (waitpid pid nohang)
      (fun result past t => ∃ before s, past = before ++ [.waited result] ∧
        Runs (Turn loaded count rest sid since) sid past₀ pid start before s ∧
        match result with
        | .reaped child status => child = pid ∧ t = s.reaped pid status
        | _ => t = s) X (During (Turn loaded count rest sid since) past₀) := by
  refine Told.ask (fun _ _ hs => hs.during) fun past s k result t hs accepted => ?_
  split at accepted
  · obtain ⟨fits, accepted⟩ := Option.ite_none_right_eq_some.mp accepted
    cases accepted
    obtain rfl : _ = pid := by
      rcases fits.2 with any | same
      · omega
      · exact same
    exact ⟨past, s, rfl, hs, rfl, rfl⟩
  · obtain ⟨-, accepted⟩ := Option.ite_none_right_eq_some.mp accepted
    cases accepted
    exact ⟨past, s, rfl, hs, rfl⟩
  · obtain ⟨-, accepted⟩ := Option.ite_none_left_eq_some.mp accepted
    cases accepted
    exact ⟨past, s, rfl, hs, rfl⟩
  · rw [if_neg (by omega)] at accepted
    cases accepted
    exact ⟨past, s, rfl, hs, rfl⟩
  · cases accepted

theorem giveUp_told {α : Type} {P : List Answer → Supervisor → Prop}
    {Q : α → List Answer → Supervisor → Prop} (message : Str)
    (during : ∀ past s, P past s → During (Turn loaded count rest sid since) past₀ past s) :
    Told P (throwMessageWithErrno message : Code α) Q
      (fun _ => During (Turn loaded count rest sid since) past₀)
      (During (Turn loaded count rest sid since) past₀) := by
  refine Told.bind (inquire_told during) fun strerror => ?_
  refine throwMessage_told _ ?_ ?_
  all_goals
    rintro _ s ⟨before, k, hs, rfl, -⟩
    obtain ⟨more, turn⟩ := during _ _ hs
    exact ⟨more.trans (List.prefix_append _ _), turn⟩

/-- What has happened once has happened while processes are reaped. -/
theorem reaps_remembers {I : Supervisor → Prop} (h : Reaps I) (e : Event) :
    Reaps fun s => I s ∧ e ∈ s.history where
  passive passive hs := ⟨h.passive passive hs.1, List.mem_cons_of_mem _ hs.2⟩
  requestShutdown hs := ⟨h.requestShutdown hs.1, hs.2⟩
  reapedOther hs hpid other := ⟨h.reapedOther hs.1 hpid other, List.mem_cons_of_mem _ hs.2⟩
  reapedService hs hpid own := ⟨h.reapedService hs.1 hpid own, List.mem_cons_of_mem _ hs.2⟩
  shutdownBy hs down := ⟨h.shutdownBy hs.1 down, hs.2⟩

/-- `handle_killed` for a process that has just been reaped. -/
theorem handleKilled_told {I : Supervisor → Prop} (h : Reaps I)
    {X : Str → List Answer → Supervisor → Prop} (positive : 0 < pid) (status : WaitStatus)
    (known : List Answer) :
    Told (fun past t => known <+: past ∧ ∃ s, I s ∧ t = s.reaped pid status)
      (handleKilled pid status) (fun _ past s => known <+: past ∧ I s) X
      fun past s => known <+: past ∧ I s := by
  have keeps : Spec (fun t => ∃ s, I s ∧ t = s.reaped pid status) (handleKilled pid status)
      (fun _ => I) (fun _ _ => False) I := handleKilled_keeps h positive
  refine (Told.of_spec (K := fun past => known <+: past) keeps ?_).consequence (fun _ _ hs => hs)
    (fun _ _ _ hs => hs) (fun _ _ _ hs => hs.2.elim) fun _ _ hs => hs
  exact fun past taken more => more.trans (List.prefix_append _ _)

/-- The service has run for its minimum time. -/
def UptimeMet (T : Supervisor → Prop) (srv : Service) (sid : Nat) (past₀ : List Answer) (pid : Int)
    (start : UInt64) (past : List Answer) (s : Supervisor) : Prop :=
  ∃ waiting now, past = past₀ ++ waiting ++ [.clock (some now)] ∧ NoneReaped waiting ∧
    srv.minRunningTime ≤ (now - start).toNat ∧ Started T sid pid start s

theorem uptimeRound_told (positive : 0 < pid) :
    Told (Runs (Turn loaded count rest sid since) sid past₀ pid start) (uptimeRound sid)
      (fun met past s =>
        met.elim (Runs (Turn loaded count rest sid since) sid past₀ pid start past s)
        fun met => if met then
            UptimeMet (Turn loaded count rest sid since) (loaded sid) sid past₀ pid start past s
          else s.doShutdown = true ∧ During (Turn loaded count rest sid since) past₀ past s)
      (fun _ => During (Turn loaded count rest sid since) past₀)
      (During (Turn loaded count rest sid since) past₀) := by
  refine Told.bind signals_told fun requested => Told.ite (fun asked => ?_) fun _ => ?_
  · apply Told.pure
    rintro past s ⟨hs, down⟩
    exact ⟨down.trans asked, hs.during⟩
  refine Told.bind (getTime_told (fun _ _ hs => hs.1.during) ?_) fun now => ?_
  · rintro past s ⟨hs, -⟩
    exact (hs.answer (k := .clock none) nofun id).during
  refine Told.bind (srv_told sid) fun service => Told.ite (fun met => ?_) fun _ => ?_
  · apply Told.pure
    rintro _ _ ⟨⟨_, s, ⟨⟨waiting, rfl, none, hs⟩, -⟩, rfl, rfl⟩, rfl⟩
    refine ⟨waiting, now, rfl, none, ?_, hs.record trivial⟩
    have ofService : ((s.record (.clock now)).srv sid).settings = loaded sid :=
      hs.turn.srv_settings sid
    have ofStart : ((s.record (.clock now)).srv sid).startTime = start := hs.startTime
    rw [← ofService, ← ofStart]
    exact met
  · refine Told.pre (P := fun past s => service.pid = pid ∧
      Runs (Turn loaded count rest sid since) sid past₀ pid start past s) ?_ ?_
    · refine Told.with_entry ?_
      rintro past s ⟨rfl, hs⟩
      refine Told.bind ((waitpid_told positive start true).pre ?_) fun result => ?_
      · rintro _ _ ⟨rfl, rfl⟩
        exact hs
      cases result with
      | reaped child status =>
          refine Told.bind (M := fun _ => During (Turn loaded count rest sid since) past₀)
            ((handleKilled_told Turn.reaps positive status past₀).pre ?_) fun _ =>
            throwMessage_told _ (fun _ _ hs => hs) fun _ _ hs => hs
          rintro _ _ ⟨before, s, rfl, hs, -, rfl⟩
          exact ⟨hs.during.1.trans (List.prefix_append _ _), s, hs.during.2, rfl⟩
      | running =>
          apply Told.pure
          rintro _ _ ⟨before, s, rfl, hs, rfl⟩
          exact hs.answer nofun id
      | interrupted =>
          refine giveUp_told _ ?_
          rintro _ _ ⟨before, s, rfl, hs, rfl⟩
          exact (hs.answer (k := .waited .interrupted) nofun id).during
      | failed =>
          refine giveUp_told _ ?_
          rintro _ _ ⟨before, s, rfl, hs, rfl⟩
          exact (hs.answer (k := .waited .failed) nofun id).during
    · rintro _ _ ⟨⟨_, s, ⟨hs, -⟩, rfl, rfl⟩, rfl⟩
      obtain ⟨-, -, -, run⟩ := id hs
      exact ⟨run.process, hs.answer nofun fun run => run.record trivial⟩

theorem waitUptime_told (positive : 0 < pid) :
    Told (Runs (Turn loaded count rest sid since) sid past₀ pid start) (waitUptime sid)
      (fun met past s => if met then
          UptimeMet (Turn loaded count rest sid since) (loaded sid) sid past₀ pid start past s
        else s.doShutdown = true ∧ During (Turn loaded count rest sid since) past₀ past s)
      (fun _ => During (Turn loaded count rest sid since) past₀)
      (During (Turn loaded count rest sid since) past₀) :=
  Told.loop (fun _ _ hs => hs.during) (uptimeRound_told positive)

/-- The process of the service has just been reaped. -/
def JustReaped (T : Supervisor → Prop) (sid : Nat) (past₀ : List Answer) (pid : Int)
    (start : UInt64) (status : WaitStatus) (past : List Answer) (t : Supervisor) : Prop :=
  ∃ waiting s, past = past₀ ++ waiting ++ [.waited (.reaped pid status)] ∧ NoneReaped waiting ∧
    Started T sid pid start s ∧ t = s.reaped pid status

theorem terminationRound_told (positive : 0 < pid) :
    Told (Runs (Turn loaded count rest sid since) sid past₀ pid start) (terminationRound sid)
      (fun terminated past s => terminated.elim
        (Runs (Turn loaded count rest sid since) sid past₀ pid start past s)
        fun terminated => terminated.elim
          (s.doShutdown = true ∧ During (Turn loaded count rest sid since) past₀ past s)
          fun status => JustReaped
            (Turn loaded count rest sid since) sid past₀ pid start status past s)
      (fun _ => During (Turn loaded count rest sid since) past₀)
      (During (Turn loaded count rest sid since) past₀) := by
  refine Told.bind (srv_told sid) fun service => Told.with_entry ?_
  rintro past s ⟨hs, rfl⟩
  have process : (s.srv sid).pid = pid := by
    obtain ⟨-, -, -, run⟩ := hs
    exact run.process
  rw [process]
  refine Told.bind ((waitpid_told positive start false).pre ?_) fun result => ?_
  · rintro _ _ ⟨rfl, rfl⟩
    exact hs
  cases result with
  | reaped child status =>
      apply Told.pure
      rintro _ _ ⟨_, s, rfl, ⟨waiting, rfl, none, run⟩, rfl, rfl⟩
      exact ⟨waiting, s, rfl, none, run, rfl⟩
  | interrupted =>
      refine Told.bind
        (M := fun b past s => Runs (Turn loaded count rest sid since) sid past₀ pid start
        past s ∧ s.doShutdown = b) (signals_told.pre ?_) fun requested => ?_
      · rintro _ _ ⟨before, s, rfl, hs, rfl⟩
        exact hs.answer nofun id
      cases requested with
      | true => exact Told.pure fun _ _ hs => ⟨hs.2, hs.1.during⟩
      | false => exact Told.pure fun _ _ hs => hs.1
  | running =>
      refine giveUp_told _ ?_
      rintro _ _ ⟨before, s, rfl, hs, rfl⟩
      exact (hs.answer (k := .waited .running) nofun id).during
  | failed =>
      refine giveUp_told _ ?_
      rintro _ _ ⟨before, s, rfl, hs, rfl⟩
      exact (hs.answer (k := .waited .failed) nofun id).during

/-- The service has come up, with the answers since its turn began, or a shutdown is requested. -/
def BroughtUp (T : Supervisor → Prop) (srv : Service) (sid : Nat) (past₀ past : List Answer)
    (s : Supervisor) : Prop :=
  During T past₀ past s ∧ (s.doShutdown = true ∨
    ∃ pid taken, past = past₀ ++ taken ∧ .forked sid pid ∈ s.history ∧ CameUp srv pid taken)

theorem runSync_told (positive : 0 < pid) (sync : (loaded sid).sync = true) :
    Told (Runs (Turn loaded count rest sid since) sid
      (past₀ ++ tries ++ launch pid fd start) pid start)
      (runSync sid) (fun _ => BroughtUp (Turn loaded count rest sid since) (loaded sid) sid past₀)
      (fun _ => During (Turn loaded count rest sid since) past₀)
      (During (Turn loaded count rest sid since) past₀) := by
  have earlier : ∀ past s, During (Turn loaded count rest sid since)
      (past₀ ++ tries ++ launch pid fd start) past s →
      During (Turn loaded count rest sid since) past₀ past s := by
    rintro past s ⟨more, hs⟩
    rw [List.append_assoc] at more
    exact ⟨(List.prefix_append _ _).trans more, hs⟩
  refine Told.bind ((Told.loop (fun _ _ hs => hs.during)
    (terminationRound_told positive)).consequence (fun _ _ hs => hs) (fun _ _ _ hs => hs)
      (fun _ => earlier) earlier) fun terminated => ?_
  cases terminated with
  | none => exact Told.pure fun past s hs => ⟨earlier past s hs.2, .inl hs.1⟩
  | some status =>
      refine Told.with_entry ?_
      rintro _ _ ⟨waiting, s, rfl, none, run, rfl⟩
      refine Told.bind (srv_told sid) fun service => Told.with_entry ?_
      rintro _ _ ⟨⟨rfl, rfl⟩, rfl⟩
      have process : ((s.reaped pid status).srv sid).pid = pid := run.process
      rw [process]
      have since_begin {past : List Answer} {t : Supervisor}
          (more : past₀ ++ tries ++ launch pid fd start ++ waiting ++
            [.waited (.reaped pid status)] <+: past) (turn : Turn loaded count rest sid since t) :
          During (Turn loaded count rest sid since) past₀ past t := by
        simp only [List.append_assoc] at more
        exact ⟨(List.prefix_append _ _).trans more, turn⟩
      -- What `handle_killed` asks comes behind the termination.
      refine Told.bind (M := fun _ past t => past₀ ++ tries ++ launch pid fd start ++ waiting ++
          [.waited (.reaped pid status)] <+: past ∧ Turn loaded count rest sid since t ∧
          .forked sid pid ∈ t.history) ?_ fun _ => ?_
      · refine (handleKilled_told (reaps_remembers Turn.reaps (.forked sid pid)) positive status
          (past₀ ++ tries ++ launch pid fd start ++ waiting ++
            [.waited (.reaped pid status)])).consequence
            ?_ (fun _ _ _ hs => hs) (fun _ _ _ hs => hs) ?_
        · rintro _ _ ⟨rfl, rfl⟩
          exact ⟨List.prefix_rfl, s, ⟨run.turn, run.forked⟩, rfl⟩
        · rintro past t ⟨more, turn, -⟩
          exact since_begin more turn
      refine Told.ite (fun exited => Told.pure ?_) fun _ => throwMessage_told _ ?_ ?_
      · subst exited
        rintro _ t ⟨⟨after, rfl⟩, turn, forked⟩
        refine ⟨⟨by simp, turn⟩, .inr ⟨pid, tries ++ launch pid fd start ++ waiting ++
          .waited (.reaped pid (.exited 0)) :: after, by simp, forked, .sync sync none⟩⟩
      all_goals
        rintro past t ⟨more, turn, -⟩
        exact since_begin more turn

/-- The readiness of the service is checked. -/
def Checked (T : Supervisor → Prop) (sid : Nat) (base : List Answer) (pid : Int) (start : UInt64)
    (past : List Answer) (s : Supervisor) : Prop :=
  ∃ tries, past = base ++ (.chdir none :: .access true :: tries) ∧ Started T sid pid start s

theorem Checked.during {T : Supervisor → Prop} {base past : List Answer} {s : Supervisor}
    (h : Checked T sid base pid start past s) : During T base past s := by
  obtain ⟨tries, rfl, hs⟩ := h
  exact ⟨List.prefix_append _ _, hs.turn⟩

theorem Checked.answer {T : Supervisor → Prop} {base past : List Answer} {s t : Supervisor}
    (h : Checked T sid base pid start past s) (k : Answer)
    (ht : Started T sid pid start s → Started T sid pid start t) :
    Checked T sid base pid start (past ++ [k]) t := by
  obtain ⟨tries, rfl, hs⟩ := h
  exact ⟨tries ++ [k], by simp, ht hs⟩

/-- The service is ready, or a shutdown is requested. -/
def Ready (T : Supervisor → Prop) (srv : Service) (sid : Nat) (base : List Answer) (pid : Int)
    (start : UInt64) (past : List Answer) (s : Supervisor) : Prop :=
  During T base past s ∧ (s.doShutdown = true ∨
    ∃ ready, past = base ++ ready ∧ .forked sid pid ∈ s.history ∧ ReadyInTime srv start ready)

/-- The clock was read, and there was a look at the process. -/
def Looked (T : Supervisor → Prop) (sid : Nat) (base : List Answer) (pid : Int) (start now : UInt64)
    (isUp : Bool) (past : List Answer) (s : Supervisor) : Prop :=
  ∃ tries, past = base ++ (.chdir none :: .access true ::
    (tries ++ [.clock (some now), .alive isUp])) ∧ Started T sid pid start s

theorem Looked.checked {T : Supervisor → Prop} {base past : List Answer} {now : UInt64}
    {isUp : Bool}
    {s : Supervisor} (h : Looked T sid base pid start now isUp past s) :
    Checked T sid base pid start past s := by
  obtain ⟨tries, rfl, hs⟩ := h
  exact ⟨tries ++ [.clock (some now), .alive isUp], rfl, hs⟩

/-- The `is_ready` program is run, and a shutdown is looked for when it does not succeed. -/
theorem isReady_told {base : List Answer} {now : UInt64} (arg : Str)
    (inTime : (now - start).toNat < (loaded sid).readyTimeout) :
    Told (Looked (Turn loaded count rest sid since) sid base pid start now true)
      (do
        let code ← execServiceCmd sid "is_ready".toList arg
        if code = 0 then pure (some ())
        else do
          let requested ← shutdownRequested
          pure (if requested then some () else none))
      (fun ready past s => ready.elim
        (Checked (Turn loaded count rest sid since) sid base pid start past s)
        fun _ => Ready (Turn loaded count rest sid since) (loaded sid) sid base pid start past s)
      (fun _ => During (Turn loaded count rest sid since) base)
      (During (Turn loaded count rest sid since) base) := by
  have ran {past : List Answer} {s : Supervisor} {code : Int}
      (hs : Looked (Turn loaded count rest sid since) sid base pid start now true past s) :
      Checked (Turn loaded count rest sid since) sid base pid start (past ++ [.program code])
        (s.record (.ran sid "is_ready".toList arg)) :=
    hs.checked.answer (.program code) fun run => run.record (by trivial)
  refine Told.bind (execServiceCmd_told sid _ _ fun _ _ hs => hs.checked.during) fun code => ?_
  refine Told.ite (fun zero => Told.pure ?_) fun _ => ?_
  · rintro _ _ ⟨_, s, hs, rfl, rfl⟩
    refine ⟨(ran hs).during, .inr ?_⟩
    obtain ⟨tries, rfl, run⟩ := hs
    subst zero
    exact ⟨.chdir none :: .access true :: (tries ++ [.clock (some now), .alive true, .program 0]),
      by simp, List.mem_cons_of_mem _ run.forked, .ready inTime⟩
  · refine Told.bind (shutdownRequested_told ?_) fun requested => Told.pure ?_
    · rintro _ _ ⟨before, s, hs, rfl, rfl⟩
      exact (ran hs).during
    · rintro _ t ⟨_, u, k, ⟨before, s, hs, rfl, rfl⟩, rfl, down, moved⟩
      have checked : Checked (Turn loaded count rest sid since) sid base pid start
          (before ++ [.program code] ++ [.signals k]) t := by
        rcases moved with rfl | rfl
        · exact (ran hs).answer (.signals k) id
        · exact (ran hs).answer (.signals k) Started.requestShutdown
      cases requested with
      | true => exact ⟨checked.during, .inl down⟩
      | false => exact checked

theorem readyRound_told {base : List Answer} {service : ServiceEntry}
    (ofService : service.settings = loaded sid) (ofStart : service.startTime = start) :
    Told (Checked (Turn loaded count rest sid since) sid base pid start) (readyRound sid service)
      (fun ready past s => ready.elim
        (Checked (Turn loaded count rest sid since) sid base pid start past s)
        fun _ => Ready (Turn loaded count rest sid since) (loaded sid) sid base pid start past s)
      (fun _ => During (Turn loaded count rest sid since) base)
      (During (Turn loaded count rest sid since) base) := by
  refine Told.bind (getTime_told (fun _ _ hs => hs.during) ?_) fun now => ?_
  · exact fun past s hs => (hs.answer (.clock none) id).during
  have clocked : ∀ past t,
    (∃ before s, Checked (Turn loaded count rest sid since) sid base pid start
      before s ∧ past = before ++ [.clock (some now)] ∧ t = s.record (.clock now)) →
      During (Turn loaded count rest sid since) base past t := by
    rintro _ _ ⟨before, s, hs, rfl, rfl⟩
    exact (hs.answer (.clock (some now)) fun run => run.record (by trivial)).during
  refine Told.ite (fun _ => throwMessage_told _ clocked clocked) fun notLate => ?_
  refine Told.bind (alive_told clocked) fun isUp => Told.pre
    (P := Looked (Turn loaded count rest sid since) sid base pid start now isUp) ?_ ?_
  · refine Told.ite (fun up => ?_) fun _ => throwMessage_told _ (fun _ _ hs => hs.checked.during)
      fun _ _ hs => hs.checked.during
    subst up
    refine isReady_told _ ?_
    rw [ofService, ofStart] at notLate
    omega
  · rintro _ _ ⟨_, ⟨_, s, ⟨tries, rfl, hs⟩, rfl, rfl⟩, rfl⟩
    exact ⟨tries, by simp, hs.record (by trivial)⟩

theorem waitReady_told {base : List Answer} :
    Told (fun past s => past = base ∧ Started (Turn loaded count rest sid since) sid pid start s)
      (waitReady sid)
      (fun _ => Ready (Turn loaded count rest sid since) (loaded sid) sid base pid start)
      (fun _ => During (Turn loaded count rest sid since) base)
      (During (Turn loaded count rest sid since) base) := by
  refine Told.bind (srv_told sid) fun service => Told.with_entry ?_
  rintro _ s ⟨⟨rfl, hs⟩, rfl⟩
  refine Told.bind (chdirToService_told _ ?_ ?_ ?_) fun _ => ?_
  · rintro _ _ k ⟨rfl, rfl⟩
    exact ⟨List.prefix_append _ _, hs.turn⟩
  · rintro _ _ ⟨rfl, rfl⟩
    exact ⟨List.prefix_rfl, hs.turn⟩
  · rintro _ _ k ⟨rfl, rfl⟩
    exact ⟨List.prefix_append _ _, hs.turn⟩
  refine Told.bind (access_told ?_) fun hasIsReady => ?_
  · rintro _ _ ⟨_, ⟨rfl, rfl⟩, rfl⟩
    exact ⟨List.prefix_append _ _, hs.turn⟩
  refine Told.ite (fun found => ?_) fun notFound => Told.pure ?_
  · refine Told.pre (Told.loop (fun _ _ hs => hs.during)
      (readyRound_told (hs.turn.srv_settings sid) hs.startTime)) ?_
    rintro _ _ ⟨_, ⟨_, ⟨rfl, rfl⟩, rfl⟩, rfl⟩
    exact ⟨[], by simp [found], hs⟩
  · rintro _ _ ⟨_, ⟨_, ⟨rfl, rfl⟩, rfl⟩, rfl⟩
    refine ⟨⟨by simp, hs.turn⟩, .inr ⟨[.chdir none, .access false], ?_, hs.forked, .noProgram⟩⟩
    simp [Bool.eq_false_iff.mpr notFound]

/-- What `start_services` does for a service that it has just started. -/
theorem settle_told :
    Told (fun past s => past = past₀ ++ tries ++ launch pid fd start ∧ 0 < pid ∧
        Started (Turn loaded count rest sid since) sid pid start s)
      (do
        let service ← srv sid
        if service.settings.sync then runSync sid
        else if service.settings.interval > 0 then pure ()
        else do
          let up ← waitUptime sid
          if up then waitReady sid else pure ())
      (fun _ => BroughtUp (Turn loaded count rest sid since) (loaded sid) sid past₀)
      (fun _ => During (Turn loaded count rest sid since) past₀)
      (During (Turn loaded count rest sid since) past₀) := by
  have later : ∀ past s, During (Turn loaded count rest sid since)
      (past₀ ++ tries ++ launch pid fd start) past s →
      During (Turn loaded count rest sid since) past₀ past s := by
    rintro past s ⟨more, hs⟩
    rw [List.append_assoc] at more
    exact ⟨(List.prefix_append _ _).trans more, hs⟩
  refine Told.bind (srv_told sid) fun service => ?_
  refine Told.pre (P := fun past s => service.settings = loaded sid ∧
    past = past₀ ++ tries ++ launch pid fd start ∧ 0 < pid ∧
    Started (Turn loaded count rest sid since) sid pid start s) (Told.with_entry ?_) ?_
  · rintro _ s ⟨settings, rfl, positive, hs⟩
    have runs : ∀ past t, past = past₀ ++ tries ++ launch pid fd start ∧ t = s →
        Runs (Turn loaded count rest sid since) sid
          (past₀ ++ tries ++ launch pid fd start) pid start
          past t := by
      rintro _ _ ⟨rfl, rfl⟩
      exact ⟨[], by simp, nofun, hs⟩
    rw [settings]
    refine Told.ite (fun sync => ?_) fun notSync =>
      Told.ite (fun regular => Told.pure ?_) fun plain => ?_
    · exact Told.pre (P := Runs (Turn loaded count rest sid since) sid
        (past₀ ++ tries ++ launch pid fd start) pid start) (runSync_told positive sync) runs
    · rintro _ _ ⟨rfl, rfl⟩
      refine ⟨⟨by simp, hs.turn⟩, .inr ⟨pid, tries ++ launch pid fd start, by simp, hs.forked, ?_⟩⟩
      exact .interval ⟨Bool.eq_false_iff.mpr notSync, regular⟩
    · refine Told.bind (((waitUptime_told positive).pre runs).consequence (fun _ _ hs => hs)
        (fun _ _ _ hs => hs) (fun _ => later) later) fun up =>
          Told.ite (fun met => ?_) fun notMet => ?_
      · refine Told.with_entry fun past t ht => ?_
        rw [if_pos met] at ht
        obtain ⟨waiting, now, rfl, none, uptime, run⟩ := ht
        have beyond : ∀ past t, During (Turn loaded count rest sid since)
            (past₀ ++ tries ++ launch pid fd start ++ waiting ++ [.clock (some now)]) past t →
            During (Turn loaded count rest sid since) past₀ past t := by
          rintro past t ⟨more, turn⟩
          rw [List.append_assoc _ waiting] at more
          exact later past t ⟨(List.prefix_append _ _).trans more, turn⟩
        refine Told.consequence (P := fun past s => past = past₀ ++ tries ++ launch pid fd start ++
          waiting ++ [.clock (some now)] ∧
            Started (Turn loaded count rest sid since) sid pid start s)
          waitReady_told ?_ ?_ (fun _ => beyond) beyond
        · rintro _ _ ⟨rfl, rfl⟩
          exact ⟨rfl, run⟩
        · rintro _ _ t ⟨more, down | ⟨ready, rfl, forked, inTime⟩⟩
          · exact ⟨beyond _ t more, .inl down⟩
          · refine ⟨beyond _ t more, .inr ⟨pid, tries ++ launch pid fd start ++ waiting ++
              .clock (some now) :: ready, by simp, forked, ?_⟩⟩
            exact .running ⟨Bool.eq_false_iff.mpr notSync, Nat.eq_zero_of_not_pos plain⟩ none
              uptime inTime
      · apply Told.pure
        intro past t ht
        rw [if_neg notMet] at ht
        exact ⟨later past t ht.2, .inl ht.1⟩
  · rintro _ s ⟨⟨rfl, positive, hs⟩, rfl⟩
    exact ⟨hs.turn.srv_settings sid, rfl, positive, hs⟩

/-- The part of `start_services` between `Try` and `Catch`. -/
theorem bringUp_told (used : sid < count) (own : (sid : Int) ∉ rest) :
    Told (fun past s => past = past₀ ∧ Turn loaded count rest sid since s ∧ (s.srv sid).pid = 0)
      (bringUp sid) (fun _ => BroughtUp (Turn loaded count rest sid since) (loaded sid) sid past₀)
      (fun _ => During (Turn loaded count rest sid since) past₀)
      (During (Turn loaded count rest sid since) past₀) := by
  refine Told.bind (startService_told used own) fun _ => ?_
  exact Told.of_exists fun tries => Told.of_exists fun pid => Told.of_exists fun fd =>
    Told.of_exists fun start => settle_told

end Waits

end Baseimage.Cinit
