import Baseimage.Cinit.CommandChannel
import Baseimage.Cinit.RestartRequests

/-!
# What the shutdown of an idle supervisor cancels

When no process is left and no service has to be started again, the main loop shuts the container
down. It looks at `respawn` and at the restart flag. A service that runs at a regular interval has
neither: between two of its runs it has no process, and nothing says that it is to be started when
its interval is over.

What would have happened otherwise is what the loop does without this branch.
-/

namespace Baseimage.Cinit

open Script Supervisor Code

/-- One iteration of the main loop without the branch for an idle supervisor. -/
def patientIteration : Code (Option Unit) := do
  let requested ← shutdownRequested
  if requested then pure (some ())
  else do
    let _ ← childHandler 0 (-1)
    let requested ← shutdownRequested
    if requested then pure (some ())
    else do
      processServices
      pure none

/-- The rest of the iteration, and what follows. -/
def patientRest : Code Unit := do
  processServices
  loop patientIteration

/-- What an iteration asks in front of the branch: whether a shutdown is requested, whether no child
remains, and again whether a shutdown is requested. -/
def checks : Code (Bool × Bool × Bool) := do
  let requested ← shutdownRequested
  let allChildrenTerminated ← childHandler 0 (-1)
  let requestedSince ← shutdownRequested
  pure (requested, allChildrenTerminated, requestedSince)

/-- A run of the supervisor is in the branch for an idle supervisor: some iterations of the main
loop are over, and in this one no shutdown is requested, no child remains and no service has to be
started again. -/
structure InIdleBranch (view : View) (cwd : Str) (u : Supervisor) : Prop where
  reached : ∃ answers s rest t rest', EntersLoop view cwd answers s ∧
    Rounds mainIteration answers s rest t ∧
    checks.run rest t = ⟨some (.ok (false, true, false)), rest', u⟩
  idle : u.services.all (fun srv => !srv.toBeRestarted) = true

/-- A process is started for a service. -/
def Event.Starts : Event → Prop
  | .forked _ _ => True
  | .started _ => True
  | _ => False

/-- The event has happened since the history was this. -/
def Since (base history : List Event) (e : Event) : Prop :=
  ∃ older, base <:+ older ∧ e :: older <:+ history

/-- However the clock and the processes go on, no service would have been started without the
shutdown, unless another command had been accepted. -/
def CancelsNothing (u : Supervisor) : Prop :=
  ∀ answers, (∀ sid,
    ¬ Since u.history (patientRest.run answers u).state.history (.restartAccepted sid)) →
    ∀ e : Event, e.Starts → ¬ Since u.history (patientRest.run answers u).state.history e

theorem since_cons {base history : List Event} {e other : Event} :
    Since base (other :: history) e ↔ (base <:+ history ∧ e = other) ∨ Since base history e := by
  constructor
  · rintro ⟨older, begun, happened⟩
    rcases List.suffix_cons_iff.mp happened with new | old
    · obtain ⟨rfl, rfl⟩ := List.cons.inj new
      exact .inl ⟨begun, rfl⟩
    · exact .inr ⟨older, begun, old⟩
  · rintro (⟨begun, rfl⟩ | ⟨older, begun, happened⟩)
    · exact ⟨history, begun, List.suffix_refl _⟩
    · exact ⟨older, begun, happened.trans (List.suffix_cons _ _)⟩

theorem not_since_self (base : List Event) (e : Event) : ¬ Since base base e := by
  rintro ⟨older, begun, happened⟩
  exact not_cons_suffix begun e happened

/-! ## When nothing is left to be started -/

section Patient

variable {I R : Supervisor → Prop}

theorem patientIteration_keeps (h : Cycles I R) : KeepsOr I R patientIteration := by
  have leave (a : Option Unit) : KeepsOr I R (pure a : Code (Option Unit)) :=
    (Keeps.pure a).or h.stopped
  have signals : Keeps I shutdownRequested := shutdownRequested_keeps h.requestShutdown
  refine Spec.step (signals.or h.stopped) fun _ => Spec.ite (fun _ => leave _) fun _ => ?_
  refine Spec.step ((childHandler_keeps h.toReaps _ _).or h.stopped) fun _ => ?_
  refine Spec.step (signals.or h.stopped) fun _ => Spec.ite (fun _ => leave _) fun _ => ?_
  exact Spec.step (processServices_keeps h) fun _ => leave _

theorem patientRest_keeps (h : Cycles I R) : KeepsOr I R patientRest :=
  Spec.step (processServices_keeps h) fun _ =>
    KeepsOr.loop h.stopped (patientIteration_keeps h)

end Patient

section Quiet

variable (loaded : Nat → Service) (base : List Event)

/-- Another command has been accepted. -/
def Asked (history : List Event) : Prop := ∃ sid, Since base history (.restartAccepted sid)

/-- No restart is requested and nothing has been started, unless another command was accepted. -/
structure Still (l : Ledger) : Prop where
  settings : ∀ sid, l.settings sid = loaded sid
  begun : base <:+ l.history
  unrequested : Asked base l.history ∨ ∀ sid, (l.standing sid).restartRequested = false
  unstarted : Asked base l.history ∨ ∀ e : Event, e.Starts → ¬ Since base l.history e

variable {loaded base}

theorem Asked.cons {history : List Event} (h : Asked base history) (e : Event) :
    Asked base (e :: history) := by
  obtain ⟨sid, since⟩ := h
  exact ⟨sid, since_cons.mpr (.inr since)⟩

theorem Still.record {l : Ledger} (h : Still loaded base l) {e : Event}
    (quiet : Asked base l.history ∨ ¬ e.Starts) : Still loaded base (l.record e) where
  settings := h.settings
  begun := h.begun.trans (List.suffix_cons _ _)
  unrequested := h.unrequested.imp_left (Asked.cons · e)
  unstarted := by
    rcases quiet with asked | other
    · exact .inl (asked.cons e)
    · refine h.unstarted.imp (Asked.cons · e) fun none start hstart since => ?_
      rcases since_cons.mp since with ⟨-, rfl⟩ | old
      · exact other hstart
      · exact none start hstart old

theorem Still.setStartTime {l : Ledger} (h : Still loaded base l) (sid : Nat) (now : UInt64) :
    Still loaded base (l.setStartTime sid now) where
  settings i := by
    rw [Ledger.settings_setStartTime]
    exact h.settings i
  begun := h.begun
  unrequested := by
    refine h.unrequested.imp_right fun none i => ?_
    rw [Ledger.restartRequested_setStartTime]
    exact none i
  unstarted := h.unstarted

theorem Still.cleared {l : Ledger} (h : Still loaded base l) (sid : Nat) :
    Still loaded base (l.setRestartRequested sid false) where
  settings i := by
    rw [Ledger.settings_setRestartRequested]
    exact h.settings i
  begun := h.begun
  unrequested := by
    refine h.unrequested.imp_right fun none i => ?_
    rw [Ledger.setRestartRequested, Ledger.standing_modify]
    split
    · rfl
    · exact none i
  unstarted := h.unstarted

/-- Only after another command a service is started. -/
theorem asked_stages (sid : Nat) :
    Stages (fun l => Still loaded base l ∧ Asked base l.history)
      (fun l => Still loaded base l ∧ Asked base l.history)
      (fun l => Still loaded base l ∧ Asked base l.history)
      (fun l => Still loaded base (l.setRestartRequested sid false))
      (Still loaded base) sid where
  before _ h := h
  running _ h := h.1.cleared sid
  forking _ h := ⟨h.1.record (.inr id), h.2.cons _⟩
  forked _ _ h := ⟨h.1.record (.inl h.2), h.2.cons _⟩
  startTime _ now h := ⟨(h.1.record (.inl h.2)).setStartTime sid now, h.2.cons _⟩
  started _ h := (h.1.record (.inl h.2)).cleared sid
  stopped _ h := h.1
  stoppedForked _ h := h.1

theorem still_loop (interval : ∀ sid, (loaded sid).interval = 0)
    (respawn : ∀ sid, (loaded sid).respawn = false) :
    LoopKeeps (Still loaded base) (Still loaded base) where
  aside l e he h := by
    refine h.record (.inr ?_)
    cases e with
    | forked _ _ => exact he.elim
    | started _ => exact he.elim
    | _ => exact id
  stopped _ h := h
  stillRunning l sid now h := by
    have read : Still loaded base (l.record (.clock now)) := h.record (.inr id)
    exact read.setStartTime sid now
  interval sid := by
    rintro answers s ⟨-, l, now, h, regular, -⟩
    rw [h.settings, interval] at regular
    omega
  restart sid := by
    refine (asked_stages sid).startsFrom ?_ fun _ h => h.1
    rintro _ ⟨l, now, h, asked, rfl⟩
    have read : Still loaded base (l.record (.clock now)) := h.record (.inr id)
    refine ⟨read.record (.inr id), Asked.cons (Asked.cons ?_ _) _⟩
    refine h.unrequested.resolve_right fun none => ?_
    rw [h.settings, respawn, none] at asked
    simp at asked
  accepted l sid h := by
    have asked : Asked base (.restartAccepted sid :: l.history) :=
      ⟨sid, since_cons.mpr (.inl ⟨h.begun, rfl⟩)⟩
    refine
      { settings := fun i => ?_, begun := ?_, unrequested := .inl asked, unstarted := .inl asked }
    · rw [Ledger.settings_record, Ledger.settings_setRestartRequested]
      exact h.settings i
    · exact h.begun.trans (List.suffix_cons _ _)

end Quiet

/-! ## The states of the branch -/

theorem reapTerminated_childless :
    Spec (fun _ => True) reapTerminated (fun killed t => killed = -1 → t.children = [])
      (fun _ _ => True) fun _ => True := by
  have unknown : ∀ s : Supervisor, True → True := fun _ => id
  refine Spec.loop unknown ?_
  refine Spec.bind (waitpid_spec unknown (-1) true) fun result => ?_
  cases result with
  | reaped pid status =>
      refine Spec.pre (P := fun _ => True) (Spec.step (Keeps.any _) fun _ => ?_) fun _ _ => trivial
      exact Spec.pure fun _ _ => trivial
  | running => exact Spec.pure fun _ _ killed => absurd killed (by decide)
  | interrupted => exact Spec.pure fun _ ht => absurd ht.2 (by decide)
  | failed =>
      apply Spec.pure
      rintro _ ⟨s, -, childless, rfl⟩ -
      exact childless rfl

/-- There is no child left where `child_handler` says so. -/
theorem childHandler_childless (period service : Int) :
    Spec (fun _ => True) (childHandler period service) (fun all t => all = true → t.children = [])
      (fun _ _ => True) fun _ => True := by
  have unknown : ∀ s : Supervisor, True → True := fun _ => id
  refine Spec.step (Keeps.any _) fun start => Spec.loop unknown ?_
  refine Spec.bind reapTerminated_childless fun killed => Spec.ite ?_ ?_
  · intro none_left
    exact Spec.pure fun _ ht _ => ht none_left
  · intro _
    refine Spec.pre (P := fun _ => True) (Spec.step (Keeps.any _) fun elapsed => ?_) fun _ _ =>
      trivial
    refine Spec.ite (fun _ => Spec.pure fun _ _ all => absurd all (by decide)) fun _ => ?_
    refine Spec.ite (fun _ => Spec.step (Keeps.any _) fun entry => ?_) fun _ =>
      Spec.pure fun _ _ => trivial
    apply Spec.pure
    intro t _
    split
    · exact fun all => absurd all (by decide)
    · trivial

/-- The table in the branch: every service has a name, none has a process, and none has to be
started again. -/
structure Idle (u : Supervisor) : Prop where
  consistent : Consistent u
  childless : u.children = []
  named : ∀ srv ∈ u.services, srv.settings.name ≠ []
  down : ∀ srv ∈ u.services, srv.pid = 0
  respawn : ∀ srv ∈ u.services, srv.settings.respawn = false
  unrequested : ∀ srv ∈ u.services, srv.restartRequested = false

theorem checks_run_eq_ok {rest rest' : List Answer} {t u : Supervisor}
    (h : checks.run rest t = ⟨some (.ok (false, true, false)), rest', u⟩) :
    ∃ rest₁ t₁ rest₂ t₂, shutdownRequested.run rest t = ⟨some (.ok false), rest₁, t₁⟩ ∧
      (childHandler 0 (-1)).run rest₁ t₁ = ⟨some (.ok true), rest₂, t₂⟩ ∧
      shutdownRequested.run rest₂ t₂ = ⟨some (.ok false), rest', u⟩ := by
  obtain ⟨requested, rest₁, t₁, first, h⟩ := bind_run_eq_ok h
  obtain ⟨all, rest₂, t₂, reaped, h⟩ := bind_run_eq_ok h
  obtain ⟨since, rest₃, t₃, last, h⟩ := bind_run_eq_ok h
  obtain ⟨same, rfl, rfl⟩ := ScriptRun.mk.inj h
  cases same
  exact ⟨rest₁, t₁, rest₂, t₂, first, reaped, last⟩

theorem InIdleBranch.table {view : View} {cwd : Str} {u : Supervisor}
    (h : InIdleBranch view cwd u) : Idle u := by
  obtain ⟨answers, s, rest, t, _, ⟨past, status, s₀, boot, rfl⟩, rounds, run⟩ := h.reached
  obtain ⟨rest₁, t₁, rest₂, t₂, first, reaped, last⟩ := checks_run_eq_ok run
  let I : Supervisor → Prop := fun s => Consistent s ∧ Named s.names
  have signals : Keeps I shutdownRequested := shutdownRequested_keeps Named.kept.requestShutdown
  have loads : I (booted.load (loadDefault view cwd).2) := by
    refine ⟨Consistent.load _, ?_⟩
    rw [names, Supervisor.load, List.map_map]
    exact loadDefault_named view cwd
  have entered : I (s₀.enter .running) := by
    have ends := bringUpServices_keeps (Named.kept.boots _) loads
      (fun _ hs => ⟨hs.1.enter _, hs.2⟩) past booted rfl
    rw [boot] at ends
    exact ⟨ends.1.enter _, ends.2⟩
  have before : I t := rounds.keeps (mainIteration_keeps Named.kept.cycles) entered
  have asked : I t₁ := KeepsOr.ok signals first before
  have handled : I t₂ := KeepsOr.ok (childHandler_keeps Named.kept.reaps 0 (-1)) reaped asked
  obtain ⟨consistent, named⟩ : I u := KeepsOr.ok signals last handled
  have childless : u.children = [] := by
    have ends := childHandler_childless 0 (-1) rest₁ t₁ trivial
    rw [reaped] at ends
    have same : Keeps (fun s => s.children = []) shutdownRequested := shutdownRequested_keeps id
    exact KeepsOr.ok same last (ends rfl)
  have down : ∀ srv ∈ u.services, srv.pid = 0 := by
    intro srv hsrv
    obtain ⟨sid, entry⟩ := List.getElem?_of_mem hsrv
    by_contra up
    have owned := (consistent.entries sid srv entry).owned up
    rw [childless] at owned
    cases owned
  have settled : ∀ srv ∈ u.services,
    srv.settings.respawn = false ∧ srv.restartRequested = false := by
    intro srv hsrv
    have resting := List.all_eq_true.mp h.idle srv hsrv
    simpa [ServiceEntry.toBeRestarted, down srv hsrv] using resting
  exact
    { consistent := consistent
      childless := childless
      named := fun srv hsrv empty => named.nonempty (List.mem_map.mpr ⟨srv, hsrv, empty⟩)
      down := down
      respawn := fun srv hsrv => (settled srv hsrv).1
      unrequested := fun srv hsrv => (settled srv hsrv).2 }

/-! ## When a service runs at a regular interval -/

/-- There is no child, so the pid of a new one is not in use. -/
theorem forkAndExec_forks {s : Supervisor} (sid : Nat) (childless : s.children = [])
    (rest : List Answer) :
    (forkAndExec sid).run (.fork (some (1, 0)) :: rest) s =
      ⟨some (.ok 1), rest, (s.record (.forking sid)).forked sid 1 0⟩ := by
  have fresh : (s.record (.forking sid)).children.lookup 1 = none := by
    rw [show (s.record (.forking sid)).children = [] from childless]
    rfl
  have fits : (0 : Int) < 1 ∧ (0 : Int) ≤ 0 ∧
      (s.record (.forking sid)).children.lookup 1 = none := ⟨by decide, by decide, fresh⟩
  refine (bind_run_ok (a := ⟨⟩) (t := s.record (.forking sid)) rfl).trans ?_
  simp only [ask, if_pos fits]

/-- A service with a name and without a process is forked where it is started. -/
theorem startService_forks {s : Supervisor} {sid : Nat} (down : (s.srv sid).pid = 0)
    (named : (s.srv sid).settings.name ≠ []) (childless : s.children = []) :
    (startService sid).run [.chdir none, .fork (some (1, 0))] s =
      ⟨none, [], ((s.record (.forking sid)).forked sid 1 0).setPid sid 1⟩ := by
  have chdir : (chdirToService (s.srv sid).settings.name).run [.chdir none, .fork (some (1, 0))] s =
      ⟨some (.ok ()), [.fork (some (1, 0))], s⟩ := by
    rw [chdirToService, if_neg named]
    rfl
  refine (bind_run_ok (a := s.srv sid) rfl).trans ?_
  rw [if_neg (not_not.mpr down)]
  refine (bind_run_ok chdir).trans ?_
  refine (bind_run_ok (forkAndExec_forks sid childless [])).trans ?_
  rfl

/-- What the main loop records when it forks a service whose interval is over. -/
def forkedAtInterval (sid : Nat) (pid : Int) (now : UInt64) (history : List Event) : List Event :=
  [.forked sid pid, .forking sid, .intervalOver sid false, .clock now] ++ history

theorem forkedAtInterval_unasked {sid : Nat} {pid : Int} {now : UInt64} {history : List Event}
    (other : Nat) :
    ¬ Since history (forkedAtInterval sid pid now history) (.restartAccepted other) := by
  simp [forkedAtInterval, since_cons, not_since_self]

theorem forkedAtInterval_since {sid : Nat} {pid : Int} {now : UInt64} {history : List Event} :
    Since history (forkedAtInterval sid pid now history) (.forked sid pid) :=
  ⟨_, ⟨[.forking sid, .intervalOver sid false, .clock now], rfl⟩, List.suffix_refl _⟩

theorem runInterval_none {u : Supervisor} {sid : Nat} (none : (u.srv sid).settings.interval = 0)
    (answers : List Answer) : (runInterval sid).run answers u = ⟨some (.ok ()), answers, u⟩ := by
  refine (bind_run_ok (a := u.srv sid) rfl).trans ?_
  rw [if_neg (by omega)]
  rfl

/-- A clock that says that the interval is over. -/
def due (srv : ServiceEntry) : UInt64 :=
  UInt64.ofNat (srv.settings.interval * 1000 % 2 ^ 32) + srv.startTime

theorem due_elapsed (srv : ServiceEntry) :
    srv.settings.interval * 1000 % 2 ^ 32 ≤ (due srv - srv.startTime).toNat := by
  have bound : srv.settings.interval * 1000 % 2 ^ 32 < 2 ^ 64 := by omega
  rw [due, UInt64.add_sub_cancel]
  exact (UInt64.toNat_ofNat_of_lt' bound).ge

/-- The main loop forks a service whose interval is over. -/
theorem runInterval_forks {u : Supervisor} {sid : Nat} (regular : 0 < (u.srv sid).settings.interval)
    (down : (u.srv sid).pid = 0) (named : (u.srv sid).settings.name ≠ [])
    (childless : u.children = []) (unrequested : (u.srv sid).restartRequested = false) :
    ∃ answers t, (runInterval sid).run answers u = ⟨none, [], t⟩ ∧
      t.history = forkedAtInterval sid 1 (due (u.srv sid)) u.history := by
  let told := (u.record (.clock (due (u.srv sid)))).record (.intervalOver sid false)
  refine ⟨[.clock (some (due (u.srv sid))), .chdir none, .fork (some (1, 0))],
    ((told.record (.forking sid)).forked sid 1 0).setPid sid 1, ?_, rfl⟩
  have started : (startService sid).run [.chdir none, .fork (some (1, 0))] told = _ :=
    startService_forks down named childless
  have read : getTime.run [.clock (some (due (u.srv sid))), .chdir none, .fork (some (1, 0))] u =
      ⟨some (.ok (due (u.srv sid))), [.chdir none, .fork (some (1, 0))],
        u.record (.clock (due (u.srv sid)))⟩ := rfl
  refine (bind_run_ok (a := u.srv sid) rfl).trans ?_
  rw [if_pos regular]
  refine (bind_run_ok read).trans ?_
  rw [if_pos (due_elapsed _), if_neg (by omega), unrequested]
  refine (bind_run_ok (a := ⟨⟩) (t := told) rfl).trans ?_
  rw [tryCatch_run, started]

theorem srv_mem {u : Supervisor} {sid : Nat} (used : sid < u.services.length) :
    u.srv sid ∈ u.services := by
  rw [srv_of_getElem? (List.getElem?_eq_getElem used)]
  exact List.getElem_mem used

/-- The first service of the list that has an interval is forked when it is over. -/
theorem Idle.forks {u : Supervisor} (h : Idle u) {sids : List Nat}
    (valid : ∀ sid ∈ sids, sid < u.services.length)
    (regular : ∃ sid ∈ sids, 0 < (u.srv sid).settings.interval) :
    ∃ answers sid now t, (forEach sids runInterval).run answers u = ⟨none, [], t⟩ ∧
      t.history = forkedAtInterval sid 1 now u.history := by
  induction sids with
  | nil =>
      obtain ⟨sid, listed, -⟩ := regular
      exact absurd listed List.not_mem_nil
  | cons sid sids ih =>
      by_cases first : (u.srv sid).settings.interval = 0
      · obtain ⟨other, listed, other_regular⟩ := regular
        have later : other ∈ sids := by
          rcases List.mem_cons.mp listed with same | later
          · rw [same] at other_regular
            omega
          · exact later
        obtain ⟨answers, sid', now, t, run, history⟩ :=
          ih (fun sid hsid => valid sid (List.mem_cons_of_mem _ hsid)) ⟨other, later, other_regular⟩
        exact ⟨answers, sid', now, t,
          (bind_run_ok (runInterval_none first answers)).trans run, history⟩
      · have entry := srv_mem (valid sid List.mem_cons_self)
        obtain ⟨answers, t, run, history⟩ := runInterval_forks (by omega) (h.down _ entry)
          (h.named _ entry) h.childless (h.unrequested _ entry)
        refine ⟨answers, sid, _, t, ?_, history⟩
        rw [forEach, bind_run, run]

/-- The rest of the iteration forks such a service, without another command. -/
theorem Idle.not_cancelsNothing {u : Supervisor} (h : Idle u)
    (regular : ∃ srv ∈ u.services, 0 < srv.settings.interval) : ¬ CancelsNothing u := by
  obtain ⟨srv, hsrv, interval⟩ := regular
  obtain ⟨sid, entry⟩ := List.getElem?_of_mem hsrv
  have used : sid < u.services.length := (List.getElem?_eq_some_iff.mp entry).1
  rw [← srv_of_getElem? entry] at interval
  obtain ⟨answers, sid, now, t, run, history⟩ := h.forks
    (fun sid hsid => List.mem_range.mp hsid) ⟨sid, List.mem_range.mpr used, interval⟩
  have rest : patientRest.run answers u = ⟨none, [], t⟩ := by
    have intervals : processServices.run answers u = ⟨none, [], t⟩ := by
      refine (bind_run_ok (a := u) rfl).trans ?_
      rw [bind_run, run]
    rw [patientRest, bind_run, intervals]
  intro nothing
  refine nothing answers ?_ (.forked sid 1) trivial ?_
  · rw [rest, history]
    exact forkedAtInterval_unasked
  · rw [rest, history]
    exact forkedAtInterval_since

/-- The shutdown of an idle supervisor cancels nothing exactly when no service of its table runs
at a regular interval. -/
theorem idleShutdown_cancelsNothing_iff {view : View} {cwd : Str} {u : Supervisor}
    (branch : InIdleBranch view cwd u) :
    CancelsNothing u ↔ ∀ srv ∈ u.services, srv.settings.interval = 0 := by
  have table := branch.table
  constructor
  · intro nothing srv hsrv
    by_contra interval
    exact table.not_cancelsNothing ⟨srv, hsrv, Nat.pos_of_ne_zero interval⟩ nothing
  · intro none answers unasked e starts
    have of_entries {β : Type} (p : ServiceEntry → β) (b : β) (unused : p ServiceEntry.unused = b)
        (entries : ∀ srv ∈ u.services, p srv = b) (sid : Nat) : p (u.srv sid) = b := by
      cases entry : u.services[sid]? with
      | none => rw [srv_of_none entry, unused]
      | some srv => rw [srv_of_getElem? entry, entries srv (List.mem_of_getElem? entry)]
    have settings (sid : Nat) : u.ledger.settings sid = (u.srv sid).settings := by
      rw [Ledger.settings, ledger_standing]
      rfl
    have loop : LoopKeeps (Still u.ledger.settings u.history)
      (Still u.ledger.settings u.history) := by
      apply still_loop
      · intro sid
        rw [settings]
        exact of_entries (·.settings.interval) 0 rfl none sid
      · intro sid
        rw [settings]
        exact of_entries (·.settings.respawn) false rfl table.respawn sid
    have begins : Still u.ledger.settings u.history u.ledger :=
      { settings := fun _ => rfl
        begun := List.suffix_refl _
        unrequested := .inr fun sid => by
          rw [ledger_standing]
          exact of_entries (·.restartRequested) false rfl table.unrequested sid
        unstarted := .inr fun e _ => not_since_self _ e }
    have kept := (patientRest_keeps loop.cycles).state (fun _ hs => hs.2) answers
      ⟨table.consistent, begins⟩
    refine kept.unstarted.resolve_left ?_ e starts
    rintro ⟨sid, asked⟩
    exact unasked sid asked

/-- The main loop begins, and its first iteration comes to the branch. -/
def firstCheck (view : View) (past : List Answer) :
    ScriptRun Answer Supervisor Str (Bool × Bool × Bool) :=
  checks.run ((bringUpServices view []).run past booted).rest
    (((bringUpServices view []).run past booted).state.enter .running)

theorem InIdleBranch.of_run {view : View} {past : List Answer}
    (up : ((bringUpServices view []).run past booted).result = some (.ok 0))
    (passed : (firstCheck view past).result = some (.ok (false, true, false)))
    (idle : (firstCheck view past).state.services.all (fun srv => !srv.toBeRestarted) = true) :
    InIdleBranch view [] (firstCheck view past).state where
  reached := by
    refine ⟨_, _, _, _, (firstCheck view past).rest, .of_run 0 up rfl, .start _ _, ?_⟩
    rw [← passed]
    rfl
  idle := idle

/-- The process of the service has terminated before the first iteration. -/
def terminatedAtOnce (pid : Int) : List Answer :=
  [.signals false, .clock (some 1900), .waited (.reaped pid (.exited 0)), .chdir none,
    .access false, .signals false, .waited .failed, .signals false]

theorem idleShutdown_cancelsNothing_default :
    CancelsNothing (firstCheck defaultOnly (upAndRunning.take 10 ++ terminatedAtOnce 5)).state :=
  (idleShutdown_cancelsNothing_iff (.of_run (by decide +kernel) (by decide +kernel)
    (by decide +kernel))).mpr (by decide +kernel)

/-- The service that runs once in a second has terminated before the first iteration. -/
def secondIdle : Supervisor :=
  (firstCheck ((everySeconds "1\n").view plainSystem {} zeroMemory)
    (secondStarted ++ terminatedAtOnce 100)).state

/-- A second after its start. -/
def secondAgain : List Answer := [.clock (some 2000), .chdir none, .fork (some (200, 6))]

/-- Without the shutdown the service would have been started again. -/
theorem interval_cancelled :
    InIdleBranch ((everySeconds "1\n").view plainSystem {} zeroMemory) [] secondIdle ∧
      ¬ CancelsNothing secondIdle := by
  refine ⟨.of_run (by decide +kernel) (by decide +kernel) (by decide +kernel), fun nothing => ?_⟩
  have added : (patientRest.run secondAgain secondIdle).state.history =
      forkedAtInterval 0 200 2000 secondIdle.history := by decide +kernel
  refine nothing secondAgain ?_ (.forked 0 200) trivial ?_
  · rw [added]
    exact forkedAtInterval_unasked
  · rw [added]
    exact forkedAtInterval_since

end Baseimage.Cinit
