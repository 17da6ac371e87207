import Baseimage.Cinit.SupervisorRules

/-!
# The service table knows the children

The pid of an entry is that of the one unreaped child of the service, or 0 when there is none. A
descriptor is open exactly for the services that have a process, and only these have a logger.
The code restores this before it asks its environment anything: where a child is forked or reaped
the table follows at once.
-/

namespace Baseimage.Cinit

open Script Supervisor

/-- SIGTERM goes to a child of the service, and no logger is started twice. -/
def Event.Sound : Event → Prop
  | .sigterm service _ owner => owner = some service
  | .loggerAlreadyStarted _ => False
  | _ => True

theorem Event.Neutral.sound {e : Event} (h : e.Neutral) : e.Sound := by
  cases e with
  | sigterm service pid owner => exact h.elim
  | loggerAlreadyStarted service => exact h.elim
  | _ => trivial

/-- An entry agrees with what the kernel knows about the children. -/
structure ServiceEntry.Tracks (srv : ServiceEntry) (children : List (Int × Nat)) (sid : Nat) :
    Prop where
  owned : srv.pid ≠ 0 → children.lookup srv.pid = some sid
  single : ∀ pid, children.lookup pid = some sid → srv.pid = pid
  outputFd : 0 ≤ srv.outputFd ↔ srv.pid ≠ 0
  logger : srv.loggerStarted = true → srv.pid ≠ 0

structure Consistent (s : Supervisor) : Prop where
  entries : ∀ (sid : Nat) (srv : ServiceEntry), s.services[sid]? = some srv →
    srv.Tracks s.children sid
  positive : ∀ pid sid, s.children.lookup pid = some sid → 0 < pid
  history : ∀ e ∈ s.history, e.Sound

theorem lookup_cons_eq (children : List (Int × Nat)) (pid q : Int) (sid : Nat) :
    ((pid, sid) :: children).lookup q = if q = pid then some sid else children.lookup q := by
  rw [List.lookup_cons]
  by_cases hq : q = pid
  · rw [if_pos hq, hq, beq_self_eq_true]
  · rw [if_neg hq, beq_false_of_ne hq]

theorem lookup_filter_ne (children : List (Int × Nat)) (pid q : Int) :
    (children.filter (fun child => child.1 != pid)).lookup q =
      if q = pid then none else children.lookup q := by
  induction children with
  | nil => simp
  | cons child children ih =>
      obtain ⟨p, sid⟩ := child
      rw [lookup_cons_eq]
      by_cases hp : p = pid
      · subst hp
        rw [List.filter_cons_of_neg (by simp), ih]
        by_cases hq : q = p
        · rw [if_pos hq, if_pos hq]
        · rw [if_neg hq, if_neg hq, if_neg hq]
      · rw [List.filter_cons_of_pos (by simpa using hp), lookup_cons_eq, ih]
        by_cases hq : q = p
        · rw [if_pos hq, if_pos hq, if_neg (hq ▸ hp)]
        · rw [if_neg hq, if_neg hq]

/-- Reaping another process changes nothing for the entry. -/
theorem ServiceEntry.Tracks.reaped {srv : ServiceEntry} {children : List (Int × Nat)} {sid : Nat}
    (h : srv.Tracks children sid) {pid : Int} (hne : srv.pid ≠ pid) :
    srv.Tracks (children.filter (fun child => child.1 != pid)) sid := by
  refine { h with owned := ?_, single := ?_ }
  · intro up
    rw [lookup_filter_ne, if_neg hne]
    exact h.owned up
  · intro q hq
    rw [lookup_filter_ne] at hq
    split at hq
    · simp at hq
    · exact h.single q hq

theorem findServiceByPid_eq_some {s : Supervisor} {pid : Int} {sid : Nat}
    (h : s.findServiceByPid pid = some sid) :
    ∃ srv, s.services[sid]? = some srv ∧ srv.pid = pid := by
  obtain ⟨hlt, hpid, -⟩ := List.findIdx?_eq_some_iff_getElem.mp h
  exact ⟨s.services[sid], List.getElem?_eq_getElem hlt, eq_of_beq hpid⟩

theorem findServiceByPid_eq_none {s : Supervisor} {pid : Int} (h : s.findServiceByPid pid = none)
    {sid : Nat} {srv : ServiceEntry} (hsrv : s.services[sid]? = some srv) : srv.pid ≠ pid := by
  have hne := List.findIdx?_eq_none_iff.mp h srv (List.mem_of_getElem? hsrv)
  exact fun heq => absurd hne (by simp [heq])

namespace Consistent

variable {s : Supervisor}

theorem record (h : Consistent s) {e : Event} (he : e.Sound) : Consistent (s.record e) := by
  refine { entries := h.entries, positive := h.positive, history := ?_ }
  intro e' he'
  rcases List.mem_cons.mp he' with rfl | old
  · exact he
  · exact h.history e' old

/-- An update of one entry that agrees with the kernel. -/
theorem updateSrv (h : Consistent s) {sid : Nat} {f : ServiceEntry → ServiceEntry}
    (tracks : ∀ srv, s.services[sid]? = some srv → (f srv).Tracks s.children sid) :
    Consistent (s.updateSrv sid f) := by
  refine { entries := ?_, positive := h.positive, history := h.history }
  intro i srv hsrv
  rw [getElem?_updateSrv] at hsrv
  split at hsrv
  · next heq =>
      subst heq
      obtain ⟨old, hold, rfl⟩ := Option.map_eq_some_iff.mp hsrv
      exact tracks old hold
  · exact h.entries i srv hsrv

/-- Two entries with the same process are the same entry. -/
theorem eq_of_pid (h : Consistent s) {i j : Nat} {a b : ServiceEntry}
    (ha : s.services[i]? = some a) (hb : s.services[j]? = some b) (up : a.pid ≠ 0)
    (same : a.pid = b.pid) : i = j := by
  have hi := (h.entries i a ha).owned up
  have hj := (h.entries j b hb).owned (same ▸ up)
  rw [same, hj] at hi
  exact (Option.some.inj hi).symm

theorem forked (h : Consistent s) {sid : Nat} {pid fd : Int} (down : (s.srv sid).pid = 0)
    (hpid : 0 < pid) (hfd : 0 ≤ fd) (fresh : s.children.lookup pid = none) :
    Consistent ((s.forked sid pid fd).setPid sid pid) := by
  refine
    { entries := ?_
      positive := ?_
      history := (h.record (e := .forked sid pid) trivial).history }
  · intro i srv hsrv
    show srv.Tracks ((pid, sid) :: s.children) i
    simp only [setPid, Supervisor.forked, Supervisor.record, getElem?_updateSrv] at hsrv
    split at hsrv
    · next heq =>
        subst heq
        obtain ⟨old', hold', rfl⟩ := Option.map_eq_some_iff.mp hsrv
        obtain ⟨old, hold, rfl⟩ := Option.map_eq_some_iff.mp hold'
        rw [srv_of_getElem? hold] at down
        refine { owned := ?_, single := ?_, outputFd := ?_, logger := ?_ }
        · intro _
          rw [lookup_cons_eq, if_pos rfl]
        · intro q hq
          rw [lookup_cons_eq] at hq
          split at hq
          · next heq => exact heq.symm
          · have positive := h.positive q sid hq
            have single := (h.entries sid old hold).single q hq
            omega
        · simp only
          omega
        · simp only
          omega
    · next hne =>
        have before := h.entries i srv hsrv
        refine { before with owned := ?_, single := ?_ }
        · intro up
          have owned := before.owned up
          rw [lookup_cons_eq, if_neg]
          · exact owned
          · rintro rfl
            simp [fresh] at owned
        · intro q hq
          rw [lookup_cons_eq] at hq
          split at hq
          · exact absurd (Option.some.inj hq) hne
          · exact before.single q hq
  · intro q i hq
    change ((pid, sid) :: s.children).lookup q = some i at hq
    rw [lookup_cons_eq] at hq
    split at hq
    · next heq => exact heq ▸ hpid
    · exact h.positive q i hq

theorem positive_reaped (h : Consistent s) (reaped pid : Int) (sid : Nat)
    (hpid : (s.children.filter (fun child => child.1 != reaped)).lookup pid = some sid) :
    0 < pid := by
  rw [lookup_filter_ne] at hpid
  split at hpid
  · simp at hpid
  · exact h.positive pid sid hpid

theorem reapedOther (h : Consistent s) {pid : Int} {status : WaitStatus}
    (other : s.findServiceByPid pid = none) : Consistent (s.reaped pid status) := by
  refine
    { entries := ?_
      positive := h.positive_reaped pid
      history := (h.record (e := .reaped pid status) trivial).history }
  intro i srv hsrv
  exact (h.entries i srv hsrv).reaped (findServiceByPid_eq_none other hsrv)

theorem reapedService (h : Consistent s) {pid : Int} {status : WaitStatus} {sid : Nat}
    (hpid : 0 < pid) (own : s.findServiceByPid pid = some sid) :
    Consistent ((s.reaped pid status).killed sid) := by
  obtain ⟨srv, hsrv, heq⟩ := findServiceByPid_eq_some own
  refine
    { entries := ?_
      positive := h.positive_reaped pid
      history := (h.record (e := .reaped pid status) trivial).history }
  intro i other hother
  simp only [killed, Supervisor.reaped, Supervisor.record, getElem?_updateSrv] at hother
  split at hother
  · next same =>
      subst same
      obtain ⟨old, hold, rfl⟩ := Option.map_eq_some_iff.mp hother
      refine { owned := ?_, single := ?_, outputFd := ?_, logger := ?_ }
      · simp
      · intro q hq
        change (s.children.filter (fun child => child.1 != pid)).lookup q = some sid at hq
        rw [lookup_filter_ne] at hq
        split at hq
        · simp at hq
        · next hne =>
            have single := (h.entries sid srv hsrv).single q hq
            exact absurd (single.symm.trans heq) hne
      · have closed := ({ old with pid := 0 } : ServiceEntry).joinLogger.closeFd_outputFd
        simp only [ServiceEntry.closeFd_pid, ServiceEntry.joinLogger_pid]
        omega
      · simp
  · next hne =>
      refine (h.entries i other hother).reaped ?_
      rintro rfl
      exact hne (h.eq_of_pid hsrv hother (by omega) heq)

/-- All code of the supervisor keeps the table consistent. -/
theorem kept : Kept Consistent where
  valid h hsrv := by
    next sid srv =>
      by_cases up : srv.pid = 0
      · omega
      · have positive := h.positive _ _ ((h.entries sid srv hsrv).owned up)
        omega
  idle h hsrv down := by
    next sid srv =>
      cases hlogger : srv.loggerStarted with
      | false => rfl
      | true => exact absurd down ((h.entries sid srv hsrv).logger hlogger)
  record he h := h.record he.sound
  requestShutdown h := { entries := h.entries, positive := h.positive, history := h.history }
  setStartTime h := h.updateSrv fun srv hsrv => { h.entries _ srv hsrv with }
  setRestartRequested h := h.updateSrv fun srv hsrv => { h.entries _ srv hsrv with }
  setLoggerExit h := h.updateSrv fun srv hsrv => { h.entries _ srv hsrv with }
  forked h down hpid hfd fresh := h.forked down hpid hfd fresh
  startLogger h up := h.updateSrv fun srv hsrv =>
    { h.entries _ srv hsrv with logger := fun _ => up srv hsrv }
  sigterm h up := h.record ((h.entries _ _ (getElem?_of_pid up)).owned up)
  reapedOther h _ other := h.reapedOther other
  reapedService h hpid own := h.reapedService hpid own
  shutdownBy h _ := { entries := h.entries, positive := h.positive, history := h.history }

/-- The services have just been loaded. -/
theorem load (ctx : LoadContext) : Consistent (booted.load ctx) := by
  refine { entries := ?_, positive := ?_, history := ?_ }
  · intro sid srv hsrv
    simp only [Supervisor.load, List.getElem?_map] at hsrv
    obtain ⟨settings, -, rfl⟩ := Option.map_eq_some_iff.mp hsrv
    exact
      { owned := fun up => absurd rfl up
        single := by simp [Supervisor.load, booted]
        outputFd := by simp
        logger := by simp }
  · simp [Supervisor.load, booted]
  · simp [Supervisor.load, booted]

theorem enter (h : Consistent s) (phase : Phase) : Consistent (s.enter phase) :=
  { entries := h.entries, positive := h.positive, history := h.history }

theorem unload (h : Consistent s) : Consistent s.unload :=
  { entries := by simp [Supervisor.unload], positive := h.positive, history := h.history }

end Consistent

open Code

/-- What is known about the processes of the services. The owner of a SIGTERM is the service whose
unreaped child got it. -/
structure ChildrenTracked (s : Supervisor) : Prop where
  pid : ∀ (sid : Nat) (srv : ServiceEntry), s.services[sid]? = some srv →
    srv.pid = 0 ∨ s.children.lookup srv.pid = some sid
  distinct : ∀ (i j : Nat) (a b : ServiceEntry), s.services[i]? = some a →
    s.services[j]? = some b → a.pid ≠ 0 → a.pid = b.pid → i = j
  atMostOne : ∀ (sid : Nat) (p q : Int), sid < s.services.length →
    s.children.lookup p = some sid → s.children.lookup q = some sid → p = q
  outputFd : ∀ (sid : Nat) (srv : ServiceEntry), s.services[sid]? = some srv →
    (srv.outputFd ≥ 0 ↔ srv.pid ≠ 0)
  loggerStarted : ∀ (sid : Nat) (srv : ServiceEntry), s.services[sid]? = some srv →
    srv.loggerStarted = true → srv.pid ≠ 0
  assertion : ∀ sid, .loggerAlreadyStarted sid ∉ s.history
  sigterm : ∀ sid pid owner, .sigterm sid pid owner ∈ s.history → owner = some sid

theorem Consistent.childrenTracked {s : Supervisor} (h : Consistent s) : ChildrenTracked s := by
  constructor
  · intro sid srv hsrv
    by_cases up : srv.pid = 0
    · exact Or.inl up
    · exact Or.inr ((h.entries sid srv hsrv).owned up)
  · intro i j a b ha hb up same
    exact h.eq_of_pid ha hb up same
  · intro sid p q hlt hp hq
    have tracks := h.entries sid _ (List.getElem?_eq_getElem hlt)
    exact (tracks.single p hp).symm.trans (tracks.single q hq)
  · intro sid srv hsrv
    exact (h.entries sid srv hsrv).outputFd
  · intro sid srv hsrv
    exact (h.entries sid srv hsrv).logger
  · intro sid hmem
    exact h.history _ hmem
  · intro sid pid owner hmem
    exact h.history _ hmem

theorem main_consistent (view : View) (cwd : Str) (servicesGracetime : Nat)
    (answers : List Answer) :
    Consistent ((Code.main view cwd servicesGracetime).run answers booted).state := by
  apply Code.main_state Consistent.kept (Consistent.load _)
  · exact fun _ phase hs => hs.enter phase
  · exact fun _ hs => hs.unload

/-- Wherever the supervisor waits for an answer, and when it ends, it knows the children. -/
theorem main_childrenTracked (view : View) (cwd : Str) (servicesGracetime : Nat)
    (answers : List Answer) :
    ChildrenTracked ((Code.main view cwd servicesGracetime).run answers booted).state :=
  (main_consistent view cwd servicesGracetime answers).childrenTracked

end Baseimage.Cinit
