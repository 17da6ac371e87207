import Baseimage.Cinit.Children

/-!
# The exit status after a shutdown that a service caused

When a service with `shutdown_on_terminate` terminates, `handle_killed` requests the shutdown and
records the exit code of the service in `g_ctx.exit_code`. At its end `main` uses this code only
if the exit status is still 0. While the services are being started the same termination is also
a failed start, unless the failure is ignored or a sync service exits with 0, and the handler of a
failed start sets the exit status to 1.
-/

namespace Baseimage.Cinit

open Script Supervisor Code

/-- The part of the state the exit status depends on. -/
structure Verdict where
  settings : List Service
  doShutdown : Bool
  exitCode : Nat
  phase : Phase
  cause : Option Cause

def Supervisor.verdict (s : Supervisor) : Verdict :=
  { settings := s.services.map ServiceEntry.settings
    doShutdown := s.doShutdown
    exitCode := s.exitCode
    phase := s.phase
    cause := s.shutdownCause }

namespace Verdict

def requestShutdown (v : Verdict) : Verdict := { v with doShutdown := true }

def shutdownBy (v : Verdict) (sid : Nat) (status : WaitStatus) : Verdict :=
  { v with
    doShutdown := true
    exitCode := status.exitCode
    cause := some { service := sid, status := status, phase := v.phase } }

/-- The exit code is that of the service that caused the shutdown. -/
def Sound (v : Verdict) : Prop :=
  match v.cause with
  | none => v.exitCode = 0
  | some c => v.doShutdown = true ∧ v.exitCode = c.status.exitCode

/-- If a service caused the shutdown, the cause meets the condition. -/
def CauseMeets (C : Cause → Prop) (v : Verdict) : Prop := ∀ c, v.cause = some c → C c

theorem Sound.requestShutdown {v : Verdict} (h : v.Sound) : v.requestShutdown.Sound := by
  unfold Sound at h ⊢
  simp only [Verdict.requestShutdown]
  split at h
  · exact h
  · exact ⟨trivial, h.2⟩

theorem Sound.shutdownBy (v : Verdict) (sid : Nat) (status : WaitStatus) :
    (v.shutdownBy sid status).Sound :=
  ⟨rfl, rfl⟩

theorem Sound.no_cause {v : Verdict} (h : v.Sound) (notRequested : v.doShutdown = false) :
    v.cause = none := by
  unfold Sound at h
  split at h
  · next heq => exact heq
  · exact absurd h.1 (by simp [notRequested])

theorem Sound.exitCode_eq {v : Verdict} (h : v.Sound) {c : Cause} (hc : v.cause = some c) :
    v.exitCode = c.status.exitCode := by
  unfold Sound at h
  rw [hc] at h
  exact h.2

end Verdict

theorem verdict_updateSrv (s : Supervisor) (sid : Nat) {f : ServiceEntry → ServiceEntry}
    (h : ∀ srv, (f srv).settings = srv.settings) : (s.updateSrv sid f).verdict = s.verdict := by
  have same : (s.services.modify sid f).map ServiceEntry.settings =
      s.services.map ServiceEntry.settings := by
    apply List.ext_getElem?
    intro i
    simp only [List.getElem?_map, List.getElem?_modify]
    split
    · cases s.services[i]? with
      | none => rfl
      | some srv => simp [h]
    · simp
  simp only [verdict, updateSrv, same]

@[simp] theorem verdict_setPid (s : Supervisor) (sid : Nat) (pid : Int) :
    (s.setPid sid pid).verdict = s.verdict :=
  verdict_updateSrv s sid fun _ => rfl

@[simp] theorem verdict_setStartTime (s : Supervisor) (sid : Nat) (now : UInt64) :
    (s.setStartTime sid now).verdict = s.verdict :=
  verdict_updateSrv s sid fun _ => rfl

@[simp] theorem verdict_setRestartRequested (s : Supervisor) (sid : Nat) (requested : Bool) :
    (s.setRestartRequested sid requested).verdict = s.verdict :=
  verdict_updateSrv s sid fun _ => rfl

@[simp] theorem verdict_setLoggerExit (s : Supervisor) (sid : Nat) (exit : Bool) :
    (s.setLoggerExit sid exit).verdict = s.verdict :=
  verdict_updateSrv s sid fun _ => rfl

@[simp] theorem verdict_startLogger (s : Supervisor) (sid : Nat) :
    (s.startLogger sid).verdict = s.verdict :=
  verdict_updateSrv s sid fun _ => rfl

@[simp] theorem verdict_forked (s : Supervisor) (sid : Nat) (pid fd : Int) :
    (s.forked sid pid fd).verdict = s.verdict :=
  verdict_updateSrv { s with children := (pid, sid) :: s.children } sid fun _ => rfl

@[simp] theorem verdict_killed (s : Supervisor) (sid : Nat) :
    (s.killed sid).verdict = s.verdict :=
  verdict_updateSrv s sid fun srv => by simp

/-- A condition on the verdict that a requested shutdown keeps is kept by starting and
stopping. -/
theorem calm_verdict {C : Verdict → Prop} (request : ∀ v, C v → C v.requestShutdown) :
    Calm (fun s => Consistent s ∧ C s.verdict) where
  valid h hsrv := Consistent.kept.valid h.1 hsrv
  idle h hsrv down := Consistent.kept.idle h.1 hsrv down
  record he h := ⟨Consistent.kept.record he h.1, h.2⟩
  requestShutdown h := ⟨Consistent.kept.requestShutdown h.1, request _ h.2⟩
  setStartTime h := ⟨Consistent.kept.setStartTime h.1, by rw [verdict_setStartTime]; exact h.2⟩
  setRestartRequested h :=
    ⟨Consistent.kept.setRestartRequested h.1, by rw [verdict_setRestartRequested]; exact h.2⟩
  setLoggerExit h := ⟨Consistent.kept.setLoggerExit h.1, by rw [verdict_setLoggerExit]; exact h.2⟩
  forked h down hpid hfd fresh :=
    ⟨h.1.forked down hpid hfd fresh, by rw [verdict_setPid, verdict_forked]; exact h.2⟩
  startLogger h up :=
    ⟨Consistent.kept.startLogger h.1 up, by rw [verdict_startLogger]; exact h.2⟩
  sigterm h up := ⟨Consistent.kept.sigterm h.1 up, h.2⟩

/-- It is kept by all code if a service that causes a shutdown keeps it too. -/
theorem kept_verdict {C : Verdict → Prop} (request : ∀ v, C v → C v.requestShutdown)
    (shutdownBy : ∀ v sid status, C v → v.doShutdown = false → C (v.shutdownBy sid status)) :
    Kept (fun s => Consistent s ∧ C s.verdict) where
  toCalm := calm_verdict request
  reapedOther h _ other := ⟨h.1.reapedOther other, h.2⟩
  reapedService h hpid own :=
    ⟨h.1.reapedService hpid own, by rw [verdict_killed]; exact h.2⟩
  shutdownBy h notRequested :=
    ⟨Consistent.kept.shutdownBy h.1 notRequested, shutdownBy _ _ _ h.2 notRequested⟩

/-! ## Bringing up the services -/

section BringUp

variable (loaded : List Service)

/-- Start-up does not take the termination for a failed start. -/
def Tolerated (c : Cause) : Prop :=
  ∃ srv, loaded[c.service]? = some srv ∧
    (srv.ignoreFailure = true ∨ srv.sync = true ∧ c.status = .exited 0)

/-- The verdict during the start-up, with a condition on the cause of a shutdown. -/
structure StartingVerdict (C : Cause → Prop) (v : Verdict) : Prop where
  settings : v.settings = loaded
  phase : v.phase = .starting
  sound : v.Sound
  cause : v.CauseMeets C

def Starting (C : Cause → Prop) (s : Supervisor) : Prop :=
  Consistent s ∧ StartingVerdict loaded C s.verdict

variable {loaded}

theorem starting_calm (C : Cause → Prop) : Calm (Starting loaded C) :=
  calm_verdict fun _ hv => { hv with sound := hv.sound.requestShutdown }

theorem Starting.mono {C D : Cause → Prop} {s : Supervisor} (h : Starting loaded C s)
    (imp : ∀ c, C c → D c) : Starting loaded D s :=
  ⟨h.1, { h.2 with cause := fun c hc => imp c (h.2.cause c hc) }⟩

/-- The settings of an entry are those that were loaded. -/
theorem Starting.settings_eq {C : Cause → Prop} {s : Supervisor} (h : Starting loaded C s)
    {sid : Nat} {srv : Service} (hsrv : loaded[sid]? = some srv) : (s.srv sid).settings = srv := by
  have settings : s.services.map ServiceEntry.settings = loaded := h.2.settings
  rw [← settings, List.getElem?_map] at hsrv
  obtain ⟨entry, hentry, rfl⟩ := Option.map_eq_some_iff.mp hsrv
  rw [srv_of_getElem? hentry]

variable (loaded)

/-- The service caused the shutdown. -/
def By (sid : Nat) (c : Cause) : Prop :=
  c.phase = .starting ∧ c.service = sid ∧ ∃ srv, loaded[sid]? = some srv

/-- It is a sync service, and it exited with 0. -/
def Clean (c : Cause) : Prop :=
  ∃ srv, loaded[c.service]? = some srv ∧ srv.sync = true ∧ c.status = .exited 0

variable {loaded}

/-- Nothing has caused a shutdown before the process of the service is reaped, and then only this
service may. -/
theorem starting_ownKilled (sid : Nat) :
    OwnKilled (Starting loaded fun _ => False)
      (fun status => Starting loaded fun c => By loaded sid c ∧ c.status = status)
      (fun _ => True) sid := by
  intro pid status hpid
  have none_by {v : Verdict} (hv : StartingVerdict loaded (fun _ => False) v) :
      StartingVerdict loaded (fun c => By loaded sid c ∧ c.status = status) v :=
    { hv with cause := fun c hc => (hv.cause c hc).elim }
  have killed : Spec (fun t => ∃ s, (Starting loaded (fun _ => False) s ∧ (s.srv sid).pid = pid) ∧
      t = s.reaped pid status) (handleKilled pid status)
      (fun _ => Starting loaded fun c => By loaded sid c ∧ c.status = status) (fun _ _ => False)
      (Starting loaded fun c => By loaded sid c ∧ c.status = status) := by
    refine handleKilled_spec (starting_calm _).quiet hpid ?_ ?_ ?_
    · rintro s ⟨hs, -⟩ other
      exact ⟨hs.1.reapedOther other, none_by hs.2⟩
    · rintro s own ⟨hs, -⟩ found
      refine ⟨hs.1.reapedService hpid found, ?_⟩
      rw [verdict_killed]
      exact none_by hs.2
    · rintro s t own ⟨hs, up⟩ found ht notRequested
      obtain ⟨srv, hsrv, heq⟩ := findServiceByPid_eq_some found
      have same : own = sid :=
        hs.1.eq_of_pid hsrv (getElem?_of_pid (by omega)) (by omega) (heq.trans up.symm)
      have listed : loaded[own]? = some srv.settings := by
        rw [← hs.2.settings]
        simp [verdict, hsrv]
      refine ⟨Consistent.kept.shutdownBy ht.1 notRequested, ?_⟩
      refine
        { settings := ht.2.settings
          phase := ht.2.phase
          sound := Verdict.Sound.shutdownBy t.verdict own status
          cause := ?_ }
      rintro c hc
      obtain rfl := Option.some.inj hc
      exact ⟨⟨ht.2.phase, same, srv.settings, same ▸ listed⟩, rfl⟩
  exact killed.consequence (fun _ hs => hs) (fun _ _ hs => hs) (fun _ _ hs => hs) fun _ _ => trivial

/-- What caused a shutdown while a service is brought up is its termination, and whether this is
a failed start depends on the settings and the status. -/
theorem bringUp_spec (sid : Nat) :
    Spec (Starting loaded fun _ => False) (bringUp sid)
      (fun _ => Starting loaded fun c => By loaded sid c ∧ Clean loaded c)
      (fun _ => Starting loaded fun c => By loaded sid c ∧ ¬Clean loaded c) (fun _ => True) := by
  have calm : Calm (Starting loaded fun _ => False) := starting_calm _
  have valid (s : Supervisor) (hs : Starting loaded (fun _ => False) s) : 0 ≤ (s.srv sid).pid :=
    calm.pid_nonneg hs sid
  have any (C : Cause → Prop) : ∀ s, Starting loaded (fun _ => False) s → Starting loaded C s :=
    fun s hs => hs.mono fun _ hc => hc.elim
  refine Spec.step ((startService_keeps calm sid).spec (fun _ _ hs => hs) (fun _ => any _)
    fun _ _ => trivial) fun _ => ?_
  refine Spec.bind (srv_spec sid) fun service => Spec.with_entry ?_
  rintro s ⟨hs, rfl⟩
  have settings {srv : Service} (hsrv : loaded[sid]? = some srv) : (s.srv sid).settings = srv :=
    hs.settings_eq hsrv
  apply Spec.pre (P := Starting loaded fun _ => False) _ (by rintro _ rfl; exact hs)
  refine Spec.ite ?_ fun async => Spec.ite (fun _ => Spec.pure (any _)) fun _ => ?_
  · intro sync
    refine runSync_spec calm.quiet valid (any _) (fun _ _ => trivial) (any _)
      (starting_ownKilled sid) ?_ ?_
    · intro t ht
      refine ht.mono ?_
      rintro c ⟨own, status⟩
      obtain ⟨srv, hsrv⟩ := own.2.2
      refine ⟨own, srv, own.2.1 ▸ hsrv, ?_, status⟩
      rw [← settings hsrv]
      exact sync
    · intro status t error ht
      refine ht.mono ?_
      rintro c ⟨own, rfl⟩
      refine ⟨own, ?_⟩
      rintro ⟨srv, -, -, clean⟩
      exact error clean
  · refine Spec.step (waitUptime_spec calm.quiet valid (any _) (fun _ _ => trivial)
      (starting_ownKilled sid) ?_) fun up => Spec.ite (fun _ => ?_) fun _ => Spec.pure (any _)
    · intro status t ht
      refine ht.mono ?_
      rintro c ⟨own, -⟩
      refine ⟨own, ?_⟩
      rintro ⟨srv, hsrv, sync, -⟩
      rw [own.2.1] at hsrv
      rw [← settings hsrv] at sync
      exact async sync
    · exact (waitReady_keeps calm.quiet sid).spec (fun _ => any _) (fun _ => any _) fun _ _ =>
        trivial

theorem startFailed_spec (sid : Nat) (message : Str) :
    Spec (Starting loaded fun c => By loaded sid c ∧ ¬Clean loaded c) (startFailed sid message)
      (fun _ => Starting loaded fun c => c.phase = .starting ∧ Tolerated loaded c)
      (fun _ => Starting loaded fun c => c.phase = .starting ∧ ¬Tolerated loaded c)
      (fun _ => True) := by
  refine Spec.bind (srv_spec sid) fun service => Spec.with_entry ?_
  rintro s ⟨hs, rfl⟩
  have settings {srv : Service} (hsrv : loaded[sid]? = some srv) : (s.srv sid).settings = srv :=
    hs.settings_eq hsrv
  refine Spec.ite ?_ ?_
  · intro ignored
    apply Spec.pure
    rintro _ rfl
    refine hs.mono ?_
    rintro c ⟨own, -⟩
    obtain ⟨srv, hsrv⟩ := own.2.2
    refine ⟨own.1, srv, own.2.1 ▸ hsrv, Or.inl ?_⟩
    rw [← settings hsrv]
    exact ignored
  · intro counted
    refine throwMessage_spec ?_ (fun _ _ => trivial) _
    rintro _ rfl
    refine hs.mono ?_
    rintro c ⟨own, error⟩
    refine ⟨own.1, ?_⟩
    rintro ⟨srv, hsrv, ignored | clean⟩
    · rw [own.2.1] at hsrv
      rw [← settings hsrv] at ignored
      exact counted ignored
    · exact error ⟨srv, hsrv, clean⟩

theorem startServices_spec (order : List Int) :
    Spec (Starting loaded fun c => c.phase = .starting ∧ Tolerated loaded c) (startServices order)
      (fun _ => Starting loaded fun c => c.phase = .starting ∧ Tolerated loaded c)
      (fun _ => Starting loaded fun c => c.phase = .starting ∧ ¬Tolerated loaded c)
      (fun _ => True) := by
  induction order with
  | nil => exact Spec.pure fun _ hs => hs
  | cons sid order ih =>
      refine Spec.ite (fun _ => Spec.pure fun _ hs => hs) fun _ => ?_
      refine Spec.bind (srv_spec _) fun service => ?_
      refine Spec.ite (fun _ => ih.pre fun _ hs => hs.1) fun _ => ?_
      apply Spec.pre (P := Starting loaded fun c => c.phase = .starting ∧ Tolerated loaded c) _
        fun _ hs => hs.1
      refine Spec.bind
        (shutdownRequested_spec (fun _ _ => trivial) (starting_calm _).requestShutdown)
        fun requested => ?_
      refine Spec.ite (fun _ => Spec.pure fun _ hs => hs.1) fun notRequested => ?_
      -- A service that has caused a shutdown would have ended the loop.
      apply Spec.pre (P := Starting loaded fun _ => False)
      · refine Spec.bind (M := fun _ => Starting loaded
          fun c => c.phase = .starting ∧ Tolerated loaded c) ?_ fun _ => ih
        refine Spec.tryCatch ((bringUp_spec _).consequence (fun _ hs => hs) ?_ (fun _ _ hs => hs)
          fun _ _ => trivial) (startFailed_spec _)
        intro _ s hs
        refine hs.mono ?_
        rintro c ⟨own, srv, hsrv, clean⟩
        exact ⟨own.1, srv, hsrv, Or.inr clean⟩
      · rintro s ⟨hs, requested⟩
        refine ⟨hs.1, { hs.2 with cause := ?_ }⟩
        have down : s.verdict.doShutdown = false :=
          requested.trans (Bool.eq_false_iff.mpr notRequested)
        simp [Verdict.CauseMeets, hs.2.sound.no_cause down]

end BringUp

/-! ## From the start-up to the exit -/

section Exit

variable (loaded : List Service)

/-- The service did not terminate in the course of a failed start. -/
def Counted (c : Cause) : Prop := c.phase ≠ .starting ∨ Tolerated loaded c

/-- What the exit status after the start-up says about the cause of a shutdown. -/
structure Decided (exitStatus : Nat) (v : Verdict) : Prop where
  sound : v.Sound
  phase : v.phase ≠ .starting
  cause : exitStatus = 0 ∧ v.CauseMeets (Counted loaded) ∨
    exitStatus = 1 ∧ v.doShutdown = true ∧ v.CauseMeets fun c => ¬Counted loaded c

/-- The status is the exit code of the service unless it terminated in a failed start. -/
def Final (status : Nat) (c : Cause) : Prop :=
  status = c.status.exitCode ↔ Counted loaded c ∨ c.status.exitCode = 1

variable {loaded}

theorem decided_kept (exitStatus : Nat) :
    Kept (fun s => Consistent s ∧ Decided loaded exitStatus s.verdict) := by
  refine kept_verdict ?_ ?_
  · intro v hv
    refine { sound := hv.sound.requestShutdown, phase := hv.phase, cause := ?_ }
    rcases hv.cause with counted | ⟨failed, -, cause⟩
    · exact Or.inl counted
    · exact Or.inr ⟨failed, rfl, cause⟩
  · intro v sid status hv notRequested
    refine { sound := Verdict.Sound.shutdownBy v sid status, phase := hv.phase, cause := ?_ }
    rcases hv.cause with ⟨ok, -⟩ | ⟨-, requested, -⟩
    · refine Or.inl ⟨ok, ?_⟩
      rintro c hc
      obtain rfl := Option.some.inj hc
      exact Or.inl hv.phase
    · rw [requested] at notRequested
      exact absurd notRequested (by decide)

/-- The choice of the exit status at the end of `main`. -/
theorem Decided.final {exitStatus : Nat} {v : Verdict} (h : Decided loaded exitStatus v) :
    v.CauseMeets (Final loaded
      (if exitStatus = 0 ∧ v.exitCode ≠ 0 then v.exitCode else exitStatus)) := by
  intro c hc
  have code := h.sound.exitCode_eq hc
  rcases h.cause with ⟨rfl, counted⟩ | ⟨rfl, -, failed⟩
  · have status : (if 0 = 0 ∧ v.exitCode ≠ 0 then v.exitCode else 0) = v.exitCode := by
      split <;> omega
    rw [status, code]
    exact iff_of_true rfl (Or.inl (counted c hc))
  · rw [if_neg (by omega)]
    constructor
    · intro same
      exact Or.inr same.symm
    · rintro (counted | same)
      · exact absurd counted (failed c hc)
      · exact same.symm

/-- After a shutdown was requested its cause does not change. -/
theorem final_kept (C : Cause → Prop) :
    Kept (fun s => Consistent s ∧ s.verdict.doShutdown = true ∧ s.verdict.CauseMeets C) := by
  refine kept_verdict (C := fun v => v.doShutdown = true ∧ v.CauseMeets C) ?_ ?_
  · intro v hv
    exact ⟨rfl, hv.2⟩
  · intro v sid status hv notRequested
    rw [hv.1] at notRequested
    exact absurd notRequested (by decide)

variable (view : View) (cwd : Str)

theorem bringUpServices_spec :
    Spec (fun s => s = booted) (bringUpServices view cwd)
      (fun exitStatus s => Consistent s ∧
        Decided (loadDefault view cwd).2.services exitStatus (s.enter .running).verdict)
      (fun _ _ => False) (fun _ => True) := by
  refine Spec.tryCatch
    (T := fun _ s => Consistent s ∧ s.verdict.Sound ∧
      s.verdict.CauseMeets fun c => ¬Counted (loadDefault view cwd).2.services c) ?_ fun _ => ?_
  · have loaded : (booted.load (loadDefault view cwd).2).verdict.settings =
        (loadDefault view cwd).2.services := by
      simp [verdict, Supervisor.load, Function.comp_def]
    refine Spec.bind (M := fun _ s => s = booted.load (loadDefault view cwd).2) ?_ fun _ => ?_
    · refine Spec.bind (M := fun _ s => s = booted.load (loadDefault view cwd).2)
        (Spec.modify (by rintro _ rfl; rfl)) fun _ => ?_
      refine (Keeps.ofOutcome _).spec (fun _ _ hs => hs) ?_ fun _ _ => trivial
      rintro _ s rfl
      exact ⟨Consistent.load _, rfl, by rintro c hc; simp [verdict, Supervisor.load, booted] at hc⟩
    · refine Spec.bind (M := fun _ => Starting (loadDefault view cwd).2.services
        fun c => c.phase = .starting ∧ Tolerated (loadDefault view cwd).2.services c)
        (Spec.modify ?_) fun _ => ?_
      · rintro _ rfl
        refine ⟨(Consistent.load _).enter _,
          { settings := loaded, phase := rfl, sound := rfl, cause := ?_ }⟩
        rintro c hc
        simp [verdict, Supervisor.load, Supervisor.enter, booted] at hc
      · refine Spec.bind (Spec.get (Q := fun _ => Starting (loadDefault view cwd).2.services
          fun c => c.phase = .starting ∧ Tolerated (loadDefault view cwd).2.services c)
          fun _ hs => hs) fun s => ?_
        refine Spec.bind ((startServices_spec _).consequence (fun _ hs => hs) (fun _ _ hs => hs) ?_
          fun _ hs => hs) fun _ => Spec.pure ?_
        · intro _ s hs
          refine ⟨hs.1, hs.2.sound, fun c hc => ?_⟩
          obtain ⟨starting, notTolerated⟩ := hs.2.cause c hc
          rintro (other | tolerated)
          · exact other starting
          · exact notTolerated tolerated
        · intro s hs
          refine ⟨hs.1, { sound := hs.2.sound, phase := ?_, cause := Or.inl ⟨rfl, ?_⟩ }⟩
          · simp [verdict, Supervisor.enter]
          · exact fun c hc => Or.inr (hs.2.cause c hc).2
  · refine Spec.bind (M := fun _ s => Consistent s ∧ s.verdict.Sound ∧
      s.verdict.doShutdown = true ∧
      s.verdict.CauseMeets fun c => ¬Counted (loadDefault view cwd).2.services c)
      (Spec.modify ?_) fun _ => Spec.pure ?_
    · intro s hs
      exact ⟨Consistent.kept.requestShutdown hs.1, hs.2.1.requestShutdown, rfl, hs.2.2⟩
    · intro s hs
      refine ⟨hs.1, { sound := hs.2.1, phase := ?_, cause := Or.inr ⟨rfl, hs.2.2⟩ }⟩
      simp [verdict, Supervisor.enter]

theorem main_spec (servicesGracetime : Nat) :
    Spec (fun s => s = booted) (main view cwd servicesGracetime)
      (fun status s => s.verdict.CauseMeets (Final (loadDefault view cwd).2.services status))
      (fun _ _ => True) (fun _ => True) := by
  refine Spec.bind ((bringUpServices_spec view cwd).consequence (fun _ hs => hs) (fun _ _ hs => hs)
    (fun _ _ _ => trivial) fun _ hs => hs) fun exitStatus => ?_
  refine Spec.bind (M := fun _ s => Consistent s ∧
    Decided (loadDefault view cwd).2.services exitStatus s.verdict) (Spec.modify ?_) fun _ => ?_
  · exact fun s hs => ⟨hs.1.enter _, hs.2⟩
  refine Spec.step ((mainLoop_keeps (decided_kept exitStatus).cycles).spec (fun _ _ hs => hs)
    (fun _ _ _ => trivial) fun _ _ => trivial) fun _ => ?_
  refine Spec.bind (Spec.get (Q := fun t s => t = s ∧ Consistent s ∧
    Decided (loadDefault view cwd).2.services exitStatus s.verdict) fun _ hs => ⟨rfl, hs⟩)
    fun t => ?_
  generalize hstatus : (if exitStatus = 0 ∧ t.exitCode ≠ 0 then t.exitCode else exitStatus) = status
  apply Spec.pre (P := fun s => Consistent s ∧
    s.verdict.CauseMeets (Final (loadDefault view cwd).2.services status))
  · refine Spec.bind (shutdownRequested_spec (fun _ _ => trivial)
      fun hs => ⟨Consistent.kept.requestShutdown hs.1, hs.2⟩) fun requested => Spec.ite ?_ ?_
    · intro hrequested
      refine Spec.bind (M := fun _ s => Consistent s ∧ s.verdict.doShutdown = true ∧
        s.verdict.CauseMeets (Final (loadDefault view cwd).2.services status)) (Spec.modify ?_)
        fun _ => ?_
      · rintro s ⟨hs, down⟩
        exact ⟨hs.1.enter _, down.trans hrequested, hs.2⟩
      · refine Spec.step ((cinitShutdown_keeps (final_kept _).stops _).spec (fun _ _ hs => hs)
          (fun _ _ _ => trivial) fun _ _ => trivial) fun _ => ?_
        refine Spec.bind (M := fun _ s => s.verdict.CauseMeets
          (Final (loadDefault view cwd).2.services status)) (Spec.modify ?_) fun _ =>
          Spec.pure fun _ hs => hs
        exact fun s hs => hs.2.2
    · exact fun _ => Spec.abort fun _ _ => trivial
  · rintro s ⟨rfl, hs⟩
    subst hstatus
    exact ⟨hs.1, hs.2.final⟩

end Exit

/-- In every run in which a service caused the shutdown, the status passed to `cinit_exit` is the
exit code of this service if and only if it did not terminate in a failed start, or the code is
that of a failed start. -/
theorem exitStatus_eq_iff (view : View) (cwd : Str) (servicesGracetime : Nat)
    (answers : List Answer) (status : Nat) (c : Cause)
    (ended : ((main view cwd servicesGracetime).run answers booted).result = some (.ok status))
    (cause : ((main view cwd servicesGracetime).run answers booted).state.shutdownCause = some c) :
    status = c.status.exitCode ↔
      (c.phase ≠ .starting ∨ Tolerated (loadDefault view cwd).2.services c) ∨
        c.status.exitCode = 1 := by
  have ends := main_spec view cwd servicesGracetime answers booted rfl
  unfold Ends at ends
  rw [ended] at ends
  exact ends c cause

/-- A services root with one service, the application. -/
def application : View where
  chdirToService _ := .ok ()
  settings _ := .ok
    { name := "default".toList, uid := 1000, gid := 1000, sgidList := [], umask := 18
      readyTimeout := 10000, minRunningTime := 1000, shutdownOnTerminate := true }
  listing _ := .ok []
  depends _ _ _ _ := .ok false

/-- The application is forked. -/
def forkAnswers : List Answer :=
  [.signals false, .chdir none, .fork (some (100, 5)), .clock (some 1000), .malloc true,
    .pthreadCreate none]

/-- Its process has exited with 42, there is no finish program, and no signal came. -/
def reapAnswers : List Answer :=
  [.waited (.reaped 100 (.exited 42)), .chdir none, .access false, .signals false]

/-- The shutdown: nothing is left to stop, and no child remains. -/
def shutdownAnswers : List Answer :=
  [.signals false, .clock (some 9000), .waited .failed]

/-- The application exits 200 ms after its start. It is asked for at once, and again after 500 ms,
when its minimum running time of 1000 ms is not over. -/
def earlyExit : List Answer :=
  forkAnswers ++ ([.signals false, .clock (some 1000), .waited .running] : List Answer) ++
    ([.signals false, .clock (some 1500)] : List Answer) ++ reapAnswers ++
    ([.signals false] : List Answer) ++ shutdownAnswers

/-- The application exits in the main loop. -/
def lateExit : List Answer :=
  forkAnswers ++
    ([.signals false, .clock (some 2000), .chdir none, .access false] : List Answer) ++
    ([.signals false, .clock (some 2100)] : List Answer) ++ reapAnswers ++
    ([.waited .failed, .signals false] : List Answer) ++ shutdownAnswers

theorem exitStatus_eq_iff_lateExit :
    ((main application [] 5000).run lateExit booted).result = some (.ok 42) ∧
      (42 = (WaitStatus.exited 42).exitCode ↔
        (Phase.running ≠ .starting ∨
          Tolerated (loadDefault application []).2.services
            { service := 0, status := .exited 42, phase := .running }) ∨
          (WaitStatus.exited 42).exitCode = 1) := by
  have ended : ((main application [] 5000).run lateExit booted).result = some (.ok 42) := by
    decide +kernel
  exact ⟨ended, exitStatus_eq_iff application [] 5000 lateExit 42
    { service := 0, status := .exited 42, phase := .running } ended (by decide +kernel)⟩

/-- The application exits with 42 and the container with 1. -/
theorem early_exit_loses_code :
    ((main application [] 5000).run earlyExit booted).result = some (.ok 1) ∧
      ((main application [] 5000).run earlyExit booted).state.shutdownCause =
        some { service := 0, status := .exited 42, phase := .starting } ∧
      1 ≠ (WaitStatus.exited 42).exitCode := by
  decide +kernel

end Baseimage.Cinit
