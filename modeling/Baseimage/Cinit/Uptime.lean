import Baseimage.Cinit.MainLoop

/-!
# The minimum uptime

After the start of a service the supervisor waits until it has run for its minimum time. In each
round of the loop it looks at the clock, then at the process, and sleeps for 500 ms. The process
terminates at some moment, in milliseconds of the same clock. A termination after the last
`waitpid` is not noticed, although the uptime is met only when the clock is read the next time.
-/

namespace Baseimage.Cinit

open Script Supervisor

namespace Code

variable {answers : List Answer} {s : Supervisor}

theorem getTime_run (now : UInt64) :
    getTime.run (.clock (some now) :: answers) s =
      ⟨some (.ok now), answers, s.record (.clock now)⟩ :=
  rfl

theorem shutdownRequested_run {requested : Bool} (h : s.doShutdown = requested) :
    shutdownRequested.run (.signals false :: answers) s = ⟨some (.ok requested), answers, s⟩ := by
  show (⟨some (.ok s.doShutdown), answers, s⟩ : ScriptRun Answer Supervisor Str Bool) = _
  rw [h]

theorem srv_run (sid : Nat) :
    (srv sid).run answers s = ⟨some (.ok (s.srv sid)), answers, s⟩ := rfl

theorem waitpid_running_run (pid : Int) :
    (waitpid pid true).run (.waited .running :: answers) s = ⟨some (.ok .running), answers, s⟩ :=
      rfl

theorem waitpid_reaped_run {pid : Int} (h : 0 < pid) (status : WaitStatus) :
    (waitpid pid true).run (.waited (.reaped pid status) :: answers) s =
      ⟨some (.ok (.reaped pid status)), answers, s.reaped pid status⟩ := by
  simp [waitpid, ask, h]

theorem throwMessage_ne_ok {α : Type} (message : Str) (a : α) :
    ((throwMessage message : Code α).run answers s).result ≠ some (.ok a) :=
  fun ok => Cinit.throwMessage_ne_ok message a (Option.some.inj ok)

theorem throwMessage_threw {α : Type} {message e : Str}
    (h : ((throwMessage message : Code α).run answers s).result = some (.threw e)) :
    e = message := by
  have thrown := Option.some.inj h
  unfold Cinit.throwMessage at thrown
  split at thrown
  · exact (Outcome.threw.inj thrown).symm
  · cases thrown

/-- Nothing comes behind an exception. -/
theorem throwMessage_bind {α β : Type} (message : Str) (f : α → Code β) :
    (throwMessage message : Code α) >>= f = throwMessage message := by
  unfold throwMessage Cinit.throwMessage
  split <;> rfl

end Code

/-! ## The rounds -/

/-- A round of the loop: whether SIGTERM or SIGINT came, the clock, and when `waitpid` was
called. -/
structure UptimeRound where
  signal : Bool := false
  now : UInt64
  polled : Nat

/-- The rounds come one after the other, 500 ms apart. -/
def UptimePaced : Nat → List UptimeRound → Prop
  | _, [] => True
  | since, round :: rounds =>
      since ≤ round.now.toNat ∧ round.now.toNat ≤ round.polled ∧
        UptimePaced (round.polled + 500) rounds

instance decidableUptimePaced : ∀ since rounds, Decidable (UptimePaced since rounds)
  | _, [] => inferInstanceAs (Decidable True)
  | since, round :: rounds =>
      have := decidableUptimePaced (round.polled + 500) rounds
      inferInstanceAs (Decidable (since ≤ round.now.toNat ∧ round.now.toNat ≤ round.polled ∧ _))

/-- The answers in these rounds: `waitpid` finds the process once it has terminated. The answers
to `handle_killed` follow. -/
def uptimeAnswers (died : Nat) (pid : Int) (status : WaitStatus) (later : List Answer) :
    List UptimeRound → List Answer
  | [] => []
  | round :: rounds =>
      .signals round.signal :: .clock (some round.now) ::
        if died ≤ round.polled then .waited (.reaped pid status) :: later
        else .waited .running :: uptimeAnswers died pid status later rounds

section Uptime

variable (sid died : Nat) (status : WaitStatus) (later : List Answer) (s : Supervisor)

/-- The minimum uptime is met from this moment on. -/
def metAt : Nat := (s.srv sid).startTime.toNat + (s.srv sid).settings.minRunningTime

/-- The loop in these rounds. -/
def uptimeRun (rounds : List UptimeRound) : ScriptRun Answer Supervisor Str Bool :=
  (Code.waitUptime sid).run (uptimeAnswers died (s.srv sid).pid status later rounds) s

/-- The start has failed: `handle_killed` is called, and then the failure is thrown. -/
def StartFailure (r : ScriptRun Answer Supervisor Str Bool) : Prop :=
  ∃ t, r = (do
    Code.handleKilled (s.srv sid).pid status
    Code.throwMessage "minimum uptime not met".toList : Code Bool).run later t

/-- When the loop ends because the uptime is met the process had not terminated before, and a
termination before is a failure, as soon as the clock gets there and no shutdown is requested. -/
structure UptimeChecked (rounds : List UptimeRound) : Prop where
  met : (uptimeRun sid died status later s rounds).result = some (.ok true) → metAt sid s ≤ died
  failed : died < metAt sid s → s.doShutdown = false → (∀ round ∈ rounds, round.signal = false) →
    (∃ round ∈ rounds, metAt sid s ≤ round.now.toNat) →
      StartFailure sid status later s (uptimeRun sid died status later s rounds)

/-- The loop comes to a round in which the uptime is met, unless the process is found before. -/
structure ComesTo (early : List UptimeRound) (round : UptimeRound) : Prop where
  notRequested : s.doShutdown = false
  noSignal : ∀ r ∈ early ++ [round], r.signal = false
  early : ∀ r ∈ early, r.now.toNat < metAt sid s
  met : metAt sid s ≤ round.now.toNat

/-- When the process terminates before the uptime is met, some `waitpid` before the clock says so
is called after the termination. -/
def PolledInTime (rounds : List UptimeRound) : Prop :=
  ∀ early round rest, rounds = early ++ round :: rest → ComesTo sid s early round →
    died < metAt sid s → ∃ r ∈ early, died ≤ r.polled

/-! ## One round -/

variable {sid died : Nat} {status : WaitStatus} {later : List Answer} {s : Supervisor}
variable {round : UptimeRound} {rounds : List UptimeRound}

/-- What the clock comparison of the loop says. -/
theorem uptime_met_iff (h : (s.srv sid).startTime.toNat ≤ round.now.toNat) :
    (round.now - (s.srv sid).startTime).toNat ≥ (s.srv sid).settings.minRunningTime ↔
      metAt sid s ≤ round.now.toNat := by
  rw [UInt64.toNat_sub_of_le _ _ (UInt64.le_iff_toNat_le.mpr h), metAt]
  omega

/-- The loop unrolled once. -/
theorem waitUptime_eq (sid : Nat) :
    Code.waitUptime sid = Code.uptimeRound sid >>= fun a => a.elim (Code.waitUptime sid) pure :=
  loop_eq (Code.uptimeRound_asks sid)

theorem uptimeRound_run (notRequested : s.doShutdown = false) (now : UInt64)
    (answers : List Answer) :
    (Code.uptimeRound sid).run (.signals false :: .clock (some now) :: answers) s =
      (if (now - (s.srv sid).startTime).toNat ≥ (s.srv sid).settings.minRunningTime then
        pure (some true)
      else do
        let result ← Code.waitpid (s.srv sid).pid true
        match result with
        | .reaped _ status => do
            Code.handleKilled (s.srv sid).pid status
            Code.throwMessage "minimum uptime not met".toList
        | .running => pure none
        | _ =>
            Code.throwMessageWithErrno ("could not wait for termination of service '".toList ++
              (s.srv sid).settings.name ++ "'".toList) : Code (Option Bool)).run answers
        (s.record (.clock now)) := by
  rw [Code.uptimeRound, bind_run_ok (Code.shutdownRequested_run notRequested),
    if_neg Bool.false_ne_true, bind_run_ok (Code.getTime_run now), bind_run_ok (Code.srv_run sid)]
  rfl

section Round

variable (notRequested : s.doShutdown = false) (quiet : round.signal = false)
variable (started : (s.srv sid).startTime.toNat ≤ round.now.toNat)

include notRequested quiet started

/-- A round in which the uptime is met. -/
theorem uptimeRun_met (met : metAt sid s ≤ round.now.toNat) :
    (uptimeRun sid died status later s (round :: rounds)).result = some (.ok true) := by
  rw [uptimeRun, uptimeAnswers, quiet, waitUptime_eq, bind_run, uptimeRound_run notRequested,
    if_pos ((uptime_met_iff started).mpr met)]
  rfl

/-- A round in which the process is still running. -/
theorem uptimeRun_running (early : round.now.toNat < metAt sid s) (alive : round.polled < died) :
    uptimeRun sid died status later s (round :: rounds) =
      uptimeRun sid died status later (s.record (.clock round.now)) rounds := by
  have answers : uptimeAnswers died (s.srv sid).pid status later (round :: rounds) =
      .signals false :: .clock (some round.now) :: .waited .running ::
        uptimeAnswers died (s.srv sid).pid status later rounds := by
    rw [uptimeAnswers, quiet, if_neg (by omega)]
  have goesOn : (Code.uptimeRound sid).run (.signals false :: .clock (some round.now) ::
      .waited .running :: uptimeAnswers died (s.srv sid).pid status later rounds) s =
        ⟨some (.ok none), uptimeAnswers died (s.srv sid).pid status later rounds,
          s.record (.clock round.now)⟩ := by
    rw [uptimeRound_run notRequested, if_neg (by rw [uptime_met_iff started]; omega),
      bind_run_ok (Code.waitpid_running_run _)]
    rfl
  rw [uptimeRun, answers, waitUptime_eq, bind_run_ok goesOn]
  rfl

/-- A round in which the process is found to have terminated. -/
theorem uptimeRun_reaped (up : 0 < (s.srv sid).pid) (early : round.now.toNat < metAt sid s)
    (dead : died ≤ round.polled) :
    StartFailure sid status later s (uptimeRun sid died status later s (round :: rounds)) := by
  have answers : uptimeAnswers died (s.srv sid).pid status later (round :: rounds) =
      .signals false :: .clock (some round.now) :: .waited (.reaped (s.srv sid).pid status) ::
        later := by
    rw [uptimeAnswers, quiet, if_pos dead]
  refine ⟨(s.record (.clock round.now)).reaped (s.srv sid).pid status, ?_⟩
  rw [uptimeRun, answers, waitUptime_eq, bind_run, uptimeRound_run notRequested,
    if_neg (by rw [uptime_met_iff started]; omega), bind_run_ok (Code.waitpid_reaped_run up status),
    ← bind_run, bind_assoc]
  simp only [Code.throwMessage_bind]

end Round

/-! ## All rounds -/

theorem UptimePaced.started {since : Nat} (h : UptimePaced since rounds) :
    ∀ r ∈ rounds, since ≤ r.now.toNat := by
  induction rounds generalizing since with
  | nil => simp
  | cons round rounds ih =>
      obtain ⟨first, polled, rest⟩ := h
      intro r hr
      rcases List.mem_cons.mp hr with rfl | hr
      · exact first
      · have := ih rest r hr
        omega

/-- The loop goes through rounds in which the process is still running. -/
theorem uptimeRun_append {early : List UptimeRound} (notRequested : s.doShutdown = false)
    (quiet : ∀ r ∈ early, r.signal = false)
    (started : ∀ r ∈ early, (s.srv sid).startTime.toNat ≤ r.now.toNat)
    (tooEarly : ∀ r ∈ early, r.now.toNat < metAt sid s) (alive : ∀ r ∈ early, r.polled < died) :
    ∃ t, t.services = s.services ∧ t.doShutdown = false ∧
      uptimeRun sid died status later s (early ++ rounds) =
        uptimeRun sid died status later t rounds := by
  induction early generalizing s with
  | nil => exact ⟨s, rfl, notRequested, rfl⟩
  | cons r early ih =>
      obtain ⟨quietHere, quiet⟩ := List.forall_mem_cons.mp quiet
      obtain ⟨startedHere, started⟩ := List.forall_mem_cons.mp started
      obtain ⟨earlyHere, tooEarly⟩ := List.forall_mem_cons.mp tooEarly
      obtain ⟨aliveHere, alive⟩ := List.forall_mem_cons.mp alive
      obtain ⟨t, same, requested, run⟩ :=
        @ih (s.record (.clock r.now)) notRequested quiet started tooEarly alive
      refine ⟨t, same, requested, ?_⟩
      rw [List.cons_append,
        uptimeRun_running notRequested quietHere startedHere earlyHere aliveHere,
        run]

/-- A round before which a shutdown was requested. -/
theorem uptimeRun_requested (h : s.doShutdown = true ∨ round.signal = true) :
    (uptimeRun sid died status later s (round :: rounds)).result = some (.ok false) := by
  rw [uptimeRun, uptimeAnswers, waitUptime_eq, bind_run]
  cases signal : round.signal with
  | true => rfl
  | false =>
      have requested : s.doShutdown = true := h.resolve_right (by simp [signal])
      rw [Code.uptimeRound, bind_run_ok (Code.shutdownRequested_run requested)]
      rfl

/-- A failed start is no end of the loop. -/
theorem StartFailure.ne_ok {r : ScriptRun Answer Supervisor Str Bool}
    (h : StartFailure sid status later s r) (up : Bool) : r.result ≠ some (.ok up) := by
  obtain ⟨t, rfl⟩ := h
  rw [bind_run]
  split
  · exact Code.throwMessage_ne_ok _ up
  all_goals simp

/-- What is known when the loop has ended because the uptime is met. -/
theorem comesTo_of_met (started : ∀ r ∈ rounds, (s.srv sid).startTime.toNat ≤ r.now.toNat)
    (up : 0 < (s.srv sid).pid)
    (met : (uptimeRun sid died status later s rounds).result = some (.ok true)) :
    ∃ early round rest, rounds = early ++ round :: rest ∧ ComesTo sid s early round ∧
      ∀ r ∈ early, r.polled < died := by
  induction rounds generalizing s with
  | nil =>
      have waiting : (uptimeRun sid died status later s []).result = none := rfl
      exact absurd (waiting.symm.trans met) (by simp)
  | cons r rounds ih =>
      obtain ⟨startedHere, started⟩ := List.forall_mem_cons.mp started
      by_cases requested : s.doShutdown = true ∨ r.signal = true
      · exact absurd ((uptimeRun_requested requested).symm.trans met) (by simp)
      · obtain ⟨notRequested, quiet⟩ := not_or.mp requested
        have notRequested := Bool.eq_false_iff.mpr notRequested
        have quiet := Bool.eq_false_iff.mpr quiet
        by_cases enough : metAt sid s ≤ r.now.toNat
        · exact ⟨[], r, rounds, rfl, ⟨notRequested, by simpa using quiet, by simp, enough⟩, by simp⟩
        · by_cases alive : r.polled < died
          · rw [uptimeRun_running notRequested quiet startedHere (by omega) alive] at met
            obtain ⟨early, round, rest, rfl, comes, later⟩ :=
              @ih (s.record (.clock r.now)) started up met
            refine ⟨r :: early, round, rest, rfl, ⟨notRequested, ?_, ?_, comes.met⟩, ?_⟩
            · exact List.forall_mem_cons.mpr ⟨quiet, comes.noSignal⟩
            · exact List.forall_mem_cons.mpr ⟨by omega, comes.early⟩
            · exact List.forall_mem_cons.mpr ⟨alive, later⟩
          · have failure := @uptimeRun_reaped sid died status later s r rounds notRequested quiet
              startedHere up (by omega) (by omega)
            exact absurd met (failure.ne_ok true)

/-- The loop notices exactly the terminations that some `waitpid` comes after, before the clock
says that the uptime is met. -/
theorem uptimeChecked_iff (up : 0 < (s.srv sid).pid)
    (paced : UptimePaced (s.srv sid).startTime.toNat rounds) :
    UptimeChecked sid died status later s rounds ↔ PolledInTime sid died s rounds := by
  have started := paced.started
  constructor
  · rintro checked early round rest rfl comes dies
    by_contra unseen
    have alive : ∀ r ∈ early, r.polled < died := by
      intro r hr
      by_contra seen
      exact unseen ⟨r, hr, by omega⟩
    obtain ⟨quiet, quietHere⟩ := List.forall_mem_append.mp comes.noSignal
    obtain ⟨startedEarly, startedLate⟩ := List.forall_mem_append.mp started
    obtain ⟨t, services, notRequested, run⟩ :=
      @uptimeRun_append sid died status later s (round :: rest) early comes.notRequested quiet
        startedEarly comes.early alive
    have same : t.srv sid = s.srv sid := by rw [Supervisor.srv, services, Supervisor.srv]
    have met : (uptimeRun sid died status later t (round :: rest)).result = some (.ok true) := by
      apply uptimeRun_met notRequested (quietHere round List.mem_cons_self)
      · rw [same]
        exact startedLate round List.mem_cons_self
      · rw [metAt, same]
        exact comes.met
    have := checked.met (run ▸ met)
    omega
  · intro polled
    constructor
    · intro met
      obtain ⟨early, round, rest, rfl, comes, alive⟩ := comesTo_of_met started up met
      by_contra dies
      obtain ⟨r, hr, seen⟩ := polled early round rest rfl comes (by omega)
      have := alive r hr
      omega
    · intro dies notRequested quiet ⟨met, member, clock⟩
      have found : (rounds.find? fun r => metAt sid s ≤ r.now.toNat).isSome = true :=
        List.find?_isSome.mpr ⟨met, member, by simpa using clock⟩
      obtain ⟨round, hround⟩ := Option.isSome_iff_exists.mp found
      obtain ⟨enough, early, rest, rfl, before⟩ := List.find?_eq_some_iff_append.mp hround
      have early_lt : ∀ r ∈ early, r.now.toNat < metAt sid s := fun r hr => by
        simpa using before r hr
      have quietUp : ∀ r ∈ early ++ [round], r.signal = false := fun r hr =>
        quiet r (by
          rw [List.append_cons]
          exact List.mem_append_left _ hr)
      obtain ⟨r, hr, seen⟩ := polled early round rest rfl
        ⟨notRequested, quietUp, early_lt, by simpa using enough⟩ dies
      -- The first `waitpid` after the termination finds it.
      have found : (early.find? fun r => died ≤ r.polled).isSome = true :=
        List.find?_isSome.mpr ⟨r, hr, by simpa using seen⟩
      obtain ⟨last, hlast⟩ := Option.isSome_iff_exists.mp found
      obtain ⟨dead, first, others, rfl, alive⟩ := List.find?_eq_some_iff_append.mp hlast
      rw [List.append_assoc] at quiet started ⊢
      obtain ⟨quietFirst, quietOthers⟩ := List.forall_mem_append.mp quiet
      obtain ⟨startedFirst, startedOthers⟩ := List.forall_mem_append.mp started
      obtain ⟨ltFirst, ltOthers⟩ := List.forall_mem_append.mp early_lt
      obtain ⟨t, services, requested, run⟩ :=
        @uptimeRun_append sid died status later s
          (last :: others ++ round :: rest) first notRequested
          quietFirst startedFirst ltFirst fun r hr => by simpa using alive r hr
      have same : t.srv sid = s.srv sid := by rw [Supervisor.srv, services, Supervisor.srv]
      have failure : StartFailure sid status later t
          (uptimeRun sid died status later t (last :: others ++ round :: rest)) := by
        apply uptimeRun_reaped requested (quietOthers last List.mem_cons_self)
        · rw [same]
          exact startedOthers last List.mem_cons_self
        · rw [same]
          exact up
        · rw [metAt, same]
          exact ltOthers last List.mem_cons_self
        · simpa using dead
      rw [run]
      simpa only [StartFailure, same] using failure

end Uptime

/-- A service that has just been started and has to run for one second. -/
def oneSecond : Supervisor where
  services :=
    [{ settings := { Service.init {} "app".toList with minRunningTime := 1000 }
       pid := 5
       startTime := 1000
       outputFd := 7 }]
  children := [(5, 0)]

def threeRounds : List UptimeRound :=
  [{ now := 1000, polled := 1000 }, { now := 1500, polled := 1500 },
    { now := 2000, polled := 2000 }]

/-- The process terminates before the second round, where it is found. -/
theorem uptimeChecked_iff_oneSecond :
    UptimeChecked 0 1200 (.exited 1) [] oneSecond threeRounds := by
  apply (uptimeChecked_iff (by decide) (by decide)).mpr
  intro early round rest cut comes _
  have late : 2000 ≤ round.now.toNat := comes.met
  rcases early with _ | ⟨first, _ | ⟨second, early⟩⟩
  · obtain ⟨rfl, -⟩ := List.cons.inj cut
    exact absurd late (by decide)
  · obtain ⟨-, cut⟩ := List.cons.inj cut
    obtain ⟨rfl, -⟩ := List.cons.inj cut
    exact absurd late (by decide)
  · obtain ⟨-, cut⟩ := List.cons.inj cut
    obtain ⟨rfl, -⟩ := List.cons.inj cut
    exact ⟨{ now := 1500, polled := 1500 }, by simp, by decide⟩

/-- The process terminates after the second round, and the third one takes it to be up. -/
theorem termination_unnoticed :
    UptimePaced 1000 threeRounds ∧ 1700 < metAt 0 oneSecond ∧
      (uptimeRun 0 1700 (.exited 1) [] oneSecond threeRounds).result = some (.ok true) ∧
      ¬ UptimeChecked 0 1700 (.exited 1) [] oneSecond threeRounds := by
  have met : (uptimeRun 0 1700 (.exited 1) [] oneSecond threeRounds).result = some (.ok true) := by
    decide +kernel
  refine ⟨by decide, by decide, met, fun checked => ?_⟩
  exact absurd (checked.met met) (by decide)

end Baseimage.Cinit
