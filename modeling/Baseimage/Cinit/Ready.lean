import Baseimage.Cinit.SupervisorRules
import Baseimage.Cinit.Uptime

/-!
# Waiting for a service to be ready

A service may have a program that tells whether it is ready. The supervisor runs it every 250 ms
until it succeeds or the time for it is over, and before each run it sends signal 0 to the process
of the service. A process that has terminated and has not been waited for still takes this signal,
and the loop waits for no process but those of `is_ready`. So a termination goes unnoticed.
-/

namespace Baseimage.Cinit

open Script Supervisor

/-- A round of the loop: the clock, and when and how the run of `is_ready` ended. -/
structure ReadyRound where
  now : UInt64
  ended : Nat
  code : Int
  signal : Bool := false

/-- `kill(pid, 0) == 0`, as POSIX has it: also for a child that has terminated, as long as it has
not been waited for. -/
def killSucceeds (s : Supervisor) (pid : Int) : Bool := (s.children.lookup pid).isSome

/-- The answers in these rounds. -/
def readyAnswers (alive : Bool) : List ReadyRound → List Answer
  | [] => []
  | round :: rounds =>
      .clock (some round.now) :: .alive alive :: .program round.code :: .signals round.signal ::
        readyAnswers alive rounds

section Ready

variable (sid died : Nat) (s : Supervisor)

/-- The supervisor gives up at this moment. -/
def timeoutAt : Nat := (s.srv sid).startTime.toNat + (s.srv sid).settings.readyTimeout

/-- The loop in these rounds. -/
def readyRun (rounds : List ReadyRound) : ScriptRun Answer Supervisor Str Unit :=
  (loop (Code.readyRound sid (s.srv sid))).run
    (readyAnswers (killSucceeds s (s.srv sid).pid) rounds) s

/-- The rounds come one after the other, 250 ms apart. -/
def ReadyPaced : Nat → List ReadyRound → Prop
  | _, [] => True
  | since, round :: rounds =>
      since ≤ round.now.toNat ∧ round.now.toNat ≤ round.ended ∧
        ReadyPaced (round.ended + 250) rounds

instance decidableReadyPaced : ∀ since rounds, Decidable (ReadyPaced since rounds)
  | _, [] => inferInstanceAs (Decidable True)
  | since, round :: rounds =>
      have := decidableReadyPaced (round.ended + 250) rounds
      inferInstanceAs (Decidable (since ≤ round.now.toNat ∧ round.now.toNat ≤ round.ended ∧ _))

/-- Behind these rounds the loop goes on: the service is not ready and has time left, and no
shutdown is requested. -/
structure GoesOn (early : List ReadyRound) : Prop where
  inTime : ∀ r ∈ early, r.now.toNat < timeoutAt sid s
  notReady : ∀ r ∈ early, r.code ≠ 0
  noSignal : ∀ r ∈ early, r.signal = false
  notRequested : early ≠ [] → s.doShutdown = false

/-- The first round that begins after the termination and before the timeout fails, and a run of
`is_ready` that has not ended when the process terminates does not make the service ready. -/
structure TerminationNoticed (rounds : List ReadyRound) : Prop where
  failed : ∀ early round rest, rounds = early ++ round :: rest → GoesOn sid s early →
    round.now.toNat < timeoutAt sid s → died ≤ round.now.toNat →
      (readyRun sid s rounds).result = some (.threw "terminated before being ready".toList)
  notReady : ∀ early round rest, rounds = early ++ round :: rest → GoesOn sid s early →
    round.now.toNat < timeoutAt sid s → died < round.ended → round.code = 0 →
      (readyRun sid s rounds).result ≠ some (.ok ())

/-- No round begins between the termination and the timeout, and no run of `is_ready` succeeds
that has not ended when the process terminates. -/
def NothingToNotice (rounds : List ReadyRound) : Prop :=
  ∀ early round rest, rounds = early ++ round :: rest → GoesOn sid s early →
    round.now.toNat < timeoutAt sid s →
      round.now.toNat < died ∧ (round.code = 0 → round.ended ≤ died)

end Ready

/-- Nobody waits for the process of the service while it is waited to be ready. -/
theorem Code.waitReady_children (sid : Nat) (children : List (Int × Nat)) :
    Keeps (fun s => s.children = children) (waitReady sid) :=
  waitReady_keeps
    { passive := fun _ same => same
      requestShutdown := fun same => same } sid

theorem Code.execServiceCmd_run {answers : List Answer} {s : Supervisor} (sid : Nat)
    (cmd arg : Str) (code : Int) :
    (execServiceCmd sid cmd arg).run (.program code :: answers) s =
      ⟨some (.ok code), answers, s.record (.ran sid cmd arg)⟩ := rfl

section Rounds

variable {sid died : Nat} {s : Supervisor} {round : ReadyRound} {rounds : List ReadyRound}

theorem ReadyPaced.started {since : Nat} (h : ReadyPaced since rounds) :
    ∀ r ∈ rounds, since ≤ r.now.toNat := by
  induction rounds generalizing since with
  | nil => simp
  | cons round rounds ih =>
      obtain ⟨first, ended, rest⟩ := h
      intro r hr
      rcases List.mem_cons.mp hr with rfl | hr
      · exact first
      · have := ih rest r hr
        omega

/-- What the clock comparison of the loop says. -/
theorem ready_timeout_iff (h : (s.srv sid).startTime.toNat ≤ round.now.toNat) :
    (round.now - (s.srv sid).startTime).toNat ≥ (s.srv sid).settings.readyTimeout ↔
      timeoutAt sid s ≤ round.now.toNat := by
  rw [UInt64.toNat_sub_of_le _ _ (UInt64.le_iff_toNat_le.mpr h), timeoutAt]
  omega

/-- After a round the clock was read and `is_ready` was run. -/
def readyRounded (s : Supervisor) (sid : Nat) (now : UInt64) : Supervisor :=
  (s.record (.clock now)).record (.ran sid "is_ready".toList (decimal (s.srv sid).pid))

theorem readyRound_run (now : UInt64) (answers : List Answer) :
    (Code.readyRound sid (s.srv sid)).run (.clock (some now) :: .alive true :: answers) s =
      (if (now - (s.srv sid).startTime).toNat ≥ (s.srv sid).settings.readyTimeout then
        (Code.throwMessage ("not ready after ".toList ++
          decimal (asInt (s.srv sid).settings.readyTimeout) ++ " msec, giving up".toList) :
            Code (Option Unit)).run (.alive true :: answers) (s.record (.clock now))
      else (do
        let code ← Code.execServiceCmd sid "is_ready".toList (decimal (s.srv sid).pid)
        if code = 0 then pure (some ())
        else do
          let requested ← Code.shutdownRequested
          pure (if requested then some () else none) : Code (Option Unit)).run answers
            (s.record (.clock now))) := by
  rw [Code.readyRound, bind_run_ok (Code.getTime_run now)]
  split
  · rfl
  · rfl

theorem readyRun_eq (round : ReadyRound) (rounds : List ReadyRound)
    (alive : killSucceeds s (s.srv sid).pid = true) :
    readyRun sid s (round :: rounds) =
      (Code.readyRound sid (s.srv sid) >>= fun a =>
        a.elim (loop (Code.readyRound sid (s.srv sid))) pure).run
          (.clock (some round.now) :: .alive true :: .program round.code ::
            .signals round.signal :: readyAnswers true rounds) s := by
  rw [readyRun, alive]
  exact congrArg (fun m => m.run (readyAnswers true (round :: rounds)) s)
    (loop_eq (Code.readyRound_asks sid (s.srv sid)))

section Round

variable (started : (s.srv sid).startTime.toNat ≤ round.now.toNat)
variable (alive : killSucceeds s (s.srv sid).pid = true)

include started alive

/-- A round in which `is_ready` succeeds. -/
theorem readyRun_ready (inTime : round.now.toNat < timeoutAt sid s) (ready : round.code = 0) :
    (readyRun sid s (round :: rounds)).result = some (.ok ()) := by
  rw [readyRun_eq round rounds alive, bind_run, readyRound_run,
    if_neg (by rw [ready_timeout_iff started]; omega), ready]
  rfl

/-- A round in which it does not, and after which the loop goes on. -/
theorem readyRun_goesOn (inTime : round.now.toNat < timeoutAt sid s) (notReady : round.code ≠ 0)
    (quiet : round.signal = false) (notRequested : s.doShutdown = false) :
    readyRun sid s (round :: rounds) = readyRun sid (readyRounded s sid round.now) rounds := by
  have goesOn : (Code.readyRound sid (s.srv sid)).run (.clock (some round.now) :: .alive true ::
      .program round.code :: .signals false :: readyAnswers true rounds) s =
        ⟨some (.ok none), readyAnswers true rounds, readyRounded s sid round.now⟩ := by
    have asked : Code.shutdownRequested.run (.signals false :: readyAnswers true rounds)
        ((s.record (.clock round.now)).record (.ran sid "is_ready".toList
          (decimal (s.srv sid).pid))) =
        ⟨some (.ok false), readyAnswers true rounds, readyRounded s sid round.now⟩ :=
      Code.shutdownRequested_run notRequested
    rw [readyRound_run, if_neg (by rw [ready_timeout_iff started]; omega),
      bind_run_ok (Code.execServiceCmd_run sid "is_ready".toList _ round.code), if_neg notReady,
      bind_run_ok asked]
    rfl
  rw [readyRun_eq round rounds alive, quiet, bind_run_ok goesOn, ← alive]
  rfl

/-- A round in which it does not, and after which a shutdown is requested. -/
theorem readyRun_requested (inTime : round.now.toNat < timeoutAt sid s) (notReady : round.code ≠ 0)
    (requested : s.doShutdown = true ∨ round.signal = true) :
    (readyRun sid s (round :: rounds)).result = some (.ok ()) := by
  rw [readyRun_eq round rounds alive, bind_run, readyRound_run,
    if_neg (by rw [ready_timeout_iff started]; omega),
    bind_run_ok (Code.execServiceCmd_run sid "is_ready".toList _ round.code), if_neg notReady]
  cases signal : round.signal with
  | true => rfl
  | false =>
      have down : s.doShutdown = true := requested.resolve_right (by simp [signal])
      have asked : Code.shutdownRequested.run (.signals false :: readyAnswers true rounds)
          ((s.record (.clock round.now)).record (.ran sid "is_ready".toList
            (decimal (s.srv sid).pid))) =
          ⟨some (.ok true), readyAnswers true rounds, readyRounded s sid round.now⟩ :=
        Code.shutdownRequested_run down
      rw [bind_run_ok asked]
      rfl

/-- A round after the timeout fails with another message. -/
theorem readyRun_timeout (late : timeoutAt sid s ≤ round.now.toNat) :
    (readyRun sid s (round :: rounds)).result ≠
      some (.threw "terminated before being ready".toList) := by
  rw [readyRun_eq round rounds alive, bind_run, readyRound_run,
    if_pos ((ready_timeout_iff started).mpr late), ← bind_run, Code.throwMessage_bind]
  intro thrown
  have first := congrArg List.head? (Code.throwMessage_threw thrown)
  rw [List.append_assoc, List.head?_append_of_ne_nil _ (by decide)] at first
  exact absurd first (by decide)

end Round

/-- The loop goes through rounds in which the service is not ready. -/
theorem readyRun_append {early : List ReadyRound}
    (started : ∀ r ∈ early, (s.srv sid).startTime.toNat ≤ r.now.toNat)
    (alive : killSucceeds s (s.srv sid).pid = true) (goesOn : GoesOn sid s early) :
    ∃ t, t.services = s.services ∧ t.children = s.children ∧
      readyRun sid s (early ++ rounds) = readyRun sid t rounds := by
  induction early generalizing s with
  | nil => exact ⟨s, rfl, rfl, rfl⟩
  | cons r early ih =>
      obtain ⟨startedHere, started⟩ := List.forall_mem_cons.mp started
      obtain ⟨inTimeHere, inTime⟩ := List.forall_mem_cons.mp goesOn.inTime
      obtain ⟨notReadyHere, notReady⟩ := List.forall_mem_cons.mp goesOn.notReady
      obtain ⟨quietHere, quiet⟩ := List.forall_mem_cons.mp goesOn.noSignal
      have notRequested : s.doShutdown = false := goesOn.notRequested (List.cons_ne_nil r early)
      obtain ⟨t, services, children, run⟩ := @ih (readyRounded s sid r.now) started alive
        ⟨inTime, notReady, quiet, fun _ => notRequested⟩
      refine ⟨t, services, children, ?_⟩
      rw [List.cons_append,
        readyRun_goesOn startedHere alive inTimeHere notReadyHere quietHere notRequested, run]

/-- The failure that a termination should lead to never occurs. -/
theorem readyRun_not_terminated
    (started : ∀ r ∈ rounds, (s.srv sid).startTime.toNat ≤ r.now.toNat)
    (alive : killSucceeds s (s.srv sid).pid = true) :
    (readyRun sid s rounds).result ≠ some (.threw "terminated before being ready".toList) := by
  induction rounds generalizing s with
  | nil =>
      have waiting : (readyRun sid s []).result = none := rfl
      rw [waiting]
      simp
  | cons r rounds ih =>
      obtain ⟨startedHere, started⟩ := List.forall_mem_cons.mp started
      by_cases late : timeoutAt sid s ≤ r.now.toNat
      · exact readyRun_timeout startedHere alive late
      · by_cases ready : r.code = 0
        · rw [readyRun_ready startedHere alive (by omega) ready]
          simp
        · by_cases requested : s.doShutdown = true ∨ r.signal = true
          · rw [readyRun_requested startedHere alive (by omega) ready requested]
            simp
          · obtain ⟨notRequested, quiet⟩ := not_or.mp requested
            rw [readyRun_goesOn startedHere alive (by omega) ready (Bool.eq_false_iff.mpr quiet)
              (Bool.eq_false_iff.mpr notRequested)]
            exact @ih (readyRounded s sid r.now) started alive

/-- The loop does what it should about a termination exactly when there is nothing to do. -/
theorem terminationNoticed_iff (up : s.children.lookup (s.srv sid).pid = some sid)
    (paced : ReadyPaced (s.srv sid).startTime.toNat rounds) :
    TerminationNoticed sid died s rounds ↔ NothingToNotice sid died s rounds := by
  have started := paced.started
  have alive : killSucceeds s (s.srv sid).pid = true := by rw [killSucceeds, up, Option.isSome_some]
  constructor
  · rintro noticed early round rest rfl goesOn inTime
    constructor
    · by_contra dead
      exact readyRun_not_terminated started alive
        (noticed.failed early round rest rfl goesOn inTime (by omega))
    · intro ready
      by_contra dies
      obtain ⟨startedEarly, startedLate⟩ := List.forall_mem_append.mp started
      obtain ⟨t, services, children, run⟩ :=
        @readyRun_append sid s (round :: rest) early startedEarly alive goesOn
      have same : t.srv sid = s.srv sid := by rw [Supervisor.srv, services, Supervisor.srv]
      have taken : (readyRun sid t (round :: rest)).result = some (.ok ()) := by
        apply readyRun_ready _ _ _ ready
        · rw [same]
          exact startedLate round List.mem_cons_self
        · rw [killSucceeds, children, same]
          exact alive
        · rw [timeoutAt, same]
          exact inTime
      exact noticed.notReady early round rest rfl goesOn inTime (by omega) ready (run ▸ taken)
  · intro nothing
    constructor
    · intro early round rest cut goesOn inTime dead
      have := (nothing early round rest cut goesOn inTime).1
      omega
    · intro early round rest cut goesOn inTime dies ready
      have := (nothing early round rest cut goesOn inTime).2 ready
      omega

end Rounds

/-- A service that is up and is not ready yet. -/
def notReadyYet : Supervisor where
  services :=
    [{ settings := Service.init {} "app".toList, pid := 5, startTime := 1000, outputFd := 7 }]
  children := [(5, 0)]

/-- `is_ready` fails in the first round and succeeds in the second one. -/
def readyInSecond : List ReadyRound :=
  [{ now := 1500, ended := 1510, code := 1 }, { now := 1760, ended := 1770, code := 0 }]

/-- The process terminates after the service has become ready. -/
theorem terminationNoticed_iff_later : TerminationNoticed 0 2000 notReadyYet readyInSecond := by
  apply (terminationNoticed_iff (by decide) (by decide)).mpr
  intro early round rest cut _ _
  have member : round ∈ readyInSecond := by
    rw [cut]
    exact List.mem_append_right _ List.mem_cons_self
  have before : ∀ r ∈ readyInSecond, r.now.toNat < 2000 ∧ (r.code = 0 → r.ended ≤ 2000) := by decide
  exact before round member

/-- The process terminates in the sleep between the rounds, and the service is taken to be
ready. -/
theorem termination_taken_for_ready :
    ReadyPaced 1000 readyInSecond ∧
      (readyRun 0 notReadyYet readyInSecond).result = some (.ok ()) ∧
      ¬ TerminationNoticed 0 1600 notReadyYet readyInSecond := by
  have taken : (readyRun 0 notReadyYet readyInSecond).result = some (.ok ()) := by decide +kernel
  refine ⟨by decide, taken, fun noticed => ?_⟩
  have failed := noticed.failed [{ now := 1500, ended := 1510, code := 1 }] _ _ rfl
    ⟨by decide, by decide, by decide, fun _ => rfl⟩ (by decide) (by decide)
  exact absurd (taken.symm.trans failed) (by simp)

end Baseimage.Cinit
