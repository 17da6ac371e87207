import Baseimage.Cinit.LogMutex

/-!
# Signals

A handler that interrupts a thread inside `log_stdout` waits for the mutex of that thread, and the
thread cannot go on before the handler returns. Anywhere else a handler gets the mutex, because
its owner is another thread, which goes on.
-/

namespace Baseimage.Cinit.Signals

variable {ι : Type*} [DecidableEq ι]

/-! ## The properties -/

/-- A handler waits for the mutex, which is owned by the very thread it interrupted. -/
def SelfDeadlocked (s : Process ι) (t : ι) : Prop :=
  (∃ handler ∈ (s.threads t).handlers.head?, handler.stage = .logging .lock) ∧
    s.owner .stdout = some t

instance (s : Process ι) (t : ι) : Decidable (SelfDeadlocked s t) :=
  inferInstanceAs (Decidable (_ ∧ _))

/-- The steps that are left in a log function. -/
def LogPc.left : LogPc → Nat
  | .lock => 3
  | .write => 2
  | .unlock => 1

def Handler.left (handler : Handler) : Nat :=
  match handler.stage with
  | .logging pc => pc.left + 1
  | .requesting => 1

/-- The steps a thread has left. -/
def Thread.left (thread : Thread) : Nat :=
  thread.call.elim 0 (fun call => call.pc.left) + (thread.handlers.map Handler.left).sum

/-- The steps all threads have left. -/
def work [Fintype ι] (s : Process ι) : Nat := ∑ t, (s.threads t).left

/-- However the threads go on, they come to an end, and when none of them can go on, every call
and every handler has returned, and every signal that was delivered has requested the
shutdown. -/
def Completes [Fintype ι] (s : Process ι) : Prop :=
  ∀ ts u, Actions.run advance s ts = some u → ts.length ≤ work s ∧
    ((∀ t, advance u t = none) → (∀ t, u.threads t = {}) ∧ u.requests = u.deliveries ∧
      (0 < u.deliveries → u.doShutdown = true))

structure Safe [Fintype ι] (s : Process ι) : Prop where
  noSelfDeadlock : ∀ t, ¬ SelfDeadlocked s t
  completes : Completes s

/-- A signal only interrupts a thread that does not own the mutex of standard output. -/
def OutsideLog (s : Process ι) : Action ι → Prop
  | .deliver t _ => s.owner .stdout ≠ some t
  | _ => True

instance (s : Process ι) (a : Action ι) : Decidable (OutsideLog s a) := by
  cases a <;> simp only [OutsideLog] <;> infer_instance

variable {s u next : Process ι} {t : ι} {mutex : Mutex} {line : Str} {pc : LogPc}
  {pc' : Option LogPc}

/-! ## The steps that are left -/

omit [DecidableEq ι] in
theorem logStep_left (h : logStep s t mutex line pc = some (next, pc')) :
    pc'.elim 0 LogPc.left + 1 = pc.left := by
  cases pc with
  | lock =>
      rw [logStep] at h
      split at h
      · cases h
        rfl
      · cases h
  | write =>
      cases h
      rfl
  | unlock =>
      cases h
      rfl

theorem Handler.left_logging {handler : Handler} (h : handler.stage = .logging pc) :
    handler.left = pc.left + 1 := by
  rw [Handler.left, h]

theorem Handler.left_ofLog (handler : Handler) :
    ({ handler with stage := .ofLog pc' } : Handler).left = pc'.elim 0 LogPc.left + 1 := by
  cases pc' <;> rfl

/-- Every step of a thread is one step less to make. -/
theorem work_advance [Fintype ι] (h : advance s t = some u) : work u + 1 = work s := by
  cases advanced_of_advance h with
  | @handlerLogs handler handlers pc pc' next running stage logs =>
      obtain ⟨threads, -⟩ := logStep_frame logs
      have left := logStep_left logs
      have sum := sum_setThread (s := next) (t := t) Thread.left { s.threads t with
        handlers := { handler with stage := .ofLog pc' } :: handlers }
      have mine := Handler.left_logging stage
      have mine' : ({ handler with stage := .ofLog pc' } : Handler).left =
          pc'.elim 0 LogPc.left + 1 := Handler.left_ofLog handler
      simp only [threads, Thread.left, running, List.map_cons, List.sum_cons, work] at sum ⊢
      omega
  | @handlerRequests handler handlers running stage =>
      have sum := sum_setThread (s := { s with doShutdown := true, requests := s.requests + 1 })
        (t := t) Thread.left { s.threads t with handlers := handlers }
      have mine : handler.left = 1 := by rw [Handler.left, stage]
      simp only [Thread.left, running, List.map_cons, List.sum_cons, work] at sum ⊢
      omega
  | @callLogs call pc' next running calls logs =>
      obtain ⟨threads, -⟩ := logStep_frame logs
      have left := logStep_left logs
      have sum := sum_setThread (s := next) (t := t) Thread.left { s.threads t with
        call := pc'.map fun pc => { call with pc := pc } }
      have mine : (pc'.map fun pc => { call with pc := pc }).elim 0 (fun call => call.pc.left) =
          pc'.elim 0 LogPc.left := by
        cases pc' <;> rfl
      simp only [threads, Thread.left, calls, mine, Option.elim_some, work] at sum ⊢
      omega

/-! ## While no signal interrupts the owner -/

/-- What is kept as long as no signal interrupts the owner of the mutex of standard output:
nothing below a running handler holds it. -/
def Uncovered (s : Process ι) : Prop :=
  ∀ t handler handlers, (s.threads t).handlers = handler :: handlers →
    ({ s.threads t with handlers } : Thread).held .stdout = 0

theorem uncovered_setThread {thread : Thread} (threads : next.threads = s.threads)
    (before : Uncovered s) (mine : ∀ handler handlers, thread.handlers = handler :: handlers →
      ({ thread with handlers } : Thread).held .stdout = 0) :
    Uncovered (next.setThread t thread) := by
  intro q handler handlers running
  by_cases here : q = t
  · subst here
    rw [setThread_self] at running ⊢
    exact mine handler handlers running
  · rw [setThread_other thread here, threads] at running ⊢
    exact before q handler handlers running

theorem uncovered_advanced (before : Uncovered s) (h : Advanced s t u) : Uncovered u := by
  cases h with
  | @handlerLogs handler handlers pc pc' next running stage logs =>
      obtain ⟨threads, -⟩ := logStep_frame logs
      apply uncovered_setThread threads before
      intro other others same
      obtain ⟨-, rfl⟩ := List.cons.inj same
      exact before t handler handlers running
  | @handlerRequests handler handlers running stage =>
      apply uncovered_setThread (s := s) rfl before
      intro other others (same : handlers = other :: others)
      have below := before t handler handlers running
      simp only [same, Thread.held, List.map_cons, List.sum_cons] at below ⊢
      omega
  | @callLogs call pc' next running calls logs =>
      obtain ⟨threads, -⟩ := logStep_frame logs
      apply uncovered_setThread threads before
      intro other others same
      rw [running] at same
      cases same

theorem uncovered_step [Fintype ι] {a : Action ι} (inv : Inv s) (before : Uncovered s)
    (outside : OutsideLog s a) (h : step s a = some u) : Uncovered u := by
  cases a with
  | log t mutex line =>
      simp only [step, Option.ite_none_right_eq_some, Option.some.injEq] at h
      obtain ⟨-, rfl⟩ := h
      exact uncovered_setThread rfl before fun _ _ same => absurd same (List.cons_ne_nil _ _).symm
  | requestShutdown t =>
      simp only [step, Option.ite_none_right_eq_some, Option.some.injEq] at h
      obtain ⟨-, rfl⟩ := h
      exact before
  | advance t => exact uncovered_advanced before (advanced_of_advance h)
  | deliver t signal =>
      simp only [step, Option.ite_none_right_eq_some, Option.some.injEq] at h
      obtain ⟨-, rfl⟩ := h
      apply uncovered_setThread (s := s) rfl before
      intro other others same
      obtain ⟨-, rfl⟩ := List.cons.inj same
      rw [inv.owned .stdout t, if_neg outside]

/-! ## The threads come to an end -/

omit [DecidableEq ι] in
theorem logStep_isSome (h : pc = .lock → s.owner mutex = none) :
    (logStep s t mutex line pc).isSome = true := by
  cases pc with
  | lock => rw [logStep, if_pos (h rfl), Option.isSome_some]
  | write => rfl
  | unlock => rfl

/-- A thread whose handler runs goes on, unless the handler waits for the mutex. -/
theorem advance_handler {handler : Handler} {handlers : List Handler}
    (running : (s.threads t).handlers = handler :: handlers)
    (free : handler.stage = .logging .lock → s.owner .stdout = none) :
    (advance s t).isSome = true := by
  unfold advance
  rw [running]
  cases stage : handler.stage with
  | logging pc =>
      simp only [stage, Option.isSome_map]
      apply logStep_isSome
      intro waits
      exact free (waits ▸ stage)
  | requesting => simp only [stage, Option.isSome_some]

theorem advance_call {call : Call} (running : (s.threads t).handlers = [])
    (calls : (s.threads t).call = some call)
    (free : call.pc = .lock → s.owner call.mutex = none) : (advance s t).isSome = true := by
  unfold advance
  simp only [running, calls, Option.isSome_map]
  exact logStep_isSome free

/-- The owner of the mutex of standard output goes on. -/
theorem advance_owner [Fintype ι] (inv : Inv s) (uncovered : Uncovered s)
    (owner : s.owner .stdout = some t) : (advance s t).isSome = true := by
  have holds := inv.owned .stdout t
  rw [if_pos owner] at holds
  cases running : (s.threads t).handlers with
  | cons handler handlers =>
      apply advance_handler running
      intro waits
      -- A handler that waits does not hold the mutex, and neither does anything below it.
      have below := uncovered t handler handlers running
      simp only [Thread.held, running, List.map_cons, List.sum_cons,
        Handler.held_logging waits, LogPc.held] at holds below
      omega
  | nil =>
      cases calls : (s.threads t).call with
      | none =>
          simp [Thread.held, running, calls] at holds
      | some call =>
          apply advance_call running calls
          intro waits
          simp [Thread.held, running, calls, Call.held, waits, LogPc.held] at holds

/-- As long as a call or a handler did not return, some thread goes on. -/
theorem exists_advance [Fintype ι] (inv : Inv s) (uncovered : Uncovered s) {t : ι}
    (busy : s.threads t ≠ {}) : ∃ q, (advance s q).isSome = true := by
  cases owner : s.owner .stdout with
  | some q => exact ⟨q, advance_owner inv uncovered owner⟩
  | none =>
      -- Every handler that runs goes on.
      have free {q : ι} {handler handlers}
        (running : (s.threads q).handlers = handler :: handlers) :
          ∃ q, (advance s q).isSome = true := ⟨q, advance_handler running fun _ => owner⟩
      cases running : (s.threads t).handlers with
      | cons handler handlers => exact free running
      | nil =>
          cases calls : (s.threads t).call with
          | none =>
              apply absurd _ busy
              cases thread : s.threads t
              simp_all
          | some call =>
              cases other : s.owner call.mutex with
              | none => exact ⟨t, advance_call running calls fun _ => other⟩
              | some q =>
                  -- The owner of this mutex is inside a call, perhaps interrupted.
                  have holds := inv.owned call.mutex q
                  rw [if_pos other] at holds
                  cases handlers : (s.threads q).handlers with
                  | cons handler rest => exact free handlers
                  | nil =>
                      cases inside : (s.threads q).call with
                      | none => simp [Thread.held, handlers, inside] at holds
                      | some call' =>
                          refine ⟨q, advance_call handlers inside fun waits => ?_⟩
                          simp [Thread.held, handlers, inside, Call.held, waits, LogPc.held]
                            at holds

/-- What a thread does keeps both invariants. -/
theorem run_advance [Fintype ι] {ts : List ι} (inv : Inv s) (uncovered : Uncovered s)
    (done : Actions.run advance s ts = some u) : Inv u ∧ Uncovered u := by
  have keeps (s : Process ι) (t : ι) (u : Process ι) (before : Inv s ∧ Uncovered s)
      (h : advance s t = some u) : Inv u ∧ Uncovered u :=
    ⟨inv_advanced before.1 (advanced_of_advance h),
      uncovered_advanced before.2 (advanced_of_advance h)⟩
  exact Actions.run_invariant keeps ⟨inv, uncovered⟩ done

theorem completes_of_inv [Fintype ι] (inv : Inv s) (uncovered : Uncovered s) : Completes s := by
  intro ts u done
  have measured := Actions.run_measure work (fun _ _ _ h => work_advance h) done
  obtain ⟨inv, uncovered⟩ := run_advance inv uncovered done
  refine ⟨by omega, fun stuck => ?_⟩
  have idle (t : ι) : u.threads t = {} := by
    by_contra busy
    obtain ⟨q, goes⟩ := exists_advance inv uncovered busy
    rw [stuck q] at goes
    cases goes
  have served : u.requests = u.deliveries := by
    have pending := inv.pending
    simp only [idle, List.length_nil, Finset.sum_const_zero, Nat.add_zero] at pending
    exact pending.symm
  exact ⟨idle, served, fun some => inv.requested (served ▸ some)⟩

theorem safe_of_inv [Fintype ι] (inv : Inv s) (uncovered : Uncovered s) : Safe s := by
  refine { noSelfDeadlock := ?_, completes := completes_of_inv inv uncovered }
  rintro t ⟨⟨handler, first, waits⟩, owner⟩
  have holds := inv.owned .stdout t
  rw [if_pos owner] at holds
  obtain ⟨handlers, running⟩ := List.head?_eq_some_iff.mp first
  have below := uncovered t handler handlers running
  simp only [Thread.held, running, List.map_cons, List.sum_cons, Handler.held_logging waits,
    LogPc.held] at holds below
  omega

/-- A signal that interrupts the owner of the mutex leaves it waiting for itself. -/
theorem outsideLog_of_safe [Fintype ι] {a : Action ι} (h : step s a = some u) (safe : Safe u) :
    OutsideLog s a := by
  cases a with
  | deliver t signal =>
      simp only [step, Option.ite_none_right_eq_some, Option.some.injEq] at h
      obtain ⟨-, rfl⟩ := h
      intro owner
      apply safe.noSelfDeadlock t
      refine ⟨?_, owner⟩
      rw [setThread_self]
      cases signal <;> exact ⟨_, rfl, rfl⟩
  | log t mutex line => trivial
  | requestShutdown t => trivial
  | advance t => trivial

/-- A thread that waits for its own mutex waits for ever. -/
theorem selfDeadlocked_step [Fintype ι] {a : Action ι} (inv : Inv s) (dead : SelfDeadlocked s t)
    (h : step s a = some u) : SelfDeadlocked u t := by
  have inv' := inv_step inv h
  obtain ⟨⟨handler, first, waits⟩, owner⟩ := dead
  obtain ⟨handlers, running⟩ := List.head?_eq_some_iff.mp first
  have busy : s.threads t ≠ {} := by
    intro idle
    rw [idle] at running
    cases running
  -- The mutex stays with the thread as long as the thread does not change.
  have kept (same : u.threads t = s.threads t) : SelfDeadlocked u t := by
    refine ⟨⟨handler, same ▸ first, waits⟩, ?_⟩
    have holds := inv'.owned .stdout t
    rw [same, inv.owned .stdout t, if_pos owner] at holds
    by_contra lost
    rw [if_neg lost] at holds
    cases holds
  cases a with
  | log q mutex line =>
      simp only [step, Option.ite_none_right_eq_some, Option.some.injEq] at h
      obtain ⟨idle, rfl⟩ := h
      exact kept (setThread_other _ (fun same => busy (same ▸ idle)))
  | requestShutdown q =>
      simp only [step, Option.ite_none_right_eq_some, Option.some.injEq] at h
      obtain ⟨-, rfl⟩ := h
      exact kept rfl
  | advance q =>
      by_cases here : q = t
      · subst here
        rw [step, advance, running] at h
        simp [waits, logStep, owner] at h
      · apply kept
        cases advanced_of_advance h with
        | handlerLogs _ _ logs =>
            rw [setThread_other _ (Ne.symm here), (logStep_frame logs).1]
        | handlerRequests _ _ => rw [setThread_other _ (Ne.symm here)]
        | callLogs _ _ logs => rw [setThread_other _ (Ne.symm here), (logStep_frame logs).1]
  | deliver q signal =>
      simp only [step, Option.ite_none_right_eq_some, Option.some.injEq] at h
      obtain ⟨-, rfl⟩ := h
      by_cases here : q = t
      · subst here
        refine ⟨?_, owner⟩
        rw [setThread_self]
        cases signal <;> exact ⟨_, rfl, rfl⟩
      · exact kept (setThread_other _ (Ne.symm here))

/-- Whatever follows a self-deadlock, a signal that was delivered never requests the shutdown. -/
theorem selfDeadlocked_run [Fintype ι] {actions : List (Action ι)} (inv : Inv s)
    (dead : SelfDeadlocked s t) (done : Actions.run step s actions = some u) :
    SelfDeadlocked u t ∧ u.requests < u.deliveries := by
  have keeps (s : Process ι) (a : Action ι) (u : Process ι)
      (before : Inv s ∧ SelfDeadlocked s t) (h : step s a = some u) :
      Inv u ∧ SelfDeadlocked u t := ⟨inv_step before.1 h, selfDeadlocked_step before.1 before.2 h⟩
  obtain ⟨inv', dead'⟩ := Actions.run_invariant keeps ⟨inv, dead⟩ done
  refine ⟨dead', ?_⟩
  obtain ⟨⟨handler, first, -⟩, -⟩ := dead'
  obtain ⟨handlers, running⟩ := List.head?_eq_some_iff.mp first
  have mine := Finset.add_sum_erase Finset.univ (fun q => (u.threads q).handlers.length)
    (Finset.mem_univ t)
  have pending := inv'.pending
  simp only [running, List.length_cons] at mine
  omega

/-- In a run of any number of threads that log and are interrupted in any order, no handler ever
waits for a mutex of the thread it interrupted, and every signal gets to request the shutdown,
exactly when no signal interrupts the owner of the mutex of standard output. -/
theorem safe_iff_outsideLog [Fintype ι] (ctx : Context) (actions : List (Action ι))
    (done : Actions.run step (start ctx) actions = some u) :
    Actions.Always step Safe (start ctx) actions ↔
      Actions.Along step OutsideLog (start ctx) actions := by
  constructor
  · intro always
    apply Actions.along_of_always (fun _ _ _ _ h safe => outsideLog_of_safe h safe)
      (fun _ _ _ inv h => inv_step inv h) (inv_start ctx) done always
  · intro along
    have keeps (s : Process ι) (a : Action ι) (u : Process ι) (before : Inv s ∧ Uncovered s)
        (outside : OutsideLog s a) (h : step s a = some u) : Inv u ∧ Uncovered u :=
      ⟨inv_step before.1 h, uncovered_step before.1 before.2 outside h⟩
    have always := Actions.always_of_along keeps ⟨inv_start ctx, nofun⟩ along
    exact always.mono fun _ inv => safe_of_inv inv.1 inv.2

def exampleContext : Context :=
  { progname := "cinit".toList, logPrefixLength := 12 }

/-- The main thread is interrupted while a logger thread writes a line, first by SIGTERM and
then, in the handler, by SIGINT. -/
def waitsForLogger : List (Action (Fin 2)) :=
  [.log 1 .stdout "[app         ] ready\n".toList, .advance 1, .deliver 0 .term, .advance 1,
    .deliver 0 .int, .advance 1, .advance 0, .advance 0, .advance 0, .advance 0, .advance 0,
    .advance 0, .advance 0, .advance 0]

/-- The main thread is interrupted between taking the mutex and writing its line. -/
def interrupted : List (Action (Fin 2)) :=
  [.log 0 .stdout (log exampleContext "starting services...".toList), .advance 0,
    .deliver 0 .term]

private theorem waitsForLogger_possible :
    (Actions.run step (start exampleContext) waitsForLogger).isSome = true := by
  decide +kernel

private theorem interrupted_possible :
    (Actions.run step (start exampleContext) interrupted).isSome = true := by
  decide +kernel

theorem safe_iff_outsideLog_waitsForLogger :
    ∃ u, Actions.run step (start exampleContext) waitsForLogger = some u ∧
      u.deliveries = 2 ∧ u.doShutdown = true ∧
      Actions.Always step Safe (start exampleContext) waitsForLogger := by
  refine ⟨_, (Option.some_get waitsForLogger_possible).symm, by decide +kernel,
    by decide +kernel, ?_⟩
  exact (safe_iff_outsideLog exampleContext waitsForLogger
    (Option.some_get waitsForLogger_possible).symm).mpr (by decide +kernel)

/-- The handler waits for the mutex of the thread it interrupted, and whatever happens next, the
shutdown is never requested by it. -/
theorem interrupted_deadlocks :
    ¬ Actions.Always step Safe (start exampleContext) interrupted ∧
      ∃ u, Actions.run step (start exampleContext) interrupted = some u ∧ SelfDeadlocked u 0 ∧
        u.doShutdown = false ∧ ∀ more v, Actions.run step u more = some v →
          SelfDeadlocked v 0 ∧ v.requests < v.deliveries := by
  have run := (Option.some_get interrupted_possible).symm
  have dead : SelfDeadlocked ((Actions.run step (start exampleContext) interrupted).get
      interrupted_possible) 0 := by
    decide +kernel
  refine ⟨?_, _, run, dead, by decide +kernel, ?_⟩
  · intro always
    exact always.last run |>.noSelfDeadlock 0 dead
  · intro more v done
    have keeps (s : Process (Fin 2)) (a : Action (Fin 2)) (u : Process (Fin 2)) (inv : Inv s)
        (h : step s a = some u) : Inv u := inv_step inv h
    exact selfDeadlocked_run (Actions.run_invariant keeps (inv_start _) run) dead done

end Baseimage.Cinit.Signals
