import Baseimage.Run.Actions
import Baseimage.Text.CString

/-!
# The log mutexes

Every log line of every thread goes through `log_stdout` or `log_stderr`, which write it while
holding a mutex. The handlers of SIGINT and SIGTERM log a line too, before they request the
shutdown. They are set up with an empty mask and no flags, so a handler may interrupt any thread
between any two steps, the handler of the other signal included; only a second signal of the same
kind has to wait until the handler has returned.

The mutexes are not recursive: a thread that holds one holds it once, and a call that finds it
taken waits, whoever took it.
-/

namespace Baseimage.Cinit.Signals

open CString

inductive Signal where
  | int
  | term
  deriving DecidableEq, Repr

/-- `g_stdout_mutex` and `g_stderr_mutex`. -/
inductive Mutex where
  | stdout
  | stderr
  deriving DecidableEq, Repr

/-- What a thread does next inside `log_stdout` or `log_stderr`. -/
inductive LogPc where
  | lock
  | write
  | unlock
  deriving DecidableEq, Repr

/-- A call of `log_stdout` or `log_stderr` by the code of a thread. -/
structure Call where
  mutex : Mutex
  line : Str
  pc : LogPc := .lock
  deriving DecidableEq, Repr

/-- Where a signal handler stands: in its call of `log_stdout`, or behind it. -/
inductive Stage where
  | logging (pc : LogPc)
  | requesting
  deriving DecidableEq, Repr

structure Handler where
  signal : Signal
  line : Str
  stage : Stage := .logging .lock
  deriving DecidableEq, Repr

/-- A thread, with the handlers that interrupted it and did not return yet, the last one first.
Only the last one runs. -/
structure Thread where
  call : Option Call := none
  handlers : List Handler := []
  deriving DecidableEq, Repr

/-- What `log` reads of `g_ctx`. -/
structure Context where
  progname : Str
  logPrefixLength : Nat

structure Process (ι : Type*) where
  ctx : Context
  threads : ι → Thread
  owner : Mutex → Option ι
  doShutdown : Bool
  /-- What was written to standard output and to standard error. -/
  output : Mutex → List Str
  /-- The signals delivered so far, and the requests their handlers made. -/
  deliveries : Nat
  requests : Nat

inductive Action (ι : Type*) where
  /-- The code of a thread calls `log_stdout` or `log_stderr`. -/
  | log (t : ι) (mutex : Mutex) (line : Str)
  /-- The code of a thread requests the shutdown on its own. -/
  | requestShutdown (t : ι)
  /-- The next step of a thread inside a log function or a handler. -/
  | advance (t : ι)
  /-- A signal interrupts a thread. -/
  | deliver (t : ι) (signal : Signal)
  deriving DecidableEq, Repr

/-- The line written by `log(message)`. -/
def log (ctx : Context) (message : Str) : Str :=
  "[".toList ++ List.rightpad ctx.logPrefixLength ' ' ctx.progname ++ "] ".toList ++ message ++
    "\n".toList

def sigint (ctx : Context) : Handler :=
  { signal := .int, line := log ctx "SIGINT received, shutting down...".toList }

def sigterm (ctx : Context) : Handler :=
  { signal := .term, line := log ctx "SIGTERM received, shutting down...".toList }

/-- The handlers as `main` sets them up. -/
def handlerOf (ctx : Context) : Signal → Handler
  | .int => sigint ctx
  | .term => sigterm ctx

variable {ι : Type*} [DecidableEq ι]

def Process.setThread (s : Process ι) (t : ι) (thread : Thread) : Process ι :=
  { s with threads := Function.update s.threads t thread }

/-- One step of `log_stdout` or `log_stderr`, by the mutex it uses, with where the call stands
afterwards; the last step returns. `none` while the mutex is owned. -/
def logStep (s : Process ι) (t : ι) (mutex : Mutex) (line : Str) :
    LogPc → Option (Process ι × Option LogPc)
  | .lock =>
      if s.owner mutex = none then
        some ({ s with owner := Function.update s.owner mutex (some t) }, some .write)
      else none
  | .write =>
      some ({ s with output := Function.update s.output mutex (s.output mutex ++ [line]) },
        some .unlock)
  | .unlock => some ({ s with owner := Function.update s.owner mutex none }, none)

/-- Where a handler stands when its call of `log_stdout` does. -/
def Stage.ofLog : Option LogPc → Stage
  | some pc => .logging pc
  | none => .requesting

/-- The next step of a thread; `none` when it has nothing to do or waits for a mutex. -/
def advance (s : Process ι) (t : ι) : Option (Process ι) :=
  match (s.threads t).handlers with
  | handler :: handlers =>
      match handler.stage with
      | .logging pc =>
          (logStep s t .stdout handler.line pc).map fun (next, pc') =>
            next.setThread t { s.threads t with
              handlers := { handler with stage := .ofLog pc' } :: handlers }
      | .requesting =>
          some ({ s with doShutdown := true, requests := s.requests + 1 }.setThread t
            { s.threads t with handlers := handlers })
  | [] =>
      match (s.threads t).call with
      | some call =>
          (logStep s t call.mutex call.line call.pc).map fun (next, pc') =>
            next.setThread t { s.threads t with call := pc'.map fun pc => { call with pc := pc } }
      | none => none

/-- One action; `none` when it is not possible. -/
def step (s : Process ι) : Action ι → Option (Process ι)
  | .log t mutex line =>
      if s.threads t = {} then some (s.setThread t { call := some { mutex, line } }) else none
  | .requestShutdown t => if s.threads t = {} then some { s with doShutdown := true } else none
  | .advance t => advance s t
  | .deliver t signal =>
      -- A signal is blocked while its own handler runs.
      if ∀ handler ∈ (s.threads t).handlers, handler.signal ≠ signal then
        some ({ s with deliveries := s.deliveries + 1 }.setThread t { s.threads t with
          handlers := handlerOf s.ctx signal :: (s.threads t).handlers })
      else none

/-- The signals have just been set up. -/
def start (ctx : Context) : Process ι :=
  { ctx
    threads := fun _ => {}
    owner := fun _ => none
    doShutdown := false
    output := fun _ => []
    deliveries := 0
    requests := 0 }

variable {s u next : Process ι} {t : ι} {mutex : Mutex} {line : Str} {pc : LogPc}
  {pc' : Option LogPc}

/-! ## What one step does -/

@[simp] theorem setThread_self (thread : Thread) : (s.setThread t thread).threads t = thread :=
  Function.update_self ..

theorem setThread_other {q : ι} (thread : Thread) (hq : q ≠ t) :
    (s.setThread t thread).threads q = s.threads q :=
  Function.update_of_ne hq ..

theorem sum_setThread [Fintype ι] (f : Thread → Nat) (thread : Thread) :
    ∑ q, f ((s.setThread t thread).threads q) + f (s.threads t) =
      ∑ q, f (s.threads q) + f thread := by
  have others : ∑ q ∈ Finset.univ.erase t, f ((s.setThread t thread).threads q) =
      ∑ q ∈ Finset.univ.erase t, f (s.threads q) := by
    apply Finset.sum_congr rfl
    intro q hq
    rw [setThread_other thread (Finset.ne_of_mem_erase hq)]
  rw [← Finset.add_sum_erase _ _ (Finset.mem_univ t), others, setThread_self,
    ← Finset.add_sum_erase (Finset.univ) (fun q => f (s.threads q)) (Finset.mem_univ t)]
  omega

omit [DecidableEq ι] in
/-- A step of a log function only changes a mutex or what was written. -/
theorem logStep_frame (h : logStep s t mutex line pc = some (next, pc')) :
    next.threads = s.threads ∧ next.ctx = s.ctx ∧ next.doShutdown = s.doShutdown ∧
      next.deliveries = s.deliveries ∧ next.requests = s.requests ∧
      ∀ other, other ≠ mutex → next.owner other = s.owner other := by
  cases pc with
  | lock =>
      rw [logStep] at h
      split at h
      · cases h
        exact ⟨rfl, rfl, rfl, rfl, rfl, fun other hother => Function.update_of_ne hother ..⟩
      · cases h
  | write =>
      cases h
      exact ⟨rfl, rfl, rfl, rfl, rfl, fun _ _ => rfl⟩
  | unlock =>
      cases h
      exact ⟨rfl, rfl, rfl, rfl, rfl, fun other hother => Function.update_of_ne hother ..⟩

/-- A thread goes on: the handler that runs, or its own call when there is none. -/
inductive Advanced (s : Process ι) (t : ι) : Process ι → Prop where
  | handlerLogs {handler handlers pc pc' next}
      (running : (s.threads t).handlers = handler :: handlers)
      (stage : handler.stage = .logging pc)
      (logs : logStep s t .stdout handler.line pc = some (next, pc')) :
      Advanced s t (next.setThread t { s.threads t with
        handlers := { handler with stage := .ofLog pc' } :: handlers })
  | handlerRequests {handler handlers} (running : (s.threads t).handlers = handler :: handlers)
      (stage : handler.stage = .requesting) :
      Advanced s t ({ s with doShutdown := true, requests := s.requests + 1 }.setThread t
        { s.threads t with handlers := handlers })
  | callLogs {call pc' next} (running : (s.threads t).handlers = [])
      (calls : (s.threads t).call = some call)
      (logs : logStep s t call.mutex call.line call.pc = some (next, pc')) :
      Advanced s t (next.setThread t { s.threads t with
        call := pc'.map fun pc => { call with pc := pc } })

theorem advanced_of_advance (h : advance s t = some u) : Advanced s t u := by
  unfold advance at h
  split at h
  · rename_i handler handlers running
    split at h
    · rename_i pc stage
      obtain ⟨⟨next, pc'⟩, logs, rfl⟩ := Option.map_eq_some_iff.mp h
      exact .handlerLogs running stage logs
    · rename_i stage
      exact Option.some.inj h ▸ .handlerRequests running stage
  · rename_i running
    split at h
    · rename_i call calls
      obtain ⟨⟨next, pc'⟩, logs, rfl⟩ := Option.map_eq_some_iff.mp h
      exact .callLogs running calls logs
    · cases h

/-! ## Who owns a mutex -/

/-- The mutex is held at this point of a log function. -/
def LogPc.held : LogPc → Nat
  | .lock => 0
  | .write => 1
  | .unlock => 1

def Call.held (mutex : Mutex) (call : Call) : Nat :=
  if call.mutex = mutex then call.pc.held else 0

def Handler.held (mutex : Mutex) (handler : Handler) : Nat :=
  match mutex, handler.stage with
  | .stdout, .logging pc => pc.held
  | _, _ => 0

/-- How often a thread holds a mutex, its own call and its handlers together. -/
def Thread.held (mutex : Mutex) (thread : Thread) : Nat :=
  thread.call.elim 0 (Call.held mutex) + (thread.handlers.map (Handler.held mutex)).sum

/-- What every run keeps. -/
structure Inv [Fintype ι] (s : Process ι) : Prop where
  /-- The owner of a mutex holds it exactly once, and nobody else holds it. -/
  owned : ∀ mutex t, (s.threads t).held mutex = if s.owner mutex = some t then 1 else 0
  /-- A handler that did not return yet is one that did not make its request yet. -/
  pending : s.deliveries = s.requests + ∑ t, (s.threads t).handlers.length
  requested : 0 < s.requests → s.doShutdown = true

/-- Counting who holds a mutex over one step of a log function that uses it. -/
theorem owned_logStep {thread : Thread} (h : logStep s t mutex line pc = some (next, pc'))
    (before : ∀ q, (s.threads q).held mutex = if s.owner mutex = some q then 1 else 0)
    (holds : pc.held ≤ (s.threads t).held mutex)
    (mine : thread.held mutex + pc.held = (s.threads t).held mutex + pc'.elim 0 LogPc.held)
    (q : ι) : ((next.setThread t thread).threads q).held mutex =
      if next.owner mutex = some q then 1 else 0 := by
  have beforeMine := before t
  obtain ⟨threads, -⟩ := logStep_frame h
  have others (hq : q ≠ t) : ((next.setThread t thread).threads q).held mutex =
      if s.owner mutex = some q then 1 else 0 := by
    rw [setThread_other thread hq, threads, before q]
  cases pc with
  | lock =>
      rw [logStep] at h
      split at h
      · rename_i free
        cases h
        rw [free, if_neg nofun] at beforeMine
        simp only [Function.update_self]
        by_cases here : q = t
        · subst here
          rw [if_pos rfl, setThread_self]
          simp only [LogPc.held, Option.elim_some] at mine
          omega
        · rw [others here, free, if_neg nofun,
            if_neg (fun same => here (Option.some.inj same).symm)]
      · cases h
  | write =>
      cases h
      by_cases here : q = t
      · subst here
        rw [setThread_self, Nat.add_right_cancel mine]
        exact before q
      · exact others here
  | unlock =>
      cases h
      have owner : s.owner mutex = some t := by
        by_contra other
        rw [if_neg other] at beforeMine
        rw [beforeMine] at holds
        exact absurd holds (by decide)
      rw [if_pos owner] at beforeMine
      simp only [Function.update_self]
      rw [if_neg nofun]
      by_cases here : q = t
      · subst here
        rw [setThread_self]
        simp only [LogPc.held, Option.elim_none] at mine
        omega
      · rw [others here, owner, if_neg (fun same => here (Option.some.inj same).symm)]

theorem Handler.held_logging {handler : Handler} (h : handler.stage = .logging pc) :
    handler.held .stdout = pc.held := by
  simp only [Handler.held, h]

theorem Handler.held_requesting {handler : Handler} (h : handler.stage = .requesting) :
    handler.held mutex = 0 := by
  cases mutex <;> simp only [Handler.held, h]

theorem Handler.held_stderr (handler : Handler) : handler.held .stderr = 0 := rfl

theorem Handler.held_ofLog (handler : Handler) :
    ({ handler with stage := .ofLog pc' } : Handler).held .stdout = pc'.elim 0 LogPc.held := by
  cases pc' <;> rfl

theorem held_handlerOf (ctx : Context) (signal : Signal) :
    (handlerOf ctx signal).held mutex = 0 := by
  cases signal <;> cases mutex <;> rfl

/-- A thread that changes without taking or releasing a mutex, while the owners stay. -/
theorem owned_setThread {thread : Thread} (owner : next.owner mutex = s.owner mutex)
    (threads : next.threads = s.threads)
    (before : ∀ q, (s.threads q).held mutex = if s.owner mutex = some q then 1 else 0)
    (same : thread.held mutex = (s.threads t).held mutex) (q : ι) :
    ((next.setThread t thread).threads q).held mutex =
      if (next.setThread t thread).owner mutex = some q then 1 else 0 := by
  show _ = if next.owner mutex = some q then 1 else 0
  rw [owner, ← before q]
  by_cases here : q = t
  · subst here
    rw [setThread_self, same]
  · rw [setThread_other thread here, threads]

theorem owned_advanced (before : ∀ mutex q, (s.threads q).held mutex =
    if s.owner mutex = some q then 1 else 0) (h : Advanced s t u) (mutex : Mutex) (q : ι) :
    (u.threads q).held mutex = if u.owner mutex = some q then 1 else 0 := by
  cases h with
  | @handlerLogs handler handlers pc pc' next running stage logs =>
      obtain ⟨threads, -, -, -, -, owners⟩ := logStep_frame logs
      cases mutex with
      | stderr =>
          apply owned_setThread (owners .stderr nofun) threads (before .stderr)
          simp only [Thread.held, running, List.map_cons, Handler.held_stderr]
      | stdout =>
          apply owned_logStep logs (before .stdout)
          · simp only [Thread.held, running, List.map_cons, List.sum_cons,
              Handler.held_logging stage]
            omega
          · simp only [Thread.held, running, List.map_cons, List.sum_cons,
              Handler.held_logging stage, Handler.held_ofLog]
            omega
  | @handlerRequests handler handlers running stage =>
      apply owned_setThread (s := s)
      · rfl
      · rfl
      · exact before mutex
      · simp only [Thread.held, running, List.map_cons, List.sum_cons,
          Handler.held_requesting stage, Nat.zero_add]
  | @callLogs call pc' next running calls logs =>
      obtain ⟨threads, -, -, -, -, owners⟩ := logStep_frame logs
      have moved : (pc'.map fun pc => { call with pc := pc }).elim 0 (Call.held mutex) =
          if call.mutex = mutex then pc'.elim 0 LogPc.held else 0 := by
        cases pc' <;> simp [Call.held]
      by_cases mine : mutex = call.mutex
      · subst mine
        rw [if_pos rfl] at moved
        apply owned_logStep logs (before call.mutex)
        · simp only [Thread.held, calls, Option.elim_some, Call.held, if_true]
          omega
        · simp only [Thread.held, calls, moved, Option.elim_some, Call.held, if_true]
          omega
      · rw [if_neg (Ne.symm mine)] at moved
        apply owned_setThread (owners mutex mine) threads (before mutex)
        simp only [Thread.held, calls, moved, Option.elim_some, Call.held, if_neg (Ne.symm mine)]

/-! ## What every run keeps -/

theorem inv_start [Fintype ι] (ctx : Context) : Inv (start ctx : Process ι) :=
  { owned := fun _ _ => rfl
    pending := by simp [start]
    requested := nofun }

/-- Counting the handlers that did not make their request yet, when one thread changes. -/
theorem pending_setThread [Fintype ι] {thread : Thread} (threads : next.threads = s.threads)
    (before : s.deliveries = s.requests + ∑ q, (s.threads q).handlers.length)
    (counts : next.deliveries + s.requests + (s.threads t).handlers.length =
      s.deliveries + next.requests + thread.handlers.length) :
    (next.setThread t thread).deliveries = (next.setThread t thread).requests +
      ∑ q, ((next.setThread t thread).threads q).handlers.length := by
  have sum := sum_setThread (s := next) (t := t) (fun thread => thread.handlers.length) thread
  simp only [threads] at sum
  show next.deliveries = next.requests + _
  omega

theorem inv_advanced [Fintype ι] (inv : Inv s) (h : Advanced s t u) : Inv u := by
  refine { owned := owned_advanced inv.owned h, pending := ?_, requested := ?_ }
  · cases h with
    | handlerLogs running stage logs =>
        obtain ⟨threads, -, -, deliveries, requests, -⟩ := logStep_frame logs
        apply pending_setThread threads inv.pending
        rw [deliveries, requests, running, List.length_cons, List.length_cons]
    | handlerRequests running stage =>
        apply pending_setThread (s := s)
        · rfl
        · exact inv.pending
        · simp only [running, List.length_cons]
          omega
    | callLogs running calls logs =>
        obtain ⟨threads, -, -, deliveries, requests, -⟩ := logStep_frame logs
        apply pending_setThread threads inv.pending
        rw [deliveries, requests]
  · intro some
    cases h with
    | handlerLogs running stage logs =>
        obtain ⟨-, -, doShutdown, -, requests, -⟩ := logStep_frame logs
        exact doShutdown.trans (inv.requested (requests ▸ some))
    | handlerRequests running stage => rfl
    | callLogs running calls logs =>
        obtain ⟨-, -, doShutdown, -, requests, -⟩ := logStep_frame logs
        exact doShutdown.trans (inv.requested (requests ▸ some))

theorem inv_step [Fintype ι] {a : Action ι} (inv : Inv s) (h : step s a = some u) : Inv u := by
  cases a with
  | log t mutex line =>
      simp only [step, Option.ite_none_right_eq_some, Option.some.injEq] at h
      obtain ⟨idle, rfl⟩ := h
      refine { owned := fun other => ?_, pending := ?_, requested := inv.requested }
      · apply owned_setThread rfl rfl (inv.owned other)
        simp [idle, Thread.held, Call.held, LogPc.held]
      · apply pending_setThread rfl inv.pending
        simp only [idle]
  | requestShutdown t =>
      simp only [step, Option.ite_none_right_eq_some, Option.some.injEq] at h
      obtain ⟨-, rfl⟩ := h
      exact { owned := inv.owned, pending := inv.pending, requested := fun _ => rfl }
  | advance t => exact inv_advanced inv (advanced_of_advance h)
  | deliver t signal =>
      simp only [step, Option.ite_none_right_eq_some, Option.some.injEq] at h
      obtain ⟨-, rfl⟩ := h
      refine { owned := fun other => ?_, pending := ?_, requested := inv.requested }
      · apply owned_setThread (s := s)
        · rfl
        · rfl
        · exact inv.owned other
        · simp only [Thread.held, List.map_cons, List.sum_cons, held_handlerOf, Nat.zero_add]
      · apply pending_setThread (s := s)
        · rfl
        · exact inv.pending
        · simp only [List.length_cons]
          omega

end Baseimage.Cinit.Signals
