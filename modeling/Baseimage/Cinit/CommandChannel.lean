import Baseimage.Cinit.Children

/-!
# What a command does to the service table

Anybody who may write to the command FIFO decides what one read of the main loop returns. What is
read names a service by what follows `restart:`, and the names in the table are never empty and
never the same, so at most one entry is meant. The main loop stops its process and marks it to be
restarted.

A request with no name at all is not looked up: `find_service` asserts that it is given one.
-/

namespace Baseimage.Cinit

open CString Script Supervisor

/-- The names of the services in the table. -/
def Supervisor.names (s : Supervisor) : List Str := s.services.map fun srv => srv.settings.name

/-- The service that was asked for: its name is what follows `restart:` in the first line of what
was read, trimmed, and no other entry has this name. -/
def Requests (s : Supervisor) (buf : Str) (sid : Nat) : Prop :=
  ∃ name, trim (terminateAtFirstEol (ofBuffer buf)) = "restart:".toList ++ name ∧
    s.names[sid]? = some name ∧ ∀ other, s.names[other]? = some name → other = sid

/-- A program of the service was run, its process got SIGTERM, or its restart was accepted. -/
def Event.Concerns (sid : Nat) : Event → Prop
  | .ran service _ _ => service = sid
  | .sigterm service _ _ => service = sid
  | .restartAccepted service => service = sid
  | _ => False

/-- The process of the service was told to stop. No entry of the table changes. -/
def Stopped (s t : Supervisor) (sid : Nat) : Prop :=
  ∃ events : List Event, (∀ e ∈ events, e.Concerns sid) ∧
    t = { s with history := events ++ s.history }

/-- The text of `strerror` in an answer. -/
def Answer.errorText : Answer → Str
  | .chdir (some (.other strerror)) => strerror
  | .pthreadCreate (some strerror) => strerror
  | .errno strerror => strerror
  | _ => []

/-- The C library has a short text for every error. -/
def ShortErrorTexts (answers : List Answer) : Prop := ∀ k ∈ answers, k.errorText.length < 128

instance (answers : List Answer) : Decidable (ShortErrorTexts answers) :=
  inferInstanceAs (Decidable (∀ k ∈ answers, _))

/-- Processing what was read violates no assertion. It changes nothing, or it stops the process of
the service that was asked for and then marks this service, and no other, to be restarted. -/
structure Harmless (s : Supervisor) (buf : Str) (r : ScriptRun Answer Supervisor Str Unit) :
    Prop where
  noAssertion : r.result ≠ some .aborted
  acts : r.state = s ∨ ∃ sid, Requests s buf sid ∧
    (Stopped s r.state sid ∨ Stopped (s.setRestartRequested sid true) r.state sid)

/-! ## The names in the table -/

theorem names_updateSrv (s : Supervisor) (sid : Nat) {f : ServiceEntry → ServiceEntry}
    (same : ∀ srv, (f srv).settings = srv.settings) : (s.updateSrv sid f).names = s.names := by
  apply List.ext_getElem?
  intro i
  simp only [names, List.getElem?_map, getElem?_updateSrv]
  split
  · cases s.services[i]? with
    | none => rfl
    | some srv => simp only [Option.map_some, same]
  · rfl

structure Named (names : List Str) : Prop where
  nodup : names.Nodup
  nonempty : [] ∉ names

theorem Named.updateSrv {s : Supervisor} {sid : Nat} (h : Named s.names)
    {f : ServiceEntry → ServiceEntry} (same : ∀ srv, (f srv).settings = srv.settings) :
    Named (s.updateSrv sid f).names := by
  rw [names_updateSrv s sid same]
  exact h

/-- No code of the supervisor changes a name. -/
theorem Named.kept : Kept (fun s => Consistent s ∧ Named s.names) where
  valid h hsrv := Consistent.kept.valid h.1 hsrv
  idle h hsrv down := Consistent.kept.idle h.1 hsrv down
  record he h := ⟨Consistent.kept.record he h.1, h.2⟩
  requestShutdown h := ⟨Consistent.kept.requestShutdown h.1, h.2⟩
  setStartTime h := ⟨Consistent.kept.setStartTime h.1, h.2.updateSrv fun _ => rfl⟩
  setRestartRequested h := ⟨Consistent.kept.setRestartRequested h.1, h.2.updateSrv fun _ => rfl⟩
  setLoggerExit h := ⟨Consistent.kept.setLoggerExit h.1, h.2.updateSrv fun _ => rfl⟩
  forked h down hpid hfd fresh := by
    next s sid pid fd =>
      have forked : Named (s.forked sid pid fd).names := h.2.updateSrv fun _ => rfl
      exact ⟨Consistent.kept.forked h.1 down hpid hfd fresh, forked.updateSrv fun _ => rfl⟩
  startLogger h up := ⟨Consistent.kept.startLogger h.1 up, h.2.updateSrv fun _ => rfl⟩
  sigterm h up := ⟨Consistent.kept.sigterm h.1 up, h.2⟩
  reapedOther h hpid other := ⟨Consistent.kept.reapedOther h.1 hpid other, h.2⟩
  reapedService h hpid own := by
    next s pid status sid =>
      have reaped : Named (s.reaped pid status).names := h.2
      exact ⟨Consistent.kept.reapedService h.1 hpid own, reaped.updateSrv fun _ => by simp⟩
  shutdownBy h down := ⟨Consistent.kept.shutdownBy h.1 down, h.2⟩

theorem loadService_named (view : View) (service : Str) {ctx : LoadContext}
    (h : Named (ctx.services.map Service.name)) :
    Named ((loadService view service ctx).2.services.map Service.name) := by
  unfold loadService
  split
  · exact h
  · next named =>
      split
      · exact h
      · next fresh =>
          split
          · exact h
          · split
            · exact h
            · exact h
            · split
              · exact h
              · split
                · exact h
                · exact h
                · next srv _ =>
                    rw [LoadContext.add_services, List.map_append]
                    constructor
                    · rw [List.nodup_append_comm]
                      exact List.nodup_cons.mpr ⟨findService_eq_none_iff.mp fresh, h.nodup⟩
                    · intro empty
                      rcases List.mem_append.mp empty with old | new
                      · exact h.nonempty old
                      · exact named (List.mem_singleton.mp new).symm

theorem loadDefault_named (view : View) (cwd : Str) :
    Named ((Code.loadDefault view cwd).2.services.map Service.name) := by
  have keeps (depth : Nat) (service : Str) (dependent : Int) {ctx : LoadContext}
      (h : Named (ctx.services.map Service.name)) :
      Named ((loadWithDepth view depth service dependent ctx).2.services.map Service.name) := by
    revert h
    apply @loadWithDepth_keeps view fun ctx => Named (ctx.services.map Service.name)
    · intro service ctx h
      exact loadService_named view service h
    · intro ctx sid dependent srv _ _ h
      exact h
    · intro ctx service dName depends _ h
      exact h
  exact keeps _ _ _ { nodup := List.nodup_nil, nonempty := List.not_mem_nil }

/-- The names of every table a run of the supervisor has. -/
theorem main_named (view : View) (cwd : Str) (servicesGracetime : Nat) (answers : List Answer) :
    Named ((Code.main view cwd servicesGracetime).run answers booted).state.names := by
  apply And.right
  apply Code.main_state Named.kept
  · refine ⟨Consistent.load _, ?_⟩
    have loaded := loadDefault_named view cwd
    rw [names, Supervisor.load, List.map_map]
    exact loaded
  · exact fun _ phase hs => ⟨hs.1.enter phase, hs.2⟩
  · exact fun _ hs => ⟨hs.1.unload, List.nodup_nil, List.not_mem_nil⟩

/-! ## Stopping a service -/

theorem ChdirError.message_fits {error : ChdirError}
    (short : (Answer.chdir (some error)).errorText.length < 128) :
    error.message.length < maxMessage := by
  cases error with
  | enoent => decide +kernel
  | eacces => decide +kernel
  | other strerror =>
      have fits : strerror.length < 128 := short
      rw [ChdirError.message_length, maxMessage]
      omega

namespace Code

/-- A script that goes on with what it was told. -/
theorem inquire_bind_run {α β : Type} {answer : Answer → Option α} {f : α → Code β}
    {property : ScriptRun Answer Supervisor Str β → Prop} {answers : List Answer} {s : Supervisor}
    (stopped : property ⟨none, answers, s⟩)
    (answered : ∀ k rest a, answers = k :: rest → answer k = some a →
      property ((f a).run rest s)) : property ((inquire answer >>= f).run answers s) := by
  apply ask_bind_run stopped
  intro k rest a t hk haccept
  obtain ⟨a', hanswer, heq⟩ := Option.map_eq_some_iff.mp haccept
  obtain ⟨rfl, rfl⟩ := Prod.mk.inj heq
  exact answered k rest a' hk hanswer

theorem throwMessage_run {α : Type} {message : Str} (fits : message.length < maxMessage)
    (answers : List Answer) (s : Supervisor) :
    (throwMessage message : Code α).run answers s = ⟨some (.threw message), answers, s⟩ := by
  rw [throwMessage, Cinit.throwMessage, if_pos fits]
  rfl

/-- How `stop_service` ends. -/
def StopEnds (s : Supervisor) (sid : Nat) (r : ScriptRun Answer Supervisor Str Unit) : Prop :=
  r.result ≠ some .aborted ∧ Stopped s r.state sid

theorem StopEnds.same {s : Supervisor} {sid : Nat} {r : ScriptRun Answer Supervisor Str Unit}
    (result : r.result ≠ some .aborted) (state : r.state = s) : StopEnds s sid r :=
  ⟨result, [], by simp, state⟩

/-- Changing to the directory of a service ends with an error at worst. -/
theorem chdirToService_bind_run {s : Supervisor} {sid : Nat} {answers : List Answer}
    {service : Str} {f : Unit → Code Unit} (named : service ≠ [])
    (short : ShortErrorTexts answers)
    (rest : ∀ answers, StopEnds s sid ((f ()).run answers s)) :
    StopEnds s sid ((chdirToService service >>= f).run answers s) := by
  rw [chdirToService, if_neg named, Script.bind_assoc]
  apply inquire_bind_run
  · exact StopEnds.same nofun rfl
  · intro k others error hk hanswer
    cases error with
    | none => exact rest others
    | some error =>
        have told : (Answer.chdir (some error)).errorText.length < 128 := by
          have first := short k (hk ▸ List.mem_cons_self)
          split at hanswer
          · cases hanswer
            exact first
          · cases hanswer
        show StopEnds s sid ((throwMessage error.message >>= f).run others s)
        have run := throwMessage_run (α := Unit) (ChdirError.message_fits told) others s
        rw [bind_run, run]
        exact StopEnds.same nofun rfl

theorem stopService_run {s : Supervisor} {sid : Nat} {answers : List Answer}
    (named : (s.srv sid).settings.name ≠ []) (short : ShortErrorTexts answers) :
    StopEnds s sid ((stopService sid).run answers s) := by
  show StopEnds s sid ((if (s.srv sid).pid = 0 then pure () else _ : Code Unit).run answers s)
  split
  · exact StopEnds.same nofun rfl
  · apply chdirToService_bind_run named short
    intro answers
    apply inquire_bind_run
    · exact StopEnds.same nofun rfl
    · intro k others hasKill _ _
      cases hasKill with
      | false => exact ⟨nofun, [.sigterm sid _ _], by simp [Event.Concerns], rfl⟩
      | true =>
          apply ask_bind_run
          · exact StopEnds.same nofun rfl
          · intro k others code t _ haccept
            split at haccept
            · cases haccept
              refine ⟨nofun, [.sigterm sid _ _, .ran sid _ _], ?_, rfl⟩
              simp [Event.Concerns]
            · cases haccept

/-- What happens to a service that was asked for. -/
theorem restart_run {s : Supervisor} {sid : Nat} {answers : List Answer}
    (named : (s.srv sid).settings.name ≠ []) (short : ShortErrorTexts answers)
    {r : ScriptRun Answer Supervisor Str Unit}
    (hr : (tryCatch
      (do
        stopService sid
        modify (·.setRestartRequested sid true)
        modify (·.record (.restartAccepted sid))) (fun _ => pure ()) : Code Unit).run answers s =
          r) :
    r.result ≠ some .aborted ∧
      (Stopped s r.state sid ∨ Stopped (s.setRestartRequested sid true) r.state sid) := by
  obtain ⟨noAbort, events, concerns, state⟩ := stopService_run named short
  subst hr
  rw [tryCatch_run, bind_run]
  cases result : ((stopService sid).run answers s).result with
  | none => exact ⟨nofun, .inl ⟨events, concerns, state⟩⟩
  | some outcome =>
      cases outcome with
      | aborted => exact absurd result noAbort
      | threw e => exact ⟨nofun, .inl ⟨events, concerns, state⟩⟩
      | ok a =>
          refine ⟨nofun, .inr ⟨.restartAccepted sid :: events, ?_, ?_⟩⟩
          · exact List.forall_mem_cons.mpr ⟨rfl, concerns⟩
          · show (((stopService sid).run answers s).state.setRestartRequested sid true).record
              (.restartAccepted sid) = _
            rw [state]
            rfl

end Code

/-! ## Processing a command -/

theorem requests_of_findService {s : Supervisor} {buf service : Str} {sid : Nat}
    (names : Named s.names)
    (line : trim (terminateAtFirstEol (ofBuffer buf)) = "restart:".toList ++ service)
    (found : findService (s.services.map ServiceEntry.settings) service = some sid) :
    Requests s buf sid ∧ (s.srv sid).settings.name = service := by
  obtain ⟨settings, hsettings, name⟩ := findService_eq_some found
  rw [List.getElem?_map] at hsettings
  obtain ⟨srv, hsrv, rfl⟩ := Option.map_eq_some_iff.mp hsettings
  have here : s.names[sid]? = some service := by
    rw [Supervisor.names, List.getElem?_map, hsrv, Option.map_some, name]
  refine ⟨⟨service, line, here, fun other there => ?_⟩, ?_⟩
  · have bound := (List.getElem?_eq_some_iff.mp there).1
    exact (List.getElem?_inj bound names.nodup).mp (there.trans here.symm)
  · rw [srv_of_getElem? hsrv, name]

/-- What was read is cut at the first end of line, trimmed and stripped of `restart:`. -/
theorem restartRequest_eq_some_iff {buf service : Str} :
    Command.restartRequest buf = some service ↔
      trim (terminateAtFirstEol (ofBuffer buf)) = "restart:".toList ++ service := by
  simp only [Command.restartRequest]
  constructor
  · intro h
    obtain ⟨⟨rest, line⟩, request⟩ := Option.ite_none_right_eq_some.mp h
    rw [← line, List.drop_left] at request
    rw [← line, Option.some.inj request]
  · intro line
    rw [line, if_pos (List.prefix_append _ _), List.drop_left]

/-- The command is processed after it was read. -/
theorem runCommand_run {s : Supervisor} {buf : Str} (size : buf.length ≤ Command.maxRead)
    (answers : List Answer) :
    Code.runCommand.run (.read buf :: answers) s =
      (match Command.restartRequest buf with
        | none => pure ()
        | some [] => abort
        | some service => do
            let s ← get
            match findService (s.services.map ServiceEntry.settings) service with
            | none => pure ()
            | some sid =>
                tryCatch
                  (do
                    Code.stopService sid
                    modify (·.setRestartRequested sid true)
                    modify (·.record (.restartAccepted sid)))
                  (fun _ => pure ()) : Code Unit).run answers s := by
  have read : Code.readCommand.run (.read buf :: answers) s = ⟨some (.ok buf), answers, s⟩ := by
    simp only [Code.readCommand, Code.inquire, ask, if_pos size, Option.map_some]
  exact bind_run_ok read

/-- In every state that a run of the supervisor passes, whatever a read returns, processing it is
harmless unless it is a request without a name. -/
theorem runCommand_harmless_iff (view : View) (cwd : Str) (servicesGracetime : Nat)
    (past : List Answer) {s : Supervisor}
    (reached : ((Code.main view cwd servicesGracetime).run past booted).state = s) {buf : Str}
    (size : buf.length ≤ Command.maxRead) {answers : List Answer}
    (short : ShortErrorTexts answers) :
    Harmless s buf (Code.runCommand.run (.read buf :: answers) s) ↔
      trim (terminateAtFirstEol (ofBuffer buf)) ≠ "restart:".toList := by
  have names := main_named view cwd servicesGracetime past
  rw [reached] at names
  rw [runCommand_run size]
  cases request : Command.restartRequest buf with
  | none =>
      have harmless : Harmless s buf ((pure () : Code Unit).run answers s) :=
        { noAssertion := nofun, acts := .inl rfl }
      refine iff_of_true harmless fun line => ?_
      have named := restartRequest_eq_some_iff.mpr (line.trans (List.append_nil _).symm)
      rw [request] at named
      cases named
  | some service =>
      have line := restartRequest_eq_some_iff.mp request
      cases service with
      | nil =>
          rw [List.append_nil] at line
          refine iff_of_false (fun harmless => ?_) (fun other => other line)
          exact harmless.noAssertion rfl
      | cons c cs =>
          have named : trim (terminateAtFirstEol (ofBuffer buf)) ≠ "restart:".toList := by
            intro bare
            rw [bare] at line
            cases List.self_eq_append_right.mp line
          refine iff_of_true ?_ named
          show Harmless s buf
            ((match findService (s.services.map ServiceEntry.settings) (c :: cs) with
            | none => pure ()
            | some sid => _ : Code Unit).run answers s)
          cases found : findService (s.services.map ServiceEntry.settings) (c :: cs) with
          | none => exact { noAssertion := nofun, acts := .inl rfl }
          | some sid =>
              obtain ⟨requests, name⟩ := requests_of_findService names line found
              obtain ⟨noAbort, acts⟩ := Code.restart_run (by rw [name]; exact nofun) short rfl
              exact { noAssertion := noAbort, acts := .inr ⟨sid, requests, acts⟩ }

/-- A services root where `default` has no dependency. -/
def defaultOnly : View where
  chdirToService _ := .ok ()
  settings service := .ok (Service.init {} service)
  listing _ := .ok []
  depends _ _ _ _ := .ok false

/-- The service is started, stays up and has no `is_ready`, and the main loop gets to its first
read. -/
def upAndRunning : List Answer :=
  [.signals false, .chdir none, .fork (some (5, 7)), .clock (some 1000), .malloc true,
    .pthreadCreate none, .signals false, .clock (some 1500), .chdir none, .access false,
    .signals false, .clock (some 2500), .waited .running, .signals false]

/-- The main loop waits for its first command. -/
def firstRead : Supervisor :=
  ((Code.main defaultOnly "/".toList 5000).run upAndRunning booted).state

/-- The service is asked for with white space around the command: it gets SIGTERM and is to be
restarted. -/
theorem runCommand_harmless_iff_default :
    Harmless firstRead " restart:default\t\r\n".toList
      (Code.runCommand.run [.read " restart:default\t\r\n".toList, .chdir none, .access false]
        firstRead) :=
  (runCommand_harmless_iff defaultOnly "/".toList 5000 upAndRunning rfl (by decide +kernel)
    (by decide +kernel)).mpr (by decide +kernel)

example :
    (Code.runCommand.run [.read " restart:default\t\r\n".toList, .chdir none, .access false]
      firstRead).state.history.take 2 = [.restartAccepted 0, .sigterm 0 5 (some 0)] := by
  decide +kernel

/-- A request without a name ends the supervisor. -/
theorem namelessRequest_aborts :
    ¬ Harmless firstRead "restart:\n".toList
        (Code.runCommand.run [.read "restart:\n".toList] firstRead) ∧
      ((Code.main defaultOnly "/".toList 5000).run
        (upAndRunning ++ [.read "restart:\n".toList]) booted).result = some .aborted := by
  refine ⟨fun harmless => ?_, by decide +kernel⟩
  exact harmless.noAssertion (by decide +kernel)

end Baseimage.Cinit
