import Baseimage.Cinit.SupervisorRules
import Baseimage.Cinit.Dependencies
import Baseimage.Run.Jump

/-!
# The start-up over the jump buffers of CException

The start-up is written with `Try`, `Catch`, `ExitTry` and `Throw`, and an exception is its message.
No exception is the empty message, so `ExitTry` is a `Throw` that is not caught by the handler.

Here the statements of `start_services`, and of `main` around it, run over jump buffers. They end
where the start-up ends that has handlers instead.
-/

namespace Baseimage.Cinit

open Script Supervisor Code Jump

/-- `CEXCEPTION_NONE` and `CEXCEPTION_IS_NONE`. -/
def cexception : Marker Str where
  none := []
  isNone mMessage := mMessage.isEmpty

/-! ## The statements -/

namespace Code.Statements

/-- A call for which only what it does matters. -/
def statement (call : Code Unit) : Block Answer Supervisor Str := .eval call fun _ => .skip

/-- `ExitTry`. -/
def exitTry : Block Answer Supervisor Str := statement (ofOutcome (.threw cexception.none))

/-- The loop of a sync service. What comes behind it is in the round that leaves it. -/
def waitTermination (sid : Nat) : Block Answer Supervisor Str :=
  .forever <| .eval (srv sid) fun service => .eval (waitpid service.pid false) fun
    | .reaped _ status => .eval (srv sid) fun service =>
        .seq (statement (handleKilled service.pid status)) <|
        .seq (if status = .exited 0 then .skip
          else statement (throwMessage "termined with error".toList)) exitTry
    | .interrupted => .eval shutdownRequested fun requested => if requested then exitTry else .skip
    | _ => statement (throwMessageWithErrno ("could not wait for termination of service '".toList ++
        service.settings.name ++ "'".toList))

/-- The loop until the minimum running time is over. -/
def waitUptime (sid : Nat) : Block Answer Supervisor Str :=
  .forever <| .eval shutdownRequested fun requested =>
    if requested then exitTry
    else .eval getTime fun now => .eval (srv sid) fun service =>
      if (now - service.startTime).toNat ≥ service.settings.minRunningTime then .leave
      else .eval (waitpid service.pid true) fun
        | .reaped _ status => .seq (statement (handleKilled service.pid status)) <|
            statement (throwMessage "minimum uptime not met".toList)
        | .running => .skip
        | _ => statement (throwMessageWithErrno
            ("could not wait for termination of service '".toList ++ service.settings.name ++
              "'".toList))

/-- The loop until the service is ready. -/
def waitReady (sid : Nat) (service : ServiceEntry) : Block Answer Supervisor Str :=
  .forever <| .eval getTime fun now =>
    if (now - service.startTime).toNat ≥ service.settings.readyTimeout then
      statement (throwMessage ("not ready after ".toList ++
        decimal (asInt service.settings.readyTimeout) ++ " msec, giving up".toList))
    else .eval alive fun up =>
      if up then .eval (execServiceCmd sid "is_ready".toList (decimal service.pid)) fun code =>
        if code = 0 then .leave
        else .eval shutdownRequested fun requested => if requested then exitTry else .skip
      else statement (throwMessage "terminated before being ready".toList)

/-- What `start_services` does for a service between `Try` and `Catch`. -/
def bringUp (sid : Nat) : Block Answer Supervisor Str :=
  .seq (statement (startService sid)) <| .eval (srv sid) fun service =>
    if service.settings.sync then waitTermination sid
    else .seq (if service.settings.interval > 0 then exitTry else .skip) <|
      .seq (waitUptime sid) <| .eval (srv sid) fun service =>
        .seq (statement (chdirToService service.settings.name)) <|
        .eval access fun hasIsReady => if hasIsReady then waitReady sid service else .skip

/-- What it does after the `Catch`. -/
def startFailed (sid : Nat) (message : Str) : Block Answer Supervisor Str :=
  .eval (srv sid) fun service =>
    if service.settings.ignoreFailure then .skip
    else statement (throwMessage (failedToBeStarted service.settings.name message))

/-- `start_services`, for the rest of the start order. -/
def startServices : List Int → Block Answer Supervisor Str
  | [] => .skip
  | sid :: order =>
      if sid < 0 then .skip
      else .eval (srv sid.toNat) fun service =>
        if service.settings.isServiceGroup then startServices order
        else .eval shutdownRequested fun requested =>
          if requested then .skip
          else .seq (.attempt (bringUp sid.toNat) (startFailed sid.toNat)) (startServices order)

/-- What `main` does between `Try` and `Catch`, and after the `Catch`. -/
def bringUpServices (view : View) (cwd : Str) : Block Answer Supervisor Str :=
  .attempt
    (.seq (statement (loadServices view cwd)) <| .seq (statement (modify (·.enter .starting))) <|
      .eval get fun s => .call (startServices s.startOrder))
    fun _ => statement (modify requestShutdown)

end Code.Statements

/-! ## Nothing is thrown without a message -/

/-- Whatever is thrown has a message. -/
def Speaks {α : Type} (m : Code α) : Prop :=
  Spec (fun _ => True) m (fun _ _ => True) (fun message _ => message ≠ []) fun _ => True

namespace Speaks

variable {α β : Type} {m : Code α}

theorem bind {f : α → Code β} (first : Speaks m) (rest : ∀ a, Speaks (f a)) : Speaks (m >>= f) :=
  Spec.step first rest

theorem pure (a : α) : Speaks (pure a) := Spec.pure fun _ _ => trivial

theorem modify (f : Supervisor → Supervisor) : Speaks (Script.modify f) :=
  Spec.modify fun _ _ => trivial

theorem get : Speaks Script.get := Spec.get fun _ _ => trivial

theorem ask {accept : Supervisor → Answer → Option (α × Supervisor)} : Speaks (Script.ask accept) :=
  Spec.ask (fun _ _ => trivial) fun _ _ _ _ _ _ => trivial

theorem abort : Speaks (Script.abort : Code α) := Spec.abort fun _ _ => trivial

theorem ite {c : Prop} [Decidable c] {n : Code α} (yes : Speaks m) (no : Speaks n) :
    Speaks (if c then m else n) := Spec.ite (fun _ => yes) fun _ => no

theorem tryCatch {handler : Str → Code α} (caught : ∀ message, Speaks (handler message)) :
    Speaks (Script.tryCatch m handler) := by
  refine Spec.tryCatch (T := fun _ _ => True) ?_ fun message => caught message
  intro answers s _
  unfold Ends
  split <;> trivial

theorem throwMessage {message : Str} (some : message ≠ []) :
    Speaks (Code.throwMessage message : Code α) := by
  intro answers s _
  unfold Code.throwMessage Cinit.throwMessage
  split
  · exact some
  · trivial

theorem throwMessageWithErrno {message : Str} (some : message ≠ []) :
    Speaks (Code.throwMessageWithErrno message : Code α) :=
  Spec.step ask fun _ => throwMessage (List.append_ne_nil_of_left_ne_nil some _)

theorem srv (sid : Nat) : Speaks (Code.srv sid) := get.bind fun _ => pure _

theorem getTime : Speaks Code.getTime := by
  refine ask.bind fun now => ?_
  cases now with
  | some now => exact pure now
  | none => exact abort

theorem chdirToService (service : Str) : Speaks (Code.chdirToService service) := by
  refine ite abort (ask.bind fun error => ?_)
  cases error with
  | none => exact pure _
  | some error =>
      refine throwMessage ?_
      cases error with
      | other strerror => exact List.append_ne_nil_of_left_ne_nil (by decide) _
      | _ => exact List.cons_ne_nil _ _

theorem started (sid : Nat) : Speaks (Code.started sid) := by
  refine getTime.bind fun now => (modify _).bind fun _ => (srv sid).bind fun service => ?_
  refine ite ((modify _).bind fun _ => abort) (ask.bind fun memory => ite ?_ ?_)
  · refine (modify _).bind fun _ => ask.bind fun error => ?_
    cases error with
    | none => exact (modify _).bind fun _ => modify _
    | some strerror => exact throwMessage (by simp)
  · exact throwMessage (by decide)

theorem attempts (sid count : Nat) : Speaks (Code.attempts sid count) := by
  induction count with
  | zero => exact throwMessageWithErrno (by decide)
  | succ count ih =>
      have forks : Speaks (forkAndExec sid) := (modify _).bind fun _ => ask
      exact forks.bind fun pid => (modify _).bind fun _ => ite (started sid) ih

theorem startService (sid : Nat) : Speaks (Code.startService sid) :=
  (srv sid).bind fun _ => ite (pure _) ((chdirToService _).bind fun _ => attempts sid 4)

theorem handleKilled (killed : Int) (status : WaitStatus) :
    Speaks (Code.handleKilled killed status) := by
  refine ite (pure _) (ite (pure _) (get.bind fun s => ?_))
  split
  · exact pure _
  · next sid found =>
      have finish : Speaks (runFinish sid status) := tryCatch fun _ => pure _
      have triggers : Speaks (shutdownOnTerminate sid status) :=
        ask.bind fun _ => ite (pure _) ((srv sid).bind fun _ => ite (modify _) (pure _))
      exact (modify _).bind fun _ => finish.bind fun _ => triggers

end Speaks

/-! ## The `Try` of a service -/

/-- An `ExitTry` only ends the code. -/
def swallow (m : Code Flow) : Code Flow :=
  tryCatch m fun e => if cexception.isNone e then pure .done else ofOutcome (.threw e)

theorem swallow_bind {α : Type} {m : Code α} (speaks : Speaks m) (f : α → Code Flow) :
    swallow (m >>= f) = m >>= fun a => swallow (f a) := by
  ext1
  funext answers s
  have some := speaks answers s trivial
  simp only [swallow, tryCatch_run, bind_run]
  unfold Ends at some
  generalize m.run answers s = run at some ⊢
  obtain ⟨result, rest, state⟩ := run
  obtain _ | _ | message | _ := result
  · rfl
  · rfl
  · have spoken : cexception.isNone message = false := by
      cases message with
      | nil => exact absurd rfl some
      | cons c message => rfl
    simp only [spoken]
    rfl
  · rfl

theorem threw_bind {α β : Type} (message : Str) (f : α → Code β) :
    (ofOutcome (.threw message) : Code α) >>= f = ofOutcome (.threw message) := rfl

/-- Behind the `Try` is the `Catch`. -/
theorem attempt_script (body : Block Answer Supervisor Str)
    (handler : Str → Block Answer Supervisor Str) :
    (Block.attempt body handler).script cexception =
      tryCatch (swallow (body.script cexception)) fun message =>
        (handler message).script cexception := by
  ext1
  funext answers s
  simp only [Block.script, swallow, tryCatch_run]
  generalize (body.script cexception).run answers s = run
  obtain ⟨result, rest, state⟩ := run
  obtain _ | _ | message | _ := result
  · rfl
  · rfl
  · by_cases nothing : cexception.isNone message <;> simp only [nothing] <;> rfl
  · rfl

/-- A loop of the source and one that gives a value. With each round the one goes on, or is left in
the way in which the other gives its value. -/
theorem swallow_forever {γ : Type} {body : Block Answer Supervisor Str} {round : Code (Option γ)}
    {f : Flow → Code Flow} {g : γ → Code Flow}
    (same : ∀ again : Code Flow,
      swallow (body.script cexception >>= fun flow => (Block.afterRound flow).elim again f) =
        round >>= fun value => value.elim (swallow again) g) :
    swallow ((Block.forever body).script cexception >>= f) = loop round >>= g := by
  have upTo (n : Nat) : swallow (repeatUpTo (body.script cexception >>= fun flow =>
        pure (Block.afterRound flow)) n >>= f) = repeatUpTo round n >>= g := by
    induction n with
    | zero => rfl
    | succ n ih =>
        have onward : body.script cexception >>= (fun flow => (Block.afterRound flow).elim
            (repeatUpTo (body.script cexception >>= fun flow => pure (Block.afterRound flow)) n >>=
              f)
            f) = repeatUpTo (body.script cexception >>= fun flow => pure (Block.afterRound flow))
              (n + 1) >>= f := by
          rw [repeatUpTo, bind_assoc, bind_assoc]
          congr 1
          funext flow
          cases flow <;> rfl
        rw [← onward, same, ih, repeatUpTo, bind_assoc]
        congr 1
        funext value
        cases value <;> rfl
  ext1
  funext answers s
  exact congrArg (fun script => script.run answers s) (upTo (answers.length + 1))

theorem eval_script {α : Type} (expr : Code α) (next : α → Block Answer Supervisor Str) :
    (Block.eval expr next).script cexception = expr >>= fun a => (next a).script cexception := rfl

/-- A call, and what comes behind it. -/
theorem seq_script (call : Code Unit) (b : Block Answer Supervisor Str) :
    (Block.seq (Statements.statement call) b).script cexception =
      call >>= fun _ => b.script cexception := by
  simp only [Block.script, Statements.statement, bind_assoc]
  rfl

/-- What is thrown is not seen by what comes behind. -/
theorem throwMessage_bind {α β : Type} (message : Str) (f : α → Code Flow) (g : β → Code Flow) :
    Code.throwMessage message >>= f = Code.throwMessage message >>= g := by
  unfold Code.throwMessage Cinit.throwMessage
  split <;> rfl

theorem swallow_throwMessage {β : Type} {message : Str} (some : message ≠ []) (f : Flow → Code Flow)
    (g : β → Code Flow) :
    swallow ((Statements.statement (Code.throwMessage message)).script cexception >>= f) =
      Code.throwMessage message >>= g := by
  rw [Statements.statement, Block.script, bind_assoc, swallow_bind (Speaks.throwMessage some)]
  exact throwMessage_bind message _ _

theorem swallow_throwMessageWithErrno {β : Type} {message : Str} (some : message ≠ [])
    (f : Flow → Code Flow) (g : β → Code Flow) :
    swallow ((Statements.statement (Code.throwMessageWithErrno message)).script cexception >>= f) =
      Code.throwMessageWithErrno message >>= g := by
  have asked : Speaks errno := Speaks.ask
  rw [Statements.statement, Block.script, bind_assoc, Code.throwMessageWithErrno, bind_assoc,
    swallow_bind asked, Code.throwMessageWithErrno, bind_assoc]
  refine congrArg (errno >>= ·) (funext fun strerror => ?_)
  rw [swallow_bind (Speaks.throwMessage (List.append_ne_nil_of_left_ne_nil some _))]
  exact throwMessage_bind _ _ _

/-- A call whose value decides on what comes behind it. -/
theorem swallow_eval {α β : Type} {expr : Code α} (speaks : Speaks expr)
    {next : α → Block Answer Supervisor Str} {f : Flow → Code Flow} {next' : α → Code β}
    {g : β → Code Flow}
    (same : ∀ a, swallow ((next a).script cexception >>= f) = next' a >>= g) :
    swallow ((Block.eval expr next).script cexception >>= f) = expr >>= next' >>= g := by
  rw [Block.script, bind_assoc, swallow_bind speaks, bind_assoc]
  exact congrArg (expr >>= ·) (funext same)

/-- A call, and what comes behind it. -/
theorem swallow_seq {β : Type} {call : Code Unit} (speaks : Speaks call)
    {b : Block Answer Supervisor Str} {f : Flow → Code Flow} {next' : Unit → Code β}
    {g : β → Code Flow} (same : swallow (b.script cexception >>= f) = next' () >>= g) :
    swallow ((Block.seq (Statements.statement call) b).script cexception >>= f) =
      call >>= next' >>= g := by
  rw [seq_script, bind_assoc, swallow_bind speaks, bind_assoc]
  exact congrArg (call >>= ·) (funext fun _ => same)

theorem couldNotWait (name : Str) :
    "could not wait for termination of service '".toList ++ name ++ "'".toList ≠ [] := by simp

theorem waitUptime_script (sid : Nat) (f : Flow → Code Flow) :
    swallow ((Statements.waitUptime sid).script cexception >>= f) =
      waitUptime sid >>= fun up => if up then swallow (f .done) else pure .done := by
  refine swallow_forever fun again => ?_
  refine swallow_eval Speaks.ask fun requested => ?_
  cases requested with
  | true => rfl
  | false =>
      refine swallow_eval Speaks.getTime fun now => swallow_eval (Speaks.srv sid) fun service => ?_
      split
      · rfl
      · refine swallow_eval Speaks.ask fun result => ?_
        cases result with
        | reaped child status =>
            exact swallow_seq (Speaks.handleKilled _ _) (swallow_throwMessage (by decide) _ _)
        | running => rfl
        | interrupted =>
            exact swallow_throwMessageWithErrno (couldNotWait service.settings.name) _ _
        | failed => exact swallow_throwMessageWithErrno (couldNotWait service.settings.name) _ _

theorem waitTermination_script (sid : Nat) (f : Flow → Code Flow) :
    swallow ((Statements.waitTermination sid).script cexception >>= f) =
      runSync sid >>= fun _ => pure .done := by
  rw [runSync, bind_assoc]
  refine swallow_forever fun again => ?_
  refine swallow_eval (Speaks.srv sid) fun service => swallow_eval Speaks.ask fun result => ?_
  cases result with
  | reaped child status =>
      change _ = (srv sid >>= fun service => handleKilled service.pid status >>= fun _ =>
        if status = .exited 0 then pure ()
        else Code.throwMessage "termined with error".toList) >>= fun _ => pure Flow.done
      refine swallow_eval (Speaks.srv sid) fun service =>
        swallow_seq (Speaks.handleKilled _ _) ?_
      split
      · rfl
      · rw [seq_script, bind_assoc, swallow_bind (Speaks.throwMessage (by decide))]
        exact throwMessage_bind _ _ _
  | interrupted =>
      refine swallow_eval Speaks.ask fun requested => ?_
      cases requested <;> rfl
  | running => exact swallow_throwMessageWithErrno (couldNotWait service.settings.name) _ _
  | failed => exact swallow_throwMessageWithErrno (couldNotWait service.settings.name) _ _

theorem waitReady_script (sid : Nat) (service : ServiceEntry) :
    swallow ((Statements.waitReady sid service).script cexception >>= pure) =
      loop (readyRound sid service) >>= fun _ => pure .done := by
  refine swallow_forever fun again => ?_
  refine swallow_eval Speaks.getTime fun now => ?_
  split
  · exact swallow_throwMessage (by simp) _ _
  · refine swallow_eval Speaks.ask fun up => ?_
    cases up with
    | false => exact swallow_throwMessage (by decide) _ _
    | true =>
        refine swallow_eval Speaks.ask fun code => ?_
        split
        · rfl
        · refine swallow_eval Speaks.ask fun requested => ?_
          cases requested <;> rfl

theorem bind_pure {α : Type} (m : Code α) : m >>= pure = m := by
  ext1
  funext answers s
  rw [bind_run]
  generalize m.run answers s = run
  obtain ⟨result, rest, state⟩ := run
  obtain _ | _ | _ | _ := result <;> rfl

/-- The body of the `Try` in `start_services`. -/
theorem bringUp_script (sid : Nat) :
    swallow ((Statements.bringUp sid).script cexception) =
      bringUp sid >>= fun _ => pure .done := by
  rw [← bind_pure ((Statements.bringUp sid).script cexception)]
  refine swallow_seq (Speaks.startService sid) (swallow_eval (Speaks.srv sid) fun service => ?_)
  split
  · exact waitTermination_script sid pure
  · split
    · rfl
    · change swallow ((Statements.waitUptime sid).script cexception >>= _ >>= pure) = _
      rw [bind_assoc, waitUptime_script, bind_assoc]
      refine congrArg (waitUptime sid >>= ·) (funext fun up => ?_)
      cases up with
      | false => rfl
      | true =>
          refine swallow_eval (Speaks.srv sid) fun service =>
            swallow_seq (Speaks.chdirToService _) (swallow_eval Speaks.ask fun hasIsReady => ?_)
          cases hasIsReady with
          | false => rfl
          | true => exact waitReady_script sid service

theorem startFailed_script (sid : Nat) (message : Str) :
    (Statements.startFailed sid message).script cexception =
      startFailed sid message >>= fun _ => pure .done := by
  rw [startFailed, bind_assoc]
  refine congrArg (srv sid >>= ·) (funext fun service => ?_)
  dsimp only
  split <;> rfl

/-- With a handler that leaves nothing out. -/
theorem tryCatch_bind {α : Type} {m : Code α} {handler : Str → Code α} :
    tryCatch (m >>= fun _ => pure Flow.done)
      (fun message => handler message >>= fun _ => pure .done) =
      tryCatch m handler >>= fun _ => pure .done := by
  ext1
  funext answers s
  simp only [tryCatch_run, bind_run]
  generalize m.run answers s = run
  obtain ⟨result, rest, state⟩ := run
  obtain _ | _ | _ | _ := result <;> rfl

theorem startServices_script (order : List Int) :
    (Statements.startServices order).script cexception =
      startServices order >>= fun _ => pure .done := by
  induction order with
  | nil => rfl
  | cons sid order ih =>
      rw [Statements.startServices, startServices]
      split
      · rfl
      · rw [eval_script, bind_assoc]
        refine congrArg (srv sid.toNat >>= ·) (funext fun service => ?_)
        split
        · exact ih
        · rw [eval_script, bind_assoc]
          refine congrArg (shutdownRequested >>= ·) (funext fun requested => ?_)
          split
          · rfl
          · rw [Block.script, attempt_script, bringUp_script, funext (startFailed_script sid.toNat),
              tryCatch_bind, bind_assoc, bind_assoc, ih]
            rfl

theorem lead_ne_nil {lead : Str} (h : lead ≠ []) (name between message : Str) :
    lead ++ name ++ between ++ message ≠ [] := by
  simp [h]

theorem failedToBeStarted_ne_nil (service message : Str) :
    failedToBeStarted service message ≠ [] :=
  List.append_ne_nil_of_left_ne_nil (lead_ne_nil (by decide) _ _ _) _

theorem Speaks.startServices (order : List Int) : Speaks (Code.startServices order) := by
  induction order with
  | nil => exact Speaks.pure _
  | cons sid order ih =>
      refine Speaks.ite (Speaks.pure _) ((Speaks.srv _).bind fun service => Speaks.ite ih ?_)
      refine Speaks.ask.bind fun _ => Speaks.ite (Speaks.pure _) (Speaks.bind ?_ fun _ => ih)
      refine Speaks.tryCatch fun message => (Speaks.srv _).bind fun _ =>
        Speaks.ite (Speaks.pure _) ?_
      exact Speaks.throwMessage (failedToBeStarted_ne_nil _ message)

/-! ## Loading -/

/-- What is thrown while a service is loaded has a message. -/
def Spoken {α : Type} (x : Outcome Str α) : Prop := ∀ message, x = .threw message → message ≠ []

theorem spoken_ok {α : Type} (a : α) : Spoken (.ok a : Outcome Str α) := by
  intro message same
  cases same

theorem spoken_aborted {α : Type} : Spoken (.aborted : Outcome Str α) := by
  intro message same
  cases same

theorem spoken_throwMessage {α : Type} {message : Str} (some : message ≠ []) :
    Spoken (Cinit.throwMessage message : Outcome Str α) := by
  intro message' threw
  unfold Cinit.throwMessage at threw
  split at threw
  · cases threw
    exact some
  · cases threw

theorem Spoken.bind {α β : Type} {x : Outcome Str α} {f : α → Outcome Str β} (hx : Spoken x)
    (hf : ∀ a, Spoken (f a)) : Spoken (x >>= f) := by
  cases x with
  | ok a => exact hf a
  | threw message => exact fun _ same => hx _ (by cases same; rfl)
  | aborted => exact spoken_aborted

theorem spoken_handle {α : Type} {x : Outcome Str α} {handler : Str → Outcome Str α}
    (h : ∀ message, Spoken (handler message)) : Spoken (x.handle handler) := by
  cases x with
  | ok a => exact spoken_ok a
  | threw message => exact h message
  | aborted => exact spoken_aborted

theorem couldNotLoad_ne_nil (filepath message : Str) : couldNotLoad filepath message ≠ [] :=
  lead_ne_nil (by decide) _ _ _

theorem loadValueAsString_spoken (sys : System) (filepath : Str) (node : Option Node)
    (buf : Option Str) (bufsize : Nat) :
    Spoken (loadValueAsString sys filepath node buf bufsize) := by
  have threw {α : Type} (message : Str) :
      Spoken (Cinit.throwMessage (couldNotLoad filepath message) : Outcome Str α) :=
    spoken_throwMessage (couldNotLoad_ne_nil filepath message)
  unfold loadValueAsString
  split
  · exact spoken_ok _
  · exact threw _
  · dsimp only
    split
    · exact threw _
    · split
      · exact threw _
      · exact spoken_ok _
  · exact spoken_handle fun message => threw message

theorem view_depends_spoken (sys : System) (defaults : ServiceDefaults) (root : ServicesRoot)
    (memory : Memory) (cwd service dName : Str) (n : Nat) :
    Spoken ((root.view sys defaults memory).depends cwd service dName n) := by
  have loaded (stack : Str) :
      Spoken (loadValueAsBool sys dName (root.lookup cwd dName) stack) := by
    refine (loadValueAsString_spoken _ _ _ _ _).bind fun value => ?_
    split
    · exact spoken_ok _
    · exact spoken_handle fun message => spoken_throwMessage (couldNotLoad_ne_nil _ message)
  exact (loaded _).bind fun _ => spoken_ok _

theorem goOn_spoken {result : Outcome Str Unit × LoadContext}
    {rest : LoadContext → Outcome Str Unit × LoadContext} (first : Spoken result.1)
    (later : ∀ ctx, Spoken (rest ctx).1) : Spoken (goOn result rest).1 := by
  unfold goOn
  split
  · exact later _
  · exact first

theorem loadDependencies_spoken {view : View}
    (depends : ∀ cwd service dName n, Spoken (view.depends cwd service dName n))
    {load : Str → Int → LoadContext → Outcome Str Unit × LoadContext}
    (loads : ∀ service dependent ctx, Spoken (load service dependent ctx).1) (service : Str)
    (sid : Nat) (entries : List DirEntry) (ctx : LoadContext) :
    Spoken (loadDependencies view load service sid entries ctx).1 := by
  induction entries generalizing ctx with
  | nil => exact spoken_ok _
  | cons entry entries ih =>
      rw [loadDependencies]
      split
      · exact ih ctx
      · split
        · next message found =>
            intro message' same
            cases same
            exact depends _ _ _ _ message found
        · exact spoken_aborted
        · next needed found =>
            refine goOn_spoken ?_ ih
            split
            · exact loads _ _ _
            · exact spoken_ok _

theorem couldNotLoadService_ne_nil (service message : Str) :
    couldNotLoadService service message ≠ [] :=
  lead_ne_nil (by decide) _ _ _

theorem loadServiceWithDeps_spoken {view : View}
    (depends : ∀ cwd service dName n, Spoken (view.depends cwd service dName n)) (service : Str)
    (dependent : Int) (ctx : LoadContext) :
    Spoken (loadServiceWithDeps view service dependent ctx).1 := by
  have threw {α : Type} (service message : Str) :
      Spoken (Cinit.throwMessage (couldNotLoadService service message) : Outcome Str α) :=
    spoken_throwMessage (couldNotLoadService_ne_nil service message)
  have atDepth (depth : Nat) : ∀ service dependent ctx,
      Spoken (loadWithDepth view depth service dependent ctx).1 := by
    induction depth with
    | zero => exact fun _ _ _ => spoken_aborted
    | succ depth ih =>
        intro service dependent ctx
        rw [loadWithDepth]
        split
        · exact spoken_aborted
        · split
          · exact spoken_ok _
          · split
            · exact threw _ _
            · exact spoken_aborted
            · split
              · exact spoken_ok _
              · dsimp only
                split
                · exact threw _ _
                · exact spoken_aborted
                · exact loadDependencies_spoken depends ih _ _ _ _
  exact atDepth _ service dependent ctx

theorem Speaks.loadServices {view : View}
    (depends : ∀ cwd service dName n, Spoken (view.depends cwd service dName n)) (cwd : Str) :
    Speaks (Code.loadServices view cwd) := by
  refine (Speaks.modify _).bind fun _ => ?_
  have spoken : Spoken (loadDefault view cwd).1 := loadServiceWithDeps_spoken depends _ _ _
  intro answers s _
  unfold ofOutcome Ends
  dsimp only
  cases result : (loadDefault view cwd).1 with
  | ok a => trivial
  | threw message => exact spoken message result
  | aborted => trivial

theorem bringUpServices_script {view : View}
    (depends : ∀ cwd service dName n, Spoken (view.depends cwd service dName n)) (cwd : Str) :
    (Statements.bringUpServices view cwd).script cexception =
      bringUpServices view cwd >>= fun _ => pure .done := by
  have call (order : List Int) :
      swallow ((Block.call (Statements.startServices order)).script cexception) =
        startServices order >>= fun _ => pure .done := by
    rw [Block.script, startServices_script, bind_assoc]
    exact swallow_bind (Speaks.startServices order) _
  have rest : swallow ((Block.eval get fun s =>
        .call (Statements.startServices s.startOrder)).script cexception) =
      (get >>= fun s => startServices s.startOrder) >>= fun _ => pure .done := by
    rw [eval_script, swallow_bind Speaks.get, bind_assoc]
    exact congrArg (get >>= ·) (funext fun s => call s.startOrder)
  rw [Statements.bringUpServices, attempt_script, seq_script,
    swallow_bind (Speaks.loadServices depends cwd),
    bringUpServices, ← tryCatch_bind, bind_assoc]
  refine congrArg₂ tryCatch ?_ rfl
  refine congrArg (loadServices view cwd >>= ·) (funext fun _ => ?_)
  rw [seq_script, swallow_bind (Speaks.modify _), rest]
  simp only [bind_assoc]
  rfl

/-! ## No `Try` is left but by its end -/

section Discipline

variable {inLoop inCall : Bool}

theorem exitTry_disciplined : Statements.exitTry.Disciplined cexception inLoop inCall :=
  fun _ => trivial

theorem statement_disciplined (call : Code Unit) :
    (Statements.statement call).Disciplined cexception inLoop inCall := fun _ => trivial

theorem waitTermination_disciplined (sid : Nat) :
    (Statements.waitTermination sid).Disciplined cexception inLoop inCall := by
  refine ⟨fun service result => ?_, Asks.bind_right fun _ => Asks.bind Asks.ask _⟩
  cases result with
  | reaped child status =>
      refine fun service => ⟨statement_disciplined _, ?_, exitTry_disciplined⟩
      split
      · trivial
      · exact statement_disciplined _
  | interrupted =>
      intro requested
      cases requested
      · trivial
      · exact exitTry_disciplined
  | running => exact statement_disciplined _
  | failed => exact statement_disciplined _

theorem waitUptime_disciplined (sid : Nat) :
    (Statements.waitUptime sid).Disciplined cexception inLoop inCall := by
  refine ⟨fun requested => ?_, Asks.bind Asks.ask _⟩
  cases requested with
  | true => exact exitTry_disciplined
  | false =>
      intro now service
      dsimp only
      split
      · rfl
      · intro result
        cases result with
        | reaped child status => exact ⟨statement_disciplined _, statement_disciplined _⟩
        | running => trivial
        | interrupted => exact statement_disciplined _
        | failed => exact statement_disciplined _

theorem waitReady_disciplined (sid : Nat) (service : ServiceEntry) :
    (Statements.waitReady sid service).Disciplined cexception inLoop inCall := by
  refine ⟨fun now => ?_, Asks.bind (Asks.bind Asks.ask _) _⟩
  dsimp only
  split
  · exact statement_disciplined _
  · intro up
    cases up with
    | false => exact statement_disciplined _
    | true =>
        intro code
        dsimp only
        split
        · rfl
        · intro requested
          cases requested
          · trivial
          · exact exitTry_disciplined

theorem bringUp_disciplined (sid : Nat) :
    (Statements.bringUp sid).Disciplined cexception inLoop inCall := by
  refine ⟨statement_disciplined _, fun service => ?_⟩
  dsimp only
  split
  · exact waitTermination_disciplined sid
  · refine ⟨?_, waitUptime_disciplined sid, fun service =>
      ⟨statement_disciplined _, fun ready => ?_⟩⟩
    · split
      · exact exitTry_disciplined
      · trivial
    · cases ready with
      | false => trivial
      | true => exact waitReady_disciplined sid service

theorem startServices_disciplined (order : List Int) :
    (Statements.startServices order).Disciplined cexception inLoop inCall := by
  induction order with
  | nil => trivial
  | cons sid order ih =>
      rw [Statements.startServices]
      split
      · trivial
      · intro service
        dsimp only
        split
        · exact ih
        · intro requested
          cases requested with
          | true => trivial
          | false =>
              refine ⟨⟨bringUp_disciplined _, fun message service => ?_⟩, ih⟩
              dsimp only
              split
              · trivial
              · exact statement_disciplined _

theorem bringUpServices_disciplined (view : View) (cwd : Str) :
    (Statements.bringUpServices view cwd).Disciplined cexception inLoop inCall :=
  ⟨⟨statement_disciplined _, statement_disciplined _, fun _ => startServices_disciplined _⟩,
    fun _ => statement_disciplined _⟩

end Discipline

/-- All that is thrown is caught. -/
theorem bringUpServices_catches (view : View) (cwd : Str) (answers : List Answer) (s : Supervisor)
    (message : Str) :
    ((bringUpServices view cwd >>= fun _ => pure Flow.done : Code Flow).run answers s).result ≠
      some (.threw message) := by
  have catches : Spec (fun _ => True) (bringUpServices view cwd >>= fun _ => pure Flow.done)
      (fun _ _ => True) (fun _ _ => False) fun _ => True := by
    refine Spec.step (Spec.tryCatch (T := fun _ _ => True) ?_ fun _ => ?_) fun _ =>
      Spec.pure fun _ _ => trivial
    · intro answers s _
      unfold Ends
      split <;> trivial
    · exact Spec.step (Spec.modify fun _ _ => trivial) fun _ => Spec.pure fun _ _ => trivial
  intro threw
  have ends := catches answers s trivial
  rw [Ends, threw] at ends
  exact ends

/-- The start-up over jump buffers: the frame pointer always points to the innermost `Try` that is
open, so that no jump goes where nothing is, everything that is thrown is caught, and the run ends
where the start-up with handlers ends. -/
theorem bringUpServices_overJumps (sys : System) (defaults : ServiceDefaults) (root : ServicesRoot)
    (memory : Memory) (cwd : Str) (answers : List Answer) :
    let begun := Machine.start cexception
      (Statements.bringUpServices (root.view sys defaults memory) cwd) answers booted
    (∀ m, Machine.Reaches cexception begun m → Machine.Framed cexception m ∧
      ∀ message, m.control = .throwing message → m.pFrame ≠ 0) ∧
    (∃ m, Machine.Reaches cexception begun m ∧ Machine.Halted cexception m) ∧
    ∀ m, Machine.Reaches cexception begun m → Machine.Halted cexception m →
      Machine.Ended [] 0 ((bringUpServices (root.view sys defaults memory) cwd >>= fun _ =>
        pure Flow.done : Code Flow).run answers booted) m := by
  intro begun
  have disciplined : (Statements.bringUpServices (root.view sys defaults memory) cwd).Disciplined
      cexception false false := bringUpServices_disciplined _ cwd
  have ended : ∀ m, Machine.Reaches cexception begun m → Machine.Halted cexception m →
      Machine.Ended [] 0 ((bringUpServices (root.view sys defaults memory) cwd >>= fun _ =>
        pure Flow.done : Code Flow).run answers booted) m := by
    intro m reaches halted
    rw [← bringUpServices_script (view_depends_spoken sys defaults root memory)]
    exact reaches.ended disciplined halted
  refine ⟨fun m reaches => ⟨(Machine.framed_start disciplined answers booted).reaches reaches, ?_⟩,
    ?_, ended⟩
  · intro message throws uncaught
    have halted : Machine.Halted cexception m := by
      simp only [Machine.Halted, Machine.step, throws, if_pos uncaught]
    have last := ended m reaches halted
    have caught := bringUpServices_catches (root.view sys defaults memory) cwd answers booted
    generalize (bringUpServices (root.view sys defaults memory) cwd >>= fun _ =>
        pure Flow.done : Code Flow).run answers booted = run at last caught
    obtain ⟨result, rest, state⟩ := run
    obtain _ | flow | e | _ := result
    · cases throws.symm.trans (last.waiting rfl)
    · cases throws.symm.trans (last.left flow rfl).1
    · exact caught e rfl
    · cases throws.symm.trans (last.aborted rfl)
  · obtain ⟨m, reaches, halted, -⟩ := Machine.start_halts disciplined answers booted
    exact ⟨m, reaches, halted⟩

end Baseimage.Cinit
