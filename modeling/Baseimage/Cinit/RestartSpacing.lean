import Baseimage.Cinit.IntervalSpacing

/-!
# A service is not started again at once

The main loop starts a service again when it is to respawn, when a command asked for it or when its
interval is over. In each case it reads the clock first and compares it with the start time, so
whatever leads to the next start of a service, it does not follow the last one within the restart
delay.
-/

namespace Baseimage.Cinit

open Script Supervisor Code

/-! ## The rules of the main loop, with the delay -/

/-- The main loop comes to start a service whose restart delay is over. -/
def DelayOver (I : Supervisor → Prop) (sid : Nat) (t : Supervisor) : Prop :=
  ∃ s now, I s ∧ serviceRestartDelay < (now - (s.srv sid).startTime).toNat ∧
    t = (s.record (.clock now)).record (.restartDue sid (s.srv sid).restartRequested)

/-- As `Cycles`, where a service is started again only when its restart delay is over. -/
structure Turns (I R : Supervisor → Prop) : Prop extends Reaps I where
  stopped : ∀ s : Supervisor, I s → R s
  sigterm : ∀ {s : Supervisor} {sid : Nat}, I s → (s.srv sid).pid ≠ 0 → I (s.sigterm sid)
  stillRunning : ∀ {s : Supervisor} {sid : Nat} {now : UInt64}, I s →
    I ((s.record (.clock now)).setStartTime sid now)
  interval : ∀ sid : Nat,
    Spec (IntervalOver I sid) (startService sid) (fun _ => I) (fun _ => I) R
  restart : ∀ sid : Nat, Spec (DelayOver I sid) (startService sid)
    (fun _ s => I (s.setRestartRequested sid false)) (fun _ => I) R
  accepted : ∀ {s : Supervisor} {sid : Nat}, I s →
    I ((s.setRestartRequested sid true).record (.restartAccepted sid))

section Turns

variable {I R : Supervisor → Prop}

theorem Turns.runInterval (h : Turns I R) (sid : Nat) : KeepsOr I R (runInterval sid) := by
  refine Spec.bind (srv_spec sid) fun service => ?_
  refine Spec.ite (fun regular => ?_) fun _ => Spec.pure fun _ hs => hs.1
  refine Spec.bind (getTime_spec fun s hs => h.stopped s hs.1) fun now => ?_
  have told : ∀ t, (∃ s, (I s ∧ service = s.srv sid) ∧ t = s.record (.clock now)) → I t := by
    rintro _ ⟨s, hs, rfl⟩
    exact h.passive (by trivial) hs.1
  refine Spec.ite (fun due => ?_) fun _ => Spec.pure told
  refine Spec.ite (fun _ => ?_) fun _ => ?_
  · refine Spec.pre (P := I) (Spec.bind (getTime_spec h.stopped) fun later => Spec.modify ?_) told
    rintro _ ⟨s, hs, rfl⟩
    exact h.stillRunning hs
  · refine Spec.bind (M := fun _ => IntervalOver I sid) (Spec.modify ?_) fun _ => ?_
    · rintro _ ⟨s, ⟨hs, rfl⟩, rfl⟩
      exact ⟨s, now, hs, regular, due, rfl⟩
    · exact Spec.tryCatch (h.interval sid) fun _ => Spec.pure fun _ hs => hs

/-- A service is started again where the delay is known to be over. -/
theorem Turns.runRestart (h : Turns I R) (sid : Nat) : KeepsOr I R (runRestart sid) := by
  refine Spec.bind (srv_spec sid) fun service => ?_
  refine Spec.ite (fun _ => ?_) fun _ => Spec.pure fun _ hs => hs.1
  refine Spec.bind (getTime_spec fun s hs => h.stopped s hs.1) fun now => ?_
  refine Spec.ite (fun passed => ?_) fun _ => Spec.pure ?_
  · refine Spec.bind (M := fun _ => DelayOver I sid) (Spec.modify ?_) fun _ => ?_
    · rintro _ ⟨s, ⟨hs, rfl⟩, rfl⟩
      exact ⟨s, now, hs, passed, rfl⟩
    · refine Spec.tryCatch (T := fun _ => I) ?_ fun _ => Spec.pure fun _ hs => hs
      exact Spec.bind (h.restart sid) fun _ => Spec.modify fun _ hs => hs
  · rintro _ ⟨s, hs, rfl⟩
    exact h.passive (by trivial) hs.1

theorem Turns.runCommand (h : Turns I R) : KeepsOr I R runCommand := by
  refine Spec.step ((inquire_keeps _).or h.stopped) fun buf => ?_
  split
  · exact (Keeps.pure _).or h.stopped
  · exact (Keeps.ofOutcome _).or h.stopped
  · refine Spec.bind (Spec.get (Q := fun _ => I) fun _ hs => hs) fun s => ?_
    split
    · exact (Keeps.pure _).or h.stopped
    · next sid _ =>
        refine Spec.tryCatch (T := fun _ => I) ?_ fun _ => (Keeps.pure _).or h.stopped
        refine Spec.step ((stopService_keeps h.toQuiet h.sigterm _).or h.stopped) fun _ => ?_
        refine Spec.bind (M := fun _ t => I (t.record (.restartAccepted sid))) (Spec.modify ?_)
          fun _ => Spec.modify fun _ ht => ht
        exact fun _ hs => h.accepted hs

theorem Turns.mainLoop (h : Turns I R) : KeepsOr I R mainLoop := by
  have leave (a : Option Unit) : KeepsOr I R (pure a : Code (Option Unit)) :=
    (Keeps.pure a).or h.stopped
  have signals : Keeps I shutdownRequested := shutdownRequested_keeps h.requestShutdown
  have requested : KeepsOr I R shutdownRequested := signals.or h.stopped
  have process : KeepsOr I R processServices := by
    refine Spec.bind (Spec.get (Q := fun _ => I) fun _ hs => hs) fun s => ?_
    refine Spec.step (Spec.forEach h.runInterval) fun _ => ?_
    exact Spec.step (Spec.forEach h.runRestart) fun _ => h.runCommand
  refine KeepsOr.loop h.stopped ?_
  refine Spec.step requested fun _ => Spec.ite (fun _ => leave _) fun _ => ?_
  refine Spec.step ((childHandler_keeps h.toReaps _ _).or h.stopped) fun all => ?_
  refine Spec.step requested fun _ => Spec.ite (fun _ => leave _) fun _ => ?_
  refine Spec.bind (Spec.get (Q := fun _ => I) fun _ hs => hs) fun s => ?_
  refine Spec.ite (fun _ => ?_) fun _ => Spec.step process fun _ => leave _
  exact Spec.step (Spec.modify fun _ hs => h.requestShutdown hs) fun _ => leave _

end Turns

/-! ## What is known about the start time -/

section Paced

variable (loaded : Nat → Service) (sid : Nat) (S : List Event → Prop)

/-- The start time is a reading of the clock that is not earlier than the last start. -/
structure Paced (l : Ledger) : Prop where
  known : (l.standing sid).startTime = 0 ∨ .clock (l.standing sid).startTime ∈ l.history
  lastStart : ∀ between, SinceFork sid l.history between →
    ∃ rest t₁, between = rest ++ [.clock t₁] ∧ t₁ ≤ (l.standing sid).startTime
  starts : S l.history

/-- This holds unless the clock went back. -/
structure PacedUnless (l : Ledger) : Prop where
  settings : ∀ i, l.settings i = loaded i
  paced : ClockMonotone l.history → Paced sid S l

variable {loaded sid S}

theorem PacedUnless.record {l : Ledger} (h : PacedUnless loaded sid S l) {e : Event}
    (other : ∀ pid, e ≠ .forked sid pid) (starts : S l.history → S (e :: l.history)) :
    PacedUnless loaded sid S (l.record e) where
  settings := h.settings
  paced monotone := by
    have paced := h.paced monotone.of_cons
    refine ⟨paced.known.imp_right (List.mem_cons_of_mem e), fun between since => ?_,
      starts paced.starts⟩
    obtain ⟨less, rfl, earlier⟩ := since.of_cons other
    obtain ⟨rest, t₁, rfl, le⟩ := paced.lastStart less earlier
    exact ⟨e :: rest, t₁, rfl, le⟩

/-- A change that leaves the settings and the start times of the service alone. -/
theorem PacedUnless.modify {l : Ledger} (h : PacedUnless loaded sid S l) (i : Nat)
    {f : Standing → Standing} (settings : ∀ st, (f st).settings = st.settings)
    (time : ((l.modify i f).standing sid).startTime = (l.standing sid).startTime) :
    PacedUnless loaded sid S (l.modify i f) where
  settings j := (Ledger.standing_modify_same Standing.settings settings j).trans (h.settings j)
  paced monotone := by
    have paced := h.paced monotone
    exact
      { known := time ▸ paced.known
        lastStart := time ▸ paced.lastStart
        starts := paced.starts }

theorem PacedUnless.setRestartRequested {l : Ledger} (h : PacedUnless loaded sid S l) (i : Nat)
    (requested : Bool) : PacedUnless loaded sid S (l.setRestartRequested i requested) :=
  h.modify i (fun _ => rfl) (Ledger.startTime_setRestartRequested i requested sid)

/-- The start time becomes the latest reading. -/
theorem paced_setStartTime {l : Ledger} (used : l.settings sid ≠ ServiceEntry.unused.settings)
    {now : UInt64} (starts : S (.clock now :: l.history))
    (lastStart : ∀ less, SinceFork sid l.history less → less ≠ [] →
      ∃ rest t₁, less = rest ++ [.clock t₁] ∧ t₁ ≤ now) :
    Paced sid S ((l.record (.clock now)).setStartTime sid now) := by
  have time : (((l.record (.clock now)).setStartTime sid now).standing sid).startTime = now :=
    Ledger.startTime_setStartTime now used
  refine { known := ?_, lastStart := ?_, starts := starts }
  · rw [time]
    exact .inr List.mem_cons_self
  · rw [time]
    intro between since
    obtain ⟨less, rfl, earlier⟩ := since.of_cons (by simp)
    by_cases empty : less = []
    · exact ⟨[], now, by rw [empty]; rfl, UInt64.le_refl now⟩
    · obtain ⟨rest, t₁, rfl, le⟩ := lastStart less earlier empty
      exact ⟨.clock now :: rest, t₁, rfl, le⟩

theorem PacedUnless.stillRunning {l : Ledger} (h : PacedUnless loaded sid S l)
    (used : loaded sid ≠ ServiceEntry.unused.settings) (i : Nat) {now : UInt64}
    (starts : S l.history → S (.clock now :: l.history)) :
    PacedUnless loaded sid S ((l.record (.clock now)).setStartTime i now) := by
  by_cases own : sid = i
  · subst own
    refine { settings := fun j => ?_, paced := fun monotone => ?_ }
    · rw [Ledger.settings_setStartTime]
      exact h.settings j
    · have paced := h.paced monotone.of_cons
      refine paced_setStartTime (h.settings sid ▸ used) (starts paced.starts) fun less since _ => ?_
      obtain ⟨rest, t₁, rfl, -⟩ := paced.lastStart less since
      refine ⟨rest, t₁, rfl, monotone.le ?_⟩
      obtain ⟨pid, earlier, eq, -⟩ := since
      rw [eq]
      simp
  · have read : PacedUnless loaded sid S (l.record (.clock now)) := h.record (by simp) starts
    exact read.modify i (fun _ => rfl)
      (congrArg Standing.startTime (Ledger.standing_modify_of_ne _ own))

/-- The service has just been forked. -/
structure JustForked (loaded : Nat → Service) (sid : Nat) (S : List Event → Prop) (l : Ledger) :
    Prop where
  settings : ∀ i, l.settings i = loaded i
  starts : ClockMonotone l.history → S l.history
  latest : ∃ pid older, l.history = .forked sid pid :: older

/-- The service is started. -/
theorem ownStages_paced (used : loaded sid ≠ ServiceEntry.unused.settings) {P : Ledger → Prop}
    (paced : ∀ l, P l → PacedUnless loaded sid S l)
    (forking : ∀ l, P l → P (l.record (.forking sid)))
    (forked : ∀ l pid, P l → ClockMonotone l.history → S (.forked sid pid :: l.history))
    (other : ∀ history e, (∀ pid, e ≠ .forked sid pid) → S history → S (e :: history)) :
    Stages P (JustForked loaded sid S) (PacedUnless loaded sid S) (PacedUnless loaded sid S)
      (fun l => ClockMonotone l.history → S l.history) sid where
  before := paced
  running := paced
  forking := forking
  forked l pid h :=
    { settings := (paced l h).settings
      starts := fun monotone => forked l pid h monotone.of_cons
      latest := ⟨pid, l.history, rfl⟩ }
  startTime l now h := by
    obtain ⟨pid, older, latest⟩ := h.latest
    refine { settings := fun j => ?_, paced := fun monotone => ?_ }
    · rw [Ledger.settings_setStartTime]
      exact h.settings j
    · refine paced_setStartTime (h.settings sid ▸ used)
        (other _ _ (by simp) (h.starts monotone.of_cons)) fun less since nonempty => ?_
      rw [latest] at since
      exact absurd since.of_forked nonempty
  started l h := h.record (by simp) (other _ _ (by simp))
  stopped l h monotone := (h.paced monotone).starts
  stoppedForked l h := h.starts

/-- Another service is started. -/
theorem otherStages_paced {i : Nat} (ne : sid ≠ i)
    (other : ∀ history e, (∀ pid, e ≠ .forked sid pid) → S history → S (e :: history)) :
    Stages (PacedUnless loaded sid S) (PacedUnless loaded sid S) (PacedUnless loaded sid S)
      (PacedUnless loaded sid S) (fun l => ClockMonotone l.history → S l.history) i where
  before _ h := h
  running _ h := h
  forking l h := h.record (by simp) (other _ _ (by simp))
  forked l pid h := by
    have foreign : ∀ p, Event.forked i pid ≠ .forked sid p :=
      fun p same => ne (Event.forked.inj same).1.symm
    exact h.record foreign (other _ _ foreign)
  startTime l now h := by
    have read : PacedUnless loaded sid S (l.record (.clock now)) :=
      h.record (by simp) (other _ _ (by simp))
    exact read.modify i (fun _ => rfl)
      (congrArg Standing.startTime (Ledger.standing_modify_of_ne _ ne))
  started l h := h.record (by simp) (other _ _ (by simp))
  stopped l h monotone := (h.paced monotone).starts
  stoppedForked l h monotone := (h.paced monotone).starts

end Paced

/-! ## The start-up and the main loop -/

section Loop

variable {loaded : Nat → Service} {sid millis : Nat} {since : List Event}

/-- A service is forked late enough after its last start when the latest reading of the clock is
late enough after its start time. -/
theorem Spaced.forked {history : List Event} (h : Spaced millis sid since history)
    {startTime now : UInt64} (last : lastClock history = some now) (reached : startTime ≤ now)
    (apart : millis ≤ (now - startTime).toNat)
    (lastStart : ∀ between, SinceFork sid history between →
      ∃ rest t₁, between = rest ++ [.clock t₁] ∧ t₁ ≤ startTime) (pid : Int) :
    Spaced millis sid since (.forked sid pid :: history) := by
  intro other older begun start between sinceFork
  rcases List.suffix_cons_iff.mp start with new | old
  · obtain ⟨-, rfl⟩ := List.cons.inj new
    obtain ⟨rest, t₁, rfl, le⟩ := lastStart between sinceFork
    refine ⟨rest, t₁, now, rfl, last, ?_⟩
    rw [UInt64.toNat_sub_of_le _ _ reached] at apart
    have started := UInt64.le_iff_toNat_le.mp le
    have passed := UInt64.le_iff_toNat_le.mp reached
    omega
  · exact h other older begun old between sinceFork

/-- The service may start: the latest reading is late enough after the start time. -/
structure MayStart (loaded : Nat → Service) (millis sid : Nat) (since : List Event) (l : Ledger) :
    Prop where
  paced : PacedUnless loaded sid (Spaced millis sid since) l
  late : ClockMonotone l.history → ∃ now, lastClock l.history = some now ∧
    (l.standing sid).startTime ≤ now ∧ millis ≤ (now - (l.standing sid).startTime).toNat

theorem MayStart.forking {l : Ledger} (h : MayStart loaded millis sid since l) :
    MayStart loaded millis sid since (l.record (.forking sid)) where
  paced := h.paced.record (by simp) fun spaced => spaced.cons (by simp)
  late monotone := h.late monotone.of_cons

theorem MayStart.spaced {l : Ledger} (h : MayStart loaded millis sid since l)
    (monotone : ClockMonotone l.history) (pid : Int) :
    Spaced millis sid since (.forked sid pid :: l.history) := by
  have paced := h.paced.paced monotone
  obtain ⟨now, last, reached, apart⟩ := h.late monotone
  exact paced.starts.forked last reached apart paced.lastStart pid

/-- The clock has been read, and the main loop comes to start a service. -/
theorem PacedUnless.due {l : Ledger} (h : PacedUnless loaded sid (Spaced millis sid since) l)
    {e : Event} (other : ∀ pid, e ≠ .forked sid pid) (now : UInt64) :
    PacedUnless loaded sid (Spaced millis sid since) ((l.record (.clock now)).record e) :=
  have read : PacedUnless loaded sid (Spaced millis sid since) (l.record (.clock now)) :=
    h.record (by simp) fun spaced => spaced.cons (by simp)
  read.record other fun spaced => spaced.cons other

/-- The clock has been read, and the difference from the start time is large enough. -/
theorem PacedUnless.mayStart {l : Ledger} (h : PacedUnless loaded sid (Spaced millis sid since) l)
    {now : UInt64} (apart : millis ≤ (now - (l.standing sid).startTime).toNat) {e : Event}
    (other : ∀ pid, e ≠ .forked sid pid)
    (quiet : lastClock (e :: .clock now :: l.history) = some now) :
    MayStart loaded millis sid since ((l.record (.clock now)).record e) where
  paced := h.due other now
  late monotone := by
    refine ⟨now, quiet, ?_, apart⟩
    rcases (h.paced monotone.of_cons.of_cons).known with zero | read
    · rw [Ledger.standing_record, Ledger.standing_record, zero]
      exact UInt64.le_iff_toNat_le.mpr (Nat.zero_le _)
    · exact monotone.of_cons.le read

/-- The service is started by the main loop. -/
theorem mayStart_startsFrom (used : loaded sid ≠ ServiceEntry.unused.settings) :
    StartsFrom (MayStart loaded millis sid since)
      (PacedUnless loaded sid (Spaced millis sid since))
      (PacedUnless loaded sid (Spaced millis sid since))
      (fun l => ClockMonotone l.history → Spaced millis sid since l.history) sid :=
  (ownStages_paced used (fun _ h => MayStart.paced h) (fun _ h => h.forking)
    (fun _ pid h monotone => h.spaced monotone pid) fun _ _ other spaced => spaced.cons other)
    |>.startsFrom (fun _ h => h) fun _ h => h

/-- Another service is started by the main loop. -/
theorem otherServices_startsFrom {i : Nat} (ne : sid ≠ i) :
    StartsFrom (PacedUnless loaded sid (Spaced millis sid since))
      (PacedUnless loaded sid (Spaced millis sid since))
      (PacedUnless loaded sid (Spaced millis sid since))
      (fun l => ClockMonotone l.history → Spaced millis sid since l.history) i :=
  (otherStages_paced ne fun _ _ other spaced => spaced.cons other)
    |>.startsFrom (fun _ h => h) fun _ h => h

theorem paced_aside : KeptAside (PacedUnless loaded sid (Spaced millis sid since)) := by
  intro l e he h
  have other : ∀ pid, e ≠ .forked sid pid := by
    rintro pid rfl
    exact he
  exact h.record other fun spaced => spaced.cons other

/-- The start-up starts the service when it comes to it. -/
theorem paced_boot (used : loaded sid ≠ ServiceEntry.unused.settings) (order : List Int) :
    BootKeeps (PacedUnless loaded sid fun _ => True) (fun l => ClockMonotone l.history → True)
      order where
  aside l e he h := by
    refine h.record ?_ fun _ => trivial
    rintro pid rfl
    exact he
  stopped _ _ _ := trivial
  start i _ := by
    by_cases own : sid = i
    · subst own
      exact (ownStages_paced used (fun _ h => h) (fun _ h => h.record (by simp) fun _ => trivial)
        (fun _ _ _ _ => trivial) fun _ _ _ _ => trivial).startsFrom (fun _ h => h.1) fun _ h => h
    · exact (otherStages_paced own fun _ _ _ _ => trivial).startsFrom (fun _ h => h.1)
        fun _ h => h

theorem cleared_restart {s : Supervisor}
    (h : Holds (PacedUnless loaded sid (Spaced millis sid since)) s) (i : Nat) (requested : Bool) :
    Holds (PacedUnless loaded sid (Spaced millis sid since))
      (s.setRestartRequested i requested) := by
  refine ⟨Consistent.kept.setRestartRequested h.1, ?_⟩
  rw [ledger_setRestartRequested]
  exact h.2.setRestartRequested i requested

theorem paced_turns (since : List Event) (used : loaded sid ≠ ServiceEntry.unused.settings)
    (fits : (loaded sid).interval * 1000 < 2 ^ 32) :
    Turns (Holds (PacedUnless loaded sid (Spaced (serviceRestartDelay + 1) sid since)))
      fun s => ClockMonotone s.history → Spaced (serviceRestartDelay + 1) sid since s.history where
  toReaps := paced_aside.stops.toReaps
  stopped s hs monotone := (hs.2.paced monotone).starts
  sigterm := paced_aside.stops.sigterm
  stillRunning hs := by
    refine ⟨Consistent.kept.setStartTime (Consistent.kept.record trivial hs.1), ?_⟩
    rw [ledger_setStartTime]
    exact hs.2.stillRunning used _ fun spaced => spaced.cons (by simp)
  interval i := by
    by_cases own : sid = i
    · subst own
      refine Spec.pre (mayStart_startsFrom used) ?_
      rintro _ ⟨s, now, hs, regular, due, rfl⟩
      refine ⟨Consistent.kept.record trivial (Consistent.kept.record trivial hs.1), ?_⟩
      have settings : (s.srv sid).settings = loaded sid := by
        rw [← hs.2.settings sid, Ledger.settings, ledger_standing]
        rfl
      rw [settings] at regular due
      rw [Nat.mod_eq_of_lt fits] at due
      have second : serviceRestartDelay + 1 ≤ (loaded sid).interval * 1000 :=
        Nat.le_trans (by decide) (Nat.mul_le_mul_right 1000 regular)
      refine hs.2.mayStart ?_ (by simp) rfl
      rw [ledger_standing]
      exact Nat.le_trans second due
    · refine Spec.pre (otherServices_startsFrom own) ?_
      rintro _ ⟨s, now, hs, -, -, rfl⟩
      exact ⟨Consistent.kept.record trivial (Consistent.kept.record trivial hs.1),
        hs.2.due (by simp) now⟩
  restart i := by
    by_cases own : sid = i
    · subst own
      refine (mayStart_startsFrom used).consequence ?_ (fun _ s hs => cleared_restart hs sid false)
        (fun _ _ hs => hs) fun _ hs => hs
      rintro _ ⟨s, now, hs, passed, rfl⟩
      refine ⟨Consistent.kept.record trivial (Consistent.kept.record trivial hs.1), ?_⟩
      refine hs.2.mayStart ?_ (by simp) rfl
      rw [ledger_standing]
      exact passed
    · refine (otherServices_startsFrom own).consequence ?_
        (fun _ s hs => cleared_restart hs i false) (fun _ _ hs => hs) fun _ hs => hs
      rintro _ ⟨s, now, hs, -, rfl⟩
      exact ⟨Consistent.kept.record trivial (Consistent.kept.record trivial hs.1),
        hs.2.due (by simp) now⟩
  accepted := by
    intro s i hs
    have requested := cleared_restart hs i true
    exact ⟨Consistent.kept.record trivial requested.1,
      requested.2.record (by simp) fun spaced => spaced.cons (by simp)⟩

end Loop

/-- In every run of the main loop with a clock that never goes back, two consecutive starts of a
service are more than the restart delay apart, whether the service terminated by itself, was asked
to be restarted or runs at an interval, as long as the interval in milliseconds fits into 32
bits. -/
theorem starts_apart (sys : System) (defaults : ServiceDefaults) (root : ServicesRoot)
    (memory : Memory) (cwd : Str) (sid : Nat)
    (used : loadedSettings (root.view sys defaults memory) cwd sid ≠ ServiceEntry.unused.settings)
    (fits : (loadedSettings (root.view sys defaults memory) cwd sid).interval * 1000 < 2 ^ 32)
    {answers : List Answer} {s : Supervisor}
    (entered : EntersLoop (root.view sys defaults memory) cwd answers s)
    (monotone : ClockMonotone (mainLoop.run answers s).state.history) :
    Spaced (serviceRestartDelay + 1) sid s.history (mainLoop.run answers s).state.history := by
  have load : PacedUnless (loadedSettings (root.view sys defaults memory) cwd) sid (fun _ => True)
      (loadedLedger (root.view sys defaults memory) cwd) := by
    refine { settings := loadedLedger_settings _ _, paced := fun _ => ?_ }
    refine { known := .inl ?_, lastStart := ?_, starts := trivial }
    · rw [loadedLedger_standing]
    · rintro between ⟨pid, earlier, eq, -⟩
      exact absurd eq (by simp [loadedLedger, Supervisor.ledger, Supervisor.load, booted])
  have begins := (paced_boot used _).enters load entered
  have spaced : Spaced (serviceRestartDelay + 1) sid s.history s.history :=
    fun pid older begun start => absurd start (not_cons_suffix begun _)
  have paced : Holds (PacedUnless (loadedSettings (root.view sys defaults memory) cwd) sid
      (Spaced (serviceRestartDelay + 1) sid s.history)) s :=
    ⟨begins.1,
      { settings := begins.2.settings
        paced := fun clock => { begins.2.paced clock with starts := spaced } }⟩
  have turns := paced_turns s.history used fits
  exact turns.mainLoop.state (fun _ hs => turns.stopped _ hs) answers paced monotone

/-- An application that is to be started again whenever it terminates. -/
def appThatRespawns : ServicesRoot where
  dir service :=
    if service = "default".toList then
      .ok
        { entries :=
            [{ dName := "run".toList, isReg := true, node := some (.program [] 0) },
              { dName := "respawn".toList, isReg := true, node := some (.file "1\n".toList) }]
          nodup := by simp }
    else .error .enoent

/-- The application has crashed, and it is forked again at this time. -/
def crashed (pid next : Int) (now : UInt64) : List Answer :=
  [.signals false, .clock (some now), .waited (.reaped pid (.exited 1)), .chdir none,
    .access false, .signals false, .waited .failed, .signals false, .clock (some now),
    .chdir none, .fork (some (next, 7)), .clock (some now), .malloc true, .pthreadCreate none,
    .read []]

/-- The application is brought up, and crashes twice. -/
def crashingApp : List Answer :=
  [.signals false, .chdir none, .fork (some (100, 5)), .clock (some 1000), .malloc true,
    .pthreadCreate none, .signals false, .clock (some 2000), .chdir none, .access false] ++
    crashed 100 101 3000 ++ crashed 101 102 3501

/-- The main loop begins. -/
def crashLoop : Supervisor :=
  ((bringUpServices (appThatRespawns.view plainSystem {} zeroMemory) []).run crashingApp
    booted).state.enter .running

/-- It is forked twice in the loop. -/
theorem starts_apart_crashes :
    Event.forked 0 101 ∈
        (mainLoop.run (crashed 100 101 3000 ++ crashed 101 102 3501) crashLoop).state.history ∧
      Event.forked 0 102 ∈
        (mainLoop.run (crashed 100 101 3000 ++ crashed 101 102 3501) crashLoop).state.history ∧
      Spaced (serviceRestartDelay + 1) 0 crashLoop.history
        (mainLoop.run (crashed 100 101 3000 ++ crashed 101 102 3501) crashLoop).state.history :=
  ⟨by decide +kernel, by decide +kernel,
    starts_apart plainSystem {} appThatRespawns zeroMemory [] 0
      (fun unused => absurd (congrArg Service.name unused) (by decide +kernel)) (by decide +kernel)
      (.of_run 0 (by decide +kernel) (by decide +kernel)) (by decide +kernel)⟩

end Baseimage.Cinit
