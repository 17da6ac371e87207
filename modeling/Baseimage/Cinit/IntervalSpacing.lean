import Baseimage.Cinit.Ledger
import Baseimage.Cinit.Shutdown

/-!
# How far apart the starts of an interval service are

The interval loop starts a service when the time since its last start is at least its interval.
The interval is a 32-bit number of seconds, and `interval * 1000` is a 32-bit product, which is
compared with a 64-bit number of milliseconds. When the product does not fit, the service is
started after what is left of it.

The time of a start lies between two readings of the clock: the last one before the fork, which
made the service due, and the first one after it, which becomes its start time.
-/

namespace Baseimage.Cinit

open Script Supervisor Code

/-- The latest reading of the clock. -/
def lastClock : List Event → Option UInt64
  | [] => none
  | .clock now :: _ => some now
  | _ :: older => lastClock older

/-- The clock never goes back: the latest reading comes first. -/
def ClockMonotone (history : List Event) : Prop := (readings history).Pairwise fun a b => b ≤ a

instance (history : List Event) : Decidable (ClockMonotone history) :=
  inferInstanceAs (Decidable (List.Pairwise _ _))

theorem mem_readings {now : UInt64} {history : List Event} :
    now ∈ readings history ↔ .clock now ∈ history := by
  rw [readings, List.mem_filterMap]
  constructor
  · rintro ⟨e, he, found⟩
    cases e with
    | clock reading => exact Option.some.inj found ▸ he
    | _ => cases found
  · intro h
    exact ⟨_, h, rfl⟩

theorem ClockMonotone.le {now then' : UInt64} {history : List Event}
    (h : ClockMonotone (.clock now :: history)) (read : .clock then' ∈ history) : then' ≤ now :=
  List.rel_of_pairwise_cons h (mem_readings.mpr read)

theorem ClockMonotone.of_cons {e : Event} {history : List Event}
    (h : ClockMonotone (e :: history)) : ClockMonotone history :=
  List.Pairwise.sublist ((List.sublist_cons_self e history).filterMap _) h

/-- What has happened since the last fork for the service. -/
def SinceFork (sid : Nat) (history between : List Event) : Prop :=
  ∃ pid earlier, history = between ++ .forked sid pid :: earlier ∧
    ∀ other, .forked sid other ∉ between

theorem SinceFork.of_cons {sid : Nat} {e : Event} {history between : List Event}
    (other : ∀ pid, e ≠ .forked sid pid) (h : SinceFork sid (e :: history) between) :
    ∃ less, between = e :: less ∧ SinceFork sid history less := by
  obtain ⟨pid, earlier, eq, none⟩ := h
  cases between with
  | nil => exact absurd (List.cons.inj eq).1 (other pid)
  | cons first less =>
      obtain ⟨rfl, rest⟩ := List.cons.inj eq
      exact ⟨less, rfl, pid, earlier, rest, fun p hp => none p (List.mem_cons_of_mem _ hp)⟩

theorem SinceFork.of_forked {sid : Nat} {pid : Int} {history between : List Event}
    (h : SinceFork sid (.forked sid pid :: history) between) : between = [] := by
  obtain ⟨other, earlier, eq, none⟩ := h
  cases between with
  | nil => rfl
  | cons first less => exact absurd ((List.cons.inj eq).1 ▸ List.mem_cons_self) (none pid)

/-- Two consecutive starts of the service are so many milliseconds apart, where the second is one
of the main loop, which has begun with the history `since`: from the first reading of the clock
after the first fork to the last one before the second. -/
def Spaced (millis sid : Nat) (since history : List Event) : Prop :=
  ∀ pid older, since <:+ older → .forked sid pid :: older <:+ history →
    ∀ between, SinceFork sid older between → ∃ rest t₁ t₂, between = rest ++ [.clock t₁] ∧
      lastClock older = some t₂ ∧ t₁.toNat + millis ≤ t₂.toNat

/-! ## What is known about the start time -/

section Timed

variable (loaded : Nat → Service) (sid : Nat) (S : List Event → Prop)

/-- The clock is monotone, and no command to restart the service was accepted. -/
structure Undisturbed (history : List Event) : Prop where
  monotone : ClockMonotone history
  unasked : .restartAccepted sid ∉ history

/-- The start time is a reading of the clock that is not earlier than the last start. -/
structure Timed (l : Ledger) : Prop where
  unrequested : (l.standing sid).restartRequested = false
  known : (l.standing sid).startTime = 0 ∨ .clock (l.standing sid).startTime ∈ l.history
  lastStart : ∀ between, SinceFork sid l.history between →
    ∃ rest t₁, between = rest ++ [.clock t₁] ∧ t₁ ≤ (l.standing sid).startTime
  starts : S l.history

/-- This holds unless the run was disturbed. -/
structure TimedUnless (l : Ledger) : Prop where
  settings : ∀ i, l.settings i = loaded i
  timed : Undisturbed sid l.history → Timed sid S l

variable {loaded sid S}

theorem Undisturbed.of_cons {e : Event} {history : List Event}
    (h : Undisturbed sid (e :: history)) : Undisturbed sid history where
  monotone := h.monotone.of_cons
  unasked asked := h.unasked (List.mem_cons_of_mem _ asked)

theorem Timed.record {l : Ledger} (h : Timed sid S l) {e : Event}
    (other : ∀ pid, e ≠ .forked sid pid) (starts : S (e :: l.history)) :
    Timed sid S (l.record e) where
  unrequested := h.unrequested
  known := h.known.imp_right (List.mem_cons_of_mem e)
  lastStart between since := by
    obtain ⟨less, rfl, earlier⟩ := since.of_cons other
    obtain ⟨rest, t₁, rfl, le⟩ := h.lastStart less earlier
    exact ⟨e :: rest, t₁, rfl, le⟩
  starts := starts

theorem TimedUnless.record {l : Ledger} (h : TimedUnless loaded sid S l) {e : Event}
    (other : ∀ pid, e ≠ .forked sid pid) (starts : S l.history → S (e :: l.history)) :
    TimedUnless loaded sid S (l.record e) where
  settings := h.settings
  timed undisturbed :=
    have timed := h.timed undisturbed.of_cons
    timed.record other (starts timed.starts)

/-- The standing of another service changes. -/
theorem TimedUnless.modify {l : Ledger} (h : TimedUnless loaded sid S l) {i : Nat} (ne : sid ≠ i)
    {f : Standing → Standing} (same : ∀ st, (f st).settings = st.settings) :
    TimedUnless loaded sid S (l.modify i f) where
  settings j := (Ledger.standing_modify_same Standing.settings same j).trans (h.settings j)
  timed undisturbed := by
    have standing := Ledger.standing_modify_of_ne (l := l) f ne
    have timed := h.timed undisturbed
    exact
      { unrequested := standing ▸ timed.unrequested
        known := standing ▸ timed.known
        lastStart := standing ▸ timed.lastStart
        starts := timed.starts }

/-- The start time becomes the latest reading. -/
theorem timed_setStartTime {l : Ledger} (used : l.settings sid ≠ ServiceEntry.unused.settings)
    {now : UInt64} (unrequested : (l.standing sid).restartRequested = false)
    (starts : S (.clock now :: l.history))
    (lastStart : ∀ less, SinceFork sid l.history less → less ≠ [] →
      ∃ rest t₁, less = rest ++ [.clock t₁] ∧ t₁ ≤ now) :
    Timed sid S ((l.record (.clock now)).setStartTime sid now) := by
  have time : (((l.record (.clock now)).setStartTime sid now).standing sid).startTime = now :=
    Ledger.startTime_setStartTime now used
  refine { unrequested := ?_, known := ?_, lastStart := ?_, starts := starts }
  · rw [Ledger.restartRequested_setStartTime]
    exact unrequested
  · rw [time]
    exact .inr List.mem_cons_self
  · rw [time]
    intro between since
    obtain ⟨less, rfl, earlier⟩ := since.of_cons (by simp)
    by_cases empty : less = []
    · exact ⟨[], now, by rw [empty]; rfl, UInt64.le_refl now⟩
    · obtain ⟨rest, t₁, rfl, le⟩ := lastStart less earlier empty
      exact ⟨.clock now :: rest, t₁, rfl, le⟩

/-- The service has just been forked. -/
structure Launched (loaded : Nat → Service) (sid : Nat) (S : List Event → Prop) (l : Ledger) :
    Prop where
  settings : ∀ i, l.settings i = loaded i
  unrequested : Undisturbed sid l.history → (l.standing sid).restartRequested = false
  starts : Undisturbed sid l.history → S l.history
  latest : ∃ pid older, l.history = .forked sid pid :: older

theorem used_of_regular (regular : 0 < (loaded sid).interval) {l : Ledger}
    (settings : ∀ i, l.settings i = loaded i) :
    l.settings sid ≠ ServiceEntry.unused.settings := by
  intro unused
  have none : (loaded sid).interval = 0 := by
    rw [← settings sid, unused]
    rfl
  omega

theorem TimedUnless.stillRunning {l : Ledger} (h : TimedUnless loaded sid S l)
    (regular : 0 < (loaded sid).interval) (i : Nat) {now : UInt64}
      (starts : S l.history → S (.clock now :: l.history)) :
    TimedUnless loaded sid S ((l.record (.clock now)).setStartTime i now) := by
  have read : TimedUnless loaded sid S (l.record (.clock now)) := h.record (by simp) starts
  by_cases own : sid = i
  · subst own
    refine { settings := fun j => ?_, timed := fun undisturbed => ?_ }
    · rw [Ledger.settings_setStartTime]
      exact h.settings j
    · have timed := h.timed undisturbed.of_cons
      refine timed_setStartTime (used_of_regular regular h.settings) timed.unrequested
        (starts timed.starts) fun less since _ => ?_
      obtain ⟨rest, t₁, rfl, -⟩ := timed.lastStart less since
      refine ⟨rest, t₁, rfl, undisturbed.monotone.le ?_⟩
      obtain ⟨pid, earlier, eq, -⟩ := since
      rw [eq]
      simp
  · exact read.modify own fun _ => rfl

/-- The service is started. -/
theorem own_stages (regular : 0 < (loaded sid).interval) {P : Ledger → Prop}
    (timed : ∀ l, P l → TimedUnless loaded sid S l)
    (forking : ∀ l, P l → P (l.record (.forking sid)))
    (forked : ∀ l pid, P l → Undisturbed sid l.history → S (.forked sid pid :: l.history))
    (other : ∀ history e, (∀ pid, e ≠ .forked sid pid) → S history → S (e :: history)) :
    Stages P (Launched loaded sid S) (TimedUnless loaded sid S) (TimedUnless loaded sid S)
      (fun l => Undisturbed sid l.history → S l.history) sid where
  before := timed
  running := timed
  forking := forking
  forked l pid h :=
    { settings := (timed l h).settings
      unrequested := fun undisturbed => ((timed l h).timed undisturbed.of_cons).unrequested
      starts := fun undisturbed => forked l pid h undisturbed.of_cons
      latest := ⟨pid, l.history, rfl⟩ }
  startTime l now h := by
    obtain ⟨pid, older, latest⟩ := h.latest
    refine { settings := fun j => ?_, timed := fun undisturbed => ?_ }
    · rw [Ledger.settings_setStartTime]
      exact h.settings j
    · have before : Undisturbed sid l.history := undisturbed.of_cons
      refine timed_setStartTime (used_of_regular regular h.settings) (h.unrequested before)
        (other _ _ (by simp) (h.starts before)) fun less since nonempty => ?_
      rw [latest] at since
      exact absurd since.of_forked nonempty
  started l h := h.record (by simp) (other _ _ (by simp))
  stopped l h undisturbed := (h.timed undisturbed).starts
  stoppedForked l h := h.starts

/-- Another service is started. -/
theorem other_stages {i : Nat} (ne : sid ≠ i)
    (other : ∀ history e, (∀ pid, e ≠ .forked sid pid) → S history → S (e :: history)) :
    Stages (TimedUnless loaded sid S) (TimedUnless loaded sid S) (TimedUnless loaded sid S)
      (TimedUnless loaded sid S) (fun l => Undisturbed sid l.history → S l.history) i where
  before _ h := h
  running _ h := h
  forking l h := h.record (by simp) (other _ _ (by simp))
  forked l pid h := by
    have foreign : ∀ p, Event.forked i pid ≠ .forked sid p :=
      fun p same => ne (Event.forked.inj same).1.symm
    exact h.record foreign (other _ _ foreign)
  startTime l now h := by
    have read : TimedUnless loaded sid S (l.record (.clock now)) :=
      h.record (by simp) (other _ _ (by simp))
    exact read.modify ne fun _ => rfl
  started l h := h.record (by simp) (other _ _ (by simp))
  stopped l h undisturbed := (h.timed undisturbed).starts
  stoppedForked l h undisturbed := (h.timed undisturbed).starts

/-- Another service is started and its flag is cleared. -/
theorem other_stages_cleared {i : Nat} (ne : sid ≠ i)
    (other : ∀ history e, (∀ pid, e ≠ .forked sid pid) → S history → S (e :: history)) :
    Stages (TimedUnless loaded sid S) (TimedUnless loaded sid S) (TimedUnless loaded sid S)
      (fun l => TimedUnless loaded sid S (l.setRestartRequested i false))
      (fun l => Undisturbed sid l.history → S l.history) i :=
  { other_stages ne other with
    running := fun _ h => h.modify ne fun _ => rfl
    started := fun l h => ((other_stages ne other).started l h).modify ne fun _ => rfl }

end Timed

/-! ## The start-up and the main loop -/

section Loop

variable {loaded : Nat → Service} {sid millis : Nat} {since : List Event}

/-- The start-up starts the service when it comes to it. -/
theorem timed_boot (regular : 0 < (loaded sid).interval) (order : List Int) :
    BootKeeps (TimedUnless loaded sid fun _ => True)
      (fun l => Undisturbed sid l.history → True) order where
  aside l e he h := by
    refine h.record ?_ fun _ => trivial
    rintro pid rfl
    exact he
  stopped _ _ _ := trivial
  start i _ := by
    by_cases own : sid = i
    · subst own
      exact (own_stages regular (fun _ h => h) (fun _ h => h.record (by simp) fun _ => trivial)
        (fun _ _ _ _ => trivial) fun _ _ _ _ => trivial).startsFrom (fun _ h => h.1) fun _ h => h
    · exact (other_stages own fun _ _ _ _ => trivial).startsFrom (fun _ h => h.1) fun _ h => h

theorem Spaced.cons {history : List Event} (h : Spaced millis sid since history) {e : Event}
    (other : ∀ pid, e ≠ .forked sid pid) : Spaced millis sid since (e :: history) := by
  intro pid older begun start
  rcases List.suffix_cons_iff.mp start with new | old
  · exact absurd (List.cons.inj new).1.symm (other pid)
  · exact h pid older begun old

/-- The service is due: the latest reading is late enough after the start time. -/
structure Due (loaded : Nat → Service) (millis sid : Nat) (since : List Event) (l : Ledger) :
    Prop where
  timed : TimedUnless loaded sid (Spaced millis sid since) l
  due : Undisturbed sid l.history → ∃ now, lastClock l.history = some now ∧
    (l.standing sid).startTime ≤ now ∧ millis ≤ (now - (l.standing sid).startTime).toNat

theorem Due.forking {l : Ledger} (h : Due loaded millis sid since l) :
    Due loaded millis sid since (l.record (.forking sid)) where
  timed := h.timed.record (by simp) fun spaced => spaced.cons (by simp)
  due undisturbed := h.due undisturbed.of_cons

/-- A service that is due is forked late enough. -/
theorem Due.spaced {l : Ledger} (h : Due loaded millis sid since l)
    (undisturbed : Undisturbed sid l.history) (pid : Int) :
    Spaced millis sid since (.forked sid pid :: l.history) := by
  have timed := h.timed.timed undisturbed
  intro other older begun start between sinceFork
  rcases List.suffix_cons_iff.mp start with new | old
  · obtain ⟨-, rfl⟩ := List.cons.inj new
    obtain ⟨rest, t₁, rfl, le⟩ := timed.lastStart between sinceFork
    obtain ⟨now, last, reached, due⟩ := h.due undisturbed
    refine ⟨rest, t₁, now, rfl, last, ?_⟩
    rw [UInt64.toNat_sub_of_le _ _ reached] at due
    have started := UInt64.le_iff_toNat_le.mp le
    have passed := UInt64.le_iff_toNat_le.mp reached
    omega
  · exact timed.starts other older begun old between sinceFork

/-- After a command to restart the service, or when the clock went back, nothing is known. -/
def Void (loaded : Nat → Service) (sid : Nat) (l : Ledger) : Prop :=
  (∀ i, l.settings i = loaded i) ∧ ¬ Undisturbed sid l.history

theorem Void.record {l : Ledger} (h : Void loaded sid l) (e : Event) :
    Void loaded sid (l.record e) :=
  ⟨h.1, fun undisturbed => h.2 undisturbed.of_cons⟩

theorem Void.modify {l : Ledger} (h : Void loaded sid l) (i : Nat) {f : Standing → Standing}
    (same : ∀ st, (f st).settings = st.settings) : Void loaded sid (l.modify i f) :=
  ⟨fun j => (Ledger.standing_modify_same Standing.settings same j).trans (h.1 j), h.2⟩

theorem Void.timed {S : List Event → Prop} {l : Ledger} (h : Void loaded sid l) :
    TimedUnless loaded sid S l where
  settings := h.1
  timed undisturbed := absurd undisturbed h.2

theorem Void.cleared {S : List Event → Prop} {l : Ledger} (h : Void loaded sid l) (i : Nat) :
    TimedUnless loaded sid S (l.setRestartRequested i false) := by
  have kept : Void loaded sid (l.setRestartRequested i false) := h.modify i fun _ => rfl
  exact kept.timed

theorem void_stages {S : List Event → Prop} (i : Nat) :
    Stages (Void loaded sid) (Void loaded sid) (Void loaded sid)
      (fun l => TimedUnless loaded sid S (l.setRestartRequested i false))
      (fun l => Undisturbed sid l.history → S l.history) i where
  before _ h := h
  running _ h := h.cleared i
  forking _ h := h.record _
  forked _ _ h := h.record _
  startTime _ _ h := (h.record _).modify i fun _ => rfl
  started _ h := (h.record _).cleared i
  stopped _ h undisturbed := absurd undisturbed h.2
  stoppedForked _ h undisturbed := absurd undisturbed h.2

/-- The service is due when its interval in milliseconds fits into 32 bits. -/
theorem TimedUnless.due {l : Ledger}
    (h : TimedUnless loaded sid (Spaced ((loaded sid).interval * 1000) sid since) l)
    (fits : (loaded sid).interval * 1000 < 2 ^ 32) {now : UInt64}
    (due : (l.settings sid).interval * 1000 % 2 ^ 32 ≤ (now - (l.standing sid).startTime).toNat)
    (requested : Bool) : Due loaded ((loaded sid).interval * 1000) sid since
      ((l.record (.clock now)).record (.intervalOver sid requested)) where
  timed := by
    have read : TimedUnless loaded sid (Spaced ((loaded sid).interval * 1000) sid since)
        (l.record (.clock now)) := h.record (by simp) fun spaced => spaced.cons (by simp)
    exact read.record (by simp) fun spaced => spaced.cons (by simp)
  due undisturbed := by
    rw [h.settings, Nat.mod_eq_of_lt fits] at due
    refine ⟨now, rfl, ?_, due⟩
    rcases (h.timed undisturbed.of_cons.of_cons).known with zero | read
    · rw [Ledger.standing_record, Ledger.standing_record, zero]
      exact UInt64.le_iff_toNat_le.mpr (Nat.zero_le _)
    · exact undisturbed.of_cons.monotone.le read

theorem timed_loop (regular : 0 < (loaded sid).interval)
    (fits : (loaded sid).interval * 1000 < 2 ^ 32) (plain : (loaded sid).respawn = false) :
    LoopKeeps (TimedUnless loaded sid (Spaced ((loaded sid).interval * 1000) sid since))
      (fun l => Undisturbed sid l.history →
        Spaced ((loaded sid).interval * 1000) sid since l.history) where
  aside l e he h := by
    have other : ∀ pid, e ≠ .forked sid pid := by
      rintro pid rfl
      exact he
    exact h.record other fun spaced => spaced.cons other
  stopped l h undisturbed := (h.timed undisturbed).starts
  stillRunning l i now h := h.stillRunning regular i fun spaced => spaced.cons (by simp)
  interval i := by
    by_cases own : sid = i
    · subst own
      refine (own_stages regular (fun _ h => Due.timed h) (fun _ h => h.forking)
        (fun l pid h undisturbed => h.spaced undisturbed pid)
        fun _ _ other spaced => spaced.cons other).startsFrom ?_ fun _ h => h
      rintro _ ⟨l, now, h, -, due, rfl⟩
      exact h.due fits due _
    · refine (other_stages own fun _ _ other spaced => spaced.cons other).startsFrom ?_ fun _ h => h
      rintro _ ⟨l, now, h, -, -, rfl⟩
      have read : TimedUnless loaded sid (Spaced ((loaded sid).interval * 1000) sid since)
          (l.record (.clock now)) := h.record (by simp) fun spaced => spaced.cons (by simp)
      exact read.record (by simp) fun spaced => spaced.cons (by simp)
  restart i := by
    by_cases own : sid = i
    · subst own
      refine (void_stages sid).startsFrom ?_ fun _ h => h.timed
      rintro _ ⟨l, now, h, asked, rfl⟩
      refine ⟨h.settings, fun undisturbed => ?_⟩
      rcases asked with respawn | requested
      · rw [h.settings, plain] at respawn
        exact Bool.false_ne_true respawn
      · rw [(h.timed undisturbed.of_cons.of_cons).unrequested] at requested
        exact Bool.false_ne_true requested
    · refine (other_stages_cleared own fun _ _ other spaced => spaced.cons other).startsFrom ?_
        fun _ h => h
      rintro _ ⟨l, now, h, -, rfl⟩
      have read : TimedUnless loaded sid (Spaced ((loaded sid).interval * 1000) sid since)
          (l.record (.clock now)) := h.record (by simp) fun spaced => spaced.cons (by simp)
      exact read.record (by simp) fun spaced => spaced.cons (by simp)
  accepted l i h := by
    by_cases own : sid = i
    · subst own
      refine { settings := fun j => ?_, timed := fun undisturbed => ?_ }
      · rw [Ledger.settings_record, Ledger.settings_setRestartRequested]
        exact h.settings j
      · exact absurd List.mem_cons_self undisturbed.unasked
    · have asked : TimedUnless loaded sid (Spaced ((loaded sid).interval * 1000) sid since)
          (l.setRestartRequested i true) := h.modify own fun _ => rfl
      exact asked.record (by simp) fun spaced => spaced.cons (by simp)

end Loop

/-- In every run of the main loop with a clock that never goes back and without a restart of the
service, two consecutive starts of an interval service are at least its interval apart if the
interval in milliseconds fits into 32 bits. -/
theorem starts_spaced (sys : System) (defaults : ServiceDefaults) (root : ServicesRoot)
    (memory : Memory) (cwd : Str) (sid : Nat)
    (regular : 0 < (loadedSettings (root.view sys defaults memory) cwd sid).interval)
    (fits : (loadedSettings (root.view sys defaults memory) cwd sid).interval * 1000 < 2 ^ 32)
    {answers : List Answer} {s : Supervisor}
    (entered : EntersLoop (root.view sys defaults memory) cwd answers s)
    (undisturbed : Undisturbed sid (mainLoop.run answers s).state.history) :
    Spaced ((loadedSettings (root.view sys defaults memory) cwd sid).interval * 1000) sid s.history
      (mainLoop.run answers s).state.history := by
  have enrolled := loadDefault_enrolled (root.settings_settled sys defaults memory) cwd
  have plain : (loadedSettings (root.view sys defaults memory) cwd sid).respawn = false := by
    refine Bool.eq_false_iff.mpr fun respawn => ?_
    have none := (enrolled.settled_loaded sid).exclusive respawn
    omega
  have loaded : TimedUnless (loadedSettings (root.view sys defaults memory) cwd) sid (fun _ => True)
      (loadedLedger (root.view sys defaults memory) cwd) := by
    refine { settings := loadedLedger_settings _ _, timed := fun _ => ?_ }
    refine { unrequested := ?_, known := .inl ?_, lastStart := ?_, starts := trivial }
    · rw [loadedLedger_standing]
    · rw [loadedLedger_standing]
    · rintro between ⟨pid, earlier, eq, -⟩
      exact absurd eq (by simp [loadedLedger, Supervisor.ledger, Supervisor.load, booted])
  have begins := (timed_boot regular _).enters loaded entered
  have spaced : Spaced ((loadedSettings (root.view sys defaults memory) cwd sid).interval * 1000)
      sid s.history s.history :=
    fun pid older begun start => absurd start (not_cons_suffix begun _)
  have timed : Holds (TimedUnless (loadedSettings (root.view sys defaults memory) cwd) sid
      (Spaced ((loadedSettings (root.view sys defaults memory) cwd sid).interval * 1000) sid
        s.history)) s :=
    ⟨begins.1,
      { settings := begins.2.settings
        timed := fun undisturbed => { begins.2.timed undisturbed with starts := spaced } }⟩
  exact (timed_loop regular fits plain).state timed answers undisturbed

/-- An application and a service that is to run at a regular interval. -/
def appAndBackup (interval : String) : ServicesRoot where
  dir service :=
    if service = "default".toList then
      .ok
        { entries :=
            [{ dName := "run".toList, isReg := true, node := some (.program [] 0) },
              { dName := "backup.dep".toList, isReg := true, node := some (.file []) }] }
    else if service = "backup".toList then .ok (intervalDir interval)
    else .error .enoent

/-- The backup and the application are started, and the application stays up. -/
def bothStarted : List Answer :=
  [.signals false, .chdir none, .fork (some (100, 5)), .clock (some 1000), .malloc true,
    .pthreadCreate none,
    .signals false, .chdir none, .fork (some (101, 6)), .clock (some 1000), .malloc true,
    .pthreadCreate none, .signals false, .clock (some 2000), .chdir none, .access false]

/-- The backup has terminated, and it is forked again at this time. -/
def backupForked (pid next : Int) (now : UInt64) : List Answer :=
  [.signals false, .clock (some now), .waited (.reaped pid (.exited 0)), .chdir none,
    .access false, .signals false, .waited .running, .signals false, .clock (some now),
    .chdir none, .fork (some (next, 7)), .clock (some now), .malloc true, .pthreadCreate none,
    .read []]

/-- Two starts by the main loop. -/
def twoBackups (first second : UInt64) : List Answer :=
  backupForked 100 102 first ++ backupForked 102 103 second

/-- The main loop begins. -/
def backupLoop (interval : String) (first second : UInt64) : Supervisor :=
  ((bringUpServices ((appAndBackup interval).view plainSystem {} zeroMemory) []).run
    (bothStarted ++ twoBackups first second) booted).state.enter .running

/-- What has happened after the two starts. -/
def backupHistory (interval : String) (first second : UInt64) : List Event :=
  (mainLoop.run (twoBackups first second) (backupLoop interval first second)).state.history

theorem starts_spaced_twoSeconds :
    Spaced ((loadedSettings ((appAndBackup "2\n").view plainSystem {} zeroMemory) [] 1).interval *
      1000) 1 (backupLoop "2\n" 3000 5000).history (backupHistory "2\n" 3000 5000) :=
  starts_spaced plainSystem {} (appAndBackup "2\n") zeroMemory [] 1 (by decide +kernel)
    (by decide +kernel) (.of_run 0 (by decide +kernel) (by decide +kernel))
    ⟨by decide +kernel, by decide +kernel⟩

def Event.isFork : Event → Bool
  | .forked _ _ => true
  | _ => false

/-- A yearly backup runs again after 17 days. -/
theorem yearly_too_soon :
    EntersLoop ((appAndBackup "yearly\n").view plainSystem {} zeroMemory) []
        (twoBackups 1471229928 2942458856) (backupLoop "yearly\n" 1471229928 2942458856) ∧
      Undisturbed 1 (backupHistory "yearly\n" 1471229928 2942458856) ∧
      ¬ Spaced ((loadedSettings ((appAndBackup "yearly\n").view plainSystem {} zeroMemory)
        [] 1).interval * 1000) 1 (backupLoop "yearly\n" 1471229928 2942458856).history
        (backupHistory "yearly\n" 1471229928 2942458856) := by
  refine ⟨.of_run 0 (by decide +kernel) (by decide +kernel),
    ⟨by decide +kernel, by decide +kernel⟩, fun spaced => ?_⟩
  have since : SinceFork 1 ((backupHistory "yearly\n" 1471229928 2942458856).drop 3)
      (((backupHistory "yearly\n" 1471229928 2942458856).drop 3).take 7) := by
    refine ⟨102, (backupHistory "yearly\n" 1471229928 2942458856).drop 11, by decide +kernel, ?_⟩
    intro other
    have none : ∀ e ∈ ((backupHistory "yearly\n" 1471229928 2942458856).drop 3).take 7,
        e.isFork = false := by decide +kernel
    exact fun hmem => Bool.noConfusion (none _ hmem)
  obtain ⟨rest, t₁, t₂, between, last, apart⟩ := spaced 103 _ (by decide +kernel)
    (by decide +kernel) _ since
  have first := congrArg List.getLast? between
  rw [List.getLast?_concat, show (((backupHistory "yearly\n" 1471229928 2942458856).drop 3).take
    7).getLast? = some (.clock 1471229928) by decide +kernel] at first
  have second : some 2942458856 = some t₂ := by
    rw [← last]
    decide +kernel
  cases first
  cases second
  exact absurd apart (by decide +kernel)

end Baseimage.Cinit
