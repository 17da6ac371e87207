import Baseimage.Cinit.SupervisorRules

/-!
# The shutdown

The shutdown visits the start order in reverse and stops the services that have a process, sends
SIGTERM to all processes, and when these have had their time, SIGKILL. It is over when there is no
child left. The protocol says which events may follow each other, and what the supervisor records
while it shuts down is a run of the protocol.
-/

namespace Baseimage.Cinit

open Script Supervisor

/-- Where a shutdown is. -/
inductive Stage where
  /-- The entries whose turn has not come, and the one whose turn it is. -/
  | stopping (rest : List Int) (current : Option Int)
  /-- SIGTERM was sent to all; the first and the last clock reading since. -/
  | terminating (since last : Option UInt64)
  | killing
  deriving DecidableEq, Repr

/-- The shutdown protocol. -/
def protocol (gracetime : Nat) : Stage → Event → Option Stage
  | .stopping rest _, .turn entry =>
      if rest.head? = some entry then some (.stopping rest.tail (some entry)) else none
  | .stopping rest current, .stopping sid pid =>
      if current = some ↑sid ∧ pid ≠ 0 then some (.stopping rest none) else none
  | .stopping rest current, .sigterm _ _ _ => some (.stopping rest current)
  | .stopping rest _, .sigtermAll => if rest = [] then some (.terminating none none) else none
  | .terminating since _, .clock now => some (.terminating (some (since.getD now)) (some now))
  | .terminating (some since) (some last), .sigkillAll =>
      if gracetime ≤ (last - since).toNat then some .killing else none
  | stage, .clock _ => some stage
  | stage, .ran _ _ _ => some stage
  | stage, .reaped _ _ => some stage
  | stage, .childless => some stage
  | _, _ => none

/-- What was recorded since the shutdown began is a run of the protocol that has come to a
stage. -/
def Logged (gracetime : Nat) (begun : Supervisor) (stage : Stage) (s : Supervisor) : Prop :=
  ∃ log, s.history = log ++ begun.history ∧
    Actions.run (protocol gracetime) (.stopping begun.startOrder.reverse none) log.reverse =
      some stage

namespace Logged

variable {gracetime : Nat} {begun s t : Supervisor} {stage stage' : Stage}

theorem start : Logged gracetime s (.stopping s.startOrder.reverse none) s :=
  ⟨[], rfl, rfl⟩

theorem congr (h : Logged gracetime begun stage s) (same : t.history = s.history) :
    Logged gracetime begun stage t := by
  obtain ⟨log, hlog, hrun⟩ := h
  exact ⟨log, same.trans hlog, hrun⟩

theorem record (h : Logged gracetime begun stage s) {e : Event}
    (step : protocol gracetime stage e = some stage') (same : t.history = e :: s.history) :
    Logged gracetime begun stage' t := by
  obtain ⟨log, hlog, hrun⟩ := h
  refine ⟨e :: log, ?_, ?_⟩
  · rw [same, hlog, List.cons_append]
  · rw [List.reverse_cons]
    exact Actions.run_concat hrun step

end Logged

/-- What happens while processes are reaped. -/
def Event.Reaping : Event → Prop
  | .reaped _ _ => True
  | e => e.Passive

theorem Event.Passive.reaping {e : Event} (h : e.Passive) : e.Reaping := by
  cases e with
  | reaped _ _ => trivial
  | _ => exact h

/-- A condition on what was recorded that does not change while processes are reaped. -/
theorem reaps_of_recorded {I : Supervisor → Prop}
    (recorded : ∀ {s t : Supervisor} {e : Event}, e.Reaping → I s →
      t.history = e :: s.history → I t)
    (congr : ∀ {s t : Supervisor}, I s → t.history = s.history → I t) : Reaps I where
  passive he hs := recorded he.reaping hs rfl
  requestShutdown hs := congr hs rfl
  reapedOther hs _ _ := recorded (by trivial) hs rfl
  reapedService hs _ _ := recorded (by trivial) hs rfl
  shutdownBy hs _ := congr hs rfl

theorem reaps_stopping (gracetime : Nat) (begun : Supervisor) (rest : List Int)
    (current : Option Int) : Reaps (Logged gracetime begun (.stopping rest current)) := by
  apply reaps_of_recorded
  · intro s t e he hs same
    apply hs.record _ same
    cases e with
    | clock _ => rfl
    | ran _ _ _ => rfl
    | reaped _ _ => rfl
    | childless => rfl
    | _ => exact he.elim
  · exact Logged.congr

theorem reaps_killing (gracetime : Nat) (begun : Supervisor) :
    Reaps (Logged gracetime begun .killing) := by
  apply reaps_of_recorded
  · intro s t e he hs same
    apply hs.record _ same
    cases e with
    | clock _ => rfl
    | ran _ _ _ => rfl
    | reaped _ _ => rfl
    | childless => rfl
    | _ => exact he.elim
  · exact Logged.congr

/-- SIGTERM was sent to all, and the clock was read since. -/
def Terminating (gracetime : Nat) (begun : Supervisor) (since : UInt64) (s : Supervisor) : Prop :=
  ∃ last, Logged gracetime begun (.terminating (some since) (some last)) s

theorem reaps_terminating (gracetime : Nat) (begun : Supervisor) (since : UInt64) :
    Reaps (Terminating gracetime begun since) := by
  apply reaps_of_recorded
  · rintro s t e he ⟨last, hs⟩ same
    cases e with
    | clock now => exact ⟨now, hs.record rfl same⟩
    | ran _ _ _ => exact ⟨last, hs.record rfl same⟩
    | reaped _ _ => exact ⟨last, hs.record rfl same⟩
    | childless => exact ⟨last, hs.record rfl same⟩
    | _ => exact he.elim
  · rintro s t ⟨last, hs⟩ same
    exact ⟨last, hs.congr same⟩

namespace Code

section Reaping

variable {I₀ R : Supervisor → Prop} {I : UInt64 → Supervisor → Prop} {E : Str → Supervisor → Prop}

/-- That there is no child was the last answer. -/
def Childless (P : Supervisor → Prop) (t : Supervisor) : Prop :=
  ∃ s, P s ∧ t = s.record .childless

theorem Childless.imp {P P' : Supervisor → Prop} {t : Supervisor} (h : Childless P t)
    (imp : ∀ s, P s → P' s) : Childless P' t := by
  obtain ⟨s, hs, same⟩ := h
  exact ⟨s, imp s hs, same⟩

theorem reapTerminated_spec {P : Supervisor → Prop} (h : Reaps P) (stopped : ∀ s, P s → R s) :
    Spec P reapTerminated
      (fun killed t => P t ∧ (killed = -1 → Childless P t)) E R := by
  refine Spec.loop stopped ?_
  refine Spec.bind (waitpid_spec stopped (-1) true) fun result => ?_
  cases result with
  | reaped pid status =>
      refine Spec.with_entry ?_
      rintro _ ⟨s, hs, hpos, -, rfl⟩
      refine Spec.bind (M := fun _ => P) ?_ fun _ => Spec.pure fun _ hs => hs
      apply (handleKilled_keeps h hpos).consequence
      · rintro _ rfl
        exact ⟨s, hs, rfl⟩
      · exact fun _ _ hs => hs
      · exact fun _ _ hs => hs
      · exact stopped
  | running =>
      apply Spec.pure
      intro t ht
      exact ⟨ht, fun absurdity => absurd absurdity (by decide)⟩
  | interrupted =>
      apply Spec.pure
      rintro t ⟨-, absurdity⟩
      cases absurdity
  | failed =>
      apply Spec.pure
      rintro _ ⟨s, hs, -, rfl⟩
      exact ⟨h.passive (by trivial) hs, fun _ => ⟨s, hs, rfl⟩⟩

/-- The time since a clock reading is over: there is none, or another reading says so. -/
def Over (I : UInt64 → Supervisor → Prop) (period : Int) (since : UInt64) (t : Supervisor) : Prop :=
  period = 0 ∨ 0 < period ∧ ∃ s now, I since s ∧ t = s.record (.clock now) ∧
    period ≤ (now - since).toNat

theorem periodOver_spec (period : Int) (since : UInt64) (reaps : ∀ since, Reaps (I since))
    (stopped : ∀ since s, I since s → R s) :
    Spec (I since) (periodOver period since)
      (fun elapsed t => I since t ∧ (elapsed = true → Over I period since t)) E R := by
  refine Spec.ite (fun zero => Spec.pure fun _ ht => ⟨ht, fun _ => .inl zero⟩) fun _ => ?_
  refine Spec.ite (fun positive => ?_) fun _ => Spec.pure fun _ ht => ⟨ht, by simp⟩
  refine Spec.bind (getTime_spec (stopped since)) fun now => Spec.pure ?_
  rintro _ ⟨s, hs, rfl⟩
  refine ⟨(reaps since).passive (by trivial) hs, fun elapsed => ?_⟩
  exact .inr ⟨positive, s, now, hs, rfl, by simpa using elapsed⟩

/-- `child_handler` ends when there is no child left, or when its time is over, or when the service
it waits for has terminated. -/
theorem childHandler_spec (period service : Int)
    (start : ∀ {s : Supervisor} {now : UInt64}, I₀ s → I now (s.record (.clock now)))
    (reaps : ∀ since, Reaps (I since)) (stopped₀ : ∀ s, I₀ s → R s)
    (stopped : ∀ since s, I since s → R s) :
    Spec I₀ (childHandler period service)
      (fun all t => ∃ since, I since t ∧
        (all = true → Childless (I since) t) ∧
        (all = false → service < 0 → Over I period since t)) E R := by
  refine Spec.bind (getTime_spec stopped₀) fun since => ?_
  apply Spec.pre (P := I since)
  · refine Spec.loop (stopped since) ?_
    refine Spec.bind (reapTerminated_spec (reaps since) (stopped since)) fun killed => ?_
    refine Spec.ite (fun none_left => Spec.pure fun t ht => ?_) fun _ => ?_
    · exact ⟨since, ht.1, fun _ => ht.2 none_left, by simp⟩
    refine Spec.bind (Spec.pre (periodOver_spec period since reaps stopped) fun _ ht => ht.1)
      fun elapsed => ?_
    refine Spec.ite (fun isOver => Spec.pure fun t ht => ?_) fun _ => ?_
    · exact ⟨since, ht.1, by simp, fun _ _ => ht.2 isOver⟩
    refine Spec.ite (fun waiting => ?_) fun _ => Spec.pure fun _ ht => ht.1
    refine Spec.bind (srv_spec _) fun entry => Spec.pure fun t ht => ?_
    split
    · refine ⟨since, ht.1.1, by simp, fun _ negative => ?_⟩
      omega
    · exact ht.1.1
  · rintro _ ⟨s, hs, rfl⟩
    exact start hs

/-- `child_handler`, where the clock does not matter. -/
theorem childHandler_steady {P : Supervisor → Prop} (reaps : Reaps P) (stopped : ∀ s, P s → R s)
    (period service : Int) :
    Spec P (childHandler period service)
      (fun all t => P t ∧ (all = true → Childless P t) ∧
        (all = false → service < 0 → 0 ≤ period)) E R := by
  apply (childHandler_spec (I := fun _ => P) (E := E) period service
    (fun hs => reaps.passive (by trivial) hs) (fun _ => reaps) stopped fun _ => stopped).consequence
  · exact fun _ hs => hs
  · rintro all t ⟨since, ht, childless, elapsed⟩
    refine ⟨ht, childless, fun notAll negative => ?_⟩
    obtain zero | ⟨positive, -⟩ := elapsed notAll negative <;> omega
  · exact fun _ _ hs => hs
  · exact fun _ hs => hs

end Reaping

section Protocol

variable {gracetime : Nat} {begun : Supervisor} {E : Str → Supervisor → Prop}

/-- What was recorded is a run of the protocol. -/
def Lawful (gracetime : Nat) (begun s : Supervisor) : Prop :=
  ∃ stage, Logged gracetime begun stage s

theorem stopServices_spec (order : List Int) (current : Option Int) :
    Spec (Logged gracetime begun (.stopping order current)) (stopServices order)
      (fun all t =>
        if all then Childless (Lawful gracetime begun) t
        else ∃ current, Logged gracetime begun (.stopping [] current) t) E
          (Lawful gracetime begun) := by
  induction order generalizing current with
  | nil => exact Spec.pure fun _ hs => ⟨current, hs⟩
  | cons entry order ih =>
      have turned : protocol gracetime (.stopping (entry :: order) current) (.turn entry) =
          some (.stopping order (some entry)) := if_pos rfl
      have turn : Spec (Logged gracetime begun (.stopping (entry :: order) current))
          (modify (·.record (.turn entry)) : Code PUnit)
          (fun _ => Logged gracetime begun (.stopping order (some entry))) E
          (Lawful gracetime begun) :=
        Spec.modify fun _ hs => hs.record turned rfl
      refine turn.bind fun _ => ?_
      refine Spec.ite (fun _ => ih _) fun nonneg => ?_
      refine Spec.bind (srv_spec _) fun service => ?_
      refine Spec.ite (fun _ => Spec.pre (ih _) fun _ hs => hs.1) fun up => ?_
      obtain ⟨own, running⟩ : some entry = some ↑entry.toNat ∧ service.pid ≠ 0 := by
        rw [not_or] at up
        exact ⟨congrArg some (Int.toNat_of_nonneg (by omega)).symm, up.2⟩
      have stops : protocol gracetime (.stopping order (some entry))
          (.stopping entry.toNat service.pid) = some (.stopping order none) := if_pos ⟨own, running⟩
      have stopping : Spec (fun s => Logged gracetime begun (.stopping order (some entry)) s ∧
          service = s.srv entry.toNat)
            (modify (·.record (.stopping entry.toNat service.pid)) : Code PUnit)
          (fun _ => Logged gracetime begun (.stopping order none)) E (Lawful gracetime begun) :=
        Spec.modify fun _ hs => hs.1.record stops rfl
      refine stopping.bind fun _ => ?_
      have reaps := reaps_stopping gracetime begun order none
      have lawful : ∀ s, Logged gracetime begun (.stopping order none) s →
          Lawful gracetime begun s := fun s hs => ⟨_, hs⟩
      refine Spec.step (Spec.tryCatch (T := fun _ => Logged gracetime begun (.stopping order none))
        ?_ fun _ => Spec.pure fun _ hs => hs) fun _ => ?_
      · apply (stopService_keeps reaps.toQuiet ?_ _).spec
        · exact fun _ _ hs => hs
        · exact fun _ _ hs => hs
        · exact lawful
        · exact fun hs _ => hs.record rfl rfl
      refine Spec.bind (childHandler_steady reaps lawful 250 entry) fun all => ?_
      cases all with
      | true =>
          apply Spec.pure
          rintro t ⟨-, childless, -⟩
          exact (childless rfl).imp lawful
      | false => exact (ih none).pre fun _ ht => ht.1

theorem sigkill_step {since last : UInt64} (h : gracetime ≤ (last - since).toNat) :
    protocol gracetime (.terminating (some since) (some last)) .sigkillAll = some .killing :=
  if_pos h

theorem asInt_of_nonneg (n : UInt32) (h : 0 ≤ asInt n.toNat) : asInt n.toNat = n.toNat := by
  have := n.toNat_lt
  unfold asInt at h ⊢
  split at h
  · next small => rw [if_pos small]
  · omega

/-- The shutdown follows the protocol, and where it returns, there is no child. -/
theorem cinitShutdown_spec (gracetime : UInt32) :
    Spec (fun s => s = begun) (cinitShutdown gracetime.toNat)
      (fun _ => Childless (Lawful gracetime.toNat begun)) E
      (Lawful gracetime.toNat begun) := by
  refine Spec.bind (Spec.get (Q := fun s t => s = begun ∧ t = begun) fun _ hs => ⟨hs, hs⟩)
    fun s => Spec.with_entry ?_
  rintro begun ⟨rfl, rfl⟩
  refine Spec.bind (Spec.pre (stopServices_spec begun.startOrder.reverse none) ?_) fun all => ?_
  · rintro _ rfl
    exact Logged.start
  refine Spec.ite (fun all => Spec.pure fun t ht => by rwa [if_pos all] at ht) fun notAll => ?_
  apply Spec.pre (P := fun t => ∃ current, Logged gracetime.toNat begun (.stopping [] current) t) _
    fun _ ht => by rwa [if_neg notAll] at ht
  refine Spec.of_exists fun current => ?_
  have lawful : ∀ {stage : Stage} (s : Supervisor), Logged gracetime.toNat begun stage s →
      Lawful gracetime.toNat begun s := fun s hs => ⟨_, hs⟩
  refine Spec.bind (childHandler_steady (reaps_stopping _ begun [] current) lawful 0 (-1))
    fun all => ?_
  refine Spec.ite (fun all => Spec.pure fun t ht => (ht.2.1 all).imp lawful) fun _ => ?_
  refine Spec.bind
    (Spec.modify (Q := fun _ => Logged gracetime.toNat begun (.terminating none none))
    fun t ht => ht.1.record rfl rfl) fun _ => ?_
  refine Spec.bind (childHandler_spec (I := Terminating gracetime.toNat begun)
    (asInt gracetime.toNat) (-1) (fun hs => ⟨_, hs.record rfl rfl⟩)
    (reaps_terminating gracetime.toNat begun) lawful
    fun since s ⟨last, hs⟩ => lawful s hs) fun all => ?_
  refine Spec.ite (fun all => Spec.pure ?_) fun notAll => ?_
  · rintro t ⟨since, -, childless, -⟩
    exact (childless all).imp fun s ⟨last, hs⟩ => lawful s hs
  have sigkill : ∀ t, (∃ since, Terminating gracetime.toNat begun since t ∧
      (all = true → Childless (Terminating gracetime.toNat begun since) t) ∧
      (all = false → (-1 : Int) < 0 → Over (Terminating gracetime.toNat begun)
        (asInt gracetime.toNat) since t)) →
      Logged gracetime.toNat begun .killing (t.record .sigkillAll) := by
    rintro t ⟨since, ⟨last, ht⟩, -, elapsed⟩
    obtain zero | ⟨positive, s, now, ⟨last', hs⟩, rfl, elapsed⟩ :=
      elapsed (Bool.eq_false_iff.mpr notAll) (by decide)
    · have hzero : gracetime.toNat ≤ (last - since).toNat := by
        have := asInt_of_nonneg gracetime (by omega)
        omega
      exact ht.record (sigkill_step hzero) rfl
    · have helapsed : gracetime.toNat ≤ (now - since).toNat := by
        have := asInt_of_nonneg gracetime (by omega)
        omega
      have ticked : Logged gracetime.toNat begun (.terminating (some since) (some now))
          (s.record (.clock now)) := hs.record rfl rfl
      exact ticked.record (sigkill_step helapsed) rfl
  refine Spec.bind (Spec.modify (Q := fun _ => Logged gracetime.toNat begun .killing) sigkill)
    fun _ => ?_
  refine Spec.bind (childHandler_steady (reaps_killing _ begun) lawful (-1) (-1)) fun all => ?_
  apply Spec.pure
  rintro t ⟨-, childless, elapsed⟩
  refine (childless ?_).imp lawful
  by_contra notAll
  exact absurd (elapsed (Bool.eq_false_iff.mpr notAll) (by decide)) (by decide)

end Protocol

end Code

/-! ## What the protocol guarantees -/

/-- The entries whose turn came. -/
def turns (log : List Event) : List Int :=
  log.filterMap fun
    | .turn entry => some entry
    | _ => none

/-- The services for which `stop_service` was called. -/
def stopped (log : List Event) : List Nat :=
  log.filterMap fun
    | .stopping sid _ => some sid
    | _ => none

/-- The clock readings. -/
def readings (log : List Event) : List UInt64 :=
  log.filterMap fun
    | .clock now => some now
    | _ => none

/-- A shutdown in the order of its events. -/
structure ShutdownSafe (startOrder : List Int) (gracetime : Nat) (log : List Event) : Prop where
  /-- Services are stopped in the order of strictly decreasing positions, so each at most once. -/
  decreasing : (stopped log).Pairwise fun (a b : Nat) =>
    startOrder.idxOf (b : Int) < startOrder.idxOf (a : Int)
  started : ∀ sid ∈ stopped log, (sid : Int) ∈ startOrder
  running : ∀ sid pid, .stopping sid pid ∈ log → pid ≠ 0
  /-- SIGTERM is sent to all when every entry has had its turn, and no service is stopped later. -/
  visited : ∀ before after, log = before ++ .sigtermAll :: after →
    turns before = startOrder.reverse ∧ stopped after = []
  /-- SIGKILL is sent to all after this SIGTERM, when the time given to the processes is over. -/
  graceful : ∀ before after, log = before ++ .sigkillAll :: after →
    ∃ first mid since last, before = first ++ .sigtermAll :: mid ∧
      (readings mid).head? = some since ∧ (readings mid).getLast? = some last ∧
      since.toNat + gracetime ≤ last.toNat
  noService : ∀ sid pid, .forked sid pid ∉ log

section Guarantees

variable {gracetime : Nat} {log : List Event} {stage stage' : Stage}

/-- The part of the shutdown behind the stopping of the services. -/
def Stage.Late : Stage → Prop
  | .stopping _ _ => False
  | _ => True

theorem late_terminating {since last : Option UInt64} :
    (Stage.terminating since last).Late := trivial

/-- What may happen while the processes are given their time. -/
theorem terminating_step {since last : Option UInt64} {e : Event}
    (h : protocol gracetime (.terminating since last) e = some stage) :
    (∃ now, e = .clock now ∧ stage = .terminating (some (since.getD now)) (some now)) ∨
      stage = .killing ∨ (readings [e] = [] ∧ stage = .terminating since last) := by
  cases e with
  | clock now => exact .inl ⟨now, rfl, (Option.some.inj h).symm⟩
  | sigkillAll =>
      cases since with
      | none => cases h
      | some since =>
          cases last with
          | none => cases h
          | some last =>
              obtain ⟨-, hstage⟩ := Option.ite_none_right_eq_some.mp h
              exact .inr (.inl (Option.some.inj hstage).symm)
  | ran _ _ _ => exact .inr (.inr ⟨rfl, (Option.some.inj h).symm⟩)
  | reaped _ _ => exact .inr (.inr ⟨rfl, (Option.some.inj h).symm⟩)
  | childless => exact .inr (.inr ⟨rfl, (Option.some.inj h).symm⟩)
  | _ => cases h

/-- Nothing follows SIGKILL but the end of the children. -/
theorem killing_step {e : Event} (h : protocol gracetime .killing e = some stage) :
    stage = .killing ∧ stopped [e] = [] := by
  cases e with
  | clock _ => exact ⟨(Option.some.inj h).symm, rfl⟩
  | ran _ _ _ => exact ⟨(Option.some.inj h).symm, rfl⟩
  | reaped _ _ => exact ⟨(Option.some.inj h).symm, rfl⟩
  | childless => exact ⟨(Option.some.inj h).symm, rfl⟩
  | _ => cases h

theorem late_step {e : Event} (hstage : stage.Late) (h : protocol gracetime stage e = some stage') :
    stage'.Late ∧ stopped [e] = [] := by
  cases stage with
  | stopping _ _ => exact hstage.elim
  | terminating since last =>
      constructor
      · obtain ⟨now, -, rfl⟩ | rfl | ⟨-, rfl⟩ := terminating_step h <;> trivial
      · cases e with
        | stopping sid pid => cases h
        | _ => rfl
  | killing =>
      obtain ⟨rfl, none_stopped⟩ := killing_step h
      exact ⟨trivial, none_stopped⟩

theorem stopped_cons (e : Event) (log : List Event) :
    stopped (e :: log) = stopped [e] ++ stopped log :=
  List.filterMap_append (l := [e])

theorem late_run (hstage : stage.Late)
    (h : Actions.run (protocol gracetime) stage log = some stage') : stage'.Late :=
  Actions.run_invariant (fun _ _ _ late step => (late_step late step).1) hstage h

theorem stopped_late (hstage : stage.Late)
    (h : Actions.run (protocol gracetime) stage log = some stage') : stopped log = [] := by
  induction log generalizing stage with
  | nil => rfl
  | cons e log ih =>
      obtain ⟨next, hstep, hrest⟩ := Option.bind_eq_some_iff.mp h
      obtain ⟨hnext, none_stopped⟩ := late_step hstage hstep
      rw [stopped_cons, none_stopped, ih hnext hrest]
      rfl

/-- What may happen while services are stopped. -/
theorem stopping_step {rest : List Int} {current : Option Int} {e : Event}
    (h : protocol gracetime (.stopping rest current) e = some stage) :
    (∃ entry rest', e = .turn entry ∧ rest = entry :: rest' ∧
        stage = .stopping rest' (some entry)) ∨
      (∃ sid pid, e = .stopping sid pid ∧ current = some ↑sid ∧ stage = .stopping rest none) ∨
      (e = .sigtermAll ∧ rest = [] ∧ stage = .terminating none none) ∨
      (turns [e] = [] ∧ stopped [e] = [] ∧ e ≠ .sigtermAll ∧ stage = .stopping rest current) := by
  cases e with
  | turn entry =>
      obtain ⟨hhead, hstage⟩ := Option.ite_none_right_eq_some.mp h
      obtain ⟨rest', rfl⟩ := List.head?_eq_some_iff.mp hhead
      exact .inl ⟨entry, rest', rfl, rfl, (Option.some.inj hstage).symm⟩
  | stopping sid pid =>
      obtain ⟨hcurrent, hstage⟩ := Option.ite_none_right_eq_some.mp h
      exact .inr (.inl ⟨sid, pid, rfl, hcurrent.1, (Option.some.inj hstage).symm⟩)
  | sigtermAll =>
      obtain ⟨hrest, hstage⟩ := Option.ite_none_right_eq_some.mp h
      exact .inr (.inr (.inl ⟨rfl, hrest, (Option.some.inj hstage).symm⟩))
  | forked _ _ => cases h
  | forking _ => cases h
  | started _ => cases h
  | intervalOver _ _ => cases h
  | restartDue _ _ => cases h
  | restartAccepted _ => cases h
  | sigkillAll => cases h
  | loggerAlreadyStarted _ => cases h
  | _ => exact .inr (.inr (.inr ⟨rfl, rfl, by simp, (Option.some.inj h).symm⟩))

/-- Services are only stopped at their turn. -/
theorem stopped_sublist {rest : List Int} {current : Option Int}
    (h : Actions.run (protocol gracetime) (.stopping rest current) log = some stage) :
    List.Sublist ((stopped log).map Int.ofNat) (current.toList ++ rest) := by
  induction log generalizing rest current with
  | nil => exact List.nil_sublist _
  | cons e log ih =>
      obtain ⟨next, hstep, hrest⟩ := Option.bind_eq_some_iff.mp h
      rw [stopped_cons, List.map_append]
      obtain ⟨entry, rest', rfl, rfl, rfl⟩ | ⟨sid, pid, rfl, rfl, rfl⟩ | ⟨rfl, rfl, rfl⟩ |
        ⟨-, nothing, -, rfl⟩ := stopping_step hstep
      · exact (ih hrest).trans (List.sublist_append_right _ _)
      · exact (ih hrest).cons_cons _
      · rw [stopped_late late_terminating hrest]
        exact List.nil_sublist _
      · rw [nothing]
        exact ih hrest

/-- While services are stopped, the entries whose turn came are the first ones. -/
theorem turns_of_stopping {rest rest' : List Int} {current current' : Option Int}
    (h : Actions.run (protocol gracetime) (.stopping rest current) log =
      some (.stopping rest' current')) : turns log ++ rest' = rest := by
  induction log generalizing rest current with
  | nil =>
      obtain ⟨rfl, -⟩ := Stage.stopping.inj (Option.some.inj h)
      rfl
  | cons e log ih =>
      obtain ⟨next, hstep, hrest⟩ := Option.bind_eq_some_iff.mp h
      have cons : turns (e :: log) = turns [e] ++ turns log := List.filterMap_append (l := [e])
      rw [cons]
      obtain ⟨entry, rest', rfl, rfl, rfl⟩ | ⟨sid, pid, rfl, rfl, rfl⟩ | ⟨rfl, rfl, rfl⟩ |
        ⟨nothing, -, -, rfl⟩ := stopping_step hstep
      · exact congrArg (entry :: ·) (ih hrest)
      · exact ih hrest
      · exact (late_run late_terminating hrest).elim
      · rw [nothing]
        exact ih hrest

theorem killing_run (h : Actions.run (protocol gracetime) .killing log = some stage) :
    stage = .killing := by
  have keeps : ∀ s e t, s = Stage.killing → protocol gracetime s e = some t → t = .killing := by
    rintro _ e t rfl hstep
    exact (killing_step hstep).1
  exact Actions.run_invariant keeps rfl h

/-- The clock readings while the processes are given their time. -/
theorem readings_of_terminating {since last : Option UInt64} {first final : UInt64}
    (h : Actions.run (protocol gracetime) (.terminating since last) log =
      some (.terminating (some first) (some final))) :
    (since.toList ++ readings log).head? = some first ∧
      (last.toList ++ readings log).getLast? = some final := by
  induction log generalizing since last with
  | nil =>
      obtain ⟨rfl, rfl⟩ := Stage.terminating.inj (Option.some.inj h)
      exact ⟨rfl, rfl⟩
  | cons e log ih =>
      obtain ⟨next, hstep, hrest⟩ := Option.bind_eq_some_iff.mp h
      have cons : readings (e :: log) = readings [e] ++ readings log :=
        List.filterMap_append (l := [e])
      rw [cons]
      obtain ⟨now, rfl, rfl⟩ | rfl | ⟨nothing, rfl⟩ := terminating_step hstep
      · obtain ⟨hhead, hlast⟩ := ih hrest
        have now_read : readings [.clock now] = [now] := rfl
        constructor
        · cases since with
          | none => exact hhead
          | some since => exact hhead
        · rw [List.getLast?_append_of_ne_nil _ (by simp [now_read])]
          exact hlast
      · cases killing_run hrest
      · rw [nothing]
        exact ih hrest

/-- Where the processes are given their time, SIGTERM was sent to all, and the clock was read. -/
theorem terminating_of_run {rest : List Int} {current : Option Int} {since last : UInt64}
    (h : Actions.run (protocol gracetime) (.stopping rest current) log =
      some (.terminating (some since) (some last))) :
    ∃ first mid, log = first ++ .sigtermAll :: mid ∧ (readings mid).head? = some since ∧
      (readings mid).getLast? = some last := by
  induction log generalizing rest current with
  | nil => cases h
  | cons e log ih =>
      obtain ⟨next, hstep, hrest⟩ := Option.bind_eq_some_iff.mp h
      obtain ⟨entry, rest', rfl, rfl, rfl⟩ | ⟨sid, pid, rfl, rfl, rfl⟩ | ⟨rfl, rfl, rfl⟩ |
        ⟨-, -, -, rfl⟩ := stopping_step hstep
      · obtain ⟨first, mid, rfl, hmid⟩ := ih hrest
        exact ⟨_ :: first, mid, rfl, hmid⟩
      · obtain ⟨first, mid, rfl, hmid⟩ := ih hrest
        exact ⟨_ :: first, mid, rfl, hmid⟩
      · exact ⟨[], log, rfl, readings_of_terminating hrest⟩
      · obtain ⟨first, mid, rfl, hmid⟩ := ih hrest
        exact ⟨_ :: first, mid, rfl, hmid⟩

theorem ne_of_mem_sublist {x e : Int} {order : List Int} (hmem : x ∈ order) (hx : 0 ≤ x)
    (hnodup : ((e :: order).filter (0 ≤ ·)).Nodup) : x ≠ e := by
  rintro rfl
  rw [List.filter_cons_of_pos (by simpa using hx), List.nodup_cons] at hnodup
  exact hnodup.1 (List.mem_filter.mpr ⟨hmem, by simpa using hx⟩)

/-- In a part of a list, positions in it increase. -/
theorem pairwise_idxOf {xs order : List Int} (hsub : List.Sublist xs order)
    (hnonneg : ∀ x ∈ xs, 0 ≤ x) (hnodup : (order.filter (0 ≤ ·)).Nodup) :
    xs.Pairwise fun a b => order.idxOf a < order.idxOf b := by
  induction hsub with
  | slnil => exact List.Pairwise.nil
  | @cons xs order e hsub ih =>
      have hrest := hnodup.sublist ((List.sublist_cons_self e order).filter (0 ≤ ·))
      refine (ih hnonneg hrest).imp_of_mem fun {a b} ha hb hlt => ?_
      have ha' := ne_of_mem_sublist (hsub.subset ha) (hnonneg a ha) hnodup
      have hb' := ne_of_mem_sublist (hsub.subset hb) (hnonneg b hb) hnodup
      rw [List.idxOf_cons_ne _ ha'.symm, List.idxOf_cons_ne _ hb'.symm]
      omega
  | @cons_cons xs order e hsub ih =>
      have hrest := hnodup.sublist ((List.sublist_cons_self e order).filter (0 ≤ ·))
      have hxs : ∀ x ∈ xs, 0 ≤ x ∧ x ≠ e := fun x hx =>
        have hx' := hnonneg x (List.mem_cons_of_mem _ hx)
        ⟨hx', ne_of_mem_sublist (hsub.subset hx) hx' hnodup⟩
      apply List.Pairwise.cons
      · intro b hb
        rw [List.idxOf_cons_self, List.idxOf_cons_ne _ (hxs b hb).2.symm]
        omega
      · refine (ih (fun x hx => (hxs x hx).1) hrest).imp_of_mem fun {a b} ha hb hlt => ?_
        rw [List.idxOf_cons_ne _ (hxs a ha).2.symm, List.idxOf_cons_ne _ (hxs b hb).2.symm]
        omega

theorem run_split {before after : List Event} {e : Event}
    (h : Actions.run (protocol gracetime) stage (before ++ e :: after) = some stage') :
    ∃ middle next, Actions.run (protocol gracetime) stage before = some middle ∧
      protocol gracetime middle e = some next ∧
      Actions.run (protocol gracetime) next after = some stage' := by
  rw [Actions.run_append] at h
  obtain ⟨middle, hbefore, hrest⟩ := Option.bind_eq_some_iff.mp h
  obtain ⟨next, hstep, hafter⟩ := Option.bind_eq_some_iff.mp hrest
  exact ⟨middle, next, hbefore, hstep, hafter⟩

theorem childless_step (stage : Stage) : protocol gracetime stage .childless = some stage := by
  cases stage with
  | terminating since last => cases since <;> rfl
  | _ => rfl

theorem sigtermAll_step (h : protocol gracetime stage .sigtermAll = some stage') :
    ∃ current, stage = .stopping [] current ∧ stage' = .terminating none none := by
  cases stage with
  | stopping rest current =>
      obtain ⟨rfl, hstage⟩ := Option.ite_none_right_eq_some.mp h
      exact ⟨current, rfl, (Option.some.inj hstage).symm⟩
  | terminating since last => cases since <;> cases h
  | killing => cases h

theorem sigkillAll_step (h : protocol gracetime stage .sigkillAll = some stage') :
    ∃ since last, stage = .terminating (some since) (some last) ∧
      gracetime ≤ (last - since).toNat := by
  cases stage with
  | stopping rest current => cases h
  | terminating since last =>
      cases since with
      | none => cases h
      | some since =>
          cases last with
          | none => cases h
          | some last => exact ⟨since, last, rfl, (Option.ite_none_right_eq_some.mp h).1⟩
  | killing => cases h

theorem head_le_getLast {xs : List UInt64} {first last : UInt64} (h : xs.Pairwise (· ≤ ·))
    (hfirst : xs.head? = some first) (hlast : xs.getLast? = some last) : first ≤ last := by
  obtain ⟨rest, rfl⟩ := List.head?_eq_some_iff.mp hfirst
  obtain rfl | member := List.mem_cons.mp (List.mem_of_getLast? hlast)
  · exact UInt64.le_refl _
  · exact List.rel_of_pairwise_cons h member

/-- What a run of the protocol guarantees, if the clock does not run backwards. -/
theorem shutdownSafe_of_run {order : List Int} (hnodup : (order.filter (0 ≤ ·)).Nodup)
    (hrun : Actions.run (protocol gracetime) (.stopping order.reverse none) log = some stage)
    (hclock : (readings log).Pairwise (· ≤ ·)) : ShutdownSafe order gracetime log := by
  have sublist : List.Sublist ((stopped log).map Int.ofNat) order.reverse := stopped_sublist hrun
  constructor
  · have increasing :=
      pairwise_idxOf (List.reverse_sublist.mpr sublist |>.trans (by simp)) ?_ hnodup
    · rw [List.pairwise_reverse, List.pairwise_map] at increasing
      exact increasing
    · intro x hx
      obtain ⟨sid, -, rfl⟩ := List.mem_map.mp (List.mem_reverse.mp hx)
      exact Int.natCast_nonneg sid
  · intro sid hsid
    exact List.mem_reverse.mp (sublist.subset (List.mem_map_of_mem hsid))
  · intro sid pid member
    obtain ⟨before, after, hstep⟩ := Actions.possible_of_mem hrun member
    cases before with
    | stopping rest current => exact (Option.ite_none_right_eq_some.mp hstep).1.2
    | terminating since last => cases since <;> cases hstep
    | killing => cases hstep
  · rintro before after rfl
    obtain ⟨middle, next, hbefore, hstep, hafter⟩ := run_split hrun
    obtain ⟨current, rfl, rfl⟩ := sigtermAll_step hstep
    refine ⟨?_, stopped_late late_terminating hafter⟩
    rw [← turns_of_stopping hbefore, List.append_nil]
  · rintro before after rfl
    obtain ⟨middle, next, hbefore, hstep, -⟩ := run_split hrun
    obtain ⟨since, last, rfl, elapsed⟩ := sigkillAll_step hstep
    obtain ⟨first, mid, rfl, hsince, hlast⟩ := terminating_of_run hbefore
    refine ⟨first, mid, since, last, rfl, hsince, hlast, ?_⟩
    have monotone : since ≤ last := by
      apply head_le_getLast (hclock.sublist _) hsince hlast
      apply List.Sublist.filterMap
      rw [List.append_assoc, List.cons_append]
      exact ((List.sublist_append_left mid _).cons _).trans (List.sublist_append_right first _)
    have difference := UInt64.toNat_sub_of_le last since monotone
    have := UInt64.le_iff_toNat_le.mp monotone
    omega
  · intro sid pid member
    obtain ⟨before, after, hstep⟩ := Actions.possible_of_mem hrun member
    cases before with
    | stopping rest current => cases hstep
    | terminating since last => cases since <;> cases hstep
    | killing => cases hstep

end Guarantees

/-- Whatever the environment answers, `cinit_shutdown` is safe in the order of its events, and
returns only when `waitpid` has just said that there is no child left. -/
theorem cinitShutdown_safe (s : Supervisor) (gracetime : UInt32) (answers : List Answer)
    (hnodup : (s.startOrder.filter (0 ≤ ·)).Nodup) :
    ∃ log, ((Code.cinitShutdown gracetime.toNat).run answers s).state.history =
        log.reverse ++ s.history ∧
      ((readings log).Pairwise (· ≤ ·) → ShutdownSafe s.startOrder gracetime.toNat log) ∧
      (((Code.cinitShutdown gracetime.toNat).run answers s).result = some (.ok ⟨⟩) →
        log.getLast? = some .childless) := by
  have spec := Code.cinitShutdown_spec (E := fun _ => Code.Lawful gracetime.toNat s) gracetime
    answers s rfl
  generalize (Code.cinitShutdown gracetime.toNat).run answers s = run at spec
  by_cases returned : run.result = some (.ok ⟨⟩)
  · rw [Ends, returned] at spec
    obtain ⟨t, ⟨stage, log, hlog, hrun⟩, hstate⟩ := spec
    refine ⟨log.reverse ++ [.childless], ?_, ?_, ?_⟩
    · rw [hstate, List.reverse_concat, List.reverse_reverse]
      exact congrArg (Event.childless :: ·) hlog
    · exact shutdownSafe_of_run hnodup (Actions.run_concat hrun (childless_step stage))
    · intro _
      rw [List.getLast?_append, List.getLast?_singleton]
      rfl
  · have lawful : Code.Lawful gracetime.toNat s run.state := by
      unfold Ends at spec
      split at spec
      · next hresult => exact absurd hresult returned
      · exact spec
      · exact spec
      · exact spec
    obtain ⟨stage, log, hlog, hrun⟩ := lawful
    refine ⟨log.reverse, ?_, shutdownSafe_of_run hnodup hrun, fun h => absurd h returned⟩
    rw [hlog, List.reverse_reverse]

/-- A service has a process, and an entry of the start order is unused. -/
def oneLeft : Supervisor where
  services :=
    [{ settings := { ServiceEntry.unused.settings with name := "app".toList }, pid := 5 }]
  startOrder := [0, -1]
  children := [(5, 0)]
  phase := .shuttingDown

/-- The process ignores SIGTERM. -/
def ignoresSigterm : List Answer :=
  ([.chdir none, .access false, .clock (some 0), .waited .running, .clock (some 300)] :
      List Answer) ++
    ([.clock (some 310), .waited .running] : List Answer) ++
    ([.clock (some 320), .waited .running, .clock (some 5400)] : List Answer) ++
    ([.clock (some 5410), .waited (.reaped 5 (.signaled 9)), .chdir none, .access false,
      .signals false, .waited .failed] : List Answer)

/-- Its shutdown. -/
def killedLog : List Event :=
  ([.turn (-1), .turn 0, .stopping 0 5, .sigterm 0 5 (some 0), .clock 0, .clock 300] :
      List Event) ++
    ([.clock 310, .sigtermAll, .clock 320, .clock 5400] : List Event) ++
    ([.sigkillAll, .clock 5410, .reaped 5 (.signaled 9), .childless] : List Event)

theorem cinitShutdown_safe_killedLog : ShutdownSafe [0, -1] 5000 killedLog := by
  obtain ⟨log, hlog, safe, -⟩ := cinitShutdown_safe oneLeft 5000 ignoresSigterm (by decide)
  have recorded : killedLog.reverse = log.reverse ++ [] := hlog
  rw [List.append_nil, List.reverse_inj] at recorded
  subst recorded
  exact safe (by decide)

end Baseimage.Cinit
