import Baseimage.Run.Actions

/-!
# Debouncing

A sender remembers the time of its last send, and zero when there was none. Before it sends again it
asks the clock and gives up while less than a period has passed; with a period of zero it sends
once, and with a negative one always. After a send the time is read and remembered.

What happens is a run of the debouncer. It is the run that is replayed from the clock readings and
the number of decisions, so nothing else has an influence on a sender.
-/

namespace Debouncer

inductive Event where
  /-- Nothing is sent. The clock reading is the one that was compared, if one was. -/
  | suppressed (checked : Option Int)
  | sent (checked : Option Int)
  /-- The time of the send. -/
  | recorded (now : Int)
  deriving DecidableEq, Repr

/-- The time of the last send, also while the next one is not recorded yet. -/
inductive State where
  | ready (last : Int)
  | sending (last : Int)
  deriving DecidableEq, Repr

def State.last : State → Int
  | ready last => last
  | sending last => last

def step (period : Int) : State → Event → Option State
  | .ready last, .suppressed none =>
      if 0 < last ∧ period = 0 then some (.ready last) else none
  | .ready last, .suppressed (some now) =>
      if 0 < last ∧ 0 < period ∧ now - last < period then some (.ready last) else none
  | .ready last, .sent none =>
      if last ≤ 0 ∨ period < 0 then some (.sending last) else none
  | .ready last, .sent (some now) =>
      if 0 < last ∧ 0 < period ∧ period ≤ now - last then some (.sending last) else none
  | .sending _, .recorded now => some (.ready now)
  | _, _ => none

/-- The clock readings, in the order they were taken. -/
def readings (log : List Event) : List Int :=
  log.filterMap fun
    | .suppressed checked => checked
    | .sent checked => checked
    | .recorded now => some now

/-- The times of the sends. -/
def times (log : List Event) : List Int :=
  log.filterMap fun
    | .recorded now => some now
    | _ => none

def Event.isSent : Event → Bool
  | sent _ => true
  | _ => false

/-- The decisions to send or not to send. -/
def Event.isDecision : Event → Bool
  | recorded _ => false
  | _ => true

def decisions (log : List Event) : Nat := log.countP Event.isDecision

def sends (log : List Event) : Nat := log.countP Event.isSent

variable {period last : Int} {s t : State} {log : List Event}

/-- What the debouncer can do. -/
theorem step_cases {e : Event} (h : step period s e = some t) :
    (∃ checked, e = .suppressed checked ∧ s = t ∧ ∃ last, s = .ready last ∧ 0 < last ∧
      (checked = none ∧ period = 0 ∨
        ∃ now, checked = some now ∧ 0 < period ∧ now - last < period)) ∨
    (∃ checked last, e = .sent checked ∧ s = .ready last ∧ t = .sending last ∧
      (checked = none ∧ (last ≤ 0 ∨ period < 0) ∨
        ∃ now, checked = some now ∧ 0 < last ∧ 0 < period ∧ period ≤ now - last)) ∨
    ∃ now last, e = .recorded now ∧ s = .sending last ∧ t = .ready now := by
  cases s with
  | ready last =>
      cases e with
      | suppressed checked =>
          cases checked with
          | none =>
              obtain ⟨⟨sent, zero⟩, hstate⟩ := Option.ite_none_right_eq_some.mp h
              exact .inl ⟨none, rfl, Option.some.inj hstate, last, rfl, sent, .inl ⟨rfl, zero⟩⟩
          | some now =>
              obtain ⟨⟨sent, positive, early⟩, hstate⟩ := Option.ite_none_right_eq_some.mp h
              exact .inl ⟨some now, rfl, Option.some.inj hstate, last, rfl, sent,
                .inr ⟨now, rfl, positive, early⟩⟩
      | sent checked =>
          cases checked with
          | none =>
              obtain ⟨free, hstate⟩ := Option.ite_none_right_eq_some.mp h
              exact .inr (.inl ⟨none, last, rfl, rfl, (Option.some.inj hstate).symm,
                .inl ⟨rfl, free⟩⟩)
          | some now =>
              obtain ⟨⟨sent, positive, late⟩, hstate⟩ := Option.ite_none_right_eq_some.mp h
              exact .inr (.inl ⟨some now, last, rfl, rfl, (Option.some.inj hstate).symm,
                .inr ⟨now, rfl, sent, positive, late⟩⟩)
      | recorded now => cases h
  | sending last =>
      cases e with
      | suppressed checked => cases checked <;> cases h
      | sent checked => cases checked <;> cases h
      | recorded now => exact .inr (.inr ⟨now, last, rfl, rfl, (Option.some.inj h).symm⟩)

/-- A send is not recorded before a period has passed. -/
def State.Due (period floor : Int) : State → Prop
  | ready _ => True
  | sending last => 0 < last → period ≤ floor - last

/-- From any state on, the times of the sends are a period apart, also from the last one. The floor
is a time that has passed. -/
theorem spaced_from (positive : 0 < period) {floor : Int} (due : s.Due period floor)
    (hrun : Actions.run (step period) s log = some t)
    (hclock : ∀ r ∈ readings log, floor ≤ r ∧ 0 < r) (hmono : (readings log).Pairwise (· ≤ ·)) :
    (∀ r ∈ times log, 0 < s.last → period ≤ r - s.last) ∧
      (times log).Pairwise fun a b => period ≤ b - a := by
  induction log generalizing s floor with
  | nil => exact ⟨by simp [times], List.Pairwise.nil⟩
  | cons e log ih =>
      obtain ⟨next, hstep, hrest⟩ := Option.bind_eq_some_iff.mp hrun
      obtain ⟨checked, rfl, rfl, -⟩ | ⟨checked, last, rfl, rfl, rfl, sent⟩ |
        ⟨now, last, rfl, rfl, rfl⟩ := step_cases hstep
      · cases checked with
        | none => exact ih due hrest hclock hmono
        | some now =>
            exact ih due hrest (fun r hr => hclock r (List.mem_cons_of_mem _ hr)) hmono.of_cons
      · obtain ⟨rfl, free⟩ | ⟨now, rfl, -, -, late⟩ := sent
        · have due' : (State.sending last).Due period floor := fun h => by omega
          exact ih (s := .sending last) due' hrest hclock hmono
        · have due' : (State.sending last).Due period now := fun _ => late
          have later : ∀ r ∈ readings log, now ≤ r ∧ 0 < r := fun r hr =>
            ⟨List.rel_of_pairwise_cons hmono hr, (hclock r (List.mem_cons_of_mem _ hr)).2⟩
          exact ih (s := .sending last) due' hrest later hmono.of_cons
      · have here := hclock now List.mem_cons_self
        have later : ∀ r ∈ readings log, floor ≤ r ∧ 0 < r := fun r hr =>
          hclock r (List.mem_cons_of_mem _ hr)
        obtain ⟨fromNow, spaced⟩ := ih (s := .ready now) trivial hrest later hmono.of_cons
        refine ⟨?_, List.Pairwise.cons (fun r hr => fromNow r hr here.2) spaced⟩
        intro r hr hlast
        have first := due hlast
        show period ≤ r - last
        obtain rfl | hr := List.mem_cons.mp hr
        · omega
        · have := fromNow r hr here.2
          simp only [State.last] at this
          omega

/-- With a positive period, and a clock that is positive and does not run backwards, the sends are
a period apart. -/
theorem spaced (positive : 0 < period) (hrun : Actions.run (step period) (.ready last) log = some t)
    (hclock : ∀ r ∈ readings log, 0 < r) (hmono : (readings log).Pairwise (· ≤ ·)) :
    (times log).Pairwise fun a b => period ≤ b - a := by
  have due : (State.ready last).Due period 0 := trivial
  have bounded : ∀ r ∈ readings log, 0 ≤ r ∧ 0 < r := fun r hr =>
    ⟨Int.le_of_lt (hclock r hr), hclock r hr⟩
  exact (spaced_from positive due hrun bounded hmono).2

/-- There was a send. -/
def State.Spent : State → Prop
  | ready last => 0 < last
  | sending _ => True

/-- With a period of zero, a sender that has sent does not send again. -/
theorem sends_eq_zero (spent : s.Spent) (hrun : Actions.run (step 0) s log = some t)
    (hclock : ∀ r ∈ readings log, 0 < r) : sends log = 0 := by
  induction log generalizing s with
  | nil => rfl
  | cons e log ih =>
      obtain ⟨next, hstep, hrest⟩ := Option.bind_eq_some_iff.mp hrun
      obtain ⟨checked, rfl, rfl, -⟩ | ⟨checked, last, rfl, rfl, rfl, sent⟩ |
        ⟨now, last, rfl, rfl, rfl⟩ := step_cases hstep
      · cases checked with
        | none => exact ih spent hrest hclock
        | some now => exact ih spent hrest fun r hr => hclock r (List.mem_cons_of_mem _ hr)
      · have : 0 < last := spent
        obtain ⟨-, free⟩ | ⟨now, -, -, positive, -⟩ := sent <;> omega
      · have spent' : (State.ready now).Spent := hclock now List.mem_cons_self
        exact ih spent' hrest fun r hr => hclock r (List.mem_cons_of_mem _ hr)

/-- With a period of zero, there is one send at most. -/
theorem sends_le_one (hrun : Actions.run (step 0) (.ready last) log = some t)
    (hclock : ∀ r ∈ readings log, 0 < r) : sends log ≤ 1 := by
  by_cases spent : 0 < last
  · rw [sends_eq_zero (s := .ready last) spent hrun hclock]
    exact Nat.zero_le 1
  · cases log with
    | nil => exact Nat.zero_le 1
    | cons e log =>
        obtain ⟨next, hstep, hrest⟩ := Option.bind_eq_some_iff.mp hrun
        obtain ⟨checked, rfl, rfl, other, hother, sent, -⟩ | ⟨checked, other, rfl, -, rfl, sent⟩ |
          ⟨now, other, -, hother, -⟩ := step_cases hstep
        · obtain rfl := State.ready.inj hother
          exact absurd sent spent
        · have rest : sends log = 0 := by
            apply sends_eq_zero (s := .sending other) trivial hrest
            intro r hr
            apply hclock r
            cases checked with
            | none => exact hr
            | some now => exact List.mem_cons_of_mem _ hr
          rw [sends, List.countP_cons_of_pos rfl]
          exact Nat.succ_le_succ (Nat.le_of_eq rest)
        · cases hother

/-- The time of a send is recorded, and then the rest happens. -/
def recordThen (rest : Int → List Int → List Event) : (readings : List Int) → List Event
  | [] => []
  | now :: readings => .recorded now :: rest now readings

/-- The events of so many decisions, if the clock gives these readings. -/
def replay (period : Int) : (last : Int) → (decisions : Nat) → (readings : List Int) → List Event
  | _, 0, _ => []
  | last, n + 1, readings =>
      if last ≤ 0 ∨ period < 0 then
        .sent none :: recordThen (fun now => replay period now n) readings
      else if period = 0 then .suppressed none :: replay period last n readings
      else
        match readings with
        | [] => []
        | now :: readings =>
            if now - last < period then .suppressed (some now) :: replay period last n readings
            else .sent (some now) :: recordThen (fun now => replay period now n) readings

theorem replay_succ (period last : Int) (n : Nat) (readings : List Int) :
    replay period last (n + 1) readings =
      if last ≤ 0 ∨ period < 0 then
        .sent none :: recordThen (fun now => replay period now n) readings
      else if period = 0 then .suppressed none :: replay period last n readings
      else
        match readings with
        | [] => []
        | now :: readings =>
            if now - last < period then .suppressed (some now) :: replay period last n readings
            else .sent (some now) :: recordThen (fun now => replay period now n) readings := by
  cases readings <;> rfl

/-- The replay from a state. -/
def replayFrom (period : Int) : State → (decisions : Nat) → (readings : List Int) → List Event
  | .ready last, n, readings => replay period last n readings
  | .sending _, n, readings => recordThen (fun now => replay period now n) readings

/-- A run is the replay of its decisions and clock readings. -/
theorem eq_replayFrom (hrun : Actions.run (step period) s log = some t) :
    log = replayFrom period s (decisions log) (readings log) := by
  induction log generalizing s with
  | nil => cases s <;> rfl
  | cons e log ih =>
      obtain ⟨next, hstep, hrest⟩ := Option.bind_eq_some_iff.mp hrun
      have rest := ih hrest
      obtain ⟨checked, rfl, rfl, last, rfl, sent, why⟩ | ⟨checked, last, rfl, rfl, rfl, why⟩ |
        ⟨now, last, rfl, rfl, rfl⟩ := step_cases hstep
      · have notFree : ¬ (last ≤ 0 ∨ period < 0) := by omega
        have one_more : decisions (.suppressed checked :: log) = decisions log + 1 :=
          List.countP_cons_of_pos rfl
        rw [one_more, replayFrom, replay_succ, if_neg notFree]
        obtain ⟨rfl, zero⟩ | ⟨now, rfl, positive, early⟩ := why
        · rw [if_pos zero]
          exact congrArg _ rest
        · have notZero : period ≠ 0 := by omega
          rw [if_neg notZero]
          show _ = if now - last < period then _ else _
          rw [if_pos early]
          exact congrArg _ rest
      · have one_more : decisions (.sent checked :: log) = decisions log + 1 :=
          List.countP_cons_of_pos rfl
        rw [one_more, replayFrom, replay_succ]
        obtain ⟨rfl, free⟩ | ⟨now, rfl, sent, positive, late⟩ := why
        · rw [if_pos free]
          exact congrArg _ rest
        · have notFree : ¬ (last ≤ 0 ∨ period < 0) := by omega
          have notZero : period ≠ 0 := by omega
          have notEarly : ¬ (now - last < period) := by omega
          rw [if_neg notFree, if_neg notZero]
          show _ = if now - last < period then _ else _
          rw [if_neg notEarly]
          exact congrArg _ rest
      · exact congrArg _ rest

theorem eq_replay (hrun : Actions.run (step period) (.ready last) log = some t) :
    log = replay period last (decisions log) (readings log) :=
  eq_replayFrom hrun

end Debouncer
