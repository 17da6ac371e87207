import Baseimage.Timing.Debouncer

/-!
# Debouncing of sends that may fail

A sender that remembers the time of every send, whether or not something was sent, gives up sends
that nothing was sent for. What is suppressed goes back to a send that was sent exactly if every
send that failed is over before the next decision: a period has passed, or there is none.
-/

/-- What happens to a sender whose sends may fail. -/
inductive Delivery where
  | suppressed (checked : Option Int)
  | sent (checked : Option Int) (launched : Bool)
  | recorded (now : Int)
  deriving DecidableEq, Repr

namespace Delivery

/-- What the debouncer sees of it. -/
def event : Delivery → Debouncer.Event
  | suppressed checked => .suppressed checked
  | sent checked _ => .sent checked
  | recorded now => .recorded now

/-- The clock reading a decision was made on, if there was one. -/
def checked : Delivery → Option Int
  | suppressed checked => checked
  | sent checked _ => checked
  | recorded _ => none

/-- A failed delivery does not consume the notification. -/
structure Sound (period : Int) (log : List Delivery) : Prop where
  /-- What is suppressed comes after a send that was launched, less than a positive period ago. -/
  earned : ∀ before checked after, log = before ++ suppressed checked :: after →
    ∃ early c time late, before = early ++ sent c true :: recorded time :: late ∧
      (0 < period → ∃ now, checked = some now ∧ now - time < period)
  /-- A send that failed is not the last one before something is suppressed: one that was launched
  comes in between. -/
  blameless : ∀ early c time late checked after,
    log = early ++ sent c false :: recorded time :: late ++ suppressed checked :: after →
      ∃ c', sent c' true ∈ late

/-- When the next decision is made after a send that failed, the time that was kept of it debounces
no more. -/
def Outlasted (period : Int) (log : List Delivery) : Prop :=
  ∀ early c time next after,
    log = early ++ sent c false :: recorded time :: next :: after → 0 < time →
      period < 0 ∨ 0 < period ∧ ∃ now, next.checked = some now ∧ period ≤ now - time

/-- A run of the debouncer from its start. -/
def Runs (period : Int) (log : List Delivery) (state : Debouncer.State) : Prop :=
  Actions.run (Debouncer.step period) (.ready 0) (log.map event) = some state

variable {period last : Int} {state : Debouncer.State} {log before after : List Delivery}

/-- A run up to one of its events, and the step that it is. -/
theorem Runs.at {e : Delivery} (h : Runs period (before ++ e :: after) state) :
    ∃ s t, Runs period before s ∧ Debouncer.step period s e.event = some t := by
  rw [Runs, List.map_append, Actions.run_append] at h
  obtain ⟨s, first, rest⟩ := Option.bind_eq_some_iff.mp h
  obtain ⟨t, here, -⟩ := Option.bind_eq_some_iff.mp rest
  exact ⟨s, t, first, here⟩

theorem Runs.concat {e : Delivery} (h : Runs period (before ++ [e]) state) :
    ∃ s, Runs period before s ∧ Debouncer.step period s e.event = some state := by
  rw [Runs, List.map_append, Actions.run_append] at h
  obtain ⟨s, first, rest⟩ := Option.bind_eq_some_iff.mp h
  obtain ⟨t, here, stays⟩ := Option.bind_eq_some_iff.mp rest
  obtain rfl := Option.some.inj stays
  exact ⟨s, first, here⟩

/-- While a send is not recorded, it is the last thing that happened. -/
theorem Runs.sending (h : Runs period log (.sending last)) :
    ∃ early c launched, log = early ++ [sent c launched] := by
  cases log using List.reverseRecOn with
  | nil => cases h
  | append_singleton early e =>
      obtain ⟨s, -, here⟩ := h.concat
      cases e with
      | sent c launched => exact ⟨early, c, launched, rfl⟩
      | suppressed checked =>
          obtain ⟨_, -, same, _, ready, -⟩ | ⟨_, _, other, -⟩ | ⟨_, _, other, -⟩ :=
            Debouncer.step_cases here
          · cases same.symm.trans ready
          · cases other
          · cases other
      | recorded now =>
          obtain ⟨_, other, -⟩ | ⟨_, _, other, -⟩ | ⟨_, _, -, -, ready⟩ :=
            Debouncer.step_cases here
          · cases other
          · cases other
          · cases ready

/-- The time that is kept is the time of the last send, and since then everything was
suppressed. -/
theorem Runs.last_send (h : Runs period log (.ready last)) (positive : 0 < last) :
    ∃ early c launched late, log = early ++ sent c launched :: recorded last :: late ∧
      ∀ e ∈ late, ∃ checked, e = suppressed checked := by
  induction log using List.reverseRecOn with
  | nil =>
      cases h
      exact absurd positive (Int.lt_irrefl 0)
  | append_singleton init e ih =>
      obtain ⟨s, first, here⟩ := h.concat
      cases e with
      | suppressed checked =>
          obtain ⟨_, -, rfl, -⟩ | ⟨_, _, other, -⟩ | ⟨_, _, other, -⟩ :=
            Debouncer.step_cases here
          · obtain ⟨early, c, launched, late, rfl, quiet⟩ := ih first
            refine ⟨early, c, launched, late ++ [suppressed checked], by simp, fun e he => ?_⟩
            obtain he | he := List.mem_append.mp he
            · exact quiet e he
            · exact ⟨checked, List.mem_singleton.mp he⟩
          · cases other
          · cases other
      | sent c launched =>
          obtain ⟨_, other, -⟩ | ⟨_, _, -, -, ready, -⟩ | ⟨_, _, other, -⟩ :=
            Debouncer.step_cases here
          · cases other
          · cases ready
          · cases other
      | recorded now =>
          obtain ⟨_, other, -⟩ | ⟨_, _, other, -⟩ | ⟨_, _, hnow, rfl, ready⟩ :=
            Debouncer.step_cases here
          · cases other
          · cases other
          · cases hnow
            cases ready
            obtain ⟨early, c, launched, rfl⟩ := first.sending
            exact ⟨early, c, launched, [], by simp, by simp⟩

/-- What a debouncer that is ready can decide. -/
theorem Runs.decision {c : Option Int} {launched : Bool} {next : Delivery}
    (h : Runs period (before ++ sent c launched :: recorded last :: next :: after) state)
    (positive : 0 < last) :
    (∃ checked, next = suppressed checked ∧ (period = 0 ∨
        ∃ now, checked = some now ∧ 0 < period ∧ now - last < period)) ∨
      ∃ checked ok, next = sent checked ok ∧
        (period < 0 ∨ ∃ now, checked = some now ∧ 0 < period ∧ period ≤ now - last) := by
  have cut : before ++ sent c launched :: recorded last :: next :: after =
      (before ++ [sent c launched, recorded last]) ++ next :: after := by simp
  rw [cut] at h
  obtain ⟨s, t, first, here⟩ := h.at
  have kept : s = .ready last := by
    rw [← List.singleton_append, ← List.append_assoc] at first
    obtain ⟨_, -, there⟩ := first.concat
    obtain ⟨_, other, -⟩ | ⟨_, _, other, -⟩ | ⟨_, _, hnow, -, ready⟩ := Debouncer.step_cases there
    · cases other
    · cases other
    · cases hnow
      exact ready
  subst kept
  obtain ⟨checked, hnext, -, _, same, -, why⟩ | ⟨checked, _, hnext, same, -, why⟩ |
    ⟨_, _, -, other, -⟩ := Debouncer.step_cases here
  · cases same
    cases next with
    | suppressed other =>
        cases hnext
        refine .inl ⟨checked, rfl, why.imp (·.2) ?_⟩
        rintro ⟨now, rfl, some⟩
        exact ⟨now, rfl, some⟩
    | sent => cases hnext
    | recorded => cases hnext
  · cases same
    cases next with
    | suppressed => cases hnext
    | sent other ok =>
        cases hnext
        refine .inr ⟨checked, ok, rfl, ?_⟩
        obtain ⟨-, free⟩ | ⟨now, rfl, -, late⟩ := why
        · exact .inl (free.resolve_left (Int.not_le.mpr positive))
        · exact .inr ⟨now, rfl, late⟩
    | recorded => cases hnext
  · cases other

/-- Of two elements of a list, the one that is not found behind the other stands in front of it. -/
theorem mem_of_splits {α : Type*} {x y : α} {as bs cs ds : List α}
    (same : as ++ x :: bs = cs ++ y :: ds) (differ : x ≠ y) (last : x ∉ ds) : y ∈ bs := by
  induction as generalizing cs with
  | nil =>
      cases cs with
      | nil => exact absurd (List.cons.inj same).1 differ
      | cons c cs =>
          rw [(List.cons.inj same).2]
          exact List.mem_append_right _ List.mem_cons_self
  | cons a as ih =>
      cases cs with
      | nil =>
          rw [← (List.cons.inj same).2] at last
          exact absurd (List.mem_append_right _ List.mem_cons_self) last
      | cons c cs => exact ih (List.cons.inj same).2

/-- What is suppressed goes back to the last send, and with the condition that one was launched. -/
theorem Outlasted.launched (h : Outlasted period log) (hrun : Runs period log state)
    {checked : Option Int} (split : log = before ++ suppressed checked :: after) :
    ∃ early c time late, before = early ++ sent c true :: recorded time :: late ∧
      (∀ e ∈ late, ∃ checked, e = suppressed checked) ∧
      (0 < period → ∃ now, checked = some now ∧ now - time < period) := by
  subst split
  obtain ⟨s, t, first, here⟩ := hrun.at
  obtain ⟨_, hchecked, -, last, rfl, positive, why⟩ | ⟨_, _, other, -⟩ | ⟨_, _, other, -⟩ :=
    Debouncer.step_cases here
  · cases hchecked
    obtain ⟨early, c, launched, late, rfl, quiet⟩ := first.last_send positive
    have recent : 0 < period → ∃ now, checked = some now ∧ now - last < period := by
      intro hperiod
      obtain ⟨-, zero⟩ | ⟨now, hnow, -, soon⟩ := why
      · omega
      · exact ⟨now, hnow, soon⟩
    cases launched with
    | true => exact ⟨early, c, last, late, rfl, quiet, recent⟩
    | false =>
        -- What comes next was suppressed too, against the condition.
        obtain ⟨reading, rest, follows⟩ :
            ∃ reading rest, late ++ suppressed checked :: after = suppressed reading :: rest := by
          cases late with
          | nil => exact ⟨checked, after, rfl⟩
          | cons e late =>
              obtain ⟨reading, rfl⟩ := quiet e List.mem_cons_self
              exact ⟨reading, late ++ suppressed checked :: after, rfl⟩
        have whole : (early ++ sent c false :: recorded last :: late) ++
            suppressed checked :: after =
            early ++ sent c false :: recorded last :: suppressed reading :: rest := by
          rw [← follows]
          simp
        rw [whole] at h hrun
        obtain ⟨_, hreading, soon⟩ | ⟨_, _, other, -⟩ := hrun.decision positive
        · cases hreading
          obtain negative | ⟨hperiod, now, hnow, passed⟩ := h early c last _ rest rfl positive
          · obtain zero | ⟨_, -, hperiod, -⟩ := soon <;> omega
          · cases hnow
            obtain zero | ⟨_, hnow, -, early⟩ := soon
            · omega
            · cases hnow
              omega
        · cases other
  · cases other
  · cases other

/-- Exactly then only launched sends suppress anything. -/
theorem sound_iff (hrun : Runs period log state) : Sound period log ↔ Outlasted period log := by
  constructor
  · intro sound early c time next after split positive
    subst split
    obtain ⟨checked, rfl, -⟩ | ⟨checked, ok, rfl, why⟩ := hrun.decision positive
    · obtain ⟨_, none⟩ := sound.blameless early c time [] checked after (by simp)
      cases none
    · obtain negative | ⟨now, rfl, hperiod, passed⟩ := why
      · exact .inl negative
      · exact .inr ⟨hperiod, now, rfl, passed⟩
  · intro outlasted
    constructor
    · intro before checked after split
      obtain ⟨early, c, time, late, hbefore, -, recent⟩ := outlasted.launched hrun split
      exact ⟨early, c, time, late, hbefore, recent⟩
    · intro early c time late checked after split
      obtain ⟨_, c', last, rest, same, quiet, -⟩ := outlasted.launched hrun split
      have notThere : sent c false ∉ recorded last :: rest := by
        intro member
        obtain other | member := List.mem_cons.mp member
        · cases other
        · obtain ⟨_, other⟩ := quiet _ member
          cases other
      have later := mem_of_splits same (by simp) notThere
      obtain other | later := List.mem_cons.mp later
      · cases other
      · exact ⟨c', later⟩

end Delivery
