import Baseimage.Cinit.Reaping

/-!
# The grace time of the shutdown

`--services-gracetime` takes any `unsigned int`, and `cinit_shutdown` passes it to `child_handler`
as an `int`, where 0 and the negative numbers have a meaning of their own. A value from `2^31` on
arrives as a negative number, and the pass that was to be limited has no limit at all.

Time goes by whether or not the code looks at the clock, so a run comes with the time of each of
its moments. A moment is identified by the answers that are still ahead.
-/

namespace Baseimage.Cinit

open Script Supervisor Code

/-- The time when so many answers are ahead. It never goes back, and the clock shows it. -/
structure Timeline (answers : List Answer) where
  time : Nat → Nat
  antitone : Antitone time
  shown : ∀ now rest, .clock (some now) :: rest <:+ answers → time (rest.length + 1) = now.toNat

/-- What `cinit_shutdown` does after the broadcast of SIGTERM. -/
def terminating (servicesGracetime : Nat) : Code Unit := do
  let all ← childHandler (asInt servicesGracetime) (-1)
  if all then pure ()
  else do
    modify (·.record .sigkillAll)
    let _ ← childHandler (-1) (-1)
    pure ()

theorem cinitShutdown_terminating (servicesGracetime : Nat) :
    cinitShutdown servicesGracetime = (do
      let s ← get
      let all ← stopServices s.startOrder.reverse
      if all then pure ()
      else do
        let all ← childHandler 0 (-1)
        if all then pure ()
        else do
          modify (·.record .sigtermAll)
          terminating servicesGracetime) := rfl

/-- A round of the pass has come to its check: children remain, and these answers are ahead. -/
def AtCheck (g : UInt32) (start : UInt64) (later : List Answer) (s : Supervisor)
    (result : Option (Outcome Str (Option Bool))) (more : List Answer) : Prop :=
  ∃ rest t u, Rounds (handlerRound (asInt g.toNat) (-1) start) later s rest t ∧
    reapTerminated.run rest t = ⟨some (.ok 0), more, u⟩ ∧
    ((handlerRound (asInt g.toNat) (-1) start).run rest t).result = result

/-- While children remain the pass is over at the first check at which the grace time has elapsed
since its beginning, and SIGKILL follows. -/
structure GracetimeHonoured (g : UInt32) (answers : List Answer) (s : Supervisor)
    (line : Timeline answers) : Prop where
  /-- A check that ends the pass is not too early. -/
  notEarlier : ∀ start later more, answers = .clock (some start) :: later →
    AtCheck g start later (s.record (.clock start)) (some (.ok (some false))) more →
    start.toNat + g.toNat ≤ line.time more.length
  /-- A check that does not end the pass is not too late. -/
  notLater : ∀ start later more, answers = .clock (some start) :: later →
    AtCheck g start later (s.record (.clock start)) (some (.ok none)) more →
    line.time more.length < start.toNat + g.toNat
  killed : ∀ rest t, (childHandler (asInt g.toNat) (-1)).run answers s =
      ⟨some (.ok false), rest, t⟩ →
    (terminating g.toNat).run answers s =
      (do let _ ← childHandler (-1) (-1)
          pure ()).run rest (t.record .sigkillAll)

/-- Where the clock has said that the time is over. -/
theorem periodOver_true {period : Int} {start : UInt64} {answers : List Answer} {s : Supervisor}
    (h : ((periodOver period start).run answers s).result = some (.ok true)) :
    period = 0 ∨ 0 < period ∧ ∃ now rest, answers = .clock (some now) :: rest ∧
      period ≤ (now - start).toNat := by
  rw [periodOver] at h
  split at h
  · next zero => exact .inl zero
  · split at h
    · next positive =>
        obtain ⟨now, mid, u, read, ended⟩ := bind_result_eq_ok h
        have elapsed : some (Outcome.ok (decide (period ≤ (now - start).toNat))) =
          some (.ok true) :=
          ended
        exact .inr ⟨positive, now, mid, (getTime_eq_ok read).1, by simpa using elapsed⟩
    · cases h

theorem asInt_of_lt {n : Nat} (h : n < 2 ^ 31) : asInt n = n := if_pos h

section Pass

variable {g : UInt32} {start : UInt64} {later more : List Answer} {s : Supervisor}

/-- The answers ahead at a check are the end of all of them. -/
theorem AtCheck.suffix {result : Option (Outcome Str (Option Bool))}
    (h : AtCheck g start later s result more) : more <:+ later := by
  obtain ⟨rest, t, u, rounds, reaped, -⟩ := h
  have taken := reapTerminated.suffix rest t
  rw [reaped] at taken
  exact taken.trans rounds.suffix

/-- The check that ends the pass. -/
theorem AtCheck.over (h : AtCheck g start later s (some (.ok (some false))) more) :
    asInt g.toNat = 0 ∨ 0 < asInt g.toNat ∧ ∃ now rest, more = .clock (some now) :: rest ∧
      asInt g.toNat ≤ (now - start).toNat := by
  obtain ⟨rest, t, u, -, reaped, ended⟩ := h
  rw [handlerRound, bind_run_ok reaped, if_neg (by decide)] at ended
  obtain ⟨elapsed, mid, v, asked, ended⟩ := bind_result_eq_ok ended
  cases elapsed with
  | true => exact periodOver_true (congrArg ScriptRun.result asked)
  | false =>
      rw [if_neg Bool.false_ne_true, if_neg (by simp)] at ended
      cases ended

/-- A check that another round follows. -/
theorem AtCheck.notOver (h : AtCheck g start later s (some (.ok none)) more)
    (hg : g.toNat < 2 ^ 31) : ∃ now rest, more = .clock (some now) :: rest ∧
      (now - start).toNat < g.toNat := by
  obtain ⟨rest, t, u, -, reaped, ended⟩ := h
  obtain ⟨-, running⟩ := (handlerRound_goesOn_iff reaped).mp ended
  rw [TimeIsOver, asInt_of_lt hg] at running
  simp only [not_or, not_and, not_forall] at running
  obtain ⟨now, shown, early⟩ := running.2 (by omega)
  obtain ⟨rest, rfl⟩ := List.head?_eq_some_iff.mp shown
  exact ⟨now, rest, rfl, by omega⟩

end Pass

section Timeline

variable {answers : List Answer} (line : Timeline answers)

/-- What the clock shows at the beginning is not later than any other time. -/
theorem Timeline.start_le {start : UInt64} {later more : List Answer}
    (begun : answers = .clock (some start) :: later) (ahead : more <:+ later) :
    start.toNat ≤ line.time more.length := by
  rw [← line.shown start later (begun ▸ List.suffix_refl answers)]
  exact line.antitone (ahead.length_le.trans (Nat.le_succ _))

theorem Timeline.shows {start now : UInt64} {later more rest : List Answer}
    (begun : answers = .clock (some start) :: later) (ahead : more <:+ later)
    (read : more = .clock (some now) :: rest) : line.time more.length = now.toNat := by
  rw [read] at ahead ⊢
  exact line.shown now rest (begun ▸ ahead.trans (List.suffix_cons _ _))

/-- What the subtraction of two readings says. -/
theorem Timeline.elapsed {start now : UInt64} {later more rest : List Answer}
    (begun : answers = .clock (some start) :: later) (ahead : more <:+ later)
    (read : more = .clock (some now) :: rest) :
    start.toNat + (now - start).toNat = line.time more.length := by
  have shows := line.shows begun ahead read
  have ordered := line.start_le begun ahead
  rw [shows] at ordered ⊢
  rw [UInt64.toNat_sub_of_le _ _ (UInt64.le_iff_toNat_le.mpr ordered)]
  omega

end Timeline

theorem gracetimeHonoured_of_lt {g : UInt32} (hg : g.toNat < 2 ^ 31) (answers : List Answer)
    (s : Supervisor) (line : Timeline answers) : GracetimeHonoured g answers s line where
  notEarlier start later more begun check := by
    have ahead := check.suffix
    have ended := check.over
    rw [asInt_of_lt hg] at ended
    rcases ended with zero | ⟨-, now, rest, read, elapsed⟩
    · have ordered := line.start_le begun ahead
      omega
    · have passed := line.elapsed begun ahead read
      omega
  notLater start later more begun check := by
    obtain ⟨now, rest, read, early⟩ := check.notOver hg
    have passed := line.elapsed begun check.suffix read
    omega
  killed rest t notAll := by
    rw [terminating, bind_run_ok notAll, if_neg Bool.false_ne_true]
    rfl

/-- A child that stays, for as long as an `unsigned int` can say. -/
def staying : List Answer := [.clock (some 0), .waited .running]

def stayingLine : Timeline staying where
  time n := if n = 0 then 2 ^ 32 else 0
  antitone m n order := by
    dsimp only
    split <;> split <;> omega
  shown now rest ahead := by
    have readings : ∀ k, .clock (some k) ∈ staying → k = 0 := by simp [staying]
    rw [readings now (ahead.subset List.mem_cons_self)]
    rfl

theorem not_gracetimeHonoured {g : UInt32} (hg : 2 ^ 31 ≤ g.toNat) (s : Supervisor) :
    ¬ GracetimeHonoured g staying s stayingLine := by
  intro honoured
  have bound := g.toNat_lt
  have negative : asInt g.toNat < 0 := by
    rw [asInt, if_neg (by omega)]
    omega
  have reaped : reapTerminated.run [.waited .running] (s.record (.clock 0)) =
      ⟨some (.ok 0), [], s.record (.clock 0)⟩ := rfl
  have goesOn : ((handlerRound (asInt g.toNat) (-1) 0).run [.waited .running]
      (s.record (.clock 0))).result = some (.ok none) := by
    refine (handlerRound_goesOn_iff reaped).mpr ⟨rfl, ?_⟩
    rw [TimeIsOver]
    omega
  have late := honoured.notLater 0 _ [] rfl ⟨_, _, _, .start _ _, reaped, goesOn⟩
  have longAfter : stayingLine.time ([] : List Answer).length = 2 ^ 32 := rfl
  rw [longAfter] at late
  have zero : (0 : UInt64).toNat = 0 := rfl
  omega

/-- Whatever the children do and whatever the clock shows, the grace time is honoured exactly when
it fits in an `int`. -/
theorem gracetimeHonoured_iff (g : UInt32) :
    (∀ answers s (line : Timeline answers), GracetimeHonoured g answers s line) ↔
      g.toNat < 2 ^ 31 := by
  constructor
  · intro honoured
    by_contra large
    exact not_gracetimeHonoured (Nat.le_of_not_lt large) booted
      (honoured staying booted stayingLine)
  · exact gracetimeHonoured_of_lt

/-- With the smallest number that does not fit, the pass goes on when the time is over. -/
theorem gracetime_unlimited :
    ¬ ∀ answers s (line : Timeline answers), GracetimeHonoured 2147483648 answers s line :=
  fun honoured => not_gracetimeHonoured (by decide) booted (honoured staying booted stayingLine)

end Baseimage.Cinit
