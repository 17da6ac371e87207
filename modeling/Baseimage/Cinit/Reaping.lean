import Baseimage.Cinit.MainLoop

/-!
# How long `child_handler` waits for a service

`child_handler` reaps in rounds until there is no child left or its time is over. It can be given
the index of a service it should not wait beyond, but it asks for the pid of this service only
where `waitpid` has just returned something else than 0, and the reaping never ends that way while
children are left.
-/

namespace Baseimage.Cinit

open Script Supervisor

namespace Code

variable {answers rest : List Answer} {s t : Supervisor} {killed : Int}

/-- What `waitpid` returned is the answer that was taken. -/
theorem waitpid_any_ok {result : Waited}
    (h : (waitpid (-1) true).run answers s = ⟨some (.ok result), rest, t⟩) :
    answers = .waited result :: rest ∧ result ≠ .interrupted := by
  obtain ⟨k, rfl, accepted⟩ := ask_run_eq_ok h
  split at accepted
  · obtain ⟨-, accepted⟩ := Option.ite_none_right_eq_some.mp accepted
    cases accepted
    exact ⟨rfl, nofun⟩
  · cases accepted
    exact ⟨rfl, nofun⟩
  · cases accepted
  · rw [if_pos rfl] at accepted
    obtain ⟨-, accepted⟩ := Option.ite_none_right_eq_some.mp accepted
    cases accepted
    exact ⟨rfl, nofun⟩
  · cases accepted

/-- A round of the reaping ends it where `waitpid` fails or finds no terminated child. -/
theorem reapRound_last (h : reapRound.run answers s = ⟨some (.ok (some killed)), rest, t⟩) :
    killed = -1 ∧ .waited .failed :: rest = answers ∨
      killed = 0 ∧ .waited .running :: rest = answers := by
  obtain ⟨result, mid, u, waited, ended⟩ := bind_run_eq_ok h
  obtain ⟨taken, notInterrupted⟩ := waitpid_any_ok waited
  cases result with
  | reaped pid status =>
      obtain ⟨_, _, _, -, nothing⟩ := bind_run_eq_ok ended
      cases nothing
  | running =>
      cases ended
      exact Or.inr ⟨rfl, taken.symm⟩
  | interrupted => exact absurd rfl notInterrupted
  | failed =>
      cases ended
      exact Or.inl ⟨rfl, taken.symm⟩

/-- The reaping ends where `waitpid` fails, or where it finds no terminated child. -/
theorem reapTerminated_last (h : reapTerminated.run answers s = ⟨some (.ok killed), rest, t⟩) :
    killed = -1 ∧ .waited .failed :: rest <:+ answers ∨
      killed = 0 ∧ .waited .running :: rest <:+ answers := by
  obtain ⟨rest', t', rounds, last⟩ := loop_run_ok reapRound_asks h
  rcases reapRound_last last with ⟨value, rfl⟩ | ⟨value, rfl⟩
  · exact Or.inl ⟨value, rounds.suffix⟩
  · exact Or.inr ⟨value, rounds.suffix⟩

/-- The given time is over, as the clock says that is read next. -/
def TimeIsOver (period : Int) (start : UInt64) (answers : List Answer) : Prop :=
  period = 0 ∨ 0 < period ∧
    ∀ now, answers.head? = some (.clock (some now)) → period ≤ (now - start).toNat

theorem periodOver_false_iff {period : Int} {start : UInt64} :
    ((periodOver period start).run answers s).result = some (.ok false) ↔
      ¬ TimeIsOver period start answers := by
  rcases Int.lt_trichotomy period 0 with negative | rfl | positive
  · rw [periodOver, if_neg (by omega), if_neg (by omega)]
    refine iff_of_true rfl ?_
    rintro (zero | ⟨positive, -⟩) <;> omega
  · exact iff_of_false nofun (not_not.mpr (Or.inl rfl))
  · have running : TimeIsOver period start answers ↔
        ∀ now, answers.head? = some (.clock (some now)) → period ≤ (now - start).toNat := by
      refine ⟨?_, fun elapsed => Or.inr ⟨positive, elapsed⟩⟩
      rintro (zero | ⟨-, elapsed⟩)
      · omega
      · exact elapsed
    rw [running, periodOver, if_neg (by omega), if_pos positive]
    cases answers with
    | nil => exact iff_of_false nofun (by simp)
    | cons k rest =>
        cases k with
        | clock reading =>
            cases reading with
            | none => exact iff_of_false nofun (by simp)
            | some now =>
                show some (Outcome.ok (decide (period ≤ (now - start).toNat))) =
                  some (.ok false) ↔ _
                simp
        | _ => exact iff_of_false nofun (by simp)

/-- A round of `child_handler` is followed by another one exactly when the reaping has found no
terminated child any more and the time is not over. -/
theorem handlerRound_goesOn_iff {period service : Int} {start : UInt64} {more : List Answer}
    {u : Supervisor} (reaped : reapTerminated.run answers s = ⟨some (.ok killed), more, u⟩) :
    ((handlerRound period service start).run answers s).result = some (.ok none) ↔
      killed = 0 ∧ ¬ TimeIsOver period start more := by
  rw [handlerRound, bind_run_ok reaped]
  rcases reapTerminated_last reaped with ⟨rfl, -⟩ | ⟨rfl, -⟩
  · rw [if_pos rfl]
    exact iff_of_false (fun ended => by cases ended) (by simp)
  · -- The pid of the service is never looked at, because `killed` is 0 here.
    have notReached : ¬ (service ≥ 0 ∧ (0 : Int) ≠ 0) := by simp
    rw [if_neg (by decide), ← @periodOver_false_iff more u, bind_run]
    simp only [if_neg notReached]
    cases ((periodOver period start).run more u).result with
    | none => simp
    | some outcome =>
        cases outcome with
        | ok elapsed =>
            cases elapsed with
            | true => exact iff_of_false (fun ended => by cases ended) (by simp)
            | false => exact iff_of_true rfl (by simp)
        | threw e => simp
        | aborted => simp

theorem getTime_eq_ok {now : UInt64} (h : getTime.run answers s = ⟨some (.ok now), rest, t⟩) :
    answers = .clock (some now) :: rest ∧ t = s.record (.clock now) := by
  obtain ⟨reading, mid, u, read, ended⟩ := bind_run_eq_ok h
  obtain ⟨k, taken, accepted⟩ := ask_run_eq_ok read
  cases k with
  | clock answer =>
      cases answer with
      | some now' =>
          cases accepted
          cases ended
          exact ⟨taken, rfl⟩
      | none =>
          cases accepted
          cases ended
  | _ => cases accepted

/-- The clock is all that is asked for after the reaping of a round. -/
theorem periodOver_taken {period : Int} {start : UInt64} {elapsed : Bool}
    (h : (periodOver period start).run answers s = ⟨some (.ok elapsed), rest, t⟩) :
    rest = answers ∨ ∃ now, answers = .clock (some now) :: rest := by
  unfold periodOver at h
  split at h
  · cases h
    exact Or.inl rfl
  · split at h
    · obtain ⟨now, mid, u, read, ended⟩ := bind_run_eq_ok h
      cases ended
      exact Or.inr ⟨now, (getTime_eq_ok read).1⟩
    · cases h
      exact Or.inl rfl

/-- The last answer of the round in which `child_handler` returns. -/
theorem handlerRound_last {period service : Int} {start : UInt64} {all : Bool}
    (h : (handlerRound period service start).run answers s = ⟨some (.ok (some all)), rest, t⟩) :
    all = true ∧ .waited .failed :: rest <:+ answers ∨
      all = false ∧ ∃ k, k ≠ .waited .failed ∧ k :: rest <:+ answers := by
  obtain ⟨killed, more, u, reaped, ended⟩ := bind_run_eq_ok h
  rcases reapTerminated_last reaped with ⟨rfl, taken⟩ | ⟨rfl, taken⟩
  · cases ended
    exact Or.inl ⟨rfl, taken⟩
  · rw [if_neg (by decide)] at ended
    obtain ⟨elapsed, mid, v, asked, ended⟩ := bind_run_eq_ok ended
    rw [if_neg (by simp : ¬ (service ≥ 0 ∧ (0 : Int) ≠ 0))] at ended
    cases elapsed with
    | false => cases ended
    | true =>
        cases ended
        refine Or.inr ⟨rfl, ?_⟩
        rcases periodOver_taken asked with rfl | ⟨now, rfl⟩
        · exact ⟨.waited .running, by simp, taken⟩
        · exact ⟨.clock (some now), by simp, (List.suffix_cons _ _).trans taken⟩

/-- `child_handler` returns true exactly when `waitpid` has reported last that no child remains. -/
theorem childHandler_exact {period service : Int} {all : Bool}
    (h : (childHandler period service).run answers s = ⟨some (.ok all), rest, t⟩) :
    all = true ↔ .waited .failed :: rest <:+ answers := by
  obtain ⟨start, later, u, read, looped⟩ := bind_run_eq_ok h
  obtain ⟨rfl, -⟩ := getTime_eq_ok read
  obtain ⟨answers', s', rounds, last⟩ := loop_run_ok (handlerRound_asks period service start) looped
  have earlier : answers' <:+ .clock (some start) :: later :=
    rounds.suffix.trans (List.suffix_cons _ _)
  rcases handlerRound_last last with ⟨rfl, taken⟩ | ⟨rfl, k, other, taken⟩
  · exact iff_of_true rfl (taken.trans earlier)
  · refine iff_of_false Bool.false_ne_true fun failed => other ?_
    have same := List.suffix_of_suffix_length_le (taken.trans earlier) failed (by simp)
    exact List.head_eq_of_cons_eq (same.eq_of_length (by simp))

end Code

/-! ## The contract -/

section Contract

variable (period : Int) (sid : Nat)

/-- The service has no process at the end of the reaping of a round. -/
def Reaped (answers : List Answer) (s : Supervisor) (killed : Int) (rest : List Answer)
    (t : Supervisor) : Prop :=
  Code.reapTerminated.run answers s = ⟨some (.ok killed), rest, t⟩ ∧ (t.srv sid).pid = 0

/-- A call of `child_handler` for a service is over at the end of the first round after whose
reaping the service has no process, and it returns true exactly when `waitpid` has reported last
that no child remains. -/
structure Contract (answers : List Answer) (s : Supervisor) : Prop where
  prompt : ∀ start later, answers = .clock (some start) :: later → ∀ rest t,
    Rounds (Code.handlerRound period sid start) later (s.record (.clock start)) rest t →
    ∀ killed more u, Reaped sid rest t killed more u →
      ((Code.handlerRound period sid start).run rest t).result ≠ some (.ok none)
  exact : ∀ all rest t, (Code.childHandler period sid).run answers s = ⟨some (.ok all), rest, t⟩ →
    (all = true ↔ .waited .failed :: rest <:+ answers)

/-- In every round after whose reaping the service has no process, no child remains or the time is
over. -/
def OverOnceReaped (answers : List Answer) (s : Supervisor) : Prop :=
  ∀ start later, answers = .clock (some start) :: later → ∀ rest t,
    Rounds (Code.handlerRound period sid start) later (s.record (.clock start)) rest t →
    ∀ killed more u, Reaped sid rest t killed more u →
      killed = -1 ∨ Code.TimeIsOver period start more

/-- The contract is kept exactly when the call would be over anyway each time the service has no
process any more. -/
theorem contract_iff (answers : List Answer) (s : Supervisor) :
    Contract period sid answers s ↔ OverOnceReaped period sid answers s := by
  constructor
  · intro contract start later hanswers rest t rounds killed more u reaped
    by_contra neither
    obtain ⟨children, time⟩ := not_or.mp neither
    refine contract.prompt start later hanswers rest t rounds killed more u reaped
      ((Code.handlerRound_goesOn_iff reaped.1).mpr ⟨?_, time⟩)
    rcases Code.reapTerminated_last reaped.1 with ⟨none, -⟩ | ⟨zero, -⟩
    · exact absurd none children
    · exact zero
  · intro isOver
    refine ⟨?_, fun all rest t h => Code.childHandler_exact h⟩
    intro start later hanswers rest t rounds killed more u reaped goesOn
    obtain ⟨zero, time⟩ := (Code.handlerRound_goesOn_iff reaped.1).mp goesOn
    rcases isOver start later hanswers rest t rounds killed more u reaped with none | elapsed
    · exact absurd (none.symm.trans zero) (by decide)
    · exact time elapsed

end Contract

/-- Two services that are up. -/
def twoUp : Supervisor where
  services :=
    [{ settings := Service.init {} "app".toList, pid := 5, outputFd := 7 },
      { settings := Service.init {} "xvnc".toList, pid := 6, outputFd := 8 }]
  children := [(5, 0), (6, 1)]

/-- The first one terminates and has no `finish` program, the second one stays up. -/
def firstTerminates : List Answer :=
  [.clock (some 1000), .waited (.reaped 5 (.exited 0)), .chdir none, .access false,
    .signals false, .waited .running, .clock (some 1000), .waited .running]

/-- The service is reaped in the first round, and another round follows. -/
theorem reaped_goes_on : ¬ Contract 250 0 firstTerminates twoUp := by
  intro contract
  have value : (Code.reapTerminated.run (firstTerminates.drop 1)
      (twoUp.record (.clock 1000))).result = some (.ok 0) := by decide +kernel
  have reaped : Reaped 0 (firstTerminates.drop 1) (twoUp.record (.clock 1000)) 0 _ _ :=
    ⟨by rw [← value], by decide +kernel⟩
  exact contract.prompt 1000 _ rfl _ _ (.start _ _) 0 _ _ reaped (by decide +kernel)

end Baseimage.Cinit
