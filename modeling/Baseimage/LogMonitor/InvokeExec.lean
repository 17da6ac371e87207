import Baseimage.LogMonitor.HandleLine
import Baseimage.Run.Actions
import Baseimage.Run.Pipe

/-!
# Running a program for its output

The standard output of the program is a pipe. The parent reads as much of it as its buffer takes, or
up to the end, waits for the program, and only then closes its end of the pipe. The program writes
and exits, and a write waits for room in the pipe.

The two act in any order, and the pipe is any pipe. The parent may wait for a program that waits for
room exactly if more is written than the buffer takes and the pipe grants.
-/

namespace Baseimage.LogMonitor

/-- A call of `invoke_exec` with an output buffer, and the program it runs. -/
structure Invocation where
  outputsize : Nat
  outputsize_pos : 0 < outputsize
  /-- After so many bytes `read` fails, if it ever does. -/
  readFails : Option Nat := none
  /-- What the program writes to its standard output, one `write` after the other. -/
  writes : List Str
  exitCode : Nat := 0

/-- What is left of a `write`. -/
structure Write where
  bytes : Str
  atomic : Bool
  deriving DecidableEq, Repr

/-- The room without which a `write` waits. -/
def Write.need (w : Write) : Nat := if w.atomic then w.bytes.length else min 1 w.bytes.length

inductive Parent where
  /-- In `full_read`, with what it has read. -/
  | reading (output : Str)
  /-- In `waitpid`, with what `full_read` returned; it may have failed. -/
  | waiting (output : Option Str)
  /-- Before `close`. -/
  | closing (result : Executed)
  | returned (result : Executed)
  deriving DecidableEq, Repr

/-- The state after the fork. -/
structure Running (L : Type) where
  parent : Parent
  /-- What is in the pipe. -/
  pipe : Str := []
  /-- How the pipe keeps it. -/
  layout : L
  /-- The writes that are left, until the program exits. -/
  child : Option (List Write)
  deriving DecidableEq, Repr

inductive Action where
  /-- So many bytes go into the pipe. -/
  | write (n : Nat)
  | exit
  /-- `read` returns so many bytes. -/
  | read (n : Nat)
  | readFailure
  | waitpid
  | close
  deriving DecidableEq, Repr

namespace Invocation

variable {pipeBuf : Nat} (x : Invocation) (p : Pipe pipeBuf)

/-- How much the parent reads at most. -/
def limit : Nat :=
  match x.readFails with
  | some n => min n (x.outputsize - 1)
  | none => x.outputsize - 1

/-- All the program writes. -/
def written : Str := x.writes.flatten

/-- The loop of `full_read`, which keeps one byte for the terminating character. -/
def fullRead (output : Str) : Parent :=
  if output.length < x.outputsize - 1 then .reading output else .waiting (some output)

def start : Running p.Layout where
  parent := x.fullRead []
  layout := p.empty
  child := some (x.writes.map fun w => { bytes := w, atomic := decide (w.length ≤ pipeBuf) })

def step (s : Running p.Layout) : Action → Option (Running p.Layout)
  | .write n =>
      match s.child with
      | some (w :: ws) =>
          if w.need ≤ n ∧ n ≤ w.bytes.length then
            (p.write s.layout w.bytes.length n).map fun layout =>
              { s with
                pipe := s.pipe ++ w.bytes.take n
                layout
                child := some
                  (if n = w.bytes.length then ws else { w with bytes := w.bytes.drop n } :: ws) }
          else none
      | _ => none
  | .exit => if s.child = some [] then some { s with child := none } else none
  | .read n =>
      match s.parent with
      | .reading output =>
          if n = 0 then
            -- The end of the file: no one has the other end open.
            if s.pipe = [] ∧ s.child = none then some { s with parent := .waiting (some output) }
            else none
          else if n ≤ s.pipe.length ∧ output.length + n ≤ x.limit then
            some { s with
              parent := x.fullRead (output ++ s.pipe.take n)
              pipe := s.pipe.drop n
              layout := p.get s.layout n }
          else none
      | _ => none
  | .readFailure =>
      match s.parent with
      | .reading output =>
          if x.readFails = some output.length then
            -- "we already have some!"
            some { s with parent := .waiting (if output = [] then none else some output) }
          else none
      | _ => none
  | .waitpid =>
      match s.parent with
      | .waiting output =>
          if s.child = none then
            some { s with parent := .closing (output.elim .failed (.exited x.exitCode)) }
          else none
      | _ => none
  | .close =>
      match s.parent with
      | .closing result => some { s with parent := .returned result }
      | _ => none

/-- The program waits for room in the pipe. -/
def Blocked (s : Running p.Layout) : Prop :=
  ∃ w ws, s.child = some (w :: ws) ∧
    ∀ n, w.need ≤ n → n ≤ w.bytes.length → p.write s.layout w.bytes.length n = none

/-- The parent waits for the program, and the program for room that no one makes. -/
def Deadlocked (s : Running p.Layout) : Prop :=
  (∃ output, s.parent = .waiting output) ∧ Blocked p s

/-- In no run do the two wait for each other. -/
def DeadlockFree : Prop :=
  ∀ actions s, Actions.run (x.step p) (x.start p) actions = some s → ¬ Deadlocked p s

end Invocation

/-- What was read. -/
def Parent.taken : Parent → Str
  | reading output => output
  | waiting output => output.getD []
  | closing .failed => []
  | closing (.exited _ output) => output
  | returned .failed => []
  | returned (.exited _ output) => output

/-- What is not written yet. -/
def Running.left {L : Type} (s : Running L) : Str := ((s.child.getD []).map Write.bytes).flatten

/-- The parent has returned from `waitpid`. -/
def Parent.HasWaited : Parent → Prop
  | reading _ => False
  | waiting _ => False
  | closing _ => True
  | returned _ => True

/-- How far the parent is from its end. -/
def Parent.rank : Parent → Nat
  | reading _ => 3
  | waiting _ => 2
  | closing _ => 1
  | returned _ => 0

theorem Write.need_le (w : Write) : w.need ≤ w.bytes.length := by
  rw [Write.need]
  split
  · exact Nat.le_refl _
  · exact Nat.min_le_right _ _

namespace Invocation

variable {pipeBuf : Nat} {x : Invocation} {p : Pipe pipeBuf} {s t : Running p.Layout}

theorem limit_le : x.limit ≤ x.outputsize - 1 := by
  rw [limit]
  split
  · exact Nat.min_le_right _ _
  · exact Nat.le_refl _

theorem fullRead_cases (x : Invocation) (output : Str) :
    (output.length < x.outputsize - 1 ∧ x.fullRead output = .reading output) ∨
      (x.outputsize - 1 ≤ output.length ∧ x.fullRead output = .waiting (some output)) := by
  by_cases more : output.length < x.outputsize - 1
  · exact .inl ⟨more, if_pos more⟩
  · exact .inr ⟨Nat.not_lt.mp more, if_neg more⟩

theorem taken_fullRead (output : Str) : (x.fullRead output).taken = output := by
  obtain ⟨-, reads⟩ | ⟨-, waits⟩ := fullRead_cases x output
  · rw [reads]
    rfl
  · rw [waits]
    rfl

/-- What every run keeps. -/
structure Sound (x : Invocation) (s : Running p.Layout) : Prop where
  /-- Every byte was read, or is in the pipe, or is not written yet. -/
  books : s.parent.taken ++ s.pipe ++ s.left = x.written
  size : p.size s.layout = s.pipe.length
  bounded : s.parent.taken.length ≤ x.limit
  reading : ∀ output, s.parent = .reading output → output.length < x.outputsize - 1
  /-- Before its end, the parent stops reading at its limit only. -/
  waiting : ∀ output, s.parent = .waiting output → s.child ≠ none →
    x.limit ≤ (output.getD []).length
  waited : s.parent.HasWaited → s.child = none
  atomic : ∀ ws, s.child = some ws → ∀ w ∈ ws, w.atomic = true → w.bytes.length ≤ pipeBuf

/-- What can happen. -/
theorem step_cases {a : Action} (h : x.step p s a = some t) :
    (∃ n w ws layout, s.child = some (w :: ws) ∧ w.need ≤ n ∧ n ≤ w.bytes.length ∧
      p.write s.layout w.bytes.length n = some layout ∧
      t = { s with
        pipe := s.pipe ++ w.bytes.take n
        layout
        child := some
          (if n = w.bytes.length then ws else { w with bytes := w.bytes.drop n } :: ws) }) ∨
    (s.child = some [] ∧ t = { s with child := none }) ∨
    (∃ output, s.parent = .reading output ∧
      ((s.pipe = [] ∧ s.child = none ∧ t = { s with parent := .waiting (some output) }) ∨
        (∃ n, 0 < n ∧ n ≤ s.pipe.length ∧ output.length + n ≤ x.limit ∧
          t = { s with
            parent := x.fullRead (output ++ s.pipe.take n)
            pipe := s.pipe.drop n
            layout := p.get s.layout n }) ∨
        (x.readFails = some output.length ∧
          t = { s with parent := .waiting (if output = [] then none else some output) }))) ∨
    (∃ output, s.parent = .waiting output ∧ s.child = none ∧
      t = { s with parent := .closing (output.elim .failed (.exited x.exitCode)) }) ∨
    ∃ result, s.parent = .closing result ∧ t = { s with parent := .returned result } := by
  cases a with
  | write n =>
      refine .inl ?_
      simp only [step] at h
      split at h
      · next w ws hchild =>
          obtain ⟨⟨need, most⟩, ht⟩ := Option.ite_none_right_eq_some.mp h
          obtain ⟨layout, room, rfl⟩ := Option.map_eq_some_iff.mp ht
          exact ⟨n, w, ws, layout, hchild, need, most, room, rfl⟩
      · cases h
  | exit =>
      obtain ⟨done, ht⟩ := Option.ite_none_right_eq_some.mp h
      exact .inr (.inl ⟨done, (Option.some.inj ht).symm⟩)
  | read n =>
      refine .inr (.inr (.inl ?_))
      simp only [step] at h
      split at h
      · next output hparent =>
          refine ⟨output, hparent, ?_⟩
          split at h
          · obtain ⟨⟨empty, exited⟩, ht⟩ := Option.ite_none_right_eq_some.mp h
            exact .inl ⟨empty, exited, (Option.some.inj ht).symm⟩
          · next some =>
              obtain ⟨⟨there, fits⟩, ht⟩ := Option.ite_none_right_eq_some.mp h
              exact .inr (.inl ⟨n, Nat.pos_of_ne_zero some, there, fits, (Option.some.inj ht).symm⟩)
      · cases h
  | readFailure =>
      refine .inr (.inr (.inl ?_))
      simp only [step] at h
      split at h
      · next output hparent =>
          obtain ⟨fails, ht⟩ := Option.ite_none_right_eq_some.mp h
          exact ⟨output, hparent, .inr (.inr ⟨fails, (Option.some.inj ht).symm⟩)⟩
      · cases h
  | waitpid =>
      simp only [step] at h
      split at h
      · next output hparent =>
          obtain ⟨exited, ht⟩ := Option.ite_none_right_eq_some.mp h
          exact .inr (.inr (.inr (.inl ⟨output, hparent, exited, (Option.some.inj ht).symm⟩)))
      · cases h
  | close =>
      simp only [step] at h
      split at h
      · next result hparent =>
          exact .inr (.inr (.inr (.inr ⟨result, hparent, (Option.some.inj h).symm⟩)))
      · cases h

theorem fullRead_reading {output output' : Str} (h : x.fullRead output = .reading output') :
    output' = output ∧ output.length < x.outputsize - 1 := by
  obtain ⟨more, reads⟩ | ⟨-, waits⟩ := fullRead_cases x output
  · exact ⟨Parent.reading.inj (h.symm.trans reads), more⟩
  · cases h.symm.trans waits

theorem fullRead_waiting {output : Str} {output' : Option Str}
    (h : x.fullRead output = .waiting output') :
    output' = some output ∧ x.outputsize - 1 ≤ output.length := by
  obtain ⟨-, reads⟩ | ⟨full, waits⟩ := fullRead_cases x output
  · cases h.symm.trans reads
  · exact ⟨Parent.waiting.inj (h.symm.trans waits), full⟩

theorem not_hasWaited_fullRead (output : Str) : ¬ (x.fullRead output).HasWaited := by
  obtain ⟨-, reads⟩ | ⟨-, waits⟩ := fullRead_cases x output
  · rw [reads]
    exact id
  · rw [waits]
    exact id

theorem sound_start : Sound x (x.start p) where
  books := by simp [start, taken_fullRead, Running.left, written, Function.comp_def]
  size := p.size_empty
  bounded := by
    rw [start, taken_fullRead]
    exact Nat.zero_le _
  reading output h := by
    obtain ⟨rfl, more⟩ := fullRead_reading h
    exact more
  waiting output h _ := by
    obtain ⟨rfl, full⟩ := fullRead_waiting h
    exact limit_le.trans full
  waited h := absurd h (not_hasWaited_fullRead _)
  atomic ws h w hw isAtomic := by
    obtain rfl := Option.some.inj h
    obtain ⟨bytes, -, rfl⟩ := List.mem_map.mp hw
    exact of_decide_eq_true isAtomic

/-- What a `write` leaves to be written. -/
theorem left_write (w : Write) (ws : List Write) (n : Nat) :
    w.bytes.take n ++
        (((if n = w.bytes.length then ws else { w with bytes := w.bytes.drop n } :: ws).map
          Write.bytes).flatten) =
      w.bytes ++ (ws.map Write.bytes).flatten := by
  split
  · next all => rw [all, List.take_length]
  · rw [List.map_cons, List.flatten_cons, ← List.append_assoc, List.take_append_drop]

theorem Sound.step_write (h : Sound x s) {n : Nat} {w : Write} {ws : List Write}
    {layout : p.Layout} (hchild : s.child = some (w :: ws)) (most : n ≤ w.bytes.length)
    (room : p.write s.layout w.bytes.length n = some layout) :
    Sound x { s with
      pipe := s.pipe ++ w.bytes.take n
      layout
      child := some
        (if n = w.bytes.length then ws else { w with bytes := w.bytes.drop n } :: ws) } where
  books := by
    have before := h.books
    simp only [Running.left, hchild, Option.getD_some, List.map_cons, List.flatten_cons] at before ⊢
    rw [← before, ← left_write w ws n]
    simp only [List.append_assoc]
  size := by
    rw [List.length_append, List.length_take, Nat.min_eq_left most, ← h.size]
    exact Pipe.size_write room
  bounded := h.bounded
  reading := h.reading
  waiting output hparent _ := h.waiting output hparent (by simp [hchild])
  waited hparent := by
    have exited := h.waited hparent
    rw [hchild] at exited
    cases exited
  atomic ws' hws v hv isAtomic := by
    have whole := h.atomic (w :: ws) hchild
    obtain rfl := Option.some.inj hws
    split at hv
    · exact whole v (List.mem_cons_of_mem w hv) isAtomic
    · obtain rfl | hv := List.mem_cons.mp hv
      · rw [List.length_drop]
        exact (Nat.sub_le _ _).trans (whole w List.mem_cons_self isAtomic)
      · exact whole v (List.mem_cons_of_mem w hv) isAtomic

theorem Sound.step_read (h : Sound x s) {output : Str} {n : Nat}
    (hparent : s.parent = .reading output) (there : n ≤ s.pipe.length)
    (fits : output.length + n ≤ x.limit) :
    Sound x { s with
      parent := x.fullRead (output ++ s.pipe.take n)
      pipe := s.pipe.drop n
      layout := p.get s.layout n } where
  books := by
    have before := h.books
    rw [hparent] at before
    rw [taken_fullRead, List.append_assoc output, List.take_append_drop]
    exact before
  size := by
    rw [List.length_drop]
    exact Nat.eq_sub_of_add_eq ((p.size_get (h.size.symm ▸ there)).trans h.size)
  bounded := by
    rw [taken_fullRead, List.length_append, List.length_take, Nat.min_eq_left there]
    exact fits
  reading output' hparent' := by
    obtain ⟨rfl, more⟩ := fullRead_reading hparent'
    exact more
  waiting output' hparent' _ := by
    obtain ⟨rfl, full⟩ := fullRead_waiting hparent'
    exact limit_le.trans full
  waited hparent' := absurd hparent' (not_hasWaited_fullRead _)
  atomic := h.atomic

/-- `full_read` ends before its limit. -/
theorem Sound.step_wait (h : Sound x s) {output : Str} {output' : Option Str}
    (hparent : s.parent = .reading output) (same : output'.getD [] = output)
    (why : s.child ≠ none → x.limit ≤ output.length) :
    Sound x { s with parent := .waiting output' } where
  books := by
    have before := h.books
    rw [hparent] at before
    show output'.getD [] ++ s.pipe ++ s.left = x.written
    rw [same]
    exact before
  size := h.size
  bounded := by
    have before := h.bounded
    rw [hparent] at before
    show (output'.getD []).length ≤ x.limit
    rw [same]
    exact before
  reading := nofun
  waiting output'' hparent' alive := by
    obtain rfl := Parent.waiting.inj hparent'
    rw [same]
    exact why alive
  waited := nofun
  atomic := h.atomic

theorem Sound.step {a : Action} (h : Sound x s) (hstep : x.step p s a = some t) : Sound x t := by
  obtain ⟨n, w, ws, layout, hchild, -, most, room, rfl⟩ | ⟨hchild, rfl⟩ |
    ⟨output, hparent, ⟨empty, exited, rfl⟩ | ⟨n, -, there, fits, rfl⟩ | ⟨fails, rfl⟩⟩ |
    ⟨output, hparent, exited, rfl⟩ | ⟨result, hparent, rfl⟩ := step_cases hstep
  · exact h.step_write hchild most room
  · refine ⟨?_, h.size, h.bounded, h.reading, fun _ _ alive => absurd rfl alive, fun _ => rfl,
      nofun⟩
    have before := h.books
    rw [Running.left, hchild] at before
    exact before
  · exact h.step_wait hparent rfl fun alive => absurd exited alive
  · exact h.step_read hparent there fits
  · refine h.step_wait hparent ?_ fun _ => ?_
    · split
      · next nothing => rw [nothing, Option.getD_none]
      · rfl
    · rw [limit, fails]
      exact Nat.min_le_left _ _
  · have taken : (Parent.closing (output.elim .failed (.exited x.exitCode))).taken =
        s.parent.taken := by
      rw [hparent]
      cases output <;> rfl
    refine ⟨?_, h.size, ?_, nofun, nofun, fun _ => exited, h.atomic⟩
    · show (Parent.closing _).taken ++ s.pipe ++ s.left = x.written
      rw [taken]
      exact h.books
    · show (Parent.closing _).taken.length ≤ x.limit
      rw [taken]
      exact h.bounded
  · have taken : (Parent.returned result).taken = s.parent.taken := by
      rw [hparent]
      cases result <;> rfl
    refine ⟨?_, h.size, ?_, nofun, nofun, fun _ => h.waited (by rw [hparent]; trivial), h.atomic⟩
    · show (Parent.returned result).taken ++ s.pipe ++ s.left = x.written
      rw [taken]
      exact h.books
    · show (Parent.returned result).taken.length ≤ x.limit
      rw [taken]
      exact h.bounded

theorem Sound.run {actions : List Action}
    (done : Actions.run (x.step p) (x.start p) actions = some s) :
    Sound x s :=
  Actions.run_invariant (fun _ _ _ => Sound.step) sound_start done

/-! ## Every run comes to an end -/

/-- What is still to be done. A byte that is written is still to be read. -/
def work {L : Type} (s : Running L) : Nat :=
  (s.child.elim 0 fun ws => 1 + (ws.map fun w => 2 * w.bytes.length + 1).sum) + s.pipe.length +
    s.parent.rank

theorem rank_fullRead_le (output : Str) : (x.fullRead output).rank ≤ 3 := by
  obtain ⟨-, reads⟩ | ⟨-, waits⟩ := fullRead_cases x output
  · rw [reads]
    exact Nat.le_refl 3
  · rw [waits]
    exact Nat.le_succ 2

theorem work_step {a : Action} (hstep : x.step p s a = some t) : work t < work s := by
  obtain ⟨n, w, ws, layout, hchild, need, most, room, rfl⟩ | ⟨hchild, rfl⟩ |
    ⟨output, hparent, ⟨empty, exited, rfl⟩ | ⟨n, some, there, fits, rfl⟩ | ⟨fails, rfl⟩⟩ |
    ⟨output, hparent, exited, rfl⟩ | ⟨result, hparent, rfl⟩ := step_cases hstep
  · simp only [work, hchild, Option.elim_some, List.map_cons, List.sum_cons, List.length_append,
      List.length_take]
    split
    · omega
    · next rest =>
        have begun : 0 < n := by
          rw [Write.need] at need
          split at need <;> omega
        simp only [List.map_cons, List.sum_cons, List.length_drop]
        omega
  · simp only [work, hchild, Option.elim_some, Option.elim_none, List.map_nil, List.sum_nil]
    omega
  · simp only [work, hparent, Parent.rank]
    omega
  · have rank := rank_fullRead_le (x := x) (output ++ s.pipe.take n)
    simp only [work, hparent, Parent.rank, List.length_drop] at rank ⊢
    omega
  · simp only [work, hparent, Parent.rank]
    omega
  · simp only [work, hparent, Parent.rank]
    omega
  · simp only [work, hparent, Parent.rank]
    omega

/-- A `write` for which there is room is possible. -/
theorem possible_write {w : Write} {ws : List Write} {n : Nat} (hchild : s.child = some (w :: ws))
    (need : w.need ≤ n) (most : n ≤ w.bytes.length)
    (room : p.write s.layout w.bytes.length n ≠ none) : x.step p s (.write n) ≠ none := by
  simp only [step, hchild]
  rw [if_pos ⟨need, most⟩]
  exact mt Option.map_eq_none_iff.mp room

/-- So much of a `write` goes in where the pipe says that it goes on. -/
theorem Sound.exists_write (h : Sound x s) {w : Write} {ws : List Write}
    (hchild : s.child = some (w :: ws))
    (on : 0 < w.bytes.length → GoesOn pipeBuf (p.put s.layout w.bytes.length) w.bytes.length) :
    ∃ n, w.need ≤ n ∧ n ≤ w.bytes.length ∧ p.write s.layout w.bytes.length n ≠ none := by
  by_cases nothing : w.bytes.length = 0
  · refine ⟨0, w.need_le.trans nothing.le, Nat.zero_le _, ?_⟩
    rw [Pipe.write, if_pos rfl]
    exact Option.some_ne_none _
  · obtain ⟨n, some, most, whole, taken⟩ := on (Nat.pos_of_ne_zero nothing)
    refine ⟨n, ?_, most, Pipe.write_ne_none some taken⟩
    rw [Write.need]
    split
    · next isAtomic =>
        exact (whole (h.atomic (w :: ws) hchild w List.mem_cons_self isAtomic)).ge
    · omega

/-- While the parent reads, a `read` that has come to its limit fails. -/
theorem Sound.below_limit (h : Sound x s) {output : Str} (hparent : s.parent = .reading output)
    (works : x.readFails ≠ some output.length) : output.length + 1 ≤ x.limit := by
  have more := h.reading output hparent
  have bounded := h.bounded
  rw [hparent] at bounded
  refine Nat.lt_of_le_of_ne bounded fun full => ?_
  change output.length = x.limit at full
  rw [limit] at full
  split at full
  · next n hfails =>
      obtain least | least : output.length = n ∨ output.length = x.outputsize - 1 := by omega
      · exact works (least ▸ hfails)
      · omega
  · omega

/-- While the parent reads, it can go on, or the program can. -/
theorem Sound.possible_reading (h : Sound x s) {output : Str}
    (hparent : s.parent = .reading output) :
    ∃ a, x.step p s a ≠ none := by
  by_cases fails : x.readFails = some output.length
  · refine ⟨.readFailure, ?_⟩
    simp only [Invocation.step, hparent]
    rw [if_pos fails]
    exact Option.some_ne_none _
  by_cases empty : s.pipe = []
  · cases hchild : s.child with
    | none =>
        refine ⟨.read 0, ?_⟩
        simp only [Invocation.step, hparent]
        rw [if_pos trivial, if_pos ⟨empty, hchild⟩]
        exact Option.some_ne_none _
    | some ws =>
        cases ws with
        | nil =>
            refine ⟨.exit, ?_⟩
            simp only [Invocation.step]
            rw [if_pos hchild]
            exact Option.some_ne_none _
        | cons w ws =>
            have nothing : p.size s.layout = 0 := by rw [h.size, empty, List.length_nil]
            obtain ⟨n, need, most, room⟩ := h.exists_write hchild (p.put_empty nothing)
            exact ⟨.write n, possible_write hchild need most room⟩
  · refine ⟨.read 1, ?_⟩
    simp only [Invocation.step, hparent]
    rw [if_neg Nat.one_ne_zero, if_pos ⟨List.length_pos_iff.mpr empty, h.below_limit hparent fails⟩]
    exact Option.some_ne_none _

/-- Where nothing is possible, the parent has returned, or the two wait for each other. -/
theorem Sound.stuck (h : Sound x s) (stuck : ∀ a, x.step p s a = none) :
    (∃ result, s.parent = .returned result) ∨ Deadlocked p s := by
  cases hparent : s.parent with
  | reading output =>
      obtain ⟨a, possible⟩ := h.possible_reading hparent
      exact absurd (stuck a) possible
  | waiting output =>
      refine .inr ⟨⟨output, hparent⟩, ?_⟩
      cases hchild : s.child with
      | none =>
          have possible := stuck .waitpid
          simp only [Invocation.step, hparent, if_pos hchild] at possible
          cases possible
      | some ws =>
          cases ws with
          | nil =>
              have possible := stuck .exit
              simp only [Invocation.step, if_pos hchild] at possible
              cases possible
          | cons w ws =>
              refine ⟨w, ws, hchild, fun n need most => by_contra fun room => ?_⟩
              exact possible_write hchild need most room (stuck _)
  | closing result =>
      have possible := stuck .close
      simp only [Invocation.step, hparent] at possible
      cases possible
  | returned result => exact .inl ⟨result, rfl⟩

/-- A deadlock lasts. -/
theorem Deadlocked.stuck (h : Deadlocked p s) (a : Action) : x.step p s a = none := by
  obtain ⟨⟨output, hparent⟩, w, ws, hchild, full⟩ := h
  cases next : x.step p s a with
  | none => rfl
  | some t =>
      obtain ⟨n, w', ws', layout, hchild', need, most, room, -⟩ | ⟨hchild', -⟩ | ⟨_, hparent', -⟩ |
        ⟨_, -, hchild', -⟩ | ⟨_, hparent', -⟩ := step_cases next
      · cases hchild.symm.trans hchild'
        cases room.symm.trans (full n need most)
      · cases hchild.symm.trans hchild'
      · cases hparent.symm.trans hparent'
      · cases hchild.symm.trans hchild'
      · cases hparent.symm.trans hparent'

/-! ## Deadlocks -/

/-- Where the two wait for each other, the buffer is full, and the pipe holds all that it grants. -/
theorem Sound.overflows (h : Sound x s) (deadlocked : Deadlocked p s) {room : Nat}
    (grants : p.Grants room) : x.limit + room < x.written.length := by
  obtain ⟨⟨output, hparent⟩, w, ws, hchild, full⟩ := deadlocked
  have waits : room < s.pipe.length + w.bytes.length := by
    refine Nat.lt_of_not_le fun enough => ?_
    rw [← h.size] at enough
    obtain ⟨n, need, most, taken⟩ :=
      h.exists_write hchild fun some => grants s.layout w.bytes.length some enough
    exact taken (full n need most)
  have books := congrArg List.length h.books
  have whole := h.waiting output hparent (by simp [hchild])
  rw [hparent, Running.left, hchild] at books
  simp only [Parent.taken, Option.getD_some, List.map_cons, List.flatten_cons,
    List.length_append] at books
  omega

/-- A parent that has returned has met a program that wrote no more than the buffer and the pipe
hold. -/
theorem Sound.fits (h : Sound x s) (waited : s.parent.HasWaited) {capacity : Nat}
    (holds : p.HoldsAtMost capacity) : x.written.length ≤ x.limit + capacity := by
  have books := congrArg List.length h.books
  have bounded := h.bounded
  have most := holds s.layout
  rw [h.size] at most
  rw [Running.left, h.waited waited] at books
  simp only [Option.getD_none, List.map_nil, List.flatten_nil, List.length_append,
    List.length_nil] at books
  omega

/-- Every state of a run leads to the return of the parent or to a deadlock. -/
theorem exists_end (h : Sound x s) : ∃ actions t, Actions.run (x.step p) s actions = some t ∧
    Sound x t ∧ ((∃ result, t.parent = .returned result) ∨ Deadlocked p t) := by
  obtain ⟨actions, t, done, sound, stuck⟩ :=
    Actions.exists_run_stuck work (fun _ _ _ _ => work_step) (fun _ _ _ => Sound.step) h
  exact ⟨actions, t, done, sound, sound.stuck stuck⟩

/-- A program that writes more than the buffer and the pipe hold never comes to its end. -/
theorem deadlock_of_overflow (h : Sound x s) {capacity : Nat} (holds : p.HoldsAtMost capacity)
    (more : x.limit + capacity < x.written.length) :
    ∃ actions t, Actions.run (x.step p) s actions = some t ∧ Deadlocked p t := by
  obtain ⟨actions, t, done, sound, ⟨result, returned⟩ | deadlocked⟩ := exists_end h
  · have fits := sound.fits (by rw [returned]; trivial) holds
    omega
  · exact ⟨actions, t, done, deadlocked⟩

/-- What `invoke_exec` reports is the exit code, and of the output what was read of it; there is
room for the terminating character. -/
theorem Sound.output (h : Sound x s) {code : Nat} {output : Str}
    (returned : s.parent = .returned (.exited code output)) :
    output <+: x.written ∧ output.length < x.outputsize := by
  have books := h.books
  have bounded := h.bounded
  have least := limit_le (x := x)
  have positive := x.outputsize_pos
  rw [returned] at books bounded
  refine ⟨⟨s.pipe ++ s.left, ?_⟩, ?_⟩
  · rw [← List.append_assoc]
    exact books
  · change output.length ≤ x.limit at bounded
    omega

/-- If it writes no more than the buffer takes and the pipe grants, the parent returns in the end,
whatever happened before. -/
theorem return_of_fits (h : Sound x s) {room : Nat} (grants : p.Grants room)
    (less : x.written.length ≤ x.limit + room) :
    ∃ actions t result, Actions.run (x.step p) s actions = some t ∧
      t.parent = .returned result ∧ ∀ code output, result = .exited code output →
        output <+: x.written ∧ output.length < x.outputsize := by
  obtain ⟨actions, t, done, sound, ⟨result, returned⟩ | deadlocked⟩ := exists_end h
  · refine ⟨actions, t, result, done, returned, fun code output same => ?_⟩
    exact sound.output (same ▸ returned)
  · have more := sound.overflows deadlocked grants
    omega

theorem deadlockFree_of_grants {room : Nat} (grants : p.Grants room)
    (less : x.written.length ≤ x.limit + room) : x.DeadlockFree p := by
  intro actions s done deadlocked
  have more := (Sound.run done).overflows deadlocked grants
  omega

theorem not_deadlockFree_of_holds {capacity : Nat} (holds : p.HoldsAtMost capacity)
    (more : x.limit + capacity < x.written.length) : ¬ x.DeadlockFree p := by
  intro free
  obtain ⟨actions, s, done, deadlocked⟩ := deadlock_of_overflow sound_start holds more
  exact free actions s done deadlocked

/-- On every pipe that grants so much room, the parent and the program cannot wait for each other
exactly if the program writes no more than the buffer takes and that room. Whatever the pipe, they
can if it writes more than the buffer takes and the pipe can hold. -/
theorem deadlockFree_iff (x : Invocation) {pipeBuf room : Nat} (positive : 0 < room)
    (pipeBuf_le : pipeBuf ≤ room) :
    ((∀ p : Pipe pipeBuf, p.Grants room → x.DeadlockFree p) ↔
      x.written.length ≤ x.limit + room) ∧
    ∀ (p : Pipe pipeBuf) capacity, p.HoldsAtMost capacity →
      x.limit + capacity < x.written.length → ¬ x.DeadlockFree p := by
  refine ⟨⟨fun free => Nat.le_of_not_lt fun more => ?_,
    fun less p grants => deadlockFree_of_grants grants less⟩,
    fun p capacity holds more => not_deadlockFree_of_holds holds more⟩
  exact not_deadlockFree_of_holds Pipe.bytes_holdsAtMost more
    (free (Pipe.bytes room positive pipeBuf_le) Pipe.bytes_grants)

/-- The pipe of a usual kernel: 16 pages of 4096 bytes. -/
def usualPipe : Pipe 4096 := Pipe.pages 16 4096 (by decide) (by decide) (Nat.le_refl _)

/-- A title of one byte more than the buffer and a usual pipe take. -/
def longTitle : Invocation where
  outputsize := bufferSize
  outputsize_pos := by decide
  writes := [List.replicate 66048 'a']

/-- A title that takes more than half of a usual pipe, written in two parts. -/
def twoPartTitle : Invocation where
  outputsize := bufferSize
  outputsize_pos := by decide
  writes := [List.replicate 2049 'a', List.replicate 31238 'a']

theorem length_written_longTitle : longTitle.written.length = 66048 := by
  simp only [longTitle, written, List.flatten_cons, List.flatten_nil, List.append_nil,
    List.length_replicate]

theorem length_written_twoPartTitle : twoPartTitle.written.length = 511 + 32776 := by
  simp only [twoPartTitle, written, List.flatten_cons, List.flatten_nil, List.append_nil,
    List.length_append, List.length_replicate]

theorem deadlockFree_iff_usualPipe :
    twoPartTitle.DeadlockFree usualPipe ∧ ¬ longTitle.DeadlockFree usualPipe := by
  constructor
  · refine (@deadlockFree_iff twoPartTitle 4096 32776 (by decide) (by decide)).1.mpr ?_ usualPipe
      Pipe.pages_grants
    rw [length_written_twoPartTitle]
    exact Nat.le_refl _
  · refine (@deadlockFree_iff longTitle 4096 32776 (by decide) (by decide)).2 usualPipe _
      Pipe.pages_holdsAtMost ?_
    rw [length_written_longTitle]
    show 511 + 65536 < 66048
    omega

theorem longTitle_deadlocks : ¬ longTitle.DeadlockFree usualPipe := by
  refine not_deadlockFree_of_holds Pipe.pages_holdsAtMost ?_
  rw [length_written_longTitle]
  show 511 + 65536 < 66048
  omega

end Invocation

end Baseimage.LogMonitor
