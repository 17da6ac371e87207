import Baseimage.Cinit.ReadLines
import Baseimage.Run.Actions

/-!
# The logger thread of a service

A service writes to its pseudo-terminal, the logger thread reads the master side in `read_lines`,
and the supervisor reaps the service and raises `logger_exit`. The three act in any order. Of the
two descriptors `log_prefixer` passes to `read_lines`, the second is -1 and is ignored by every
loop, so the session below has a single read state. Runs are those where neither the allocation
of the read states nor `poll` nor `read` fails.

The thread returns when the other end has been closed, and it also returns when it finds
`logger_exit` raised. The second return does not look at what is still queued or kept in the
buffer.
-/

namespace Baseimage.Cinit.Logger

open CString

/-- Where the logger thread stands in the loop of `read_lines`. -/
inductive Phase where
  /-- About to call `poll`. -/
  | polling
  /-- `poll` returned 0: about to ask the exit callback. -/
  | timedOut
  /-- `POLLIN` is set. -/
  | readable
  /-- `POLLHUP` is set and `POLLIN` is not. -/
  | hangup
  /-- The round is over: about to check whether all is done, then to ask the exit callback. -/
  | checking
  | returned
  deriving DecidableEq, Repr

structure Session where
  /-- What the service wrote and the logger did not read yet. -/
  queue : Str := []
  exited : Bool := false
  loggerExit : Bool := false
  phase : Phase := .polling
  rstate : ReadState := {}
  /-- All that the service wrote, and the lines the log callback was called with. -/
  written : Str := []
  delivered : List Str := []

inductive Action where
  /-- The service writes. -/
  | write (bytes : Str)
  /-- The service exits. -/
  | exit
  /-- `handle_killed` raises `logger_exit`, once the service has been reaped. -/
  | raiseExit
  /-- The outcomes of `poll`. -/
  | pollInterrupted
  | pollTimeout
  | pollReadable
  | pollHangup
  /-- A `read` that returns `n` bytes, or a flush when the buffer is full. -/
  | read (n : Nat)
  | readInterrupted
  /-- A `read` that returns 0. -/
  | readEof
  | closeHangup
  /-- The end of a round, or the test after a timeout. -/
  | check
  deriving DecidableEq, Repr

/-- The callback has been called with some lines, and the round of the descriptor is over. -/
def Session.deliver (c : Session) (result : List Str × ReadState) : Session :=
  { c with delivered := c.delivered ++ result.1, rstate := result.2, phase := .checking }

/-- One action; `none` when it is not possible. -/
def step (c : Session) : Action → Option Session
  | .write bytes =>
      if c.exited = false then
        some { c with queue := c.queue ++ bytes, written := c.written ++ bytes }
      else none
  | .exit => if c.exited = false then some { c with exited := true } else none
  | .raiseExit =>
      if c.exited = true ∧ c.loggerExit = false then some { c with loggerExit := true } else none
  | .pollInterrupted => if c.phase = .polling then some c else none
  | .pollTimeout =>
      if c.phase = .polling ∧ c.queue = [] then some { c with phase := .timedOut } else none
  | .pollReadable =>
      if c.phase = .polling ∧ c.queue ≠ [] then some { c with phase := .readable } else none
  | .pollHangup =>
      if c.phase = .polling ∧ c.queue = [] ∧ c.exited = true then
        some { c with phase := .hangup }
      else none
  | .read n =>
      if c.phase = .readable then
        if c.rstate.maxToRead = 0 then some (c.deliver (flushLine c.rstate))
        else if 0 < n ∧ n ≤ c.rstate.maxToRead ∧ n ≤ c.queue.length then
          some ({ c with queue := c.queue.drop n }.deliver
            (received c.rstate (c.queue.take n)))
        else none
      else none
  | .readInterrupted =>
      if c.phase = .readable ∧ c.rstate.maxToRead ≠ 0 then some { c with phase := .checking }
      else none
  | .readEof =>
      if c.phase = .readable ∧ c.rstate.maxToRead ≠ 0 ∧ c.queue = [] ∧ c.exited = true then
        some (c.deliver (endOfFile c.rstate))
      else none
  | .closeHangup =>
      if c.phase = .hangup then some (c.deliver (endOfFile c.rstate)) else none
  | .check =>
      match c.phase with
      | .timedOut => some { c with phase := if c.loggerExit then .returned else .polling }
      | .checking =>
          some { c with phase := if c.rstate.eof || c.loggerExit then .returned else .polling }
      | _ => none

/-- The logger thread has just been started. -/
def start : Session := {}

/-- Everything the service wrote was handed to the callback, terminators and empty lines
aside. -/
def HandedOver (c : Session) : Prop := c.delivered.flatten = textOf c.written

/-- Nothing but terminators is left in the buffer and in the queue. -/
def Drained (c : Session) : Prop := c.rstate.buf = [] ∧ textOf c.queue = []

/-- When the logger finds `logger_exit` raised, nothing is left to hand over. -/
def ExitsDrained (c : Session) (a : Action) : Prop :=
  a = .check → c.loggerExit = true → Drained c

instance (c : Session) : Decidable (HandedOver c) :=
  inferInstanceAs (Decidable (_ = _))

instance (c : Session) : Decidable (Drained c) := inferInstanceAs (Decidable (_ ∧ _))

instance (c : Session) (a : Action) : Decidable (ExitsDrained c a) :=
  inferInstanceAs (Decidable (_ → _ → _))

/-- What the parties keep at every moment of the run. -/
structure Inv (c : Session) : Prop where
  held_open : Lines.Open isEol c.rstate.buf
  /-- As long as the service writes no NUL, what is handed over, kept and queued is together
  what it wrote. -/
  conserved : NulFree c.written →
    c.delivered.flatten ++ c.rstate.buf ++ textOf c.queue = textOf c.written
  visible : NulFree c.delivered.flatten
  reaped : c.loggerExit = true → c.exited = true
  hangup : c.phase = .hangup → c.queue = [] ∧ c.exited = true
  /-- At the end of the stream the round is over and nothing is left. -/
  eof : c.rstate.eof = true →
    c.rstate.buf = [] ∧ c.queue = [] ∧ c.exited = true ∧
      (c.phase = .checking ∨ c.phase = .returned)
  returned : c.phase = .returned → c.rstate.eof = true ∨ c.loggerExit = true

theorem inv_start : Inv start := by
  constructor <;> simp [start, NulFree]

/-- While the service writes no NUL, none is kept or queued. -/
theorem Inv.nulFree_left {c : Session} (inv : Inv c) (h : NulFree c.written) :
    NulFree c.rstate.buf ∧ NulFree c.queue := by
  have text : NulFree (textOf c.written) := fun member => h (List.mem_of_mem_filter member)
  rw [← inv.conserved h] at text
  obtain ⟨front, queued⟩ := nulFree_append.mp text
  refine ⟨(nulFree_append.mp front).2, ?_⟩
  intro member
  exact queued (List.mem_filter.mpr ⟨member, by decide⟩)

/-- The session after a round that called back with some lines, up to the end of the stream. -/
theorem inv_deliver {c : Session} {result : List Str × ReadState} (bytes : Str) {rest : Str}
    (inv : Inv c) (hqueue : c.queue = bytes ++ rest) (hopen : Lines.Open isEol result.2.buf)
    (conserved : NulFree c.rstate.buf → NulFree bytes →
      result.1.flatten ++ result.2.buf = c.rstate.buf ++ textOf bytes)
    (visible : NulFree result.1.flatten)
    (eof : result.2.eof = true → result.2.buf = [] ∧ rest = [] ∧ c.exited = true) :
    Inv ({ c with queue := rest }.deliver result) := by
  exact
    { held_open := hopen
      conserved := by
        intro h
        obtain ⟨hbuf, hleft⟩ := inv.nulFree_left h
        have round := conserved hbuf (nulFree_append.mp (hqueue ▸ hleft)).1
        have before := inv.conserved h
        rw [hqueue, textOf_append, ← List.append_assoc] at before
        simp only [Session.deliver, List.flatten_append]
        rw [← before, List.append_assoc c.delivered.flatten, round]
        simp
      visible := by
        simp only [Session.deliver, List.flatten_append]
        exact nulFree_append.mpr ⟨inv.visible, visible⟩
      reaped := inv.reaped
      hangup := fun h => absurd h (by simp [Session.deliver])
      eof := by
        intro h
        obtain ⟨hbuf, hrest, hexited⟩ := eof h
        exact ⟨hbuf, hrest, hexited, Or.inl rfl⟩
      returned := fun h => absurd h (by simp [Session.deliver]) }

/-- The logger moves on in its loop, with the stream still open. -/
theorem inv_move {c : Session} {phase : Phase} (inv : Inv c) (hopen : ¬ c.rstate.eof = true)
    (hangup : phase = .hangup → c.queue = [] ∧ c.exited = true)
    (returned : phase = .returned → c.loggerExit = true) : Inv { c with phase := phase } :=
  { inv with
    hangup := hangup
    eof := fun h => absurd h hopen
    returned := fun h => Or.inr (returned h) }

/-- In the other phases the stream is still open. -/
theorem Inv.stream_open {c : Session} (inv : Inv c) (hchecking : c.phase ≠ .checking)
    (hreturned : c.phase ≠ .returned) : ¬ c.rstate.eof = true := by
  intro h
  rcases (inv.eof h).2.2.2 with checking | returned
  · exact hchecking checking
  · exact hreturned returned

theorem inv_write {c c' : Session} {bytes : Str} (inv : Inv c)
    (hstep : step c (.write bytes) = some c') : Inv c' := by
  simp only [step, Option.ite_none_right_eq_some, Option.some.injEq] at hstep
  obtain ⟨alive, rfl⟩ := hstep
  have notExited : ¬ c.exited = true := by simp [alive]
  exact
    { inv with
      conserved := by
        intro h
        have before := inv.conserved (nulFree_append.mp h).1
        simp only [textOf_append, ← List.append_assoc, before]
      hangup := fun h => absurd (inv.hangup h).2 notExited
      eof := fun h => absurd (inv.eof h).2.2.1 notExited }

/-- A round that reads some bytes, or flushes a line that is too long. -/
theorem inv_read {c c' : Session} {n : Nat} (inv : Inv c)
    (hstep : step c (.read n) = some c') : Inv c' := by
  simp only [step, Option.ite_none_right_eq_some] at hstep
  obtain ⟨hphase, hstep⟩ := hstep
  have notEof := inv.stream_open (by simp [hphase]) (by simp [hphase])
  split at hstep
  · obtain rfl := Option.some.inj hstep
    refine inv_deliver [] inv rfl Lines.open_nil ?_ ?_ (fun h => absurd h notEof)
    · intro hbuf _
      simp [flushLine, ofBuffer_of_nulFree hbuf]
    · simpa [flushLine] using nulFree_ofBuffer c.rstate.buf
  · rw [Option.ite_none_right_eq_some] at hstep
    obtain ⟨-, hstep⟩ := hstep
    obtain rfl := Option.some.inj hstep
    refine inv_deliver (c.queue.take n) inv (List.take_append_drop _ _).symm
      (received_open inv.held_open) (received_conserves inv.held_open) ?_
      (fun h => absurd h notEof)
    simp only [received, takeLines_eq_feed]
    exact nulFree_calledLines _

/-- The end of the stream: the queue is empty, and the bytes kept are handed over. -/
theorem inv_endOfFile {c : Session} (inv : Inv c) (hqueue : c.queue = [])
    (hexited : c.exited = true) : Inv (c.deliver (endOfFile c.rstate)) := by
  have visible : NulFree (endOfFile c.rstate).1.flatten := by
    simp only [endOfFile]
    split
    · simp [NulFree]
    · simpa using nulFree_ofBuffer c.rstate.buf
  have kept := inv_deliver [] inv (List.nil_append c.queue).symm
    (Lines.open_nil : Lines.Open isEol (endOfFile c.rstate).2.buf)
    (by
      intro hbuf _
      rw [endOfFile_conserves hbuf]
      simp [endOfFile])
    visible (fun _ => ⟨rfl, hqueue, hexited⟩)
  exact kept

/-- Every action keeps the invariant. -/
theorem inv_step {c c' : Session} {a : Action} (inv : Inv c) (hstep : step c a = some c') :
    Inv c' := by
  cases a with
  | write bytes => exact inv_write inv hstep
  | read n => exact inv_read inv hstep
  | exit =>
      simp only [step, Option.ite_none_right_eq_some, Option.some.injEq] at hstep
      obtain ⟨-, rfl⟩ := hstep
      exact
        { inv with
          reaped := fun _ => rfl
          hangup := fun h => ⟨(inv.hangup h).1, rfl⟩
          eof := fun h => ⟨(inv.eof h).1, (inv.eof h).2.1, rfl, (inv.eof h).2.2.2⟩ }
  | raiseExit =>
      simp only [step, Option.ite_none_right_eq_some, Option.some.injEq] at hstep
      obtain ⟨⟨hexited, -⟩, rfl⟩ := hstep
      exact { inv with reaped := fun _ => hexited, returned := fun _ => Or.inr rfl }
  | pollInterrupted =>
      simp only [step, Option.ite_none_right_eq_some, Option.some.injEq] at hstep
      obtain ⟨-, rfl⟩ := hstep
      exact inv
  | pollTimeout =>
      simp only [step, Option.ite_none_right_eq_some, Option.some.injEq] at hstep
      obtain ⟨⟨hphase, -⟩, rfl⟩ := hstep
      exact inv_move inv (inv.stream_open (by simp [hphase]) (by simp [hphase])) nofun nofun
  | pollReadable =>
      simp only [step, Option.ite_none_right_eq_some, Option.some.injEq] at hstep
      obtain ⟨⟨hphase, -⟩, rfl⟩ := hstep
      exact inv_move inv (inv.stream_open (by simp [hphase]) (by simp [hphase])) nofun nofun
  | pollHangup =>
      simp only [step, Option.ite_none_right_eq_some, Option.some.injEq] at hstep
      obtain ⟨⟨hphase, hqueue, hexited⟩, rfl⟩ := hstep
      exact inv_move inv (inv.stream_open (by simp [hphase]) (by simp [hphase]))
        (fun _ => ⟨hqueue, hexited⟩) nofun
  | readInterrupted =>
      simp only [step, Option.ite_none_right_eq_some, Option.some.injEq] at hstep
      obtain ⟨⟨hphase, -⟩, rfl⟩ := hstep
      exact inv_move inv (inv.stream_open (by simp [hphase]) (by simp [hphase])) nofun nofun
  | readEof =>
      simp only [step, Option.ite_none_right_eq_some, Option.some.injEq] at hstep
      obtain ⟨⟨-, -, hqueue, hexited⟩, rfl⟩ := hstep
      exact inv_endOfFile inv hqueue hexited
  | closeHangup =>
      simp only [step, Option.ite_none_right_eq_some, Option.some.injEq] at hstep
      obtain ⟨hphase, rfl⟩ := hstep
      exact inv_endOfFile inv (inv.hangup hphase).1 (inv.hangup hphase).2
  | check =>
      simp only [step] at hstep
      split at hstep
      · next hphase =>
          obtain rfl := Option.some.inj hstep
          refine inv_move inv (inv.stream_open (by simp [hphase]) (by simp [hphase])) ?_ ?_
          · intro h
            split at h <;> simp at h
          · intro h
            by_contra hexit
            simp [hexit] at h
      · next hphase =>
          obtain rfl := Option.some.inj hstep
          exact
            { inv with
              hangup := by
                intro h
                split at h <;> simp at h
              eof := by
                intro h
                obtain ⟨hbuf, hqueue, hexited, -⟩ := inv.eof h
                have done : (c.rstate.eof || c.loggerExit) = true :=
                  Bool.or_eq_true_iff.mpr (Or.inl h)
                exact ⟨hbuf, hqueue, hexited, Or.inr (if_pos done)⟩
              returned := by
                intro h
                split at h
                · next done => exact Bool.or_eq_true _ _ ▸ done
                · simp at h }
      · simp at hstep

/-- The session in which the thread has returned: nothing was lost exactly when no NUL was
written and nothing but terminators is left. -/
theorem Inv.handedOver_iff {c : Session} (inv : Inv c) :
    HandedOver c ↔ NulFree c.written ∧ Drained c := by
  constructor
  · intro handed
    have whole : NulFree c.written := by
      intro member
      apply inv.visible
      rw [handed]
      exact List.mem_filter.mpr ⟨member, by decide⟩
    have nothing := inv.conserved whole
    rw [← handed, List.append_assoc, List.append_right_eq_self, List.append_eq_nil_iff] at nothing
    exact ⟨whole, nothing⟩
  · rintro ⟨whole, hbuf, hqueue⟩
    have conserved := inv.conserved whole
    rw [hbuf, hqueue, List.append_nil, List.append_nil] at conserved
    exact conserved

/-- Once the thread has returned, nothing moves in its buffer and its queue. -/
theorem drained_of_returned {c c' : Session} {a : Action} (inv : Inv c)
    (hreturned : c.phase = .returned) (hstep : step c a = some c') :
    c'.rstate = c.rstate ∧ c'.queue = c.queue ∧ c.loggerExit = false := by
  have hexited : c.exited = true := by
    rcases inv.returned hreturned with eof | exit
    · exact (inv.eof eof).2.2.1
    · exact inv.reaped exit
  cases a with
  | raiseExit =>
      simp only [step, Option.ite_none_right_eq_some, Option.some.injEq] at hstep
      obtain ⟨⟨-, hexit⟩, rfl⟩ := hstep
      exact ⟨rfl, rfl, hexit⟩
  | _ => simp [step, hreturned, hexited] at hstep

/-- The thread returns by the check at the end of a round or after a timeout only. -/
theorem returned_of_step {c c' : Session} {a : Action} (hstep : step c a = some c')
    (hreturned : c'.phase = .returned) (hcheck : a ≠ .check) : c.phase = .returned := by
  cases a with
  | check => exact absurd rfl hcheck
  | read n =>
      simp only [step, Option.ite_none_right_eq_some] at hstep
      obtain ⟨-, hstep⟩ := hstep
      split at hstep
      · obtain rfl := Option.some.inj hstep
        simp [Session.deliver] at hreturned
      · rw [Option.ite_none_right_eq_some] at hstep
        obtain rfl := Option.some.inj hstep.2
        simp [Session.deliver] at hreturned
  | _ =>
      simp only [step, Option.ite_none_right_eq_some, Option.some.injEq] at hstep
      obtain ⟨-, rfl⟩ := hstep
      first
        | exact hreturned
        | simp [Session.deliver] at hreturned

/-- The check at the end of a round changes the phase only, and returns when `logger_exit` is
raised. -/
theorem check_moves {c c' : Session} (hstep : step c .check = some c') :
    c' = { c with phase := c'.phase } ∧ (c.loggerExit = true → c'.phase = .returned) := by
  simp only [step] at hstep
  split at hstep
  · obtain rfl := Option.some.inj hstep
    exact ⟨rfl, fun h => by simp [h]⟩
  · obtain rfl := Option.some.inj hstep
    exact ⟨rfl, fun h => by simp [h]⟩
  · simp at hstep

/-- What the logger leaves behind when it returns is what was left when it found `logger_exit`
raised, unless it returned at the end of the stream, where nothing is left. -/
theorem drained_iff_along {c c' : Session} {actions : List Action} (inv : Inv c)
    (hrun : Actions.run step c actions = some c') (hreturned : c'.phase = .returned)
    (hstart : c.phase = .returned → Drained c) :
    Drained c' ↔ Actions.Along step ExitsDrained c actions := by
  induction actions generalizing c with
  | nil =>
      obtain rfl := Option.some.inj hrun
      simp [Actions.Along, hstart hreturned]
  | cons a as ih =>
      obtain ⟨middle, first, rest⟩ := Option.bind_eq_some_iff.mp hrun
      have kept := inv_step inv first
      have along : Actions.Along step ExitsDrained c (a :: as) ↔
          ExitsDrained c a ∧ Actions.Along step ExitsDrained middle as := by
        simp [Actions.Along, first]
      rw [along]
      by_cases exits : a = .check ∧ c.loggerExit = true
      · obtain ⟨rfl, hexit⟩ := exits
        obtain ⟨same, hmiddle⟩ := check_moves first
        -- Nobody can act after this check.
        cases as with
        | nil =>
            obtain rfl := Option.some.inj rest
            rw [same]
            simp [Actions.Along, ExitsDrained, hexit, Drained]
        | cons b bs =>
            obtain ⟨later, second, -⟩ := Option.bind_eq_some_iff.mp rest
            have lowered := (drained_of_returned kept (hmiddle hexit) second).2.2
            rw [same] at lowered
            exact absurd hexit (by simpa using lowered)
      · have here : ExitsDrained c a := fun hcheck hexit => absurd ⟨hcheck, hexit⟩ exits
        have next : middle.phase = .returned → Drained middle := by
          intro hmiddle
          by_cases hcheck : a = .check
          · subst hcheck
            have lowered : ¬ middle.loggerExit = true := by
              rw [(check_moves first).1]
              exact fun hexit => exits ⟨rfl, hexit⟩
            have eof := kept.eof ((kept.returned hmiddle).resolve_right lowered)
            exact ⟨eof.1, by rw [eof.2.1, textOf_nil]⟩
          · have before := returned_of_step first hmiddle hcheck
            obtain ⟨hrstate, hqueue, -⟩ := drained_of_returned inv before first
            rw [Drained, hrstate, hqueue]
            exact hstart before
        rw [ih kept rest next]
        exact ⟨fun h => ⟨here, h⟩, fun h => h.2⟩

/-- In every run that ends with the logger thread returning, every byte the service wrote was
handed to the log callback if and only if the service wrote no NUL and, if the thread returned
because `logger_exit` was raised, nothing but line terminators was queued or kept by then. -/
theorem handedOver_at_return_iff {actions : List Action} {c : Session}
    (hrun : Actions.run step start actions = some c) (hreturned : c.phase = .returned) :
    HandedOver c ↔
      NulFree c.written ∧ Actions.Along step ExitsDrained start actions := by
  have inv : Inv c :=
    Actions.run_invariant (fun _ _ _ kept stepped => inv_step kept stepped) inv_start hrun
  rw [inv.handedOver_iff, drained_iff_along inv_start hrun hreturned nofun]

/-- A service that is reaped after its logger has read all of its output. -/
def readFirst : List Action :=
  [.write "one\ntwo".toList, .pollReadable, .read 7, .check, .exit, .pollHangup, .closeHangup,
    .check]

/-- A service that is reaped before its logger has read the end of its output. -/
def reapedFirst : List Action :=
  [.write "one\ntwo".toList, .exit, .pollReadable, .raiseExit, .read 7, .check]

private theorem readFirst_possible : (Actions.run step start readFirst).isSome = true := by
  decide +kernel

private theorem reapedFirst_possible : (Actions.run step start reapedFirst).isSome = true := by
  decide +kernel

/-- In the first run the unterminated line is handed over too. -/
theorem handedOver_readFirst :
    ∃ c, Actions.run step start readFirst = some c ∧ c.delivered = ["one".toList, "two".toList] ∧
      HandedOver c := by
  refine ⟨_, (Option.some_get readFirst_possible).symm, by decide +kernel, ?_⟩
  exact (handedOver_at_return_iff (Option.some_get readFirst_possible).symm
    (by decide +kernel)).mpr ⟨by decide +kernel, by decide +kernel⟩

/-- In the second run the thread returns with the last line in its buffer. -/
theorem reapedFirst_loses_line :
    ∃ c, Actions.run step start reapedFirst = some c ∧ c.phase = .returned ∧
      c.delivered = ["one".toList] ∧ c.rstate.buf = "two".toList ∧ ¬ HandedOver c := by
  refine ⟨_, (Option.some_get reapedFirst_possible).symm, ?_⟩
  decide +kernel

end Baseimage.Cinit.Logger
