import Baseimage.Cinit.ReadLines
import Baseimage.Run.Completion
import Baseimage.Run.Told

/-!
# The loop of `read_lines`

`read_lines` polls its descriptors and, each time one of them is readable, reads as much as there
is room for in its buffer. It goes on until every descriptor has come to its end. What the streams
still hold is part of the state, and the environment decides which descriptors are readable, how
much a read returns and what is interrupted. There is no exit callback here.

What the environment has answered is kept beside the state. It says which streams have come to
their end, and `read_lines` has returned once all of them have.
-/

namespace Baseimage.Cinit.ReadLoop

open CString Script

/-- `revents` of a descriptor that `poll` was asked about. -/
inductive Revents where
  | none
  /-- `POLLIN`, with or without another one. -/
  | readable
  /-- `POLLHUP`, `POLLERR` or `POLLNVAL` without `POLLIN`. -/
  | closed
  deriving DecidableEq, Repr

inductive Answer (n : Nat) where
  /-- `calloc`. -/
  | calloc (ok : Bool)
  | polled (revents : Fin n → Revents)
  /-- -1 with `EINTR`. -/
  | pollInterrupted
  | pollFailed
  /-- So many bytes from a descriptor, 0 at the end of its stream. -/
  | read (fd : Fin n) (bytes : Nat)
  | readInterrupted
  | readFailed

/-- The call failed, for another reason than `EINTR`. -/
def Answer.fails {n : Nat} : Answer n → Bool
  | calloc ok => !ok
  | pollFailed => true
  | readFailed => true
  | _ => false

/-- The end of the stream behind a descriptor is signalled. -/
def Answer.ends {n : Nat} (i : Fin n) : Answer n → Bool
  | polled revents => revents i = .closed
  | read fd bytes => fd = i ∧ bytes = 0
  | _ => false

structure State (n : Nat) where
  rstates : Fin n → ReadState := fun _ => {}
  /-- What has not been read yet of the stream behind a descriptor. -/
  left : Fin n → Str
  /-- The callbacks: the descriptor and the line. -/
  called : List (Fin n × Str) := []

variable {n : Nat}

namespace State

/-- The lines the callback was given for a descriptor. -/
def linesFrom (s : State n) (i : Fin n) : List Str :=
  (s.called.filter fun call => call.1 = i).map Prod.snd

/-- The callback is invoked for the descriptor, whose read state changes. -/
def deliver (s : State n) (i : Fin n) (left : Str) (result : List Str × ReadState) : State n :=
  { s with
    rstates := Function.update s.rstates i result.2
    left := Function.update s.left i left
    called := s.called ++ result.1.map fun line => (i, line) }

end State

/-- The code of `read_lines`. It throws nothing. -/
abbrev Code (n : Nat) := Script (Answer n) (State n) Empty

namespace Code

def calloc : Code n Bool :=
  ask fun s k =>
    match k with
    | .calloc ok => some (ok, s)
    | _ => none

/-- What `poll` reports; `none` where it was interrupted, and the second one where it failed. -/
def poll : Code n (Option (Option (Fin n → Revents))) :=
  ask fun s k =>
    match k with
    | .polled revents =>
        -- The end is reported without `POLLIN` only when everything has been read.
        if (∃ i, (s.rstates i).eof = false ∧ revents i ≠ .none) ∧
            ∀ i, revents i = .closed → s.left i = [] then
          some (some (some revents), s)
        else none
    | .pollInterrupted => some (none, s)
    | .pollFailed => some (some none, s)
    | _ => none

/-- "Read data": false on a read error. -/
def read (i : Fin n) : Code n Bool :=
  ask fun s k =>
    match k with
    | .read fd 0 =>
        if fd = i ∧ s.left i = [] then some (true, s.deliver i [] (endOfFile (s.rstates i)))
        else none
    | .read fd (bytes + 1) =>
        if fd = i ∧ bytes + 1 ≤ (s.rstates i).maxToRead ∧ bytes + 1 ≤ (s.left i).length then
          some (true, s.deliver i ((s.left i).drop (bytes + 1))
            (received (s.rstates i) ((s.left i).take (bytes + 1))))
        else none
    | .readInterrupted => some (true, s)
    | .readFailed => some (false, s)
    | _ => none

/-- One descriptor, after a poll: false on a read error. -/
def processDescriptor (revents : Fin n → Revents) (i : Fin n) : Code n Bool := do
  let s ← get
  if (s.rstates i).eof then pure true
  else
    match revents i with
    | .none => pure true
    | .closed => do
        modify fun s => s.deliver i (s.left i) (endOfFile (s.rstates i))
        pure true
    | .readable =>
        if (s.rstates i).maxToRead = 0 then do
          modify fun s => s.deliver i (s.left i) (flushLine (s.rstates i))
          pure true
        else read i

/-- "Process file descriptors", until there is a read error. -/
def processDescriptors (revents : Fin n → Revents) : List (Fin n) → Code n Bool
  | [] => pure true
  | i :: rest => do
      let ok ← processDescriptor revents i
      if ok then processDescriptors revents rest else pure false

/-- A round of the loop of `read_lines`. -/
def readRound : Code n (Option Int) := do
  let polled ← poll
  match polled with
  | none => pure none
  | some none => pure (some (-1))
  | some (some revents) => do
      let ok ← processDescriptors revents (List.finRange n)
      if ok then do
        let s ← get
        pure (if ∀ i, (s.rstates i).eof = true then some 0 else none)
      else pure (some (-1))

/-- `read_lines`, without an exit callback. -/
def readLines : Code n Int := do
  let memory ← calloc
  if memory then loop readRound else pure (-1)

end Code

/-! ## What has been delivered -/

section Delivered

variable {s t : State n} {i j : Fin n} {left : Str} {result : List Str × ReadState}

theorem linesFrom_deliver_self :
    (s.deliver i left result).linesFrom i = s.linesFrom i ++ result.1 := by
  have mine : ((result.1.map fun line => (i, line)).filter fun call => call.1 = i).map Prod.snd =
      result.1 := by
    rw [List.filter_eq_self.mpr (by simp), List.map_map]
    exact List.map_id _
  simp only [State.linesFrom, State.deliver, List.filter_append, List.map_append, mine]

theorem linesFrom_deliver_other (h : i ≠ j) :
    (s.deliver i left result).linesFrom j = s.linesFrom j := by
  have others : (result.1.map fun line => (i, line)).filter (fun call => call.1 = j) = [] := by
    simp [List.filter_eq_nil_iff, h]
  simp only [State.linesFrom, State.deliver, List.filter_append, others, List.append_nil]

/-- The invariant of a descriptor: what was delivered, and the parts of what is in the buffer or
not read yet, are the parts of its stream. -/
structure Delivered (stream : Str) (i : Fin n) (s : State n) : Prop where
  isOpen : Lines.Open isEol (s.rstates i).buf
  size : (s.rstates i).buf.length ≤ readBufSize - 1
  nulFree : NulFree ((s.rstates i).buf ++ s.left i)
  lines : s.linesFrom i ++ Lines.parts isEol (readBufSize - 1) ((s.rstates i).buf ++ s.left i) =
    Lines.parts isEol (readBufSize - 1) stream
  ended : (s.rstates i).eof = true → (s.rstates i).buf = [] ∧ s.left i = []

variable {stream : Str}

/-- What is done with another descriptor. -/
theorem Delivered.other (h : Delivered stream j s) (hne : i ≠ j) :
    Delivered stream j (s.deliver i left result) := by
  have rstate : (s.deliver i left result).rstates j = s.rstates j :=
    Function.update_of_ne hne.symm _ _
  have rest : (s.deliver i left result).left j = s.left j := Function.update_of_ne hne.symm _ _
  constructor
  · rw [rstate]
    exact h.isOpen
  · rw [rstate]
    exact h.size
  · rw [rstate, rest]
    exact h.nulFree
  · rw [rstate, rest, linesFrom_deliver_other hne]
    exact h.lines
  · rw [rstate, rest]
    exact h.ended

/-- Something was delivered from the front of the buffer and the rest of the stream. -/
theorem Delivered.deliver (h : Delivered stream i s)
    (isOpen : Lines.Open isEol result.2.buf) (size : result.2.buf.length ≤ readBufSize - 1)
    (nulFree : NulFree (result.2.buf ++ left))
    (lines : result.1 ++ Lines.parts isEol (readBufSize - 1) (result.2.buf ++ left) =
      Lines.parts isEol (readBufSize - 1) ((s.rstates i).buf ++ s.left i))
    (ended : result.2.eof = true → result.2.buf = [] ∧ left = []) :
    Delivered stream i (s.deliver i left result) := by
  have rstate : (s.deliver i left result).rstates i = result.2 := Function.update_self _ _ _
  have rest : (s.deliver i left result).left i = left := Function.update_self _ _ _
  constructor
  · rw [rstate]
    exact isOpen
  · rw [rstate]
    exact size
  · rw [rstate, rest]
    exact nulFree
  · rw [rstate, rest, linesFrom_deliver_self, List.append_assoc, lines]
    exact h.lines
  · rw [rstate, rest]
    exact ended

/-- A full buffer without a terminator is a part. -/
theorem Delivered.flush (h : Delivered stream i s) (running : (s.rstates i).eof = false)
    (full : (s.rstates i).maxToRead = 0) :
    Delivered stream i (s.deliver i (s.left i) (flushLine (s.rstates i))) := by
  have length : (s.rstates i).buf.length = readBufSize - 1 := by
    have := h.size
    unfold ReadState.maxToRead at full
    omega
  have nonempty : (s.rstates i).buf ≠ [] := by
    intro empty
    rw [empty] at length
    cases length
  have nulFree := h.nulFree
  have whole : ofBuffer (s.rstates i).buf = (s.rstates i).buf :=
    ofBuffer_of_nulFree fun inside => nulFree (List.mem_append_left _ inside)
  refine h.deliver Lines.open_nil (Nat.zero_le _)
    (fun inside => nulFree (List.mem_append_right _ inside)) ?_ ?_
  · have first := Lines.parts_full h.isOpen nonempty (s.left i)
    rw [length] at first
    rw [first, flushLine, whole]
    rfl
  · intro ended
    exact absurd (running.symm.trans ended) Bool.false_ne_true

/-- At the end of a stream what is in the buffer is the last part. -/
theorem Delivered.endOfFile (h : Delivered stream i s) (finished : s.left i = []) :
    Delivered stream i (s.deliver i [] (Cinit.endOfFile (s.rstates i))) := by
  have nulFree := h.nulFree
  rw [finished, List.append_nil] at nulFree
  refine h.deliver Lines.open_nil (Nat.zero_le _) (List.not_mem_nil) ?_ fun _ => ⟨rfl, rfl⟩
  have last := Lines.parts_of_open h.isOpen h.size
  rw [finished, List.append_nil ((s.rstates i).buf), last, Cinit.endOfFile,
    ofBuffer_of_nulFree nulFree]
  simp

/-- What was read takes the parts it completes off the front of the stream. -/
theorem Delivered.read (h : Delivered stream i s) (running : (s.rstates i).eof = false) {k : Nat}
    (room : k ≤ (s.rstates i).maxToRead) (available : k ≤ (s.left i).length) :
    Delivered stream i
      (s.deliver i ((s.left i).drop k) (received (s.rstates i) ((s.left i).take k))) := by
  have taken : ((s.left i).take k).length = k := List.length_take_of_le available
  have fits : (s.rstates i).buf.length + ((s.left i).take k).length ≤ readBufSize - 1 := by
    have := h.size
    unfold ReadState.maxToRead at room
    omega
  have split : (s.left i).take k ++ (s.left i).drop k = s.left i := List.take_append_drop _ _
  have nulFree := h.nulFree
  rw [← split, ← List.append_assoc] at nulFree
  have pieces : ∀ piece ∈ (Lines.feed isEol (s.rstates i).buf ((s.left i).take k)).1 ++
      [(Lines.feed isEol (s.rstates i).buf ((s.left i).take k)).2], NulFree piece :=
    fun piece hpiece inside =>
      nulFree (List.mem_append_left _ (Lines.mem_of_mem_feed hpiece inside))
  have result : received (s.rstates i) ((s.left i).take k) =
      ((Lines.feed isEol (s.rstates i).buf ((s.left i).take k)).1.filter (· ≠ []),
        { s.rstates i with buf :=
          (Lines.feed isEol (s.rstates i).buf ((s.left i).take k)).2 }) := by
    rw [received, takeLines_eq_feed, Lines.feed_held h.isOpen, calledLines_of_nulFree
      fun piece hpiece => pieces piece (List.mem_append_left _ hpiece)]
  rw [result]
  refine h.deliver (Lines.open_feed h.isOpen _) ((Lines.length_feed_le _ _ _).trans fits) ?_ ?_ ?_
  · intro inside
    rcases List.mem_append.mp inside with held | rest
    · exact pieces _ List.mem_concat_self held
    · exact nulFree (List.mem_append_right _ rest)
  · have parts := Lines.parts_feed h.isOpen fits ((s.left i).drop k)
    rw [split] at parts
    exact parts.symm
  · intro ended
    exact absurd (running.symm.trans ended) Bool.false_ne_true

end Delivered

/-! ## The rounds -/

section Rounds

variable {streams : Fin n → Str} {past : List (Answer n)} {s : State n} {revents : Fin n → Revents}
variable {i : Fin n} {rest order : List (Fin n)}

/-- The end of the stream was signalled. -/
def Ended (past : List (Answer n)) (i : Fin n) : Prop := ∃ k ∈ past, k.ends i = true

def Failed (past : List (Answer n)) : Prop := ∃ k ∈ past, k.fails = true

theorem ended_concat {k : Answer n} (h : Ended (past ++ [k]) i) :
    Ended past i ∨ k.ends i = true := by
  obtain ⟨k', member, ends⟩ := h
  obtain before | last := List.mem_append.mp member
  · exact .inl ⟨k', before, ends⟩
  · exact .inr (List.mem_singleton.mp last ▸ ends)

theorem ended_concat_of_ne {k : Answer n} (h : Ended (past ++ [k]) i) (other : k.ends i = false) :
    Ended past i :=
  (ended_concat h).resolve_right (by simp [other])

theorem failed_concat {k : Answer n} (fails : k.fails = true) : Failed (past ++ [k]) :=
  ⟨k, List.mem_concat_self, fails⟩

/-- Between two rounds: what was delivered is known for every descriptor, and the loop knows of
every end that was signalled. -/
structure Known (streams : Fin n → Str) (past : List (Answer n)) (s : State n) : Prop where
  delivered : ∀ i, Delivered (streams i) i s
  ended : ∀ i, Ended past i → (s.rstates i).eof = true

/-- The end of some stream was not signalled yet. -/
def Unended (past : List (Answer n)) : Prop := ∃ i, ¬ Ended past i

/-- Before a round some descriptor has not come to its end. -/
def Waiting (streams : Fin n → Str) (past : List (Answer n)) (s : State n) : Prop :=
  Known streams past s ∧ ∃ i, (s.rstates i).eof = false

theorem Waiting.unended (h : Waiting streams past s) : Unended past := by
  obtain ⟨known, i, running⟩ := h
  exact ⟨i, fun ended => Bool.false_ne_true (running.symm.trans (known.ended i ended))⟩

/-- The descriptors of the list are still to be processed after a poll. -/
structure Polled (streams : Fin n → Str) (revents : Fin n → Revents) (order : List (Fin n))
    (past : List (Answer n)) (s : State n) : Prop where
  delivered : ∀ i, Delivered (streams i) i s
  closed : ∀ i ∈ order, revents i = .closed → s.left i = []
  ended : ∀ i, Ended past i → (s.rstates i).eof = true ∨ i ∈ order ∧ revents i = .closed

/-- A descriptor is done with; what was signalled meanwhile is its own end. -/
theorem Polled.deliver {left : Str} {result : List Str × ReadState} {past' : List (Answer n)}
    (h : Polled streams revents (i :: rest) past s) (others : i ∉ rest)
    (delivered : Delivered (streams i) i (s.deliver i left result))
    (own : ∀ j ≠ i, Ended past' j → Ended past j)
    (ended : Ended past' i → result.2.eof = true) :
    Polled streams revents rest past' (s.deliver i left result) := by
  refine ⟨fun j => ?_, fun j member closed => ?_, fun j signalled => ?_⟩
  · by_cases same : i = j
    · exact same ▸ delivered
    · exact (h.delivered j).other same
  · have other : j ≠ i := fun same => others (same ▸ member)
    exact (Function.update_of_ne other _ _).trans
      (h.closed j (List.mem_cons_of_mem _ member) closed)
  · by_cases same : j = i
    · subst same
      refine .inl ?_
      change (Function.update s.rstates j result.2 j).eof = true
      rw [Function.update_self]
      exact ended signalled
    · obtain eof | ⟨member, closed⟩ := h.ended j (own j same signalled)
      · refine .inl ?_
        change (Function.update s.rstates i result.2 j).eof = true
        rw [Function.update_of_ne same]
        exact eof
      · exact .inr ⟨(List.mem_cons.mp member).resolve_left same, closed⟩

/-- Nothing is done with a descriptor. -/
theorem Polled.skip {past' : List (Answer n)} (h : Polled streams revents (i :: rest) past s)
    (same : ∀ j, Ended past' j → Ended past j)
    (ended : revents i = .closed → (s.rstates i).eof = true) :
    Polled streams revents rest past' s := by
  refine ⟨h.delivered, fun j member => h.closed j (List.mem_cons_of_mem _ member),
    fun j signalled => ?_⟩
  obtain eof | ⟨member, closed⟩ := h.ended j (same j signalled)
  · exact .inl eof
  · obtain rfl | member := List.mem_cons.mp member
    · exact .inl (ended closed)
    · exact .inr ⟨member, closed⟩

namespace Code

theorem read_told (others : i ∉ rest) (readable : revents i = .readable) :
    Told (fun past s => Polled streams revents (i :: rest) past s ∧ (s.rstates i).eof = false)
      (read i)
      (fun ok past t => Polled streams revents rest past t ∧ (ok = false → Failed past))
      (fun _ _ _ => False) fun past _ => Unended past := by
  have unended : ∀ {past s}, Polled streams revents (i :: rest) past s →
      (s.rstates i).eof = false → ¬ Ended past i := by
    intro past s polled running signalled
    obtain eof | ⟨-, closed⟩ := polled.ended i signalled
    · exact Bool.false_ne_true (running.symm.trans eof)
    · cases readable.symm.trans closed
  refine Told.ask (fun past s hs => ⟨i, unended hs.1 hs.2⟩) fun past s k ok t hs h => ?_
  obtain ⟨polled, running⟩ := hs
  split at h
  · next fd =>
      obtain ⟨⟨rfl, finished⟩, h⟩ := Option.ite_none_right_eq_some.mp h
      obtain ⟨rfl, rfl⟩ := Prod.mk.inj (Option.some.inj h)
      refine ⟨polled.deliver others ((polled.delivered fd).endOfFile finished)
        (fun j other signalled => ?_) fun _ => rfl, nofun⟩
      exact ended_concat_of_ne signalled (by simp [Answer.ends, other.symm])
  · next fd bytes =>
      obtain ⟨⟨rfl, room, available⟩, h⟩ := Option.ite_none_right_eq_some.mp h
      obtain ⟨rfl, rfl⟩ := Prod.mk.inj (Option.some.inj h)
      have same : ∀ j, Ended (past ++ [.read fd (bytes + 1)]) j → Ended past j :=
        fun j signalled => ended_concat_of_ne signalled (by simp [Answer.ends])
      exact ⟨polled.deliver others ((polled.delivered fd).read running room available)
        (fun j _ => same j) fun signalled => absurd (same fd signalled) (unended polled running),
        nofun⟩
  · obtain ⟨rfl, rfl⟩ := Prod.mk.inj (Option.some.inj h)
    refine ⟨polled.skip (fun j signalled => ended_concat_of_ne signalled rfl) fun closed => ?_,
      nofun⟩
    cases readable.symm.trans closed
  · obtain ⟨rfl, rfl⟩ := Prod.mk.inj (Option.some.inj h)
    refine ⟨polled.skip (fun j signalled => ended_concat_of_ne signalled rfl) fun closed => ?_,
      fun _ => failed_concat rfl⟩
    cases readable.symm.trans closed
  · cases h

theorem processDescriptor_told (others : i ∉ rest) :
    Told (Polled streams revents (i :: rest)) (processDescriptor revents i)
      (fun ok past t => Polled streams revents rest past t ∧ (ok = false → Failed past))
      (fun _ _ _ => False) fun past _ => Unended past := by
  refine Told.bind
    (Told.get (Q := fun s past t => s = t ∧ Polled streams revents (i :: rest) past t)
    fun _ _ hs => ⟨rfl, hs⟩) fun s => Told.ite ?_ ?_
  · rintro eof
    refine Told.pure ?_
    rintro past _ ⟨rfl, polled⟩
    exact ⟨polled.skip (fun _ h => h) fun _ => eof, nofun⟩
  · intro running
    have running := Bool.eq_false_iff.mpr running
    split
    · next silent =>
        refine Told.pure ?_
        rintro past _ ⟨rfl, polled⟩
        refine ⟨polled.skip (fun _ h => h) fun closed => ?_, nofun⟩
        cases silent.symm.trans closed
    · next closed =>
        refine Told.bind (M := fun _ => Polled streams revents rest) (Told.modify ?_)
          fun _ => Told.pure fun _ _ hs => ⟨hs, nofun⟩
        rintro past _ ⟨rfl, polled⟩
        have finished := polled.closed i List.mem_cons_self closed
        rw [finished]
        exact polled.deliver others ((polled.delivered i).endOfFile finished) (fun _ _ h => h)
          fun _ => rfl
    · next readable =>
        refine Told.ite ?_ ?_
        · intro full
          refine Told.bind (M := fun _ => Polled streams revents rest) (Told.modify ?_)
            fun _ => Told.pure fun _ _ hs => ⟨hs, nofun⟩
          rintro past _ ⟨rfl, polled⟩
          refine polled.deliver others ((polled.delivered i).flush running full) (fun _ _ h => h)
            fun signalled => ?_
          obtain eof | ⟨-, closed⟩ := polled.ended i signalled
          · exact eof
          · cases readable.symm.trans closed
        · intro _
          apply (read_told others readable).pre
          rintro past _ ⟨rfl, polled⟩
          exact ⟨polled, running⟩

theorem processDescriptors_told (nodup : order.Nodup) :
    Told (Polled streams revents order) (processDescriptors revents order)
      (fun ok past t => (∀ i, Delivered (streams i) i t) ∧ (ok = false → Failed past) ∧
        (ok = true → Known streams past t))
      (fun _ _ _ => False) fun past _ => Unended past := by
  induction order with
  | nil =>
      refine Told.pure fun past s polled => ⟨polled.delivered, nofun, fun _ => ?_⟩
      exact ⟨polled.delivered, fun i ended => (polled.ended i ended).resolve_right (by simp)⟩
  | cons i rest ih =>
      obtain ⟨others, nodup⟩ := List.nodup_cons.mp nodup
      refine Told.bind (processDescriptor_told others) fun ok => Told.ite ?_ ?_
      · intro _
        exact (ih nodup).pre fun _ _ hs => hs.1
      · intro error
        exact Told.pure fun _ _ hs =>
          ⟨hs.1.delivered, fun _ => hs.2 (Bool.eq_false_iff.mpr error), nofun⟩

/-- The value `read_lines` returns. -/
def Returned (streams : Fin n → Str) (retval : Int) (past : List (Answer n)) (s : State n) :
    Prop :=
  (∀ i, Delivered (streams i) i s) ∧
    (¬ Failed past → retval = 0 ∧ ∀ i, (s.rstates i).eof = true)

theorem readRound_told :
    Told (Waiting streams) readRound
      (fun a past s => a.elim (Waiting streams past s) fun retval => Returned streams retval past s)
      (fun _ _ _ => False) fun past _ => Unended past := by
  refine Told.bind (M := fun polled past s =>
    polled.elim (Waiting streams past s) fun answer =>
      answer.elim ((∀ i, Delivered (streams i) i s) ∧ Failed past) fun revents =>
        Polled streams revents (List.finRange n) past s)
    (Told.ask (fun _ _ hs => hs.unended) ?_) fun polled => ?_
  · intro past s k polled t hs h
    split at h
    · next revents =>
        obtain ⟨⟨-, closed⟩, h⟩ := Option.ite_none_right_eq_some.mp h
        obtain ⟨rfl, rfl⟩ := Prod.mk.inj (Option.some.inj h)
        refine ⟨hs.1.delivered, fun i _ => closed i, fun i signalled => ?_⟩
        obtain before | now := ended_concat signalled
        · exact .inl (hs.1.ended i before)
        · exact .inr ⟨List.mem_finRange i, of_decide_eq_true now⟩
    · obtain ⟨rfl, rfl⟩ := Prod.mk.inj (Option.some.inj h)
      exact ⟨⟨hs.1.delivered, fun i signalled =>
        hs.1.ended i (ended_concat_of_ne signalled rfl)⟩, hs.2⟩
    · obtain ⟨rfl, rfl⟩ := Prod.mk.inj (Option.some.inj h)
      exact ⟨hs.1.delivered, failed_concat rfl⟩
    · cases h
  · cases polled with
    | none => exact Told.pure fun _ _ hs => hs
    | some answer =>
        cases answer with
        | none => exact Told.pure fun _ _ hs => ⟨hs.1, fun fine => absurd hs.2 fine⟩
        | some revents =>
            refine Told.bind (processDescriptors_told (List.nodup_finRange n)) fun ok =>
              Told.ite ?_ ?_
            · rintro rfl
              refine Told.bind (Told.get (Q := fun s past t => s = t ∧ Known streams past t)
                fun _ _ hs => ⟨rfl, hs.2.2 rfl⟩) fun s => Told.pure ?_
              rintro past _ ⟨rfl, known⟩
              split
              · next all => exact ⟨known.delivered, fun _ => ⟨rfl, all⟩⟩
              · next some =>
                  obtain ⟨i, running⟩ := not_forall.mp some
                  exact ⟨known, i, Bool.eq_false_iff.mpr running⟩
            · intro error
              exact Told.pure fun _ _ hs => ⟨hs.1, fun fine =>
                absurd (hs.2.1 (Bool.eq_false_iff.mpr error)) fine⟩

end Code

end Rounds

/-- Nothing has been read of the streams. -/
def initial (streams : Fin n → Str) : State n where
  left := streams

theorem delivered_initial {streams : Fin n → Str} (nulFree : ∀ i, NulFree (streams i)) (i : Fin n) :
    Delivered (streams i) i (initial streams) where
  isOpen := Lines.open_nil
  size := Nat.zero_le _
  nulFree := nulFree i
  lines := rfl
  ended running := absurd running (by simp [initial])

theorem Code.readLines_told (descriptors : 0 < n) {streams : Fin n → Str}
    (nulFree : ∀ i, NulFree (streams i)) :
    Told (fun past s => past = [] ∧ s = initial streams) readLines
      (fun retval past s => Returned streams retval past s) (fun _ _ _ => False)
      fun past _ => Unended past := by
  refine Told.bind (M := fun memory past s =>
    if memory then Waiting streams past s else (∀ i, Delivered (streams i) i s) ∧ Failed past)
    (Told.ask ?_ ?_) fun memory => Told.ite ?_ ?_
  · rintro _ _ ⟨rfl, rfl⟩
    exact ⟨⟨0, descriptors⟩, by simp [Ended]⟩
  · rintro _ _ k memory t ⟨rfl, rfl⟩ h
    split at h
    · next ok =>
        obtain ⟨rfl, rfl⟩ := Prod.mk.inj (Option.some.inj h)
        cases ok with
        | false => exact ⟨delivered_initial nulFree, failed_concat rfl⟩
        | true =>
            exact ⟨⟨delivered_initial nulFree, by simp [Ended, Answer.ends]⟩,
              ⟨0, descriptors⟩, rfl⟩
    · cases h
  · rintro rfl
    exact Told.loop (fun _ _ hs => hs.unended) readRound_told
  · intro error
    rw [Bool.eq_false_iff.mpr error]
    exact Told.pure fun _ _ hs => ⟨hs.1, fun fine => absurd hs.2 fine⟩

/-! ## The loop comes to its end -/

/-- The call did not fail. -/
def Answer.Fine (k : Answer n) : Prop := k.fails = false

namespace State

/-- What is still to be done for a descriptor: to read what is left of its stream, byte by byte, to
flush a full buffer, and to see the end. -/
def weight (s : State n) (i : Fin n) : Nat :=
  if (s.rstates i).eof then 0
  else 1 + 2 * (s.left i).length + (if (s.rstates i).maxToRead = 0 then 1 else 0)

def work (s : State n) : Nat := ∑ i, s.weight i

theorem weight_deliver_self (s : State n) (i : Fin n) (left : Str)
    (result : List Str × ReadState) :
    (s.deliver i left result).weight i =
      if result.2.eof then 0
      else 1 + 2 * left.length + (if result.2.maxToRead = 0 then 1 else 0) := by
  simp only [weight, deliver, Function.update_self]

theorem weight_deliver_other (s : State n) {i j : Fin n} (other : j ≠ i) (left : Str)
    (result : List Str × ReadState) : (s.deliver i left result).weight j = s.weight j := by
  simp only [weight, deliver, Function.update_of_ne other]

theorem work_deliver {s : State n} {i : Fin n} {left : Str} {result : List Str × ReadState}
    (less : (s.deliver i left result).weight i < s.weight i) :
    (s.deliver i left result).work < s.work := by
  refine Finset.sum_lt_sum (fun j _ => ?_) ⟨i, Finset.mem_univ i, less⟩
  by_cases same : j = i
  · exact same ▸ less.le
  · exact (weight_deliver_other s same left result).le

end State

namespace Code

variable {i : Fin n} {revents : Fin n → Revents} {order : List (Fin n)}

theorem read_steady (i : Fin n) : Steady (read i) := Steady.ask

theorem processDescriptor_steady (revents : Fin n → Revents) (i : Fin n) :
    Steady (processDescriptor revents i) := by
  refine Steady.get.bind fun s => Steady.ite (Steady.pure _) ?_
  split
  · exact Steady.pure _
  · exact (Steady.modify _).bind fun _ => Steady.pure _
  · exact Steady.ite ((Steady.modify _).bind fun _ => Steady.pure _) (read_steady i)

theorem processDescriptors_steady (revents : Fin n → Revents) (order : List (Fin n)) :
    Steady (processDescriptors revents order) := by
  induction order with
  | nil => exact Steady.pure _
  | cons i rest ih =>
      exact (processDescriptor_steady revents i).bind fun ok => Steady.ite ih (Steady.pure _)

theorem readRound_steady : Steady (readRound : Code n (Option Int)) := by
  refine Steady.ask.bind fun polled => ?_
  split
  · exact Steady.pure _
  · exact Steady.pure _
  · exact (processDescriptors_steady _ _).bind fun ok =>
      Steady.ite (Steady.get.bind fun s => Steady.pure _) (Steady.pure _)

theorem readRound_asks : Asks (readRound : Code n (Option Int)) := Asks.ask.bind _

/-- Every read can be answered, if only by an interruption. -/
theorem processDescriptor_completes (revents : Fin n → Revents) (i : Fin n) :
    Completes Answer.Fine (fun _ => True) (processDescriptor revents i) fun ok _ => ok = true := by
  refine Completes.bind Steady.get (Completes.get (Q := fun _ _ => True) fun _ _ => trivial)
    fun s => Completes.ite (fun _ => Completes.pure fun _ _ => rfl) fun _ => ?_
  split
  · exact Completes.pure fun _ _ => rfl
  · exact Completes.bind (Steady.modify _) (Completes.modify (Q := fun _ _ => True)
      fun _ _ => trivial) fun _ => Completes.pure fun _ _ => rfl
  · refine Completes.ite (fun _ => Completes.bind (Steady.modify _) (Completes.modify
      (Q := fun _ _ => True) fun _ _ => trivial) fun _ => Completes.pure fun _ _ => rfl)
      fun _ => Completes.ask (fun s _ => ⟨.readInterrupted, true, s, rfl, rfl⟩) ?_
    intro s k ok t _ fine h
    split at h
    · exact (Prod.mk.inj (Option.some.inj (Option.ite_none_right_eq_some.mp h).2)).1.symm
    · exact (Prod.mk.inj (Option.some.inj (Option.ite_none_right_eq_some.mp h).2)).1.symm
    · exact (Prod.mk.inj (Option.some.inj h)).1.symm
    · cases fine
    · cases h

theorem processDescriptors_completes (revents : Fin n → Revents) (order : List (Fin n)) :
    Completes Answer.Fine (fun _ => True) (processDescriptors revents order)
      fun ok _ => ok = true := by
  induction order with
  | nil => exact Completes.pure fun _ _ => rfl
  | cons i rest ih =>
      refine (processDescriptor_completes revents i).bind (processDescriptor_steady revents i)
        fun ok => Completes.ite (fun _ => ih.consequence (fun _ _ => trivial) fun _ _ h => h) ?_
      exact fun error => Completes.pure fun _ done => absurd done error

theorem readRound_completes :
    Completes Answer.Fine (fun s : State n => ∃ i, (s.rstates i).eof = false) readRound
      fun a s => a.elim (∃ i, (s.rstates i).eof = false) fun _ => True := by
  refine Completes.bind (M := fun polled s =>
    polled.elim (∃ i, (s.rstates i).eof = false) fun answer => answer ≠ none) Steady.ask
    (Completes.ask (fun s _ => ⟨.pollInterrupted, none, s, rfl, rfl⟩) ?_) fun polled => ?_
  · intro s k polled t hs fine h
    split at h
    · obtain ⟨-, h⟩ := Option.ite_none_right_eq_some.mp h
      obtain ⟨rfl, -⟩ := Prod.mk.inj (Option.some.inj h)
      exact Option.some_ne_none _
    · obtain ⟨rfl, rfl⟩ := Prod.mk.inj (Option.some.inj h)
      exact hs
    · cases fine
    · cases h
  · cases polled with
    | none => exact Completes.pure fun _ hs => hs
    | some answer =>
        cases answer with
        | none => exact Completes.pure fun _ _ => trivial
        | some revents =>
            refine ((processDescriptors_completes revents (List.finRange n)).consequence
              (fun _ _ => trivial) fun _ _ h => h).bind (processDescriptors_steady _ _)
              fun ok => Completes.ite (fun _ => ?_) fun _ => Completes.pure fun _ _ => trivial
            refine Completes.bind Steady.get (Completes.get (Q := fun s t => s = t)
              fun _ _ => rfl) fun s => Completes.pure ?_
            rintro _ rfl
            split
            · trivial
            · next some =>
                obtain ⟨i, running⟩ := not_forall.mp some
                exact ⟨i, Bool.eq_false_iff.mpr running⟩

/-- A descriptor that is readable can be brought nearer to its end. -/
theorem exists_processDescriptor {s : State n} (running : (s.rstates i).eof = false)
    (readable : revents i = .readable) :
    ∃ more t, (∀ k ∈ more, Answer.Fine k) ∧ t.work < s.work ∧
      (processDescriptor revents i).run more s = ⟨some (.ok true), [], t⟩ := by
  have code : ∀ answers, (processDescriptor revents i).run answers s =
      (if (s.rstates i).maxToRead = 0 then do
        modify fun s => s.deliver i (s.left i) (flushLine (s.rstates i))
        pure true
      else read i).run answers s := by
    intro answers
    rw [processDescriptor, bind_run]
    simp only [Script.get, running, readable]
    rfl
  by_cases full : (s.rstates i).maxToRead = 0
  · refine ⟨[], s.deliver i (s.left i) (flushLine (s.rstates i)), by simp,
      State.work_deliver ?_, ?_⟩
    · rw [State.weight_deliver_self, State.weight, running, full]
      simp [flushLine, running, ReadState.maxToRead, readBufSize]
    · rw [code, if_pos full]
      rfl
  · by_cases finished : s.left i = []
    · refine ⟨[.read i 0], s.deliver i [] (endOfFile (s.rstates i)), by simp [Answer.Fine,
        Answer.fails], State.work_deliver ?_, ?_⟩
      · rw [State.weight_deliver_self, State.weight, running]
        simp [endOfFile]
      · rw [code, if_neg full]
        simp [read, Script.ask, finished]
    · have some : 0 < (s.left i).length := List.length_pos_iff.mpr finished
      have room : 0 < (s.rstates i).maxToRead := Nat.pos_of_ne_zero full
      refine ⟨[.read i 1], s.deliver i ((s.left i).drop 1)
        (received (s.rstates i) ((s.left i).take 1)), by simp [Answer.Fine, Answer.fails],
        State.work_deliver ?_, ?_⟩
      · rw [State.weight_deliver_self, State.weight, running, if_neg full, List.length_drop]
        simp only [received, running, Bool.false_eq_true, if_false]
        split <;> omega
      · rw [code, if_neg full]
        simp [read, Script.ask, some, room]

theorem processDescriptor_silent (silent : revents i = .none) (answers : List (Answer n))
    (s : State n) :
    (processDescriptor revents i).run answers s = ⟨some (.ok true), answers, s⟩ := by
  rw [processDescriptor, bind_run]
  simp only [Script.get, silent]
  split <;> rfl

theorem processDescriptors_silent (silent : ∀ j ∈ order, revents j = .none)
    (answers : List (Answer n)) (s : State n) :
    (processDescriptors revents order).run answers s = ⟨some (.ok true), answers, s⟩ := by
  induction order with
  | nil => rfl
  | cons j rest ih =>
      rw [processDescriptors,
        bind_run_ok (processDescriptor_silent (silent j List.mem_cons_self) answers s)]
      exact ih fun j' h => silent j' (List.mem_cons_of_mem _ h)

/-- Only one descriptor has something to report. -/
theorem processDescriptors_only {answers rest : List (Answer n)} {s t : State n}
    (others : ∀ j ∈ order, j ≠ i → revents j = .none) (nodup : order.Nodup) (member : i ∈ order)
    (own : (processDescriptor revents i).run answers s = ⟨some (.ok true), rest, t⟩) :
    (processDescriptors revents order).run answers s = ⟨some (.ok true), rest, t⟩ := by
  induction order with
  | nil => cases member
  | cons j later ih =>
      obtain ⟨absent, nodup⟩ := List.nodup_cons.mp nodup
      have afterwards : ∀ j' ∈ later, j' ≠ i → revents j' = .none :=
        fun j' h => others j' (List.mem_cons_of_mem _ h)
      rw [processDescriptors]
      by_cases here : j = i
      · subst here
        rw [bind_run_ok own]
        exact processDescriptors_silent
          (fun j' h => afterwards j' h fun same => absent (same ▸ h)) rest t
      · rw [bind_run_ok (processDescriptor_silent (others j List.mem_cons_self here) answers s)]
        exact ih afterwards nodup ((List.mem_cons.mp member).resolve_left (Ne.symm here))

/-- A round can bring the loop nearer to its end. -/
theorem exists_readRound {s : State n} (running : ∃ i, (s.rstates i).eof = false) :
    ∃ more a t, (∀ k ∈ more, Answer.Fine k) ∧ readRound.run more s = ⟨some (.ok a), [], t⟩ ∧
      (a = none → t.work < s.work) := by
  obtain ⟨i, running⟩ := running
  let revents : Fin n → Revents := Function.update (fun _ => .none) i .readable
  have readable : revents i = .readable := Function.update_self _ _ _
  have silent : ∀ j ≠ i, revents j = .none := fun j other => Function.update_of_ne other _ _
  obtain ⟨more, t, fine, less, done⟩ := exists_processDescriptor running readable
  have polls : poll.run (.polled revents :: more) s =
    ⟨some (.ok (some (some revents))), more, s⟩ := by
    have found : ∃ j, (s.rstates j).eof = false ∧ revents j ≠ .none :=
      ⟨i, running, by simp [readable]⟩
    have closed : ∀ j, revents j = .closed → s.left j = [] := by
      intro j closed
      by_cases same : j = i
      · cases readable.symm.trans (same ▸ closed)
      · cases (silent j same).symm.trans closed
    simp only [poll, Script.ask, if_pos (And.intro found closed)]
  have processed := processDescriptors_only (fun j _ => silent j) (List.nodup_finRange n)
    (List.mem_finRange i) done
  refine ⟨.polled revents :: more, if ∀ j, (t.rstates j).eof = true then some 0 else none, t, ?_,
    ?_, fun _ => less⟩
  · rintro k (_ | ⟨_, later⟩)
    · rfl
    · exact fine k later
  · rw [readRound, bind_run_ok polls]
    exact bind_run_ok processed

theorem readLines_steady : Steady (readLines : Code n Int) :=
  Steady.ask.bind fun _ => Steady.ite (Steady.loop readRound_asks readRound_steady) (Steady.pure _)

theorem readLines_completes (descriptors : 0 < n) :
    Completes Answer.Fine (fun s : State n => ∀ i, (s.rstates i).eof = false) readLines
      fun _ _ => True := by
  refine Completes.bind (M := fun _ s => ∃ i, (s.rstates i).eof = false) Steady.ask
    (Completes.ask (fun s _ => ⟨.calloc true, true, s, rfl, rfl⟩) ?_) fun memory =>
    Completes.ite (fun _ => ?_) fun _ => Completes.pure fun _ _ => trivial
  · intro s k memory t running _ h
    split at h
    · obtain ⟨-, rfl⟩ := Prod.mk.inj (Option.some.inj h)
      exact ⟨⟨0, descriptors⟩, running _⟩
    · cases h
  · exact Completes.loop readRound_asks readRound_steady State.work readRound_completes
      fun s running => exists_readRound running

end Code

/-- Where `read_lines` has returned and no call failed, it returned 0 and delivered everything. -/
theorem returned_parts (descriptors : 0 < n) {streams : Fin n → Str}
    (nulFree : ∀ i, NulFree (streams i)) {answers rest : List (Answer n)}
    (fine : ∀ k ∈ answers, k.Fine) {retval : Int} {t : State n}
    (run : Code.readLines.run answers (initial streams) = ⟨some (.ok retval), rest, t⟩) :
    retval = 0 ∧ ∀ i, t.linesFrom i = Lines.parts isEol (readBufSize - 1) (streams i) := by
  obtain ⟨taken, split, ends⟩ := (Code.readLines_told descriptors nulFree).ends ⟨rfl, rfl⟩
  rw [run] at split ends
  obtain ⟨delivered, returned⟩ := ends
  have noFailure : ¬ Failed taken := by
    rintro ⟨k, member, fails⟩
    have works := fine k (split ▸ List.mem_append_left rest member)
    exact Bool.false_ne_true (works.symm.trans fails)
  obtain ⟨rfl, ended⟩ := returned noFailure
  refine ⟨rfl, fun i => ?_⟩
  obtain ⟨empty, finished⟩ := (delivered i).ended (ended i)
  have lines := (delivered i).lines
  rw [empty, finished, List.append_nil, Lines.parts_nil, List.append_nil] at lines
  exact lines

/-- Whatever the reads return and in whichever order the descriptors become readable: if no call
fails, `read_lines` has returned 0 and delivered the parts of every stream, or the end of some
stream was not signalled yet, and with more answers it goes on to return 0. -/
theorem readLines_parts (descriptors : 0 < n) {streams : Fin n → Str}
    (nulFree : ∀ i, NulFree (streams i)) {answers : List (Answer n)}
    (fine : ∀ k ∈ answers, k.Fine) {r : ScriptRun (Answer n) (State n) Empty Int}
    (hr : Code.readLines.run answers (initial streams) = r) :
    (r.result = some (.ok 0) ∧
        ∀ i, r.state.linesFrom i = Lines.parts isEol (readBufSize - 1) (streams i)) ∨
      r.result = none ∧ ∃ taken more, answers = taken ++ r.rest ∧ Unended taken ∧
        (∀ k ∈ more, k.Fine) ∧
        (Code.readLines.run (taken ++ more) (initial streams)).result = some (.ok 0) := by
  obtain ⟨taken, split, ends⟩ := (Code.readLines_told descriptors nulFree).ends ⟨rfl, rfl⟩
  obtain ⟨result, rest, t⟩ := r
  rw [hr] at split ends
  have before : ∀ k ∈ taken, k.Fine := fun k h => fine k (split ▸ List.mem_append_left rest h)
  have cut := Code.readLines_steady.cut (split ▸ hr)
  have completes := Code.readLines_completes descriptors
  obtain _ | result := result
  · obtain ⟨more, retval, u, further, done, -⟩ :=
      completes taken (initial streams) none t (fun _ => rfl) before cut
    have allowed : ∀ k ∈ taken ++ more, k.Fine :=
      fun k h => (List.mem_append.mp h).elim (before k) (further k)
    obtain ⟨rfl, -⟩ := returned_parts descriptors nulFree allowed done
    exact .inr ⟨rfl, taken, more, split, ends, further, by rw [done]⟩
  · obtain ⟨retval, rfl, -⟩ :=
      completes.ended Code.readLines_steady (fun _ => rfl) before cut
    obtain ⟨rfl, lines⟩ := returned_parts descriptors nulFree fine hr
    exact .inl ⟨rfl, lines⟩

def twoStreams : Fin 2 → Str := fun i => if i.val = 0 then "one\r\ntwo".toList else "three".toList

/-- A descriptor is read in two goes, with another one and interruptions between them, and then
hung up. -/
def interleaved {n : Nat} (first second : Fin n) : List (Answer n) :=
  [.calloc true, .pollInterrupted, .polled fun i => if i = first then .readable else .none,
    .read first 4, .polled fun _ => .readable, .readInterrupted, .read second 5,
    .polled fun _ => .readable, .read first 4, .read second 0,
    .polled fun i => if i = first then .closed else .none]

theorem readLines_parts_interleaved :
    (Code.readLines.run (interleaved 0 1) (initial twoStreams)).result = some (.ok 0) ∧
      ∀ i, (Code.readLines.run (interleaved 0 1) (initial twoStreams)).state.linesFrom i =
        Lines.parts isEol (readBufSize - 1) (twoStreams i) := by
  rcases @readLines_parts 2 (by decide) twoStreams (by decide +kernel) (interleaved 0 1)
    (by simp [interleaved, Answer.Fine, Answer.fails]) _ rfl with returned | ⟨waiting, -⟩
  · exact returned
  · exact absurd waiting (by decide +kernel)

example :
    (Code.readLines.run (interleaved 0 1) (initial twoStreams)).state.linesFrom 0 =
      ["one".toList, "two".toList] := by
  decide +kernel

end Baseimage.Cinit.ReadLoop
