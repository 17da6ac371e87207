import Baseimage.Run.Script

/-!
# Try and Catch over jump buffers

C code gets exceptions from `setjmp` and `longjmp`. A `Try` puts a jump buffer into its block and
makes the frame pointer point to it; the end of the block makes it point to the previous buffer
again. `Throw` stores the exception and jumps to the buffer under the frame pointer. The `Catch`
runs its handler unless the stored exception is the one that stands for no exception.

The machine below works in this way, and knows nothing of handlers but what is in the blocks on its
stack. A jump to a buffer whose block was left is undefined. The code it runs must not leave a
`Try` by `break` or `return`: then it does what a script with handlers does.
-/

namespace Jump

/-- The statements of a function. An expression may ask the environment, and throw. -/
inductive Block (κ σ ε : Type) : Type 1
  | skip
  | eval {β : Type} (expr : Script κ σ ε β) (next : β → Block κ σ ε)
  | seq (first second : Block κ σ ε)
  /-- `while (true)`. -/
  | forever (body : Block κ σ ε)
  /-- `break`. -/
  | leave
  /-- A call of a function with this body. -/
  | call (body : Block κ σ ε)
  | ret
  /-- `Try`, and what its `Catch` does. -/
  | attempt (body : Block κ σ ε) (handler : ε → Block κ σ ε)

/-- How a statement is left. -/
inductive Flow
  | done
  | broke
  | returned
  deriving DecidableEq, Repr

/-- The exception that stands for no exception. -/
structure Marker (ε : Type) where
  none : ε
  isNone : ε → Bool

variable {κ σ ε : Type}

namespace Block

/-- What comes after a round of a loop: the next one, or what the loop is left with. -/
def afterRound : Flow → Option Flow
  | .done => none
  | .broke => some .done
  | .returned => some .returned

/-- The code as a script with handlers. -/
def script (M : Marker ε) : Block κ σ ε → Script κ σ ε Flow
  | skip => pure .done
  | eval expr next => expr >>= fun b => (next b).script M
  | seq first second => first.script M >>= fun flow =>
      if flow = .done then second.script M else pure flow
  | forever body => .loop (body.script M >>= fun flow => pure (afterRound flow))
  | leave => pure .broke
  | call body => body.script M >>= fun _ => pure .done
  | ret => pure .returned
  | attempt body handler => .tryCatch (body.script M) fun e =>
      if M.isNone e then pure .done else (handler e).script M

/-- No `Try` is left by `break` or `return`, these stand where they may, and the rounds of a loop
ask the environment something. -/
def Disciplined (M : Marker ε) (inLoop inCall : Bool) : Block κ σ ε → Prop
  | skip => True
  | eval _ next => ∀ b, (next b).Disciplined M inLoop inCall
  | seq first second =>
      first.Disciplined M inLoop inCall ∧ second.Disciplined M inLoop inCall
  | forever body => body.Disciplined M true inCall ∧ (body.script M).Asks
  | leave => inLoop = true
  | call body => body.Disciplined M false true
  | ret => inCall = true
  | attempt body handler =>
      body.Disciplined M false false ∧ ∀ e, (handler e).Disciplined M inLoop inCall

/-- What such code can be left with. -/
def LeftWith (inLoop inCall : Bool) : Flow → Prop
  | .done => True
  | .broke => inLoop = true
  | .returned => inCall = true

end Block

/-! ## The machine -/

/-- What is on the stack of the machine: what is to be done when a statement is left. -/
inductive Kont (κ σ ε : Type) : Type 1
  | next (second : Block κ σ ε)
  | again (body : Block κ σ ε)
  | returnTo
  /-- The block of a `Try`, with its jump buffer and `PrevFrame`. -/
  | frame (prevFrame : Nat) (handler : ε → Block κ σ ε)

inductive Control (κ σ ε : Type) : Type 1
  | exec (b : Block κ σ ε)
  /-- A statement was left. -/
  | go (flow : Flow)
  /-- `Throw`. -/
  | throwing (e : ε)
  | waiting
  | aborted
  /-- A jump to a buffer that is no more. -/
  | undefined

/-- A buffer is denoted by the height of the stack at its block, and `NULL` is 0. -/
structure Machine (κ σ ε : Type) : Type 1 where
  control : Control κ σ ε
  stack : List (Kont κ σ ε)
  pFrame : Nat
  exception : ε
  rest : List κ
  state : σ

namespace Machine

/-- The block of the buffer: its `PrevFrame`, its handler and what is below. -/
def frameAt (p : Nat) : List (Kont κ σ ε) → Option (Nat × (ε → Block κ σ ε) × List (Kont κ σ ε))
  | [] => none
  | k :: below =>
      if p = below.length + 1 then
        match k with
        | .frame prevFrame handler => some (prevFrame, handler, below)
        | _ => none
      else frameAt p below

/-- `longjmp`, and the `else` branch of the `setjmp` it returns from. -/
def longjmp (M : Marker ε) (m : Machine κ σ ε) (e : ε) : Machine κ σ ε :=
  match frameAt m.pFrame m.stack with
  | none => { m with exception := e, control := .undefined }
  | some (prevFrame, handler, below) =>
      { m with
        exception := e, pFrame := prevFrame, stack := below
        control := if M.isNone e then .go .done else .exec (handler e) }

/-- A statement was left, and this is on top of the stack. -/
def resume (M : Marker ε) (m : Machine κ σ ε) (flow : Flow) (below : List (Kont κ σ ε)) :
    Kont κ σ ε → Machine κ σ ε
  | .next second =>
      { m with stack := below, control := if flow = .done then .exec second else .go flow }
  | .again body =>
      match Block.afterRound flow with
      | none => { m with control := .exec body }
      | some flow => { m with stack := below, control := .go flow }
  | .returnTo => { m with stack := below, control := .go .done }
  | .frame prevFrame _ =>
      -- By `break` and `return` the end of the block is not reached.
      if flow = .done then
        { m with stack := below, exception := M.none, pFrame := prevFrame, control := .go .done }
      else { m with stack := below, control := .go flow }

def exec (M : Marker ε) (m : Machine κ σ ε) : Block κ σ ε → Machine κ σ ε
  | .skip => { m with control := .go .done }
  | .eval expr next =>
      let run := expr.run m.rest m.state
      { m with
        rest := run.rest, state := run.state
        control := match run.result with
          | some (.ok b) => .exec (next b)
          | some (.threw e) => .throwing e
          | some .aborted => .aborted
          | none => .waiting }
  | .seq first second => { m with control := .exec first, stack := .next second :: m.stack }
  | .forever body => { m with control := .exec body, stack := .again body :: m.stack }
  | .leave => { m with control := .go .broke }
  | .call body => { m with control := .exec body, stack := .returnTo :: m.stack }
  | .ret => { m with control := .go .returned }
  | .attempt body handler =>
      { m with
        control := .exec body, stack := .frame m.pFrame handler :: m.stack
        pFrame := m.stack.length + 1, exception := M.none }

variable (M : Marker ε)

/-- One step, unless the machine has come to its end. -/
def step (m : Machine κ σ ε) : Option (Machine κ σ ε) :=
  match m.control with
  | .exec b => some (m.exec M b)
  | .go flow =>
      match m.stack with
      | [] => none
      | k :: below => some (m.resume M flow below k)
  | .throwing e => if m.pFrame = 0 then none else some (m.longjmp M e)
  | .waiting | .aborted | .undefined => none

/-- Code that starts with no `Try` around it. -/
def start (b : Block κ σ ε) (answers : List κ) (s : σ) : Machine κ σ ε where
  control := .exec b
  stack := []
  pFrame := 0
  exception := M.none
  rest := answers
  state := s

def Steps (m n : Machine κ σ ε) : Prop := m.step M = some n

/-- The machine comes from the one state to the other. -/
def Reaches : Machine κ σ ε → Machine κ σ ε → Prop :=
  Relation.ReflTransGen (Steps M)

/-! ## The frame pointer -/

/-- The buffer of the innermost `Try`. -/
def innermost : List (Kont κ σ ε) → Nat
  | [] => 0
  | .frame _ _ :: below => below.length + 1
  | .next _ :: below | .again _ :: below | .returnTo :: below => innermost below

/-- Whether there may be a `break` in what runs on this stack. -/
def inLoop : List (Kont κ σ ε) → Bool
  | .next _ :: below => inLoop below
  | .again _ :: _ => true
  | _ => false

/-- Whether there may be a `return` in what runs on this stack. -/
def inCall : List (Kont κ σ ε) → Bool
  | .next _ :: below | .again _ :: below => inCall below
  | .returnTo :: _ => true
  | _ => false

/-- What is on the stack is disciplined, and each `PrevFrame` is the innermost buffer below. -/
def Sound : List (Kont κ σ ε) → Prop
  | [] => True
  | .next second :: below =>
      second.Disciplined M (inLoop below) (inCall below) ∧ Sound below
  | .again body :: below => body.Disciplined M true (inCall below) ∧ Sound below
  | .returnTo :: below => Sound below
  | .frame prevFrame handler :: below =>
      prevFrame = innermost below ∧
        (∀ e, (handler e).Disciplined M (inLoop below) (inCall below)) ∧ Sound below

/-- What the machine is about to do is allowed on its stack. -/
def Allowed (stack : List (Kont κ σ ε)) : Control κ σ ε → Prop
  | .exec b => b.Disciplined M (inLoop stack) (inCall stack)
  | .go flow => Block.LeftWith (inLoop stack) (inCall stack) flow
  | .throwing _ | .waiting | .aborted => True
  | .undefined => False

/-- The frame pointer points to the buffer of the innermost `Try` that is still on the stack. -/
structure Framed (m : Machine κ σ ε) : Prop where
  pFrame : m.pFrame = innermost m.stack
  stack : Sound M m.stack
  control : Allowed M m.stack m.control

variable {M}

theorem Sound.of_append {inner below : List (Kont κ σ ε)} (h : Sound M (inner ++ below)) :
    Sound M below := by
  induction inner with
  | nil => exact h
  | cons k inner ih =>
      cases k with
      | next second => exact ih h.2
      | again body => exact ih h.2
      | returnTo => exact ih h
      | frame prevFrame handler => exact ih h.2.2

theorem frameAt_append {inner below : List (Kont κ σ ε)} {p : Nat} (hp : p ≤ below.length) :
    frameAt p (inner ++ below) = frameAt p below := by
  induction inner with
  | nil => rfl
  | cons k inner ih =>
      have higher : p ≠ (inner ++ below).length + 1 := by
        rw [List.length_append]
        omega
      exact (if_neg higher).trans ih

@[simp] theorem frameAt_frame {prevFrame : Nat} {handler : ε → Block κ σ ε}
    {below : List (Kont κ σ ε)} :
    frameAt (below.length + 1) (.frame prevFrame handler :: below) =
      some (prevFrame, handler, below) := if_pos rfl

/-- Where there is a `Try`, the innermost one is the one with no other above it. -/
theorem innermost_cases (stack : List (Kont κ σ ε)) :
    innermost stack = 0 ∨
      ∃ inner prevFrame handler below, stack = inner ++ .frame prevFrame handler :: below ∧
        innermost inner = 0 ∧ innermost stack = below.length + 1 := by
  induction stack with
  | nil => exact .inl rfl
  | cons k stack ih =>
      cases k with
      | frame prevFrame handler => exact .inr ⟨[], prevFrame, handler, stack, rfl, rfl, rfl⟩
      | _ =>
          rcases ih with none | ⟨inner, prevFrame, handler, below, rfl, above, height⟩
          · exact .inl none
          · exact .inr ⟨_ :: inner, prevFrame, handler, below, rfl, above, height⟩

/-- A `Throw` goes to the innermost `Try`, which ends with it. -/
theorem Framed.longjmp {m : Machine κ σ ε} {e : ε} (h : Framed M m) (caught : m.pFrame ≠ 0) :
    ∃ inner handler below, m.stack = inner ++ .frame (innermost below) handler :: below ∧
      innermost inner = 0 ∧
      m.longjmp M e =
        { m with
          exception := e, pFrame := innermost below, stack := below
          control := if M.isNone e then .go .done else .exec (handler e) } := by
  rcases innermost_cases
    m.stack with outermost | ⟨inner, prevFrame, handler, below, split, above, height⟩
  · exact absurd (h.pFrame.trans outermost) caught
  · have sound := split ▸ h.stack
    obtain ⟨rfl, -⟩ := sound.of_append
    refine ⟨inner, handler, below, split, above, ?_⟩
    have found : frameAt m.pFrame m.stack = some (innermost below, handler, below) := by
      rw [h.pFrame, height, split, frameAt_append (by simp), frameAt_frame]
    rw [Machine.longjmp, found]

theorem Framed.exec {m : Machine κ σ ε} {b : Block κ σ ε} (h : Framed M m)
    (hb : b.Disciplined M (inLoop m.stack) (inCall m.stack)) :
    Framed M (m.exec M b) := by
  cases b with
  | skip => exact ⟨h.pFrame, h.stack, trivial⟩
  | leave => exact ⟨h.pFrame, h.stack, hb⟩
  | ret => exact ⟨h.pFrame, h.stack, hb⟩
  | seq first second => exact ⟨h.pFrame, ⟨hb.2, h.stack⟩, hb.1⟩
  | forever body => exact ⟨h.pFrame, ⟨hb.1, h.stack⟩, hb.1⟩
  | call body => exact ⟨h.pFrame, h.stack, hb⟩
  | attempt body handler => exact ⟨rfl, ⟨h.pFrame, hb.2, h.stack⟩, hb.1⟩
  | eval expr next =>
      refine ⟨h.pFrame, h.stack, ?_⟩
      simp only [Machine.exec]
      split
      · exact hb _
      · trivial
      · trivial
      · trivial

theorem Framed.resume {m : Machine κ σ ε} {flow : Flow} {k : Kont κ σ ε}
    {below : List (Kont κ σ ε)} (h : Framed M m) (left : m.control = .go flow)
    (top : m.stack = k :: below) : Framed M (m.resume M flow below k) := by
  obtain ⟨pFrame, sound, allowed⟩ := h
  rw [top] at pFrame sound allowed
  rw [left] at allowed
  cases k with
  | next second =>
      refine ⟨pFrame, sound.2, ?_⟩
      cases flow with
      | done => exact sound.1
      | broke => exact allowed
      | returned => exact allowed
  | again body =>
      cases flow with
      | done => exact ⟨top ▸ pFrame, top ▸ sound, top ▸ sound.1⟩
      | broke => exact ⟨pFrame, sound.2, trivial⟩
      | returned => exact ⟨pFrame, sound.2, allowed⟩
  | returnTo => exact ⟨pFrame, sound, trivial⟩
  | frame prevFrame handler =>
      cases flow with
      | done => exact ⟨sound.1, sound.2.2, trivial⟩
      | broke => cases allowed
      | returned => cases allowed

theorem Framed.step {m n : Machine κ σ ε} (h : Framed M m) (steps : Steps M m n) :
    Framed M n := by
  unfold Steps Machine.step at steps
  split at steps
  · next b control =>
      obtain rfl := Option.some.inj steps
      exact h.exec (control ▸ h.control : Allowed M m.stack (.exec b))
  · next flow control =>
      split at steps
      · cases steps
      · next k below top =>
          obtain rfl := Option.some.inj steps
          exact h.resume control top
  · next e control =>
      obtain ⟨caught, steps⟩ := Option.ite_none_left_eq_some.mp steps
      obtain rfl := Option.some.inj steps
      obtain ⟨inner, handler, below, split, -, jump⟩ := h.longjmp (e := e) caught
      have sound := split ▸ h.stack
      obtain ⟨-, handlers, sound⟩ := sound.of_append
      rw [jump]
      refine ⟨rfl, sound, ?_⟩
      show Allowed M below (if M.isNone e then _ else _)
      split
      · trivial
      · exact handlers e
  all_goals cases steps

/-- The frame pointer is right in every state of a run. -/
theorem Framed.reaches {m n : Machine κ σ ε} (h : Framed M m)
    (reaches : Reaches M m n) : Framed M n := by
  induction reaches with
  | refl => exact h
  | tail _ steps ih => exact ih.step steps

theorem framed_start {b : Block κ σ ε} (hb : b.Disciplined M false false) (answers : List κ)
    (s : σ) : Framed M (start M b answers s) := ⟨rfl, trivial, hb⟩

/-- A `return` out of a `Try` leaves the frame pointer as it is, and a later `Throw` jumps to a
buffer that is no more. -/
example (handler : Nat → Block Unit Unit Nat) :
    let code : Block Unit Unit Nat := .seq (.call (.attempt .ret handler))
      (.eval (.ofOutcome (.threw 1)) fun _ : Unit => .skip)
    let run := (fun m => (step { none := 0, isNone := (· == 0) } m).getD m)^[9]
    (run (start { none := 0, isNone := (· == 0) } code [] ())).control = .undefined := rfl

/-! ## The machine does what the script does -/

theorem left_with {b : Block κ σ ε} {inLoop inCall : Bool}
    (hb : b.Disciplined M inLoop inCall) :
    Script.Spec (fun _ => True) (b.script M)
      (fun flow _ => Block.LeftWith inLoop inCall flow) (fun _ _ => True) fun _ => True := by
  have any {α : Type} (m : Script κ σ ε α) : m.Spec (fun _ => True) (fun _ _ => True)
      (fun _ _ => True) fun _ => True := by
    intro answers s _
    unfold Script.Ends
    split <;> trivial
  induction b generalizing inLoop inCall with
  | skip => exact Script.Spec.pure fun _ _ => trivial
  | leave => exact Script.Spec.pure fun _ _ => hb
  | ret => exact Script.Spec.pure fun _ _ => hb
  | eval expr next ih => exact (any expr).step fun b => ih b (hb b)
  | call body => exact (any _).step fun _ => Script.Spec.pure fun _ _ => trivial
  | seq first second ih₁ ih₂ =>
      refine (ih₁ hb.1).bind fun flow => Script.Spec.ite (fun _ => ?_) fun _ => ?_
      · exact (ih₂ hb.2).pre fun _ _ => trivial
      · exact Script.Spec.pure fun _ left => left
  | forever body ih =>
      refine Script.Spec.loop (fun _ _ => trivial) ((ih hb.1).bind fun flow => Script.Spec.pure ?_)
      intro s left
      cases flow with
      | done => trivial
      | broke => trivial
      | returned => exact left
  | attempt body handler ihBody ih =>
      refine Script.Spec.tryCatch (T := fun _ _ => True) ?_ fun e =>
        Script.Spec.ite (fun _ => ?_) fun _ => ?_
      · refine (ihBody hb.1).consequence (fun _ hs => hs) ?_ (fun _ _ _ => trivial) fun _ hs => hs
        intro flow _ left
        cases flow with
        | done => trivial
        | broke => cases left
        | returned => cases left
      · exact Script.Spec.pure fun _ _ => trivial
      · exact ih e (hb.2 e)

/-- Where the machine comes to with a statement, above the stack and the frame pointer it had. -/
structure Ended (under : List (Kont κ σ ε)) (pFrame : Nat) (run : ScriptRun κ σ ε Flow)
    (m : Machine κ σ ε) : Prop where
  rest : m.rest = run.rest
  state : m.state = run.state
  left : ∀ flow, run.result = some (.ok flow) →
    m.control = .go flow ∧ m.stack = under ∧ m.pFrame = pFrame
  threw : ∀ e, run.result = some (.threw e) →
    m.control = .throwing e ∧ under <:+ m.stack ∧ m.pFrame = pFrame
  aborted : run.result = some .aborted → m.control = .aborted
  waiting : run.result = none → m.control = .waiting

variable {under : List (Kont κ σ ε)} {pFrame : Nat} {run : ScriptRun κ σ ε Flow}
variable {m n : Machine κ σ ε} {b : Block κ σ ε} {k : Kont κ σ ε}

theorem Ended.ok {rest : List κ} {state : σ} {flow : Flow} (hrest : m.rest = rest)
    (hstate : m.state = state) (hpFrame : m.pFrame = pFrame) (control : m.control = .go flow)
    (stack : m.stack = under) : Ended under pFrame ⟨some (.ok flow), rest, state⟩ m where
  rest := hrest
  state := hstate
  left _ same := by
    cases same
    exact ⟨control, stack, hpFrame⟩
  threw _ same := by cases same
  aborted same := by cases same
  waiting same := by cases same

/-- Where nothing is thrown and nothing left, the stack does not matter. -/
theorem Ended.stopped {under' : List (Kont κ σ ε)} {pFrame' : Nat}
    (h : Ended under' pFrame' run m) (stopped : run.result.all (· matches .aborted)) :
    Ended under pFrame run m where
  rest := h.rest
  state := h.state
  left flow same := by
    rw [same] at stopped
    cases stopped
  threw e same := by
    rw [same] at stopped
    cases stopped
  aborted := h.aborted
  waiting := h.waiting

/-- What comes after a statement that is on top of another one. -/
theorem Ended.bind {f : Flow → Script κ σ ε Flow} {script : Script κ σ ε Flow} {answers : List κ}
    {s : σ} (h : Ended (k :: under) pFrame (script.run answers s) m)
    (next : ∀ flow, m.control = .go flow → m.stack = k :: under → m.pFrame = pFrame →
      (script.run answers s).result = some (.ok flow) →
      ∃ n, Reaches M (m.resume M flow under k) n ∧
        Ended under pFrame ((f flow).run m.rest m.state) n) :
    ∃ n, Reaches M m n ∧ Ended under pFrame ((script >>= f).run answers s) n := by
  rw [Script.bind_run]
  generalize script.run answers s = run at h next ⊢
  obtain ⟨result, rest, state⟩ := run
  match result with
  | none => exact ⟨m, .refl, h.stopped rfl⟩
  | some .aborted => exact ⟨m, .refl, h.stopped rfl⟩
  | some (.threw e) =>
      obtain ⟨control, below, hpFrame⟩ := h.threw e rfl
      refine ⟨m, .refl, ⟨h.rest, h.state, nofun, ?_, nofun, nofun⟩⟩
      rintro _ ⟨⟩
      exact ⟨control, (List.suffix_cons k under).trans below, hpFrame⟩
  | some (.ok flow) =>
      obtain ⟨control, stack, hpFrame⟩ := h.left flow rfl
      obtain ⟨n, reaches, ended⟩ := next flow control stack hpFrame rfl
      rw [h.rest, h.state] at ended
      refine ⟨n, .head ?_ reaches, ended⟩
      simp only [Steps, Machine.step, control, stack]

theorem exec_reaches (control : m.control = .exec b) (h : Reaches M (m.exec M b) n) :
    Reaches M m n :=
  .head (by simp only [Steps, Machine.step, control]) h

/-- The rounds of a loop, on a stack from which they go on. -/
theorem forever_ended {body : Block κ σ ε} (asks : (body.script M).Asks)
    (round : ∀ m : Machine κ σ ε, m.control = .exec body → m.stack = .again body :: under →
      m.pFrame = pFrame → ∃ n, Reaches M m n ∧
        Ended (.again body :: under) pFrame ((body.script M).run m.rest m.state) n)
    (control : m.control = .exec body) (stack : m.stack = .again body :: under)
    (hpFrame : m.pFrame = pFrame) :
    ∃ n, Reaches M m n ∧
      Ended under pFrame (((Block.forever body).script M).run m.rest m.state) n := by
  have rounds : (body.script M >>= fun flow => pure (Block.afterRound flow) :
      Script κ σ ε (Option Flow)).Asks := asks.bind _
  have unfolded : (Block.forever body).script M = body.script M >>= fun flow =>
      (Block.afterRound flow).elim ((Block.forever body).script M) pure := by
    refine (Script.loop_eq rounds).trans ?_
    rw [Script.bind_assoc]
    rfl
  -- Each round leaves fewer answers.
  induction remaining : m.rest.length using Nat.strongRecOn generalizing m with
  | ind _ ih =>
      subst remaining
      obtain ⟨n, reaches, ended⟩ := round m control stack hpFrame
      rw [unfolded]
      obtain ⟨n', reaches', ended'⟩ := Ended.bind (M := M)
        (f := fun flow => (Block.afterRound flow).elim ((Block.forever body).script M) pure) ended
        fun flow control stack hpFrame result => by
          cases flow with
          | broke => exact ⟨_, .refl, .ok rfl rfl hpFrame rfl rfl⟩
          | returned => exact ⟨_, .refl, .ok rfl rfl hpFrame rfl rfl⟩
          | done =>
              have fewer : n.rest.length < m.rest.length := by
                rw [ended.rest]
                exact asks _ _ _ result
              have again : (n.resume M .done under (.again body)).control = .exec body := rfl
              exact ih _ fewer again stack hpFrame rfl
      exact ⟨n', reaches.trans reaches', ended'⟩

/-- A throw in the body of a `Try` is caught there. -/
theorem throwing_steps {handler : ε → Block κ σ ε} {prevFrame : Nat} {e : ε}
    (control : m.control = .throwing e) (below : .frame prevFrame handler :: under <:+ m.stack)
    (hpFrame : m.pFrame = under.length + 1) :
    Steps M m { m with
      exception := e, pFrame := prevFrame, stack := under
      control := if M.isNone e then .go .done else .exec (handler e) } := by
  obtain ⟨inner, split⟩ := below
  have found : frameAt m.pFrame m.stack = some (prevFrame, handler, under) := by
    rw [hpFrame, ← split, frameAt_append (by simp), frameAt_frame]
  have caught : m.pFrame ≠ 0 := by omega
  simp only [Steps, Machine.step, control, Machine.longjmp, found, if_neg caught]

/-- From a statement the machine comes to where the script of the statement ends. -/
theorem simulates {inLoop inCall : Bool} (hb : b.Disciplined M inLoop inCall)
    (control : m.control = .exec b) :
    ∃ n, Reaches M m n ∧
      Ended m.stack m.pFrame ((b.script M).run m.rest m.state) n := by
  induction b generalizing m inLoop inCall with
  | skip => exact ⟨_, exec_reaches control .refl, .ok rfl rfl rfl rfl rfl⟩
  | leave => exact ⟨_, exec_reaches control .refl, .ok rfl rfl rfl rfl rfl⟩
  | ret => exact ⟨_, exec_reaches control .refl, .ok rfl rfl rfl rfl rfl⟩
  | eval expr next ih =>
      rw [Block.script, Script.bind_run]
      cases result : (expr.run m.rest m.state).result with
      | none =>
          refine ⟨_, exec_reaches control .refl, ⟨rfl, rfl, nofun, nofun, nofun, fun _ => ?_⟩⟩
          simp only [Machine.exec, result]
      | some outcome =>
          cases outcome with
          | ok value =>
              obtain ⟨n, reaches, ended⟩ := ih value (m := m.exec M (.eval expr next)) (hb value)
                (by simp only [Machine.exec, result])
              exact ⟨n, exec_reaches control reaches, ended⟩
          | threw e =>
              refine ⟨_, exec_reaches control .refl, ⟨rfl, rfl, nofun, ?_, nofun, nofun⟩⟩
              rintro _ ⟨⟩
              exact ⟨by simp only [Machine.exec, result], List.suffix_rfl, rfl⟩
          | aborted =>
              refine ⟨_, exec_reaches control .refl, ⟨rfl, rfl, nofun, nofun, fun _ => ?_, nofun⟩⟩
              simp only [Machine.exec, result]
  | seq first second ih₁ ih₂ =>
      obtain ⟨n, reaches, ended⟩ := ih₁ (m := m.exec M (.seq first second)) hb.1 rfl
      obtain ⟨n', reaches', ended'⟩ := Ended.bind (M := M)
        (f := fun flow => if flow = .done then second.script M else pure flow) ended
        fun flow _ _ hpFrame _ => by
          by_cases done : flow = .done
          · obtain ⟨n', reaches', ended'⟩ := ih₂ (m := n.resume M flow m.stack (.next second))
              hb.2 (if_pos done)
            rw [if_pos done]
            exact ⟨n', reaches', hpFrame ▸ ended'⟩
          · rw [if_neg done]
            exact ⟨_, .refl, .ok rfl rfl hpFrame (if_neg done) rfl⟩
      exact ⟨n', exec_reaches control (reaches.trans reaches'), ended'⟩
  | forever body ih =>
      have round : ∀ m' : Machine κ σ ε, m'.control = .exec body →
        m'.stack = .again body :: m.stack →
          m'.pFrame = m.pFrame → ∃ n, Reaches M m' n ∧
            Ended (.again body :: m.stack) m.pFrame ((body.script M).run m'.rest m'.state) n := by
        intro m' control stack hpFrame
        rw [← stack, ← hpFrame]
        exact ih hb.1 control
      obtain ⟨n, reaches, ended⟩ := forever_ended (m := m.exec M (.forever body)) hb.2 round
        rfl rfl rfl
      exact ⟨n, exec_reaches control reaches, ended⟩
  | call body ih =>
      obtain ⟨n, reaches, ended⟩ := ih (m := m.exec M (.call body)) hb rfl
      obtain ⟨n', reaches', ended'⟩ := Ended.bind (M := M)
        (f := fun _ => pure .done) ended fun flow _ _ hpFrame _ =>
        ⟨_, .refl, .ok rfl rfl hpFrame rfl rfl⟩
      exact ⟨n', exec_reaches control (reaches.trans reaches'), ended'⟩
  | attempt body handler ihBody ih =>
      obtain ⟨n, reaches, ended⟩ := ihBody (m := m.exec M (.attempt body handler)) hb.1 rfl
      have start : Reaches M m n := exec_reaches control reaches
      have left : Script.Ends _ _ _ ((body.script M).run m.rest m.state) :=
        left_with hb.1 m.rest m.state trivial
      rw [Block.script, Script.tryCatch_run]
      change Ended (.frame m.pFrame handler :: m.stack) (m.stack.length + 1)
        ((body.script M).run m.rest m.state) n at ended
      generalize (body.script M).run m.rest m.state = run at ended left ⊢
      obtain ⟨result, rest, state⟩ := run
      match result with
      | none => exact ⟨n, start, ended.stopped rfl⟩
      | some .aborted => exact ⟨n, start, ended.stopped rfl⟩
      | some (.ok .broke) => cases left
      | some (.ok .returned) => cases left
      | some (.ok .done) =>
          obtain ⟨control, stack, -⟩ := ended.left _ rfl
          have left : Steps M n (n.resume M .done m.stack (.frame m.pFrame handler)) := by
            simp only [Steps, Machine.step, control, stack]
          exact ⟨_, start.tail left, .ok ended.rest ended.state rfl rfl rfl⟩
      | some (.threw e) =>
          obtain ⟨control, below, hpFrame⟩ := ended.threw e rfl
          have caught := start.tail (throwing_steps (M := M) control below hpFrame)
          by_cases exits : M.isNone e
          · rw [if_pos exits] at caught
            simp only [if_pos exits]
            exact ⟨_, caught, .ok ended.rest ended.state rfl rfl rfl⟩
          · rw [if_neg exits] at caught
            simp only [if_neg exits]
            obtain ⟨n', reaches', ended'⟩ := ih e (m := { n with
              exception := e, pFrame := m.pFrame, stack := m.stack, control := .exec (handler e) })
              (hb.2 e) rfl
            rw [ended.rest, ended.state] at ended'
            exact ⟨n', caught.trans reaches', ended'⟩

/-! ## Whole runs -/

/-- A run has come to its end. -/
def Halted (M : Marker ε) (m : Machine κ σ ε) : Prop := m.step M = none

theorem Reaches.of_halted (reaches : Reaches M m n) (halted : Halted M m) : n = m := by
  cases reaches using Relation.ReflTransGen.head_induction_on with
  | refl => rfl
  | head steps _ => exact absurd (steps.symm.trans halted) (Option.some_ne_none _)

/-- All that comes from one state is on one run. -/
theorem Reaches.to_halted {last : Machine κ σ ε} (reaches : Reaches M m n)
    (ends : Reaches M m last) (halted : Halted M last) : Reaches M n last := by
  induction reaches with
  | refl => exact ends
  | tail _ steps ih =>
      cases ih using Relation.ReflTransGen.head_induction_on with
      | refl => exact absurd (steps.symm.trans halted) (Option.some_ne_none _)
      | head steps' later =>
          obtain rfl := Option.some.inj (steps.symm.trans steps')
          exact later

/-- Code that starts with no `Try` around it halts where its script ends. -/
theorem start_halts (hb : b.Disciplined M false false) (answers : List κ) (s : σ) :
    ∃ last, Reaches M (start M b answers s) last ∧ Halted M last ∧
      Ended [] 0 ((b.script M).run answers s) last := by
  obtain ⟨last, reaches, ended⟩ := simulates (M := M) (m := start M b answers s) hb rfl
  refine ⟨last, reaches, ?_, ended⟩
  change Ended [] 0 ((b.script M).run answers s) last at ended
  generalize (b.script M).run answers s = run at ended
  obtain ⟨result, rest, state⟩ := run
  match result with
  | none => simp only [Halted, Machine.step, ended.waiting rfl]
  | some .aborted => simp only [Halted, Machine.step, ended.aborted rfl]
  | some (.ok flow) =>
      obtain ⟨control, stack, -⟩ := ended.left flow rfl
      simp only [Halted, Machine.step, control, stack]
  | some (.threw e) =>
      obtain ⟨control, -, hpFrame⟩ := ended.threw e rfl
      simp only [Halted, Machine.step, control, if_pos hpFrame]

/-- A run is at its end where the machine cannot go on, and that is where the script ends. -/
theorem Reaches.ended (hb : b.Disciplined M false false) {answers : List κ} {s : σ}
    (reaches : Reaches M (start M b answers s) n) (halted : Halted M n) :
    Ended [] 0 ((b.script M).run answers s) n := by
  obtain ⟨last, ends, halts, ended⟩ := start_halts hb answers s
  obtain rfl := (reaches.to_halted ends halts).of_halted halted
  exact ended

end Machine

end Jump
