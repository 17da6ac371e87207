import Baseimage.Run.Outcome

/-!
# Sequential code that asks its environment

A script works on a state of its own, throws and asserts, and asks its environment questions. A
run is given the answers of the environment in the order of the questions. It stops when there is
no answer left or when the next one does not answer the question that is asked, so the runs over
all lists of answers pass all states in which the script waits for its environment.

The rules are those of partial correctness, with one condition for each way a run ends: it
returns, it throws, or it is stopped or aborted.
-/

universe u v

/-- Where a run has come to: what it ended with, if it did, the answers left, and the state. -/
structure ScriptRun (κ σ ε : Type u) (α : Type v) where
  result : Option (Outcome ε α)
  rest : List κ
  state : σ

/-- Code that takes the answers of its environment from the front of a list. -/
@[ext]
structure Script (κ σ ε : Type u) (α : Type v) where
  run : List κ → σ → ScriptRun κ σ ε α
  suffix : ∀ answers s, (run answers s).rest <:+ answers

namespace Script

variable {κ σ ε : Type u} {α β : Type v}

/-- Go on with the value that was returned. -/
protected def bind (m : Script κ σ ε α) (f : α → Script κ σ ε β) : Script κ σ ε β where
  run answers s :=
    let first := m.run answers s
    match first.result with
    | some (.ok a) => (f a).run first.rest first.state
    | some (.threw e) => ⟨some (.threw e), first.rest, first.state⟩
    | some .aborted => ⟨some .aborted, first.rest, first.state⟩
    | none => ⟨none, first.rest, first.state⟩
  suffix answers s := by
    have first := m.suffix answers s
    dsimp only
    split
    · exact ((f _).suffix _ _).trans first
    · exact first
    · exact first
    · exact first

/-- End with a result, without asking anything. -/
def ofOutcome (result : Outcome ε α) : Script κ σ ε α where
  run answers s := ⟨some result, answers, s⟩
  suffix answers _ := List.suffix_refl answers

instance : Monad (Script κ σ ε) where
  pure a := ofOutcome (.ok a)
  bind := Script.bind

def abort : Script κ σ ε α := ofOutcome .aborted

def get : Script κ σ ε σ where
  run answers s := ⟨some (.ok s), answers, s⟩
  suffix answers _ := List.suffix_refl answers

def modify (f : σ → σ) : Script κ σ ε PUnit where
  run answers s := ⟨some (.ok ⟨⟩), answers, f s⟩
  suffix answers _ := List.suffix_refl answers

/-- Ask the environment. The answers that fit are the ones accepted in the current state. -/
def ask (accept : σ → κ → Option (α × σ)) : Script κ σ ε α where
  run
    | [], s => ⟨none, [], s⟩
    | k :: answers, s =>
        match accept s k with
        | none => ⟨none, k :: answers, s⟩
        | some (a, t) => ⟨some (.ok a), answers, t⟩
  suffix answers s := by
    cases answers with
    | nil => exact List.suffix_refl []
    | cons k answers =>
        dsimp only
        split
        · exact List.suffix_refl _
        · exact List.suffix_cons k answers

/-- Run the handler when the code throws. -/
def tryCatch (m : Script κ σ ε α) (handler : ε → Script κ σ ε α) : Script κ σ ε α where
  run answers s :=
    let first := m.run answers s
    match first.result with
    | some (.threw e) => (handler e).run first.rest first.state
    | _ => first
  suffix answers s := by
    have first := m.suffix answers s
    dsimp only
    split
    · exact ((handler _).suffix _ _).trans first
    · exact first

/-- Wait for an answer that never comes. -/
def stop : Script κ σ ε α where
  run answers s := ⟨none, answers, s⟩
  suffix answers _ := List.suffix_refl answers

/-- Repeat the body, at most so many times, until it gives a value. -/
def repeatUpTo (body : Script κ σ ε (Option α)) : Nat → Script κ σ ε α
  | 0 => stop
  | n + 1 => body >>= fun
      | some a => pure a
      | none => repeatUpTo body n

/-- Repeat the body until it gives a value. -/
def loop (body : Script κ σ ε (Option α)) : Script κ σ ε α where
  run answers s := (repeatUpTo body (answers.length + 1)).run answers s
  suffix answers s := (repeatUpTo body (answers.length + 1)).suffix answers s

def forEach : List β → (β → Script κ σ ε PUnit) → Script κ σ ε PUnit
  | [], _ => pure ⟨⟩
  | x :: xs, f => f x >>= fun _ => forEach xs f

/-! ## One question at a time -/

theorem bind_assoc {γ : Type v} (m : Script κ σ ε α) (f : α → Script κ σ ε β)
    (g : β → Script κ σ ε γ) : m >>= f >>= g = m >>= fun a => f a >>= g := by
  ext1
  funext answers s
  change ((m.bind f).bind g).run answers s = (m.bind fun a => (f a).bind g).run answers s
  simp only [Script.bind]
  cases (m.run answers s).result with
  | none => rfl
  | some result => cases result <;> rfl

/-- A script that begins with a question is stopped there, or goes on with the first answer. -/
theorem ask_bind_run {accept : σ → κ → Option (α × σ)} {f : α → Script κ σ ε β}
    {property : ScriptRun κ σ ε β → Prop} {answers : List κ} {s : σ}
    (stopped : property ⟨none, answers, s⟩)
    (answered : ∀ k rest a t, answers = k :: rest → accept s k = some (a, t) →
      property ((f a).run rest t)) : property ((ask accept >>= f).run answers s) := by
  change property (((ask accept).bind f).run answers s)
  cases answers with
  | nil => exact stopped
  | cons k rest =>
      cases h : accept s k with
      | none => simpa only [Script.bind, ask, h] using stopped
      | some found =>
          obtain ⟨a, t⟩ := found
          simpa only [Script.bind, ask, h] using answered k rest a t rfl h

theorem bind_run (m : Script κ σ ε α) (f : α → Script κ σ ε β) (answers : List κ) (s : σ) :
    (m >>= f).run answers s =
      match (m.run answers s).result with
      | some (.ok a) => (f a).run (m.run answers s).rest (m.run answers s).state
      | some (.threw e) => ⟨some (.threw e), (m.run answers s).rest, (m.run answers s).state⟩
      | some .aborted => ⟨some .aborted, (m.run answers s).rest, (m.run answers s).state⟩
      | none => ⟨none, (m.run answers s).rest, (m.run answers s).state⟩ := rfl

theorem pure_bind_run (a : α) (f : α → Script κ σ ε β) (answers : List κ) (s : σ) :
    (pure a >>= f).run answers s = (f a).run answers s := rfl

theorem modify_bind_run (f : σ → σ) (g : PUnit → Script κ σ ε β) (answers : List κ) (s : σ) :
    (modify f >>= g).run answers s = (g ⟨⟩).run answers (f s) := rfl

theorem bind_run_ok {m : Script κ σ ε α} {f : α → Script κ σ ε β} {answers rest : List κ}
    {s t : σ} {a : α} (h : m.run answers s = ⟨some (.ok a), rest, t⟩) :
    (m >>= f).run answers s = (f a).run rest t := by
  rw [bind_run, h]

/-- A sequence that returned has come through both of its parts. -/
theorem bind_run_eq_ok {m : Script κ σ ε α} {f : α → Script κ σ ε β} {answers rest : List κ}
    {s t : σ} {b : β} (h : (m >>= f).run answers s = ⟨some (.ok b), rest, t⟩) :
    ∃ a mid u, m.run answers s = ⟨some (.ok a), mid, u⟩ ∧
      (f a).run mid u = ⟨some (.ok b), rest, t⟩ := by
  rw [bind_run] at h
  split at h
  · next a result => exact ⟨a, _, _, by rw [← result], h⟩
  all_goals simp at h

theorem bind_result_eq_ok {m : Script κ σ ε α} {f : α → Script κ σ ε β} {answers : List κ} {s : σ}
    {b : β} (h : ((m >>= f).run answers s).result = some (.ok b)) :
    ∃ a mid u, m.run answers s = ⟨some (.ok a), mid, u⟩ ∧
      ((f a).run mid u).result = some (.ok b) := by
  rw [bind_run] at h
  split at h
  · next a result => exact ⟨a, _, _, by rw [← result], h⟩
  all_goals simp at h

/-- A question that was answered. -/
theorem ask_run_eq_ok {accept : σ → κ → Option (α × σ)} {answers rest : List κ} {s t : σ} {a : α}
    (h : (ask accept : Script κ σ ε α).run answers s = ⟨some (.ok a), rest, t⟩) :
    ∃ k, answers = k :: rest ∧ accept s k = some (a, t) := by
  cases answers with
  | nil => simp [ask] at h
  | cons k answers =>
      simp only [ask] at h
      split at h
      · simp at h
      · next found =>
          cases h
          exact ⟨k, rfl, found⟩

theorem tryCatch_run (m : Script κ σ ε α) (handler : ε → Script κ σ ε α) (answers : List κ)
    (s : σ) :
    (tryCatch m handler).run answers s =
      match (m.run answers s).result with
      | some (.threw e) => (handler e).run (m.run answers s).rest (m.run answers s).state
      | _ => m.run answers s := rfl

/-! ## What holds when a run has ended -/

variable {P P' : σ → Prop} {Q Q' : α → σ → Prop} {E E' : ε → σ → Prop} {R R' : σ → Prop}

/-- The condition for the way a run has ended: it returned, it threw, or neither. -/
def Ends (Q : α → σ → Prop) (E : ε → σ → Prop) (R : σ → Prop) (r : ScriptRun κ σ ε α) : Prop :=
  match r.result with
  | some (.ok a) => Q a r.state
  | some (.threw e) => E e r.state
  | some .aborted => R r.state
  | none => R r.state

/-- Every run from a state in `P` ends in a state that meets the condition for its end. -/
def Spec (P : σ → Prop) (m : Script κ σ ε α) (Q : α → σ → Prop) (E : ε → σ → Prop)
    (R : σ → Prop) : Prop :=
  ∀ answers s, P s → Ends Q E R (m.run answers s)

/-- Every run from a state in `I` ends in such a state, whichever way it ends. -/
def Keeps (I : σ → Prop) (m : Script κ σ ε α) : Prop :=
  Spec I m (fun _ => I) (fun _ => I) I

theorem Ends.mono {r : ScriptRun κ σ ε α} (h : Ends Q E R r) (ok : ∀ a s, Q a s → Q' a s)
    (threw : ∀ e s, E e s → E' e s) (stopped : ∀ s, R s → R' s) : Ends Q' E' R' r := by
  unfold Ends at h ⊢
  split at h
  · exact ok _ _ h
  · exact threw _ _ h
  · exact stopped _ h
  · exact stopped _ h

theorem Spec.consequence {m : Script κ σ ε α} (h : Spec P m Q E R) (pre : ∀ s, P' s → P s)
    (ok : ∀ a s, Q a s → Q' a s) (threw : ∀ e s, E e s → E' e s) (stopped : ∀ s, R s → R' s) :
    Spec P' m Q' E' R' :=
  fun answers s hs => (h answers s (pre s hs)).mono ok threw stopped

theorem Spec.pre {m : Script κ σ ε α} (h : Spec P m Q E R) (pre : ∀ s, P' s → P s) :
    Spec P' m Q E R :=
  fun answers s hs => h answers s (pre s hs)

/-- Keep the state the run begins in. -/
theorem Spec.with_entry {m : Script κ σ ε α} (h : ∀ s, P s → Spec (fun t => t = s) m Q E R) :
    Spec P m Q E R :=
  fun answers s hs => h s hs answers s rfl

theorem Spec.of_exists {ι : Sort*} {T : ι → σ → Prop} {m : Script κ σ ε α}
    (h : ∀ i, Spec (T i) m Q E R) : Spec (fun s => ∃ i, T i s) m Q E R :=
  fun answers s ⟨i, hs⟩ => h i answers s hs

theorem Spec.pure {a : α} (h : ∀ s, P s → Q a s) : Spec P (pure a : Script κ σ ε α) Q E R :=
  fun _ s hs => h s hs

theorem Spec.abort (h : ∀ s, P s → R s) : Spec P (abort : Script κ σ ε α) Q E R :=
  fun _ s hs => h s hs

theorem Spec.get {Q : σ → σ → Prop} (h : ∀ s, P s → Q s s) :
    Spec P (get : Script κ σ ε σ) Q E R :=
  fun _ s hs => h s hs

theorem Spec.modify {Q : PUnit → σ → Prop} {f : σ → σ} (h : ∀ s, P s → Q ⟨⟩ (f s)) :
    Spec P (modify f : Script κ σ ε PUnit) Q E R :=
  fun _ s hs => h s hs

theorem Spec.ask {accept : σ → κ → Option (α × σ)} (stopped : ∀ s, P s → R s)
    (answered : ∀ s k a t, P s → accept s k = some (a, t) → Q a t) :
    Spec P (ask accept : Script κ σ ε α) Q E R := by
  intro answers s hs
  cases answers with
  | nil => exact stopped s hs
  | cons k answers =>
      simp only [Ends, Script.ask]
      cases h : accept s k with
      | none => exact stopped s hs
      | some found => exact answered s k found.1 found.2 hs h

theorem Spec.bind {m : Script κ σ ε α} {f : α → Script κ σ ε β} {M : α → σ → Prop}
    {Q : β → σ → Prop} (first : Spec P m M E R) (rest : ∀ a, Spec (M a) (f a) Q E R) :
    Spec P (m >>= f) Q E R := by
  intro answers s hs
  have h := first answers s hs
  change Ends Q E R ((m.bind f).run answers s)
  unfold Ends at h
  simp only [Script.bind]
  split at h
  · exact rest _ _ _ h
  · exact h
  · exact h
  · exact h

/-- A first part that gives back the condition it was given. -/
theorem Spec.step {m : Script κ σ ε α} {f : α → Script κ σ ε β} {Q : β → σ → Prop}
    (first : Spec P m (fun _ => P) E R) (rest : ∀ a, Spec P (f a) Q E R) :
    Spec P (m >>= f) Q E R :=
  Spec.bind first rest

theorem Spec.tryCatch {m : Script κ σ ε α} {handler : ε → Script κ σ ε α}
    {T : ε → σ → Prop} (code : Spec P m Q T R) (caught : ∀ e, Spec (T e) (handler e) Q E R) :
    Spec P (tryCatch m handler) Q E R := by
  intro answers s hs
  have h := code answers s hs
  simp only [Script.tryCatch]
  unfold Ends at h
  split at h
  · next heq => simpa only [Ends, heq] using h
  · next heq =>
      simp only [heq]
      exact caught _ _ _ h
  · next heq => simpa only [Ends, heq] using h
  · next heq => simpa only [Ends, heq] using h

theorem Spec.ite {c : Prop} [Decidable c] {m n : Script κ σ ε α}
    (yes : c → Spec P m Q E R) (no : ¬c → Spec P n Q E R) :
    Spec P (if c then m else n) Q E R := by
  split
  · next h => exact yes h
  · next h => exact no h

theorem Spec.stop (h : ∀ s, P s → R s) : Spec P (stop : Script κ σ ε α) Q E R :=
  fun _ s hs => h s hs

theorem Spec.repeatUpTo {body : Script κ σ ε (Option α)} (stopped : ∀ s, P s → R s)
    (step : Spec P body (fun a => a.elim P Q) E R) (n : Nat) :
    Spec P (repeatUpTo body n) Q E R := by
  induction n with
  | zero => exact Spec.stop stopped
  | succ n ih =>
      refine step.bind fun a => ?_
      cases a with
      | some a => exact Spec.pure fun _ hs => hs
      | none => exact ih

/-- A loop keeps an invariant until it gives a value. -/
theorem Spec.loop {body : Script κ σ ε (Option α)} (stopped : ∀ s, P s → R s)
    (step : Spec P body (fun a => a.elim P Q) E R) : Spec P (loop body) Q E R :=
  fun answers => Spec.repeatUpTo stopped step (answers.length + 1) answers

theorem Spec.forEach {xs : List β} {f : β → Script κ σ ε PUnit}
    (step : ∀ x, Spec P (f x) (fun _ => P) E R) :
    Spec P (forEach xs f) (fun _ => P) E R := by
  induction xs with
  | nil => exact Spec.pure fun _ hs => hs
  | cons x xs ih => exact (step x).bind fun _ => ih

/-! ### What every end keeps -/

variable {I : σ → Prop}

theorem Keeps.spec {m : Script κ σ ε α} (h : Keeps I m) (ok : ∀ a s, I s → Q a s)
    (threw : ∀ e s, I s → E e s) (stopped : ∀ s, I s → R s) : Spec I m Q E R :=
  Spec.consequence h (fun _ hs => hs) ok threw stopped

/-- Nothing is known about a state in which a run ends. -/
theorem Keeps.any (m : Script κ σ ε α) : Keeps (fun _ => True) m := by
  intro answers s _
  unfold Ends
  split <;> trivial

theorem Keeps.ofOutcome (result : Outcome ε α) :
    Keeps I (ofOutcome result : Script κ σ ε α) := by
  intro answers s hs
  cases result with
  | ok a => exact hs
  | threw e => exact hs
  | aborted => exact hs

theorem Keeps.pure (a : α) : Keeps I (pure a : Script κ σ ε α) := Keeps.ofOutcome (.ok a)

theorem Keeps.ask {accept : σ → κ → Option (α × σ)}
    (h : ∀ s k a t, I s → accept s k = some (a, t) → I t) :
    Keeps I (ask accept : Script κ σ ε α) :=
  Spec.ask (fun _ hs => hs) h

theorem Keeps.bind {m : Script κ σ ε α} {f : α → Script κ σ ε β} (first : Keeps I m)
    (rest : ∀ a, Keeps I (f a)) : Keeps I (m >>= f) :=
  Spec.bind first rest

theorem Keeps.tryCatch {m : Script κ σ ε α} {handler : ε → Script κ σ ε α} (code : Keeps I m)
    (caught : ∀ e, Keeps I (handler e)) : Keeps I (tryCatch m handler) :=
  Spec.tryCatch code caught

/-- Every run from a state in `I` that ends by itself ends in such a state. One that is aborted or
stopped ends in `R`. -/
def KeepsOr (I R : σ → Prop) (m : Script κ σ ε α) : Prop :=
  Spec I m (fun _ => I) (fun _ => I) R

theorem Keeps.or {m : Script κ σ ε α} (h : Keeps I m) (stopped : ∀ s, I s → R s) :
    KeepsOr I R m :=
  h.spec (fun _ _ hs => hs) (fun _ _ hs => hs) stopped

theorem KeepsOr.spec {R' : σ → Prop} {m : Script κ σ ε α} (h : KeepsOr I R m)
    (ok : ∀ a s, I s → Q a s) (threw : ∀ e s, I s → E e s) (stopped : ∀ s, R s → R' s) :
    Spec I m Q E R' :=
  Spec.consequence h (fun _ hs => hs) ok threw stopped

/-- What holds when a run has returned. -/
theorem KeepsOr.ok {m : Script κ σ ε α} (h : KeepsOr I R m) {answers rest : List κ} {s t : σ}
    {a : α} (run : m.run answers s = ⟨some (.ok a), rest, t⟩) (hs : I s) : I t := by
  have ends := h answers s hs
  rw [run] at ends
  exact ends

/-- What holds whichever way a run ends. -/
theorem KeepsOr.state {m : Script κ σ ε α} (h : KeepsOr I R m) (stopped : ∀ s, I s → R s)
    (answers : List κ) {s : σ} (hs : I s) : R (m.run answers s).state := by
  have ends := h answers s hs
  unfold Ends at ends
  split at ends
  · exact stopped _ ends
  · exact stopped _ ends
  · exact ends
  · exact ends

theorem KeepsOr.loop {body : Script κ σ ε (Option α)} (stopped : ∀ s, I s → R s)
    (step : KeepsOr I R body) : KeepsOr I R (loop body) :=
  Spec.loop stopped (Spec.consequence step (fun _ hs => hs)
    (fun a _ hs => by cases a <;> exact hs) (fun _ _ hs => hs) (fun _ hs => hs))

theorem Keeps.loop {body : Script κ σ ε (Option α)} (step : Keeps I body) :
    Keeps I (loop body) :=
  KeepsOr.loop (fun _ hs => hs) step

/-! ## Scripts that violate no assertion -/

/-- No run of the script is aborted. -/
def NeverAborts (m : Script κ σ ε α) : Prop :=
  ∀ answers s, (m.run answers s).result ≠ some .aborted

theorem NeverAborts.pure (a : α) : NeverAborts (pure a : Script κ σ ε α) := by
  rintro answers s ⟨⟩

theorem NeverAborts.get : NeverAborts (get : Script κ σ ε σ) := by
  rintro answers s ⟨⟩

theorem NeverAborts.modify (f : σ → σ) : NeverAborts (modify f : Script κ σ ε PUnit) := by
  rintro answers s ⟨⟩

theorem NeverAborts.ask {accept : σ → κ → Option (α × σ)} :
    NeverAborts (ask accept : Script κ σ ε α) := by
  intro answers s
  cases answers with
  | nil => simp [Script.ask]
  | cons k answers =>
      simp only [Script.ask]
      split <;> simp

theorem NeverAborts.bind {m : Script κ σ ε α} {f : α → Script κ σ ε β} (first : NeverAborts m)
    (rest : ∀ a, NeverAborts (f a)) : NeverAborts (m >>= f) := by
  intro answers s
  rw [bind_run]
  split
  · exact rest _ _ _
  · simp
  · next result => exact absurd result (first answers s)
  · simp

theorem NeverAborts.repeatUpTo {body : Script κ σ ε (Option α)} (step : NeverAborts body)
    (n : Nat) : NeverAborts (repeatUpTo body n) := by
  induction n with
  | zero => rintro answers s ⟨⟩
  | succ n ih =>
      refine step.bind fun a => ?_
      cases a with
      | some a => exact NeverAborts.pure a
      | none => exact ih

theorem NeverAborts.loop {body : Script κ σ ε (Option α)} (step : NeverAborts body) :
    NeverAborts (loop body) :=
  fun answers => NeverAborts.repeatUpTo step (answers.length + 1) answers

/-! ## A loop that asks something in every round

A run of it is only stopped where one of its rounds is. -/

/-- Whenever it returns, the script has taken an answer. -/
def Asks (m : Script κ σ ε α) : Prop :=
  ∀ answers s a, (m.run answers s).result = some (.ok a) →
    (m.run answers s).rest.length < answers.length

theorem Asks.ask {accept : σ → κ → Option (α × σ)} :
    Asks (ask accept : Script κ σ ε α) := by
  intro answers s a h
  cases answers with
  | nil => simp [Script.ask] at h
  | cons k answers =>
      simp only [Script.ask] at h ⊢
      split at h
      · simp at h
      · simp

theorem Asks.bind {m : Script κ σ ε α} (h : Asks m) (f : α → Script κ σ ε β) :
    Asks (m >>= f) := by
  intro answers s b hb
  change ((m.bind f).run answers s).result = _ at hb
  change ((m.bind f).run answers s).rest.length < _
  have first := h answers s
  simp only [Script.bind] at hb ⊢
  split at hb
  · next a heq => exact ((f a).suffix _ _).length_le.trans_lt (first a heq)
  all_goals simp at hb

theorem Asks.bind_right {m : Script κ σ ε α} {f : α → Script κ σ ε β} (h : ∀ a, Asks (f a)) :
    Asks (m >>= f) := by
  intro answers s b hb
  change ((m.bind f).run answers s).result = _ at hb
  change ((m.bind f).run answers s).rest.length < _
  simp only [Script.bind] at hb ⊢
  split at hb
  · next a heq => exact (h a _ _ b hb).trans_le (m.suffix answers s).length_le
  all_goals simp at hb

theorem Asks.repeatUpTo {body : Script κ σ ε (Option α)} (h : Asks body) (n : Nat) :
    Asks (repeatUpTo body n) := by
  cases n with
  | zero =>
      intro answers s a ha
      simp [Script.repeatUpTo, stop] at ha
  | succ n => exact h.bind _

theorem Asks.loop {body : Script κ σ ε (Option α)} (h : Asks body) : Asks (loop body) :=
  fun answers => h.repeatUpTo (answers.length + 1) answers

theorem repeatUpTo_enough {body : Script κ σ ε (Option α)} (h : Asks body) (n m : Nat)
    (answers : List κ) (s : σ) (hn : answers.length < n) (hm : answers.length < m) :
    (repeatUpTo body n).run answers s = (repeatUpTo body m).run answers s := by
  induction n generalizing m answers s with
  | zero => exact absurd hn (Nat.not_lt_zero _)
  | succ n ih =>
      cases m with
      | zero => exact absurd hm (Nat.not_lt_zero _)
      | succ m =>
          have fewer := h answers s
          change (body.bind _).run answers s = (body.bind _).run answers s
          simp only [Script.bind]
          split
          · next a heq =>
              cases a with
              | some a => rfl
              | none =>
                  have := fewer none heq
                  exact ih m _ _ (by omega) (by omega)
          all_goals rfl

/-- Such a loop is its body, and then the loop again unless the body gave a value. -/
theorem loop_eq {body : Script κ σ ε (Option α)} (h : Asks body) :
    loop body = body >>= fun a => a.elim (loop body) pure := by
  ext1
  funext answers s
  have fewer := h answers s
  change (body.bind _).run answers s = (body.bind _).run answers s
  simp only [Script.bind]
  split
  · next a heq =>
      cases a with
      | some a => rfl
      | none =>
          have := fewer none heq
          exact repeatUpTo_enough h answers.length ((body.run answers s).rest.length + 1)
            (body.run answers s).rest (body.run answers s).state this (Nat.lt_succ_self _)
  all_goals rfl

/-! ### The rounds of such a loop -/

/-- Rounds that give no value lead from one point of a run to another. -/
inductive Rounds (body : Script κ σ ε (Option α)) : List κ → σ → List κ → σ → Prop
  | start (answers : List κ) (s : σ) : Rounds body answers s answers s
  | round {answers rest rest' : List κ} {s t t' : σ}
      (first : body.run answers s = ⟨some (.ok none), rest, t⟩)
      (later : Rounds body rest t rest' t') : Rounds body answers s rest' t'

theorem Rounds.suffix {body : Script κ σ ε (Option α)} {answers rest : List κ} {s t : σ}
    (h : Rounds body answers s rest t) : rest <:+ answers := by
  induction h with
  | start answers s => exact List.suffix_refl answers
  | @round answers _ _ s _ _ first later ih =>
      have taken := body.suffix answers s
      rw [first] at taken
      exact ih.trans taken

/-- What a round keeps holds after any number of rounds. -/
theorem Rounds.keeps {body : Script κ σ ε (Option α)} (step : KeepsOr I R body)
    {answers rest : List κ} {s t : σ} (h : Rounds body answers s rest t) (hs : I s) : I t := by
  induction h with
  | start answers s => exact hs
  | round first later ih => exact ih (step.ok first hs)

/-- A loop that has given a value has come to the round that gave it. -/
theorem loop_run_ok {body : Script κ σ ε (Option α)} (asks : Asks body) {answers rest : List κ}
    {s t : σ} {a : α} (h : (loop body).run answers s = ⟨some (.ok a), rest, t⟩) :
    ∃ rest' t', Rounds body answers s rest' t' ∧
      body.run rest' t' = ⟨some (.ok (some a)), rest, t⟩ := by
  induction hlen : answers.length using Nat.strongRecOn generalizing answers s with
  | ind n ih =>
      have fewer := asks answers s
      rw [loop_eq asks, bind_run] at h
      split at h
      · next result value =>
          cases result with
          | none =>
              obtain ⟨rest', t', rounds, last⟩ := ih _ (hlen ▸ fewer none value) h rfl
              refine ⟨rest', t', .round ?_ rounds, last⟩
              rw [← value]
          | some b =>
              refine ⟨answers, s, .start answers s, ?_⟩
              obtain ⟨same, rfl, rfl⟩ := ScriptRun.mk.inj h
              cases same
              rw [← value]
      all_goals simp at h

end Script
