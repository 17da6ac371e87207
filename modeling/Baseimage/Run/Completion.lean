import Baseimage.Run.Script

/-!
# Scripts that come to their end

The rules for scripts are those of partial correctness: a script that never returns meets them all.
Here is what they leave open. A script is steady if only the answers it takes matter, so that a run
can be cut behind them and continued with others. A script completes if each of its runs over the
allowed answers, wherever it has come to, can be continued with allowed answers until it returns.
What completes never throws and violates no assertion, and it never asks for what no allowed answer
gives. If it also asks so many questions at most, then it returns whichever allowed answers it gets.
-/

universe u v

namespace Script

variable {κ σ ε : Type u} {α β : Type v}

/-- Only the answers that are taken matter. -/
structure Steady (m : Script κ σ ε α) : Prop where
  cut : ∀ {taken rest s r t}, m.run (taken ++ rest) s = ⟨r, rest, t⟩ → m.run taken s = ⟨r, [], t⟩
  extend : ∀ {taken s r t}, m.run taken s = ⟨some r, [], t⟩ →
    ∀ later, m.run (taken ++ later) s = ⟨some r, later, t⟩

/-- The answers that were taken. -/
theorem exists_taken (m : Script κ σ ε α) {answers rest : List κ} {s t : σ}
    {r : Option (Outcome ε α)} (h : m.run answers s = ⟨r, rest, t⟩) :
    ∃ taken, answers = taken ++ rest := by
  obtain ⟨taken, same⟩ := m.suffix answers s
  rw [h] at same
  exact ⟨taken, same.symm⟩

namespace Steady

/-- A script that asks nothing. -/
theorem silent {m : Script κ σ ε α} {result : σ → Option (Outcome ε α)} {f : σ → σ}
    (h : ∀ answers s, m.run answers s = ⟨result s, answers, f s⟩) : Steady m where
  cut := by
    intro taken rest s r t run
    obtain ⟨rfl, left, rfl⟩ := ScriptRun.mk.inj ((h _ s).symm.trans run)
    rw [List.append_left_eq_self.mp left]
    exact h [] s
  extend := by
    intro taken s r t run later
    obtain ⟨same, rfl, rfl⟩ := ScriptRun.mk.inj ((h _ s).symm.trans run)
    rw [← same]
    exact h later s

theorem ofOutcome (result : Outcome ε α) : Steady (ofOutcome result : Script κ σ ε α) :=
  silent (f := id) fun _ _ => rfl

theorem pure (a : α) : Steady (pure a : Script κ σ ε α) := ofOutcome (.ok a)

theorem get : Steady (get : Script κ σ ε σ) := silent (f := id) fun _ _ => rfl

theorem modify (f : σ → σ) : Steady (modify f : Script κ σ ε PUnit) := silent fun _ _ => rfl

theorem stop : Steady (stop : Script κ σ ε α) := silent (f := id) fun _ _ => rfl

theorem ask {accept : σ → κ → Option (α × σ)} : Steady (ask accept : Script κ σ ε α) where
  cut := by
    intro taken rest s r t h
    cases taken with
    | nil =>
        cases rest with
        | nil => exact h
        | cons k rest =>
            simp only [List.nil_append, Script.ask] at h
            split at h
            · obtain ⟨rfl, -, rfl⟩ := ScriptRun.mk.inj h
              rfl
            · exact absurd (ScriptRun.mk.inj h).2.1 (List.ne_cons_self)
    | cons k taken =>
        simp only [List.cons_append, Script.ask] at h ⊢
        split at h
        · have left := congrArg List.length (ScriptRun.mk.inj h).2.1
          simp only [List.length_cons, List.length_append] at left
          omega
        · obtain ⟨rfl, left, rfl⟩ := ScriptRun.mk.inj h
          rw [List.append_left_eq_self.mp left]
  extend := by
    intro taken s r t h later
    cases taken with
    | nil => cases (ScriptRun.mk.inj h).1
    | cons k taken =>
        simp only [List.cons_append, Script.ask] at h ⊢
        split at h
        · cases (ScriptRun.mk.inj h).1
        · obtain ⟨same, rfl, rfl⟩ := ScriptRun.mk.inj h
          cases same
          rfl

/-- What a sequence took, its first part took, and then the second one; or the first part did not
return, and the sequence ended as it did. -/
theorem bind_cut {m : Script κ σ ε α} {f : α → Script κ σ ε β} (first : Steady m)
    {taken rest : List κ} {s t : σ} {r : Option (Outcome ε β)}
    (h : (m >>= f).run (taken ++ rest) s = ⟨r, rest, t⟩) :
    (∃ a taken₁ taken₂ u, taken = taken₁ ++ taken₂ ∧ m.run taken₁ s = ⟨some (.ok a), [], u⟩ ∧
        (f a).run (taken₂ ++ rest) u = ⟨r, rest, t⟩) ∨
      ∃ r', m.run taken s = ⟨r', [], t⟩ ∧ (∀ a, r' ≠ some (.ok a)) ∧ (r' = none ↔ r = none) ∧
        ∀ answers later, m.run answers s = ⟨r', later, t⟩ →
          (m >>= f).run answers s = ⟨r, later, t⟩ := by
  rw [bind_run] at h
  cases run : m.run (taken ++ rest) s with
  | mk r₁ rest₁ u =>
      obtain ⟨taken₁, split⟩ := m.exists_taken run
      have head := first.cut (split ▸ run)
      simp only [run] at h
      split at h
      · next a =>
          obtain ⟨taken₂, back⟩ := (f a).exists_taken h
          rw [back, ← List.append_assoc] at split
          obtain rfl := List.append_cancel_right split
          exact .inl ⟨a, taken₁, taken₂, u, rfl, head, back ▸ h⟩
      all_goals
        obtain ⟨rfl, rfl, rfl⟩ := ScriptRun.mk.inj h
        obtain rfl := List.append_cancel_right split
        refine .inr ⟨_, head, by simp, by simp, fun answers later again => ?_⟩
        rw [bind_run, again]

theorem bind {m : Script κ σ ε α} {f : α → Script κ σ ε β} (first : Steady m)
    (rest : ∀ a, Steady (f a)) : Steady (m >>= f) where
  cut := by
    intro taken later s r t h
    obtain ⟨a, taken₁, taken₂, u, rfl, head, back⟩ | ⟨r', head, -, -, ends⟩ := bind_cut first h
    · rw [bind_run, first.extend head taken₂]
      exact (rest a).cut back
    · exact ends taken [] head
  extend := by
    intro taken s r t h later
    rw [← List.append_nil taken] at h
    obtain ⟨a, taken₁, taken₂, u, rfl, head, back⟩ | ⟨r', head, -, same, ends⟩ := bind_cut first h
    · rw [List.append_nil] at back
      rw [List.append_assoc, bind_run, first.extend head (taken₂ ++ later)]
      exact (rest a).extend back later
    · cases r' with
      | none => cases same.mp rfl
      | some r' => exact ends _ later (first.extend head later)

theorem ite {c : Prop} [Decidable c] {m n : Script κ σ ε α} (yes : Steady m) (no : Steady n) :
    Steady (if c then m else n) := by
  split
  · exact yes
  · exact no

theorem forEach {xs : List β} {f : β → Script κ σ ε PUnit} (step : ∀ x, Steady (f x)) :
    Steady (forEach xs f) := by
  induction xs with
  | nil => exact pure _
  | cons x xs ih => exact (step x).bind fun _ => ih

theorem repeatUpTo {body : Script κ σ ε (Option α)} (step : Steady body) (n : Nat) :
    Steady (repeatUpTo body n) := by
  induction n with
  | zero => exact stop
  | succ n ih =>
      refine step.bind fun a => ?_
      cases a with
      | some a => exact pure a
      | none => exact ih

theorem loop {body : Script κ σ ε (Option α)} (asks : Asks body) (step : Steady body) :
    Steady (loop body) where
  cut := by
    intro taken rest s r t h
    have enough : taken.length < (taken ++ rest).length + 1 := by
      rw [List.length_append]
      omega
    exact (repeatUpTo_enough asks _ _ taken s (Nat.lt_succ_self _) enough).trans
      ((repeatUpTo step ((taken ++ rest).length + 1)).cut h)
  extend := by
    intro taken s r t h later
    have enough : taken.length < (taken ++ later).length + 1 := by
      rw [List.length_append]
      omega
    have same := repeatUpTo_enough asks _ _ taken s enough (Nat.lt_succ_self taken.length)
    exact (repeatUpTo step ((taken ++ later).length + 1)).extend (same.trans h) later

end Steady

/-- Over the allowed answers, a run from a state in `P` can be continued until it returns, wherever
it has come to. -/
def Completes (A : κ → Prop) (P : σ → Prop) (m : Script κ σ ε α) (Q : α → σ → Prop) : Prop :=
  ∀ taken s r u, P s → (∀ k ∈ taken, A k) → m.run taken s = ⟨r, [], u⟩ →
    ∃ more a t, (∀ k ∈ more, A k) ∧ m.run (taken ++ more) s = ⟨some (.ok a), [], t⟩ ∧ Q a t

namespace Completes

variable {A : κ → Prop} {P P' : σ → Prop} {Q Q' : α → σ → Prop}

theorem consequence {m : Script κ σ ε α} (h : Completes A P m Q) (pre : ∀ s, P' s → P s)
    (post : ∀ a s, Q a s → Q' a s) : Completes A P' m Q' := by
  intro taken s r u hs allowed run
  obtain ⟨more, a, t, further, done, hq⟩ := h taken s r u (pre s hs) allowed run
  exact ⟨more, a, t, further, done, post a t hq⟩

/-- From its beginning a script that completes can return. -/
theorem start {m : Script κ σ ε α} (h : Completes A P m Q) {s : σ} (hs : P s) :
    ∃ more a t, (∀ k ∈ more, A k) ∧ m.run more s = ⟨some (.ok a), [], t⟩ ∧ Q a t := by
  have nothing : (m.run [] s).rest = [] := List.suffix_nil.mp (m.suffix [] s)
  refine h [] s (m.run [] s).result (m.run [] s).state hs (by simp) ?_
  rw [ScriptRun.mk.injEq]
  exact ⟨rfl, nothing, rfl⟩

/-- A run that has ended has returned. -/
theorem ended {m : Script κ σ ε α} (h : Completes A P m Q) (steady : Steady m) {taken : List κ}
    {s u : σ} {r : Outcome ε α} (hs : P s) (allowed : ∀ k ∈ taken, A k)
    (run : m.run taken s = ⟨some r, [], u⟩) : ∃ a, r = .ok a ∧ Q a u := by
  obtain ⟨more, a, t, -, done, hq⟩ := h taken s _ u hs allowed run
  obtain ⟨same, -, rfl⟩ := ScriptRun.mk.inj ((steady.extend run more).symm.trans done)
  exact ⟨a, Option.some.inj same, hq⟩

theorem silent {m : Script κ σ ε α} {a : σ → α} {f : σ → σ}
    (runs : ∀ answers s, m.run answers s = ⟨some (.ok (a s)), answers, f s⟩)
    (h : ∀ s, P s → Q (a s) (f s)) : Completes A P m Q := by
  intro taken s r u hs _ run
  obtain ⟨-, rfl, -⟩ := ScriptRun.mk.inj ((runs taken s).symm.trans run)
  exact ⟨[], a s, f s, by simp, runs [] s, h s hs⟩

theorem pure {a : α} (h : ∀ s, P s → Q a s) : Completes A P (pure a : Script κ σ ε α) Q :=
  silent (fun _ _ => rfl) h

theorem get {Q : σ → σ → Prop} (h : ∀ s, P s → Q s s) :
    Completes A P (get : Script κ σ ε σ) Q :=
  silent (f := id) (fun _ _ => rfl) h

theorem modify {Q : PUnit → σ → Prop} {f : σ → σ} (h : ∀ s, P s → Q ⟨⟩ (f s)) :
    Completes A P (modify f : Script κ σ ε PUnit) Q :=
  silent (fun _ _ => rfl) h

/-- A question has an allowed answer, and no other answer is allowed that fits. -/
theorem ask {accept : σ → κ → Option (α × σ)}
    (possible : ∀ s, P s → ∃ k a t, A k ∧ accept s k = some (a, t))
    (answered : ∀ s k a t, P s → A k → accept s k = some (a, t) → Q a t) :
    Completes A P (ask accept : Script κ σ ε α) Q := by
  intro taken s r u hs allowed run
  cases taken with
  | nil =>
      obtain ⟨k, a, t, ok, found⟩ := possible s hs
      refine ⟨[k], a, t, by simpa using ok, ?_, answered s k a t hs ok found⟩
      simp only [List.nil_append, Script.ask, found]
  | cons k taken =>
      simp only [Script.ask] at run
      split at run
      · cases (ScriptRun.mk.inj run).2.1
      · next a t found =>
          obtain ⟨-, rfl, -⟩ := ScriptRun.mk.inj run
          refine ⟨[], a, t, by simp, ?_, answered s k a t hs (allowed k List.mem_cons_self) found⟩
          simp only [List.append_nil, Script.ask, found]

/-- A sequence whose first part completes can be continued if its second part can, from where the
first one left off or from its beginning. -/
theorem bind_run {m : Script κ σ ε α} {f : α → Script κ σ ε β} {M : α → σ → Prop}
    {Q : β → σ → Prop} (steady : Steady m) (first : Completes A P m M)
    (starts : ∀ a s, M a s → ∃ more b t, (∀ k ∈ more, A k) ∧
      (f a).run more s = ⟨some (.ok b), [], t⟩ ∧ Q b t)
    {taken : List κ} {s u : σ} {r : Option (Outcome ε β)} (hs : P s) (allowed : ∀ k ∈ taken, A k)
    (run : (m >>= f).run taken s = ⟨r, [], u⟩)
    (later : ∀ a taken₁ taken₂ t, taken = taken₁ ++ taken₂ →
      m.run taken₁ s = ⟨some (.ok a), [], t⟩ → M a t → (f a).run taken₂ t = ⟨r, [], u⟩ →
      ∃ more b t', (∀ k ∈ more, A k) ∧ (f a).run (taken₂ ++ more) t = ⟨some (.ok b), [], t'⟩ ∧
        Q b t') :
    ∃ more b t, (∀ k ∈ more, A k) ∧ (m >>= f).run (taken ++ more) s = ⟨some (.ok b), [], t⟩ ∧
      Q b t := by
  rw [← List.append_nil taken] at run
  obtain ⟨a, taken₁, taken₂, t, rfl, head, back⟩ | ⟨r', head, noValue, -, -⟩ :=
    Steady.bind_cut steady run
  · rw [List.append_nil] at back
    have before : ∀ k ∈ taken₁, A k := fun k hk => allowed k (List.mem_append_left _ hk)
    obtain ⟨a', same, hm⟩ := first.ended steady hs before head
    cases same
    obtain ⟨more, b, t', further, done, hq⟩ := later a taken₁ taken₂ t rfl head hm back
    refine ⟨more, b, t', further, ?_, hq⟩
    rw [List.append_assoc, bind_run_ok (steady.extend head _)]
    exact done
  · obtain ⟨more, a, t, further, done, hm⟩ := first taken s r' u hs allowed head
    obtain ⟨more', b, t', further', done', hq⟩ := starts a t hm
    refine ⟨more ++ more', b, t', ?_, ?_, hq⟩
    · intro k hk
      exact (List.mem_append.mp hk).elim (further k) (further' k)
    · rw [← List.append_assoc, bind_run_ok (steady.extend done more')]
      exact done'

theorem bind {m : Script κ σ ε α} {f : α → Script κ σ ε β} {M : α → σ → Prop}
    {Q : β → σ → Prop} (steady : Steady m) (first : Completes A P m M)
    (rest : ∀ a, Completes A (M a) (f a) Q) : Completes A P (m >>= f) Q := by
  intro taken s r u hs allowed run
  refine first.bind_run steady (fun a t hm => (rest a).start hm) hs allowed run ?_
  rintro a taken₁ taken₂ t rfl - hm back
  exact rest a taken₂ t r u hm (fun k hk => allowed k (List.mem_append_right _ hk)) back

theorem ite {c : Prop} [Decidable c] {m n : Script κ σ ε α} (yes : c → Completes A P m Q)
    (no : ¬c → Completes A P n Q) : Completes A P (if c then m else n) Q := by
  split
  · next h => exact yes h
  · next h => exact no h

theorem forEach {xs : List β} {f : β → Script κ σ ε PUnit} (steady : ∀ x, Steady (f x))
    (step : ∀ x, Completes A P (f x) fun _ => P) : Completes A P (forEach xs f) fun _ => P := by
  induction xs with
  | nil => exact pure fun _ hs => hs
  | cons x xs ih => exact (step x).bind (steady x) fun _ => ih

/-- A loop completes if its body does, and can lower a measure from every state. -/
theorem loop {body : Script κ σ ε (Option α)} (asks : Asks body) (steady : Steady body)
    (measure : σ → Nat) (round : Completes A P body fun a s => a.elim (P s) fun a => Q a s)
    (lowers : ∀ s, P s → ∃ more a t, (∀ k ∈ more, A k) ∧ body.run more s = ⟨some (.ok a), [], t⟩ ∧
      (a = none → measure t < measure s)) : Completes A P (loop body) Q := by
  have starts : ∀ s, P s → ∃ more a t, (∀ k ∈ more, A k) ∧
      (Script.loop body).run more s = ⟨some (.ok a), [], t⟩ ∧ Q a t := by
    intro s hs
    induction bound : measure s using Nat.strongRecOn generalizing s with
    | ind n ih =>
        obtain ⟨more, a, t, further, done, lower⟩ := lowers s hs
        obtain ⟨a', same, ht⟩ := round.ended steady hs further done
        cases same
        cases a with
        | some a =>
            refine ⟨more, a, t, further, ?_, ht⟩
            rw [loop_eq asks, bind_run_ok done]
            rfl
        | none =>
            obtain ⟨more', a, t', further', done', hq⟩ := ih _ (bound ▸ lower rfl) t ht rfl
            refine ⟨more ++ more', a, t', ?_, ?_, hq⟩
            · intro k hk
              exact (List.mem_append.mp hk).elim (further k) (further' k)
            · rw [loop_eq asks, bind_run_ok (steady.extend done more')]
              exact done'
  intro taken s r u hs allowed run
  induction bound : taken.length using Nat.strongRecOn generalizing taken s with
  | ind n ih =>
      rw [loop_eq asks] at run ⊢
      refine round.bind_run steady ?_ hs allowed run ?_
      · intro a t ht
        cases a with
        | some a => exact ⟨[], a, t, by simp, rfl, ht⟩
        | none => exact starts t ht
      · rintro a taken₁ taken₂ t rfl head ht back
        have after : ∀ k ∈ taken₂, A k := fun k hk => allowed k (List.mem_append_right _ hk)
        cases a with
        | some a => exact pure (fun _ hs => hs) taken₂ t r u ht after back
        | none =>
            have fewer := asks taken₁ s none (by rw [head])
            rw [head] at fewer
            refine ih taken₂.length ?_ taken₂ t ht after back rfl
            rw [← bound, List.length_append]
            exact Nat.lt_add_of_pos_left fewer

end Completes

/-! ## How much a script asks -/

/-- No run takes more answers. -/
def AsksAtMost (n : Nat) (m : Script κ σ ε α) : Prop :=
  ∀ answers s, answers.length ≤ (m.run answers s).rest.length + n

namespace AsksAtMost

theorem mono {n n' : Nat} {m : Script κ σ ε α} (h : AsksAtMost n m) (le : n ≤ n') :
    AsksAtMost n' m :=
  fun answers s => (h answers s).trans (Nat.add_le_add_left le _)

theorem pure (a : α) : AsksAtMost 0 (pure a : Script κ σ ε α) := fun _ _ => Nat.le_refl _

theorem abort : AsksAtMost 0 (abort : Script κ σ ε α) := fun _ _ => Nat.le_refl _

theorem get : AsksAtMost 0 (get : Script κ σ ε σ) := fun _ _ => Nat.le_refl _

theorem modify (f : σ → σ) : AsksAtMost 0 (modify f : Script κ σ ε PUnit) :=
  fun _ _ => Nat.le_refl _

theorem ask {accept : σ → κ → Option (α × σ)} : AsksAtMost 1 (ask accept : Script κ σ ε α) := by
  intro answers s
  cases answers with
  | nil => exact Nat.zero_le _
  | cons k answers =>
      simp only [Script.ask]
      split
      · exact Nat.le_succ _
      · exact Nat.le_refl _

theorem bind {n n' : Nat} {m : Script κ σ ε α} {f : α → Script κ σ ε β} (first : AsksAtMost n m)
    (rest : ∀ a, AsksAtMost n' (f a)) : AsksAtMost (n + n') (m >>= f) := by
  intro answers s
  have head := first answers s
  rw [bind_run]
  split
  · next a _ =>
      have back := rest a (m.run answers s).rest (m.run answers s).state
      omega
  all_goals
    dsimp only
    omega

theorem ite {n : Nat} {c : Prop} [Decidable c] {m m' : Script κ σ ε α} (yes : AsksAtMost n m)
    (no : AsksAtMost n m') : AsksAtMost n (if c then m else m') := by
  split
  · exact yes
  · exact no

theorem forEach {n : Nat} {xs : List β} {f : β → Script κ σ ε PUnit}
    (step : ∀ x, AsksAtMost n (f x)) : AsksAtMost (xs.length * n) (forEach xs f) := by
  induction xs with
  | nil => exact (pure _).mono (Nat.zero_le _)
  | cons x xs ih =>
      refine ((step x).bind fun _ => ih).mono ?_
      rw [List.length_cons, Nat.succ_mul, Nat.add_comm]

end AsksAtMost

/-- From every state the script asks so many questions at most, and returns when they are answered
as allowed. -/
structure Finishes (A : κ → Prop) (n : Nat) (m : Script κ σ ε α) : Prop where
  steady : Steady m
  completes : Completes A (fun _ => True) m fun _ _ => True
  asksAtMost : AsksAtMost n m

namespace Finishes

variable {A : κ → Prop} {n n' : Nat}

theorem mono {m : Script κ σ ε α} (h : Finishes A n m) (le : n ≤ n') : Finishes A n' m :=
  { h with asksAtMost := h.asksAtMost.mono le }

theorem pure (a : α) : Finishes A 0 (pure a : Script κ σ ε α) :=
  ⟨.pure a, .pure fun _ _ => trivial, .pure a⟩

theorem get : Finishes A 0 (get : Script κ σ ε σ) := ⟨.get, .get fun _ _ => trivial, .get⟩

theorem modify (f : σ → σ) : Finishes A 0 (modify f : Script κ σ ε PUnit) :=
  ⟨.modify f, .modify fun _ _ => trivial, .modify f⟩

theorem ask {accept : σ → κ → Option (α × σ)} (k : κ) (allowed : A k)
    (fits : ∀ s, ∃ a t, accept s k = some (a, t)) :
    Finishes A 1 (ask accept : Script κ σ ε α) where
  steady := .ask
  completes := by
    refine .ask (fun s _ => ?_) fun _ _ _ _ _ _ _ => trivial
    obtain ⟨a, t, found⟩ := fits s
    exact ⟨k, a, t, allowed, found⟩
  asksAtMost := .ask

theorem bind {m : Script κ σ ε α} {f : α → Script κ σ ε β} (first : Finishes A n m)
    (rest : ∀ a, Finishes A n' (f a)) : Finishes A (n + n') (m >>= f) :=
  ⟨first.steady.bind fun a => (rest a).steady,
    first.completes.bind first.steady fun a => (rest a).completes,
    first.asksAtMost.bind fun a => (rest a).asksAtMost⟩

theorem ite {c : Prop} [Decidable c] {m m' : Script κ σ ε α} (yes : Finishes A n m)
    (no : Finishes A n m') : Finishes A n (if c then m else m') := by
  split
  · exact yes
  · exact no

theorem forEach {xs : List β} {f : β → Script κ σ ε PUnit} (step : ∀ x, Finishes A n (f x)) :
    Finishes A (xs.length * n) (forEach xs f) :=
  ⟨.forEach fun x => (step x).steady,
    .forEach (fun x => (step x).steady) fun x => (step x).completes,
    .forEach fun x => (step x).asksAtMost⟩

/-- A run that has taken all its answers can be continued until it returns, and few answers are
missing. -/
theorem returns {m : Script κ σ ε α} (h : Finishes A n m) {taken : List κ} {s u : σ}
    {r : Option (Outcome ε α)} (allowed : ∀ k ∈ taken, A k) (run : m.run taken s = ⟨r, [], u⟩) :
    ∃ more a t, (∀ k ∈ more, A k) ∧ taken.length + more.length ≤ n ∧
      m.run (taken ++ more) s = ⟨some (.ok a), [], t⟩ := by
  obtain ⟨more, a, t, further, done, -⟩ := h.completes taken s r u trivial allowed run
  have most := h.asksAtMost (taken ++ more) s
  rw [done, List.length_append, List.length_nil, Nat.zero_add] at most
  exact ⟨more, a, t, further, most, done⟩

end Finishes

end Script
