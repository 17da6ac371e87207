import Baseimage.LogMonitor.HandleLine
import Baseimage.Timing.Debouncer

/-!
# Debouncing of notifications

Each target keeps a time for each notification, so every pair of a target and a notification is a
debouncer of its own. What happens to a pair in a run of lines is a run of this debouncer, whatever
happens to the other pairs in between.
-/

namespace Baseimage.LogMonitor

open Script

variable {ctx : Context}

/-- `target->debouncing` of a pair. -/
def debouncing (pair : Pair ctx) : Int := (ctx.targets.get pair.1).debouncing

/-- What happened to a pair. -/
def pairEvents (pair : Pair ctx) (log : List (Event ctx)) : List Debouncer.Event :=
  log.filterMap fun
    | .suppressed other checked => if other = pair then some (.suppressed checked) else none
    | .invoked other checked _ _ _ _ _ => if other = pair then some (.sent checked) else none
    | .recorded other now => if other = pair then some (.recorded now) else none
    | _ => none

/-- What `get_time` returned. -/
def clockReadings (log : List (Event ctx)) : List Int :=
  log.filterMap fun
    | .suppressed _ checked => checked
    | .invoked _ checked _ _ _ _ _ => checked
    | .recorded _ now => some now
    | _ => none

/-- How often the filter of a notification matched. -/
def matchCount (nidx : Fin ctx.notifications.length) (log : List (Event ctx)) : Nat :=
  log.countP fun
    | .filtered other _ _ matched => decide (other = nidx) && matched
    | _ => false

/-- How often a notification lists a target. -/
def targetCount (pair : Pair ctx) : Nat := (ctx.notifications.get pair.2).targets.count pair.1

/-- A pair has come to a state of its debouncer. -/
def At (pair : Pair ctx) (state : Debouncer.State) (s : Monitor ctx) : Prop :=
  Actions.run (Debouncer.step (debouncing pair)) (.ready 0) (pairEvents pair s.history.reverse) =
    some state

/-- Every pair is ready, and the time of its last send is the one that is kept. -/
def Ready (s : Monitor ctx) : Prop := ∀ pair, At pair (.ready (s.lastNotifSent pair)) s

/-- Every pair is somewhere. -/
def Debounced (s : Monitor ctx) : Prop := ∀ pair, ∃ state, At pair state s

theorem Ready.debounced {s : Monitor ctx} (h : Ready s) : Debounced s := fun pair => ⟨_, h pair⟩

theorem pairEvents_record (pair : Pair ctx) {s t : Monitor ctx} {e : Event ctx}
    (same : t.history = e :: s.history) :
    pairEvents pair t.history.reverse =
      pairEvents pair s.history.reverse ++ pairEvents pair [e] := by
  rw [same, List.reverse_cons]
  exact List.filterMap_append

section Record

variable {pair other : Pair ctx} {state state' : Debouncer.State} {s t : Monitor ctx}

theorem At.silent {e : Event ctx} (h : At pair state s) (nothing : pairEvents pair [e] = [])
    (same : t.history = e :: s.history) : At pair state t := by
  unfold At at h ⊢
  rwa [pairEvents_record pair same, nothing, List.append_nil]

theorem At.step {e : Event ctx} {d : Debouncer.Event} (h : At pair state s)
    (happens : pairEvents pair [e] = [d])
    (hstep : Debouncer.step (debouncing pair) state d = some state')
    (same : t.history = e :: s.history) : At pair state' t := by
  unfold At at h ⊢
  rw [pairEvents_record pair same, happens]
  exact Actions.run_concat h hstep

/-- A pair that is not sent to. -/
theorem Ready.suppress (h : Ready s) {checked : Option Int}
    (hstep : Debouncer.step (debouncing pair) (.ready (s.lastNotifSent pair))
      (.suppressed checked) =
      some (.ready (s.lastNotifSent pair))) :
    Ready (s.record (.suppressed pair checked)) := by
  intro other
  by_cases here : pair = other
  · subst here
    exact (h pair).step (by simp [pairEvents]) hstep rfl
  · exact (h other).silent (by simp [pairEvents, here]) rfl

/-- An event that is about no pair. -/
theorem Ready.record (h : Ready s) {e : Event ctx} (nothing : ∀ pair, pairEvents pair [e] = []) :
    Ready (s.record e) :=
  fun pair => (h pair).silent (nothing pair) rfl

end Record

/-- A pair is sent to, and the others are ready. -/
def Sending (pair : Pair ctx) (s : Monitor ctx) : Prop :=
  (∃ last, At pair (.sending last) s) ∧
    ∀ other, other ≠ pair → At other (.ready (s.lastNotifSent other)) s

theorem Sending.debounced {pair : Pair ctx} {s : Monitor ctx} (h : Sending pair s) :
    Debounced s := by
  intro other
  by_cases here : other = pair
  · subst here
    obtain ⟨last, hlast⟩ := h.1
    exact ⟨_, hlast⟩
  · exact ⟨_, h.2 other here⟩

namespace Code

variable {E : Empty → Monitor ctx → Prop} {R : Monitor ctx → Prop}

theorem getTime_spec {P : Monitor ctx → Prop} (stopped : ∀ s, P s → R s) :
    Spec P (getTime : Code ctx Int) (fun _ => P) E R := by
  refine Spec.bind (M := fun _ => P) (Spec.ask stopped fun s k now t hs h => ?_) fun now => ?_
  · split at h
    · obtain ⟨-, rfl⟩ := Prod.mk.inj (Option.some.inj h)
      exact hs
    · cases h
  · cases now with
    | some now => exact Spec.pure fun _ hs => hs
    | none => exact Spec.abort stopped

theorem sendTarget_spec (pair : Pair ctx) (checked : Option Int) (title desc level : Option Str) :
    Spec
      (fun s => Ready s ∧ Debouncer.step (debouncing pair) (.ready (s.lastNotifSent pair))
        (.sent checked) = some (.sending (s.lastNotifSent pair)))
      (sendTarget pair checked title desc level) (fun _ => Ready) E Debounced := by
  refine Spec.bind (M := fun _ => Sending pair)
    (Spec.ask (fun s hs => hs.1.debounced) fun s k a t hs h => ?_) fun _ => ?_
  · split at h
    · obtain ⟨-, rfl⟩ := Prod.mk.inj (Option.some.inj h)
      refine ⟨⟨_, (hs.1 pair).step (by simp [pairEvents]) hs.2 rfl⟩, fun other hother => ?_⟩
      exact (hs.1 other).silent (by simp [pairEvents, Ne.symm hother]) rfl
    · cases h
  · refine (getTime_spec fun _ hs => hs.debounced).bind fun now => Spec.modify fun s hs => ?_
    obtain ⟨⟨last, sending⟩, others⟩ := hs
    intro other
    by_cases here : pair = other
    · subst here
      have recorded : At pair (.ready now) (s.sent pair now) :=
        sending.step (d := .recorded now) (by simp [pairEvents]) rfl rfl
      have kept : (s.sent pair now).lastNotifSent pair = now := Function.update_self _ _ _
      rwa [kept]
    · have kept : (s.sent pair now).lastNotifSent other = s.lastNotifSent other :=
        Function.update_of_ne (Ne.symm here) _ _
      rw [kept]
      exact (others other (Ne.symm here)).silent (by simp [pairEvents, here]) rfl

theorem handleTarget_spec (nidx : Fin ctx.notifications.length) (title desc level : Option Str)
    (tid : Fin ctx.targets.length) :
    Spec Ready (handleTarget nidx title desc level tid) (fun _ => Ready) E Debounced := by
  refine Spec.bind (Spec.get (Q := fun s t => Ready t ∧ s = t) fun s hs => ⟨hs, rfl⟩) fun s => ?_
  refine Spec.ite (fun sent => ?_) fun never => ?_
  · refine Spec.ite (fun zero => Spec.modify ?_) fun notZero => ?_
    · rintro t ⟨ht, rfl⟩
      exact ht.suppress (if_pos ⟨sent, zero⟩)
    refine Spec.ite (fun positive => ?_) fun notPositive => ?_
    · refine (getTime_spec fun _ hs => hs.1.debounced).bind fun now => ?_
      refine Spec.ite (fun early => Spec.modify ?_) fun late =>
        Spec.pre (sendTarget_spec _ _ _ _ _) ?_
      · rintro t ⟨ht, rfl⟩
        exact ht.suppress (if_pos ⟨sent, positive, early⟩)
      · rintro t ⟨ht, rfl⟩
        exact ⟨ht, if_pos ⟨sent, positive, Int.not_lt.mp late⟩⟩
    · refine Spec.pre (sendTarget_spec _ _ _ _ _) ?_
      rintro t ⟨ht, rfl⟩
      have negative : (ctx.targets.get tid).debouncing < 0 := by omega
      exact ⟨ht, if_pos (.inr negative)⟩
  · refine Spec.pre (sendTarget_spec _ _ _ _ _) ?_
    rintro t ⟨ht, rfl⟩
    exact ⟨ht, if_pos (.inl (Int.not_lt.mp never))⟩

theorem getText_spec {P : Monitor ctx → Prop} (valid : Str → Bool) (text : Text) (line : Str)
    (record : ∀ s exe result, P s → P (s.record (.text exe line result)))
    (stopped : ∀ s, P s → R s) :
    Spec P (getText valid text line : Code ctx (Option Str)) (fun _ => P) E R := by
  refine Spec.ite (fun _ => Spec.ask stopped fun s k a t hs h => ?_) fun _ =>
    Spec.pure fun _ hs => hs
  split at h
  · obtain ⟨-, rfl⟩ := Prod.mk.inj (Option.some.inj h)
    exact record s _ _ hs
  · split at h
    · obtain ⟨-, rfl⟩ := Prod.mk.inj (Option.some.inj h)
      exact record s _ _ hs
    · cases h
  · cases h

theorem handleMatch_spec (line : Str) (nidx : Fin ctx.notifications.length) :
    Spec Ready (handleMatch line nidx) (fun _ => Ready) E Debounced := by
  have text : ∀ valid (text : Text),
      Spec Ready (getText valid text line : Code ctx (Option Str)) (fun _ => Ready) E Debounced :=
    fun valid text => getText_spec valid text line (fun s _ _ hs => hs.record fun _ => rfl)
      fun _ hs => hs.debounced
  refine (text _ _).bind fun title => (text _ _).bind fun desc => (text _ _).bind fun level => ?_
  exact Spec.forEach fun tid => handleTarget_spec nidx title desc level tid

theorem handleNotification_spec (path line : Str) (nidx : Fin ctx.notifications.length) :
    Spec Ready (handleNotification path line nidx) (fun _ => Ready) E Debounced := by
  refine Spec.ite (fun _ => ?_) fun _ => Spec.pure fun _ hs => hs
  refine Spec.bind (M := fun _ => Ready)
    (Spec.ask (fun _ hs => hs.debounced) fun s k a t hs h => ?_) fun matched => ?_
  · split at h
    · obtain ⟨-, rfl⟩ := Prod.mk.inj (Option.some.inj h)
      exact hs.record fun _ => rfl
    · cases h
  · exact Spec.ite (fun _ => handleMatch_spec line nidx) fun _ => Spec.pure fun _ hs => hs

theorem handleLines_spec (lines : List (Fin ctx.monitoredFiles.length × Str)) :
    Spec Ready (handleLines lines) (fun _ => Ready) E Debounced :=
  Spec.forEach fun line => Spec.forEach fun nidx => handleNotification_spec _ line.2 nidx

/-- In every run of lines, every pair comes to a state of its debouncer. -/
theorem handleLines_debounces (lines : List (Fin ctx.monitoredFiles.length × Str))
    (answers : List Answer) : Debounced ((handleLines lines).run answers {}).state := by
  have keeps : KeepsOr Ready Debounced (handleLines lines) := handleLines_spec lines
  exact keeps.state (fun _ hs => hs.debounced) answers fun _ => rfl

end Code

/-! ## Every match is decided for every target -/

/-- So many decisions about a pair are missing. -/
def Missing (pair : Pair ctx) (n : Nat) (s : Monitor ctx) : Prop :=
  Debouncer.decisions (pairEvents pair s.history.reverse) + n =
    matchCount pair.2 s.history.reverse * targetCount pair

theorem Missing.record {pair : Pair ctx} {n m : Nat} {s t : Monitor ctx} {e : Event ctx}
    (h : Missing pair n s)
    (balance : m + Debouncer.decisions (pairEvents pair [e]) =
      n + matchCount pair.2 [e] * targetCount pair)
    (same : t.history = e :: s.history) : Missing pair m t := by
  have matches_record : matchCount pair.2 t.history.reverse =
      matchCount pair.2 s.history.reverse + matchCount pair.2 [e] := by
    rw [same, List.reverse_cons]
    exact List.countP_append
  have decisions_record : Debouncer.decisions (pairEvents pair t.history.reverse) =
      Debouncer.decisions (pairEvents pair s.history.reverse) +
        Debouncer.decisions (pairEvents pair [e]) := by
    rw [pairEvents_record pair same]
    exact List.countP_append
  unfold Missing at h ⊢
  rw [matches_record, decisions_record, Nat.add_mul, ← h]
  omega

namespace Code

variable {E : Empty → Monitor ctx → Prop} {pair : Pair ctx}

/-- Whether a target of a notification makes the pair. -/
def share (pair : Pair ctx) (nidx : Fin ctx.notifications.length) (tid : Fin ctx.targets.length) :
    Nat :=
  if (tid, nidx) = pair then 1 else 0

theorem suppress_missing (n : Nat) (nidx : Fin ctx.notifications.length)
    (tid : Fin ctx.targets.length) (checked : Option Int) :
    Spec (Missing pair (n + share pair nidx tid))
      (modify (·.record (.suppressed (tid, nidx) checked)) : Code ctx PUnit)
      (fun _ => Missing pair n) E (fun _ => True) := by
  refine Spec.modify fun s hs => hs.record ?_ rfl
  by_cases here : (tid, nidx) = pair
  · simp [share, here, pairEvents, Debouncer.decisions, Debouncer.Event.isDecision, matchCount]
  · simp [share, here, pairEvents, Debouncer.decisions, matchCount]

theorem sendTarget_missing (n : Nat) (nidx : Fin ctx.notifications.length)
    (tid : Fin ctx.targets.length) (checked : Option Int) (title desc level : Option Str) :
    Spec (Missing pair (n + share pair nidx tid))
      (sendTarget (tid, nidx) checked title desc level) (fun _ => Missing pair n) E
      (fun _ => True) := by
  refine Spec.bind (M := fun _ => Missing pair n)
    (Spec.ask (fun _ _ => trivial) fun s k a t hs h => ?_) fun _ => ?_
  · split at h
    · obtain ⟨-, rfl⟩ := Prod.mk.inj (Option.some.inj h)
      refine hs.record ?_ rfl
      by_cases here : (tid, nidx) = pair
      · simp [share, here, pairEvents, Debouncer.decisions, Debouncer.Event.isDecision, matchCount]
      · simp [share, here, pairEvents, Debouncer.decisions, matchCount]
    · cases h
  · refine (getTime_spec fun _ _ => trivial).bind fun now => Spec.modify fun s hs => ?_
    refine hs.record (e := .recorded (tid, nidx) now) ?_ rfl
    by_cases here : (tid, nidx) = pair
    · simp [here, pairEvents, Debouncer.decisions, Debouncer.Event.isDecision, matchCount]
    · simp [here, pairEvents, Debouncer.decisions, matchCount]

theorem handleTarget_missing (n : Nat) (nidx : Fin ctx.notifications.length)
    (title desc level : Option Str) (tid : Fin ctx.targets.length) :
    Spec (Missing pair (n + share pair nidx tid)) (handleTarget nidx title desc level tid)
      (fun _ => Missing pair n) E (fun _ => True) := by
  refine Spec.bind (Spec.get fun _ hs => hs) fun s => ?_
  refine Spec.ite (fun _ => ?_) fun _ => sendTarget_missing _ _ _ _ _ _ _
  refine Spec.ite (fun _ => suppress_missing _ _ _ _) fun _ => ?_
  refine Spec.ite (fun _ => ?_) fun _ => sendTarget_missing _ _ _ _ _ _ _
  refine (getTime_spec fun _ _ => trivial).bind fun now => ?_
  exact Spec.ite (fun _ => suppress_missing _ _ _ _) fun _ => sendTarget_missing _ _ _ _ _ _ _

theorem forEach_missing (nidx : Fin ctx.notifications.length) (title desc level : Option Str)
    (tids : List (Fin ctx.targets.length)) :
    Spec (Missing pair (tids.map (share pair nidx)).sum)
      (forEach tids (handleTarget nidx title desc level)) (fun _ => Missing pair 0) E
      (fun _ => True) := by
  induction tids with
  | nil => exact Spec.pure fun _ hs => hs
  | cons tid tids ih =>
      rw [List.map_cons, List.sum_cons, Nat.add_comm]
      exact (handleTarget_missing _ nidx title desc level tid).bind fun _ => ih

theorem share_sum (pair : Pair ctx) (nidx : Fin ctx.notifications.length)
    (tids : List (Fin ctx.targets.length)) :
    (tids.map (share pair nidx)).sum = if nidx = pair.2 then tids.count pair.1 else 0 := by
  induction tids with
  | nil => simp
  | cons tid tids ih =>
      obtain ⟨target, notif⟩ := pair
      rw [List.map_cons, List.sum_cons, ih, List.count_cons]
      by_cases here : nidx = notif
      · by_cases listed : tid = target
        · simp [share, here, listed, Nat.add_comm]
        · simp [share, here, listed]
      · simp [share, here]

theorem handleNotification_missing (path line : Str) (nidx : Fin ctx.notifications.length) :
    Spec (Missing pair 0) (handleNotification path line nidx) (fun _ => Missing pair 0) E
      (fun _ => True) := by
  refine Spec.ite (fun _ => ?_) fun _ => Spec.pure fun _ hs => hs
  refine Spec.bind
    (M := fun matched => Missing pair
      (if matched then ((ctx.notifications.get nidx).targets.map (share pair nidx)).sum else 0))
    (Spec.ask (fun _ _ => trivial) fun s k matched t hs h => ?_) fun matched => ?_
  · split at h
    · next exitCode =>
        obtain ⟨rfl, rfl⟩ := Prod.mk.inj (Option.some.inj h)
        refine hs.record ?_ rfl
        rw [share_sum]
        by_cases here : nidx = pair.2
        · cases hmatch : exitCode == some 0 with
          | false => simp [pairEvents, Debouncer.decisions, matchCount]
          | true => simp [here, pairEvents, Debouncer.decisions, matchCount, targetCount]
        · simp [here, pairEvents, Debouncer.decisions, matchCount]
    · cases h
  · cases matched with
    | false => exact Spec.pure fun _ hs => hs
    | true =>
        have text : ∀ valid (text : Text) n,
            Spec (Missing pair n) (getText valid text line : Code ctx (Option Str))
              (fun _ => Missing pair n) E (fun _ => True) :=
          fun valid text n => getText_spec valid text line (fun s _ _ hs => hs.record
            (by simp [pairEvents, Debouncer.decisions, matchCount]) rfl) fun _ _ => trivial
        refine (text _ _ _).bind fun title => (text _ _ _).bind fun desc =>
          (text _ _ _).bind fun level => ?_
        exact forEach_missing nidx title desc level _

theorem handleLines_missing (lines : List (Fin ctx.monitoredFiles.length × Str)) :
    Spec (Missing pair 0) (handleLines lines) (fun _ => Missing pair 0) E (fun _ => True) :=
  Spec.forEach fun line => Spec.forEach fun nidx => handleNotification_missing _ line.2 nidx

end Code

/-- What a run guarantees for a pair. -/
structure PairDebounced (pair : Pair ctx) (log : List (Event ctx)) : Prop where
  /-- Only its own decisions and the clock readings taken for it have an influence on the pair. -/
  independent : pairEvents pair log =
    Debouncer.replay (debouncing pair) 0 (Debouncer.decisions (pairEvents pair log))
      (Debouncer.readings (pairEvents pair log))
  spaced : 0 < debouncing pair →
    (Debouncer.times (pairEvents pair log)).Pairwise fun t1 t2 => debouncing pair ≤ t2 - t1
  once : debouncing pair = 0 → Debouncer.sends (pairEvents pair log) ≤ 1

/-- The clock readings taken for a pair are among all of them. -/
theorem readings_sublist (pair : Pair ctx) (log : List (Event ctx)) :
    List.Sublist (Debouncer.readings (pairEvents pair log)) (clockReadings log) := by
  induction log with
  | nil => exact List.nil_sublist _
  | cons e log ih =>
      have first : List.Sublist (Debouncer.readings (pairEvents pair [e])) (clockReadings [e]) := by
        cases e with
        | suppressed other checked =>
            by_cases here : other = pair <;> cases checked <;>
              simp [here, pairEvents, Debouncer.readings, clockReadings]
        | invoked other checked _ _ _ _ _ =>
            by_cases here : other = pair <;> cases checked <;>
              simp [here, pairEvents, Debouncer.readings, clockReadings]
        | recorded other now =>
            by_cases here : other = pair <;>
              simp [here, pairEvents, Debouncer.readings, clockReadings]
        | _ => exact List.nil_sublist _
      have cut : Debouncer.readings (pairEvents pair (e :: log)) =
          Debouncer.readings (pairEvents pair [e]) ++ Debouncer.readings (pairEvents pair log) := by
        rw [← List.singleton_append, pairEvents, List.filterMap_append]
        exact List.filterMap_append
      have all : clockReadings (e :: log) = clockReadings [e] ++ clockReadings log :=
        List.filterMap_append (l := [e])
      rw [cut, all]
      exact first.append ih

theorem pairDebounced_of_at {pair : Pair ctx} {state : Debouncer.State} {s : Monitor ctx}
    (h : At pair state s) (hclock : ∀ r ∈ clockReadings s.history.reverse, 0 < r)
    (hmono : (clockReadings s.history.reverse).Pairwise (· ≤ ·)) :
    PairDebounced pair s.history.reverse := by
  have sublist := readings_sublist pair s.history.reverse
  have positive : ∀ r ∈ Debouncer.readings (pairEvents pair s.history.reverse), 0 < r :=
    fun r hr => hclock r (sublist.subset hr)
  constructor
  · exact Debouncer.eq_replay h
  · intro period
    exact Debouncer.spaced period h positive (hmono.sublist sublist)
  · intro zero
    unfold At at h
    rw [zero] at h
    exact Debouncer.sends_le_one h positive

/-- In every run of lines from the start of the monitor, every pair of a target and a notification
is debounced, and where the run returns, each match of the notification was decided for each time it
lists the target. -/
theorem handleLines_debounced (lines : List (Fin ctx.monitoredFiles.length × Str))
    (answers : List Answer)
    (hclock : ∀ r ∈ clockReadings ((Code.handleLines lines).run answers {}).state.history.reverse,
      0 < r)
    (hmono : (clockReadings
      ((Code.handleLines lines).run answers {}).state.history.reverse).Pairwise (· ≤ ·))
    (pair : Pair ctx) :
    PairDebounced pair ((Code.handleLines lines).run answers {}).state.history.reverse ∧
      (((Code.handleLines lines).run answers {}).result = some (.ok ⟨⟩) →
        Debouncer.decisions
            (pairEvents pair ((Code.handleLines lines).run answers {}).state.history.reverse) =
          matchCount pair.2 ((Code.handleLines lines).run answers {}).state.history.reverse *
            targetCount pair) := by
  have debounced := Code.handleLines_debounces lines answers
  have unread : Missing pair 0 ({} : Monitor ctx) := by
    simp [Missing, pairEvents, Debouncer.decisions, matchCount]
  have complete := Code.handleLines_missing (E := fun e => e.elim) lines answers {} unread
  generalize (Code.handleLines lines).run answers {} = run at *
  constructor
  · obtain ⟨state, h⟩ := debounced pair
    exact pairDebounced_of_at h hclock hmono
  · intro returned
    rw [Ends, returned] at complete
    exact complete

/-- One notification about one log file, sent by mail every ten seconds at most. -/
def mailContext : Context where
  targets := [{ name := "mail".toList, send := "send".toList, debouncing := 10 }]
  notifications :=
    [{ name := "app".toList, filter := "filter".toList, title := { text := "Title".toList }
       desc := { text := "Description".toList }, level := { text := "INFO".toList }
       monitoredFiles := [{ path := "/var/log/app.log".toList, isStatus := false }]
       targets := [⟨0, by decide⟩], monitoredFiles_pos := by decide
       monitoredFiles_le := by decide, targets_le := by decide }]
  targets_le := by decide
  notifications_le := by decide
  monitoredFiles := [{ path := "/var/log/app.log".toList, isStatus := false }]

/-- Three lines match; the second one comes five seconds after the first was sent. -/
def mailAnswers : List Answer :=
  ([.filter (some 0), .launched true, .clock (some 100)] : List Answer) ++
    ([.filter (some 0), .clock (some 105)] : List Answer) ++
    ([.filter (some 0), .clock (some 112), .launched true, .clock (some 113)] : List Answer)

def mailLines : List (Fin mailContext.monitoredFiles.length × Str) :=
  List.replicate 3 (⟨0, by decide⟩, "error".toList)

theorem handleLines_debounced_mail :
    Debouncer.decisions (pairEvents (⟨0, by decide⟩, ⟨0, by decide⟩)
        ((Code.handleLines mailLines).run mailAnswers {}).state.history.reverse) = 3 ∧
      ([100, 113].Pairwise fun t1 t2 : Int => 10 ≤ t2 - t1) := by
  have debounced := handleLines_debounced mailLines mailAnswers (by decide) (by decide)
    (⟨0, by decide⟩, ⟨0, by decide⟩)
  exact ⟨debounced.2 rfl, debounced.1.spaced (by decide)⟩

end Baseimage.LogMonitor
