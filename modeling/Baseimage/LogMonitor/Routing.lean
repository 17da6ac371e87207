import Baseimage.LogMonitor.HandleLine

/-!
# Routing of lines

The table of monitored files joins the notifications with the files: a line of a monitored file is
given once to the filter of every notification that lists the path of the file, and to no other
filter. No filter is left out, since a line is always handled to its end.
-/

namespace Baseimage.LogMonitor

open Script

variable {ctx : Context}

/-- The lines the filter of a notification was invoked with. -/
def filterRuns (nidx : Fin ctx.notifications.length) (log : List (Event ctx)) : List Str :=
  log.filterMap fun
    | .filtered other _ line _ => if other = nidx then some line else none
    | _ => none

/-- The lines the filter of a notification was invoked with since the line was read. -/
def Filtered (nidx : Fin ctx.notifications.length) (begun : Monitor ctx) (runs : List Str)
    (s : Monitor ctx) : Prop :=
  ∃ log, s.history = log ++ begun.history ∧ filterRuns nidx log.reverse = runs

namespace Filtered

variable {nidx other : Fin ctx.notifications.length} {begun s t : Monitor ctx} {runs : List Str}

theorem start : Filtered nidx s [] s := ⟨[], rfl, rfl⟩

theorem record (h : Filtered nidx begun runs s) {e : Event ctx}
    (same : t.history = e :: s.history) : Filtered nidx begun (runs ++ filterRuns nidx [e]) t := by
  obtain ⟨log, hlog, hruns⟩ := h
  refine ⟨e :: log, by rw [same, hlog, List.cons_append], ?_⟩
  rw [List.reverse_cons, ← hruns]
  exact List.filterMap_append

theorem record_run (h : Filtered nidx begun runs s) (filter line : Str) (matched : Bool) :
    Filtered nidx begun (runs ++ [line]) (s.record (.filtered nidx filter line matched)) := by
  have recorded := h.record (t := s.record (.filtered nidx filter line matched)) rfl
  rwa [show filterRuns nidx [.filtered nidx filter line matched] = [line] by simp [filterRuns]]
    at recorded

theorem record_other (h : Filtered nidx begun runs s) {e : Event ctx}
    (none_run : filterRuns nidx [e] = []) (same : t.history = e :: s.history) :
    Filtered nidx begun runs t := by
  have recorded := h.record same
  rwa [none_run, List.append_nil] at recorded

end Filtered

namespace Code

variable {nidx other : Fin ctx.notifications.length} {begun : Monitor ctx} {runs : List Str}

theorem getTime_filtered : Keeps (Filtered nidx begun runs) (getTime : Code ctx Int) := by
  refine Keeps.bind (Keeps.ask fun s k now t hs h => ?_) fun now => ?_
  · split at h
    · obtain ⟨-, rfl⟩ := Prod.mk.inj (Option.some.inj h)
      exact hs
    · cases h
  · cases now with
    | some now => exact Keeps.pure now
    | none => exact Keeps.ofOutcome .aborted

theorem sendTarget_filtered (pair : Pair ctx) (checked : Option Int)
    (title desc level : Option Str) :
    Keeps (Filtered nidx begun runs) (sendTarget pair checked title desc level) := by
  refine Keeps.bind (Keeps.ask fun s k a t hs h => ?_) fun _ => ?_
  · split at h
    · obtain ⟨-, rfl⟩ := Prod.mk.inj (Option.some.inj h)
      exact hs.record_other rfl rfl
    · cases h
  · exact getTime_filtered.bind fun now => Spec.modify fun s hs => hs.record_other rfl rfl

theorem handleTarget_filtered (title desc level : Option Str) (tid : Fin ctx.targets.length) :
    Keeps (Filtered nidx begun runs) (handleTarget other title desc level tid) := by
  have suppress : ∀ checked, Keeps (Filtered nidx begun runs)
      (modify (·.record (.suppressed (tid, other) checked)) : Code ctx PUnit) :=
    fun checked => Spec.modify fun s hs => hs.record_other rfl rfl
  refine Keeps.bind (Spec.get fun _ hs => hs) fun s => ?_
  refine Spec.ite (fun _ => ?_) fun _ => sendTarget_filtered _ _ _ _ _
  refine Spec.ite (fun _ => suppress none) fun _ => ?_
  refine Spec.ite (fun _ => ?_) fun _ => sendTarget_filtered _ _ _ _ _
  refine getTime_filtered.bind fun now => ?_
  exact Spec.ite (fun _ => suppress (some now)) fun _ => sendTarget_filtered _ _ _ _ _

theorem getText_filtered (valid : Str → Bool) (text : Text) (line : Str) :
    Keeps (Filtered nidx begun runs) (getText valid text line : Code ctx (Option Str)) := by
  refine Spec.ite (fun _ => Keeps.ask fun s k a t hs h => ?_) fun _ => Keeps.pure _
  split at h
  · obtain ⟨-, rfl⟩ := Prod.mk.inj (Option.some.inj h)
    exact hs.record_other rfl rfl
  · split at h
    · obtain ⟨-, rfl⟩ := Prod.mk.inj (Option.some.inj h)
      exact hs.record_other rfl rfl
    · cases h
  · cases h

theorem handleMatch_filtered (line : Str) :
    Keeps (Filtered nidx begun runs) (handleMatch line other) := by
  refine (getText_filtered _ _ _).bind fun title => (getText_filtered _ _ _).bind fun desc =>
    (getText_filtered _ _ _).bind fun level => ?_
  exact Spec.forEach fun tid => handleTarget_filtered _ _ _ tid

/-- The filters of the other notifications are not those of this one. -/
theorem handleNotification_other (hother : other ≠ nidx) (path line : Str) :
    Keeps (Filtered nidx begun runs) (handleNotification path line other) := by
  refine Spec.ite (fun _ => ?_) fun _ => Keeps.pure _
  refine Keeps.bind (Keeps.ask fun s k a t hs h => ?_) fun matched =>
    Spec.ite (fun _ => handleMatch_filtered line) fun _ => Keeps.pure _
  split at h
  · obtain ⟨-, rfl⟩ := Prod.mk.inj (Option.some.inj h)
    exact hs.record_other (by simp [filterRuns, hother]) rfl
  · cases h

/-- The runs of its filter that a notification gets from a line of a path. -/
def runsFor (nidx : Fin ctx.notifications.length) (path line : Str) : List Str :=
  if (ctx.notifications.get nidx).lists path then [line] else []

theorem handleNotification_self (path line : Str) {E : Empty → Monitor ctx → Prop}
    {R : Monitor ctx → Prop} (none_yet : ∀ s, Filtered nidx begun [] s → R s)
    (stopped : ∀ s, Filtered nidx begun (runsFor nidx path line) s → R s) :
    Spec (Filtered nidx begun []) (handleNotification path line nidx)
      (fun _ => Filtered nidx begun (runsFor nidx path line)) E R := by
  refine Spec.ite (fun listed => ?_) fun unlisted => Spec.pure fun s hs => ?_
  · rw [runsFor, if_pos listed] at stopped ⊢
    refine Spec.bind (M := fun _ => Filtered nidx begun [line])
      (Spec.ask none_yet fun s k a t hs h => ?_) fun matched => ?_
    · split at h
      · obtain ⟨-, rfl⟩ := Prod.mk.inj (Option.some.inj h)
        exact hs.record_run _ _ _
      · cases h
    · refine Spec.ite (fun _ => ?_) fun _ => Spec.pure fun _ hs => hs
      exact (handleMatch_filtered line).spec (fun _ _ hs => hs) (fun e => e.elim) stopped
  · rwa [runsFor, if_neg unlisted]

theorem forEach_other {nidxs : List (Fin ctx.notifications.length)} (absent : nidx ∉ nidxs)
    (path line : Str) :
    Keeps (Filtered nidx begun runs) (forEach nidxs (handleNotification path line)) := by
  induction nidxs with
  | nil => exact Keeps.pure _
  | cons other nidxs ih =>
      have hother : other ≠ nidx := fun same => absent (same ▸ List.mem_cons_self)
      have hrest : nidx ∉ nidxs := fun later => absent (List.mem_cons_of_mem _ later)
      exact (handleNotification_other hother path line).bind fun _ => ih hrest

/-- In the loop over the notifications, each has its turn once. -/
theorem forEach_filtered {nidxs : List (Fin ctx.notifications.length)} (nodup : nidxs.Nodup)
    (member : nidx ∈ nidxs) (path line : Str) {E : Empty → Monitor ctx → Prop}
    {R : Monitor ctx → Prop} (none_yet : ∀ s, Filtered nidx begun [] s → R s)
    (stopped : ∀ s, Filtered nidx begun (runsFor nidx path line) s → R s) :
    Spec (Filtered nidx begun []) (forEach nidxs (handleNotification path line))
      (fun _ => Filtered nidx begun (runsFor nidx path line)) E R := by
  induction nidxs with
  | nil => cases member
  | cons other nidxs ih =>
      obtain ⟨absent, hrest⟩ := List.nodup_cons.mp nodup
      by_cases here : other = nidx
      · subst here
        refine (handleNotification_self path line none_yet stopped).bind fun _ => ?_
        exact (forEach_other absent path line).spec (fun _ _ hs => hs) (fun e => e.elim) stopped
      · have later := (List.mem_cons.mp member).resolve_left (Ne.symm here)
        refine Spec.bind (M := fun _ => Filtered nidx begun []) ?_ fun _ => ih hrest later
        exact (handleNotification_other here path line).spec (fun _ _ hs => hs) (fun e => e.elim)
          none_yet

end Code

/-- A line of a monitored file goes once through the filter of each notification that lists its
path, and through no other. -/
structure Routed (ctx : Context) : Prop where
  distinct : (ctx.monitoredFiles.map Source.path).Nodup
  bounded : ctx.monitoredFiles.length ≤ maxNumMonitoredFiles
  covered : ∀ notif ∈ ctx.notifications, ∀ source ∈ notif.monitoredFiles,
    source ∈ ctx.monitoredFiles
  declared : ∀ file ∈ ctx.monitoredFiles, ∃ notif ∈ ctx.notifications, file ∈ notif.monitoredFiles
  filtered : ∀ (mfid : Fin ctx.monitoredFiles.length) (line : Str) (answers : List Answer)
    (s : Monitor ctx) (nidx : Fin ctx.notifications.length),
    ∃ log, ((Code.handleLine mfid line).run answers s).state.history = log.reverse ++ s.history ∧
      (filterRuns nidx log = [] ∨
        filterRuns nidx log = Code.runsFor nidx (ctx.monitoredFiles.get mfid).path line) ∧
      (((Code.handleLine mfid line).run answers s).result = some (.ok ⟨⟩) →
        filterRuns nidx log = Code.runsFor nidx (ctx.monitoredFiles.get mfid).path line)
  /-- Wherever `handle_line` has come to, it goes on to its end as its questions are answered, and
  there each filter has been run as often as it should. -/
  handled : ∀ (mfid : Fin ctx.monitoredFiles.length) (line : Str) (taken : List Answer)
    (s u : Monitor ctx) (r : Option (Outcome Empty PUnit)), (∀ k ∈ taken, Code.ClockWorks k) →
    (Code.handleLine mfid line).run taken s = ⟨r, [], u⟩ →
    ∃ more t, (∀ k ∈ more, Code.ClockWorks k) ∧
      taken.length + more.length ≤ Code.lineQuestions ∧
      (Code.handleLine mfid line).run (taken ++ more) s = ⟨some (.ok ⟨⟩), [], t⟩ ∧
      ∀ nidx, ∃ log, t.history = log.reverse ++ s.history ∧
        filterRuns nidx log = Code.runsFor nidx (ctx.monitoredFiles.get mfid).path line

theorem handleLine_filtered (mfid : Fin ctx.monitoredFiles.length) (line : Str)
    (answers : List Answer) (s : Monitor ctx) (nidx : Fin ctx.notifications.length) :
    ∃ log, ((Code.handleLine mfid line).run answers s).state.history = log.reverse ++ s.history ∧
      (filterRuns nidx log = [] ∨
        filterRuns nidx log = Code.runsFor nidx (ctx.monitoredFiles.get mfid).path line) ∧
      (((Code.handleLine mfid line).run answers s).result = some (.ok ⟨⟩) →
        filterRuns nidx log = Code.runsFor nidx (ctx.monitoredFiles.get mfid).path line) := by
  have spec := Code.forEach_filtered (E := fun e => e.elim)
    (R := fun t => Filtered nidx s [] t ∨
      Filtered nidx s (Code.runsFor nidx (ctx.monitoredFiles.get mfid).path line) t)
    (List.nodup_finRange _) (List.mem_finRange nidx) (ctx.monitoredFiles.get mfid).path line
    (fun _ => .inl) (fun _ => .inr) answers s Filtered.start
  change Ends _ _ _ ((Code.handleLine mfid line).run answers s) at spec
  generalize (Code.handleLine mfid line).run answers s = run at spec ⊢
  have unreturned : (∀ a, run.result ≠ some (.ok a)) →
      (Filtered nidx s [] run.state ∨
        Filtered nidx s (Code.runsFor nidx (ctx.monitoredFiles.get mfid).path line) run.state) →
      ∃ log, run.state.history = log.reverse ++ s.history ∧
        (filterRuns nidx log = [] ∨
          filterRuns nidx log = Code.runsFor nidx (ctx.monitoredFiles.get mfid).path line) ∧
        (run.result = some (.ok ⟨⟩) →
          filterRuns nidx log = Code.runsFor nidx (ctx.monitoredFiles.get mfid).path line) := by
    rintro unreturned (⟨log, hlog, hruns⟩ | ⟨log, hlog, hruns⟩)
    · exact ⟨log.reverse, by rw [hlog, List.reverse_reverse], .inl hruns,
        fun h => absurd h (unreturned _)⟩
    · exact ⟨log.reverse, by rw [hlog, List.reverse_reverse], .inr hruns,
        fun h => absurd h (unreturned _)⟩
  unfold Ends at spec
  split at spec
  · obtain ⟨log, hlog, hruns⟩ := spec
    exact ⟨log.reverse, by rw [hlog, List.reverse_reverse], .inr hruns, fun _ => hruns⟩
  · next e _ => exact e.elim
  · next aborted => exact unreturned (by simp [aborted]) spec
  · next stopped => exact unreturned (by simp [stopped]) spec

theorem handleLine_handled (mfid : Fin ctx.monitoredFiles.length) (line : Str)
    (taken : List Answer) (s u : Monitor ctx) (r : Option (Outcome Empty PUnit))
    (works : ∀ k ∈ taken, Code.ClockWorks k)
    (run : (Code.handleLine mfid line).run taken s = ⟨r, [], u⟩) :
    ∃ more t, (∀ k ∈ more, Code.ClockWorks k) ∧
      taken.length + more.length ≤ Code.lineQuestions ∧
      (Code.handleLine mfid line).run (taken ++ more) s = ⟨some (.ok ⟨⟩), [], t⟩ ∧
      ∀ nidx, ∃ log, t.history = log.reverse ++ s.history ∧
        filterRuns nidx log = Code.runsFor nidx (ctx.monitoredFiles.get mfid).path line := by
  obtain ⟨more, ⟨⟩, t, further, few, done⟩ :=
    (Code.handleLine_finishes mfid line).returns works run
  refine ⟨more, t, further, few, done, fun nidx => ?_⟩
  obtain ⟨log, history, -, runs⟩ := handleLine_filtered mfid line (taken ++ more) s nidx
  rw [done] at history runs
  exact ⟨log, history, runs rfl⟩

/-- A context that is created routes the lines, and none is created where a path is declared with
two types. -/
theorem createContext_routed (malloc : Nat → Bool) (config : Config) :
    ((∃ a ∈ config.sources, ∃ b ∈ config.sources, a.path = b.path ∧ a.isStatus ≠ b.isStatus) →
      createContext malloc config = none) ∧
    ∀ ctx, createContext malloc config = some ctx → ctx.toConfig = config ∧ Routed ctx := by
  constructor
  · rintro ⟨a, ha, b, hb, same, differ⟩
    cases created : createContext malloc config with
    | none => rfl
    | some ctx =>
        obtain ⟨-, table⟩ := tabulated_createContext created
        exact absurd (congrArg Source.isStatus (table.eq_of_path ha hb same)) differ
  · intro ctx created
    obtain ⟨rfl, table⟩ := tabulated_createContext created
    refine ⟨rfl, ?_⟩
    exact
      { distinct := table.distinct
        bounded := table.length_le.trans (length_sources_le _)
        covered := fun notif hnotif source hsource =>
          table.covered source (List.mem_flatMap_of_mem hnotif hsource)
        declared := fun file hfile => List.mem_flatMap.mp (table.declared file hfile)
        filtered := handleLine_filtered
        handled := handleLine_handled }

def sharedLog : Source := { path := "/var/log/app.log".toList, isStatus := false }

def statusFile : Source := { path := "/run/app.status".toList, isStatus := true }

/-- A notification for these sources, sent to the only target. -/
def notificationFor (sources : List Source) (pos : 0 < sources.length) (le : sources.length ≤ 4) :
    Notification 1 where
  name := "app".toList
  filter := "filter".toList
  title := { text := "Title".toList }
  desc := { text := "Description".toList }
  level := { text := "INFO".toList }
  monitoredFiles := sources
  targets := [0]
  monitoredFiles_pos := pos
  monitoredFiles_le := le
  targets_le := by decide

/-- Two notifications that share a log file; the second one lists it twice. -/
def sharing : Config where
  targets := [{ name := "mail".toList, send := "send".toList }]
  notifications :=
    [notificationFor [sharedLog] (by decide) (by decide),
      notificationFor [statusFile, sharedLog, sharedLog] (by decide) (by decide)]
  targets_le := by decide
  notifications_le := by decide

def sharingContext : Context := { sharing with monitoredFiles := [sharedLog, statusFile] }

/-- A line of the log file. The first notification matches and is sent, the second one does not
match. -/
def logLineAnswers : List Answer :=
  [.filter (some 0), .launched true, .clock (some 7), .filter (some 1)]

theorem createContext_routed_sharing :
    createContext (fun _ => true) sharing = some sharingContext ∧ Routed sharingContext ∧
      ∀ nidx : Fin 2, ∃ log,
        ((@Code.handleLine sharingContext ⟨0, by decide⟩ "full".toList).run logLineAnswers
          {}).state.history = log.reverse ∧
        @filterRuns sharingContext nidx log = ["full".toList] := by
  have routed : Routed sharingContext :=
    ((createContext_routed (fun _ => true) sharing).2 sharingContext rfl).2
  have listed : ∀ nidx : Fin 2, @Code.runsFor sharingContext nidx sharedLog.path "full".toList =
      ["full".toList] := by
    decide
  refine ⟨rfl, routed, fun nidx => ?_⟩
  obtain ⟨log, history, -, runs⟩ :=
    routed.filtered ⟨0, by decide⟩ "full".toList logLineAnswers {} nidx
  exact ⟨log, history.trans (List.append_nil _), (runs (by decide +kernel)).trans (listed nidx)⟩

end Baseimage.LogMonitor
