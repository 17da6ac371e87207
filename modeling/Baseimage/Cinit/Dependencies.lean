import Baseimage.Cinit.StartOrder

/-!
# Which dependencies are loaded

The services root is a tree of service directories. `load_service_with_deps` lists the directory
of a service once, right after changing to it, but every `.dep` file is then checked by its name
alone, in the working directory: after a dependency has been loaded this is the directory of the
service loaded last. There the file may be missing, and then `depends` keeps whatever the
unassigned variable held, or it may be another file with another value.

The loading that checks every file in the directory that was listed is the reference. It loads
the services that are needed. The code loads them too if every check of the reference comes out
the same in the working directory.
-/

namespace Baseimage.Cinit

open DepthFirst

/-- The directories under the services root. -/
structure ServicesRoot where
  dir : Str → Except ChdirError ServiceDir

/-- What a name leads to in the directory of a service. -/
def ServicesRoot.lookup (root : ServicesRoot) (service name : Str) : Option Node :=
  match root.dir service with
  | .ok dir => dir.lookup name
  | .error _ => none

/-- `chdir_to_service`. -/
def ServicesRoot.chdirToService (root : ServicesRoot) (service : Str) : Outcome Str Unit :=
  match root.dir service with
  | .ok _ => .ok ()
  | .error error => throwMessage error.message

/-- What unassigned memory holds: the buffers of the loaders, when a file of a service is loaded
and at the n-th dependency check, and the variable `depends` at the n-th check. -/
structure Memory where
  settings : Str → Str → Str
  stack : Nat → Str
  depends : Nat → Bool

/-- The check of a dependency state in the working directory. -/
def ServicesRoot.check (sys : System) (root : ServicesRoot) (cwd dName stack : Str)
    (unassigned : Bool) : Outcome Str Bool :=
  loadValueAsBool sys dName (root.lookup cwd dName) stack >>= fun value =>
    .ok (value.getD unassigned)

/-- The view of the supervisor. -/
def ServicesRoot.view (sys : System) (defaults : ServiceDefaults) (root : ServicesRoot)
    (memory : Memory) : View :=
  { chdirToService := root.chdirToService
    settings := fun service =>
      match root.dir service with
      | .ok dir => loadSettings sys defaults dir (memory.settings service) service
      | .error _ => .aborted
    listing := fun service =>
      match root.dir service with
      | .ok dir => .ok dir.entries
      | .error _ => .aborted
    depends := fun cwd _ dName n => root.check sys cwd dName (memory.stack n) (memory.depends n) }

/-- The file counts in the directory of the service itself. -/
def ServicesRoot.counts (sys : System) (root : ServicesRoot) (service dName : Str) : Bool :=
  boolValue sys dName (root.lookup service dName) == some true

/-- The view where every dependency state is checked in the directory that was listed. -/
def ServicesRoot.ownView (sys : System) (defaults : ServiceDefaults) (root : ServicesRoot)
    (settings : Str → Str → Str) : View :=
  { root.view sys defaults { settings := settings, stack := fun _ => [], depends := fun _ => false }
      with depends := fun _ service dName _ => .ok (root.counts sys service dName) }

/-- The services that have to be loaded: the least set that contains the root and, with every
service that is not disabled, the services its own directory declares a dependency on. -/
inductive Needed (sys : System) (root : ServicesRoot) (disabled : Str → Bool) (top : Str) :
    Str → Prop where
  | top : Needed sys root disabled top top
  | dependency {s t : Str} {dir : ServiceDir} {entry : DirEntry}
      (needed : Needed sys root disabled top s) (enabled : disabled s = false)
      (isDir : root.dir s = .ok dir) (listed : entry ∈ dir.entries) (isFile : entry.isReg = true)
      (named : entry.dName = depFile t)
      (isTrue : boolValue sys (depFile t) (root.lookup s (depFile t)) = some true) :
      Needed sys root disabled top t

/-- The outcome of the call, and what it must be: every check came out as the value of the file
in the directory of the service itself, and if the call returned then exactly the services that
are needed have been loaded. -/
def LoadsNeeded (sys : System) (defaults : ServiceDefaults) (root : ServicesRoot) (top cwd : Str)
    (memory : Memory) : Prop :=
  let view := root.view sys defaults memory
  let result := loadServiceWithDeps view top (-1) { cwd := cwd }
  (∀ c ∈ result.2.checks, c.depends = root.counts sys c.service c.dName) ∧
    (result.1 = .ok () →
      ∀ s, s ∈ result.2.services.map Service.name ↔ Needed sys root view.disabled top s)

/-- The checks of the reference loading, in order, each with the directory that is the working
directory by then. -/
def referenceChecks (sys : System) (defaults : ServiceDefaults) (root : ServicesRoot)
    (settings : Str → Str → Str) (top cwd : Str) : List Check :=
  (loadServiceWithDeps (root.ownView sys defaults settings) top (-1) { cwd := cwd }).2.checks

/-- Every check comes out the same in the working directory, whatever unassigned memory holds, up
to the first one that never comes to a value there. -/
def Agrees (sys : System) (root : ServicesRoot) (checks : List Check) : Prop :=
  ∀ earlier c, earlier ++ [c] <+: checks →
    (∀ e ∈ earlier, ∃ stack unassigned,
      root.check sys e.cwd e.dName stack unassigned = .ok e.depends) →
    ∀ stack unassigned value,
      root.check sys c.cwd c.dName stack unassigned = .ok value → value = c.depends

variable {sys : System} {defaults : ServiceDefaults} {root : ServicesRoot}

/-- The checks so far came out as they are noted, with the memory there was. -/
def Right (sys : System) (root : ServicesRoot) (memory : Memory) (checks : List Check) : Prop :=
  ∀ earlier c, earlier ++ [c] <+: checks →
    root.check sys c.cwd c.dName (memory.stack earlier.length) (memory.depends earlier.length) =
      .ok c.depends

/-- How the code follows the reference: up to the end, up to a check that comes to no value, or
up to a check that comes to another value. -/
inductive Follows (sys : System) (root : ServicesRoot) (memory : Memory) :
    Outcome Str Unit × LoadContext → Outcome Str Unit × LoadContext → Prop where
  | same {result} (right : Right sys root memory result.2.checks) :
      Follows sys root memory result result
  | stopped {code reference earlier c} (right : Right sys root memory earlier)
      (reached : earlier ++ [c] <+: reference.2.checks)
      (fails : ∀ value, root.check sys c.cwd c.dName (memory.stack earlier.length)
        (memory.depends earlier.length) ≠ .ok value)
      (outcome : code.1 ≠ .ok ()) (checks : code.2.checks = earlier) :
      Follows sys root memory code reference
  | deviated {code reference earlier c value} (right : Right sys root memory earlier)
      (reached : earlier ++ [c] <+: reference.2.checks)
      (found : root.check sys c.cwd c.dName (memory.stack earlier.length)
        (memory.depends earlier.length) = .ok value)
      (different : value ≠ c.depends)
      (noted : earlier ++ [{ c with depends := value }] <+: code.2.checks) :
      Follows sys root memory code reference

theorem Right.concat {memory : Memory} {checks : List Check} {c : Check}
    (h : Right sys root memory checks)
    (found : root.check sys c.cwd c.dName (memory.stack checks.length)
      (memory.depends checks.length) = .ok c.depends) :
    Right sys root memory (checks ++ [c]) := by
  intro earlier d hprefix
  rcases List.prefix_concat_iff.mp hprefix with whole | shorter
  · obtain ⟨rfl, hlast⟩ := List.append_inj' whole rfl
    obtain rfl := List.singleton_inj.mp hlast
    exact found
  · exact h earlier d shorter

/-- Following goes on through the rest of the loading. -/
theorem Follows.rest {memory : Memory} {code reference : Outcome Str Unit × LoadContext}
    {rest rest' : LoadContext → Outcome Str Unit × LoadContext}
    (h : Follows sys root memory code reference)
    (hrest : ∀ ctx, Right sys root memory ctx.checks →
      Follows sys root memory (rest ctx) (rest' ctx))
    (grows : ∀ ctx, Grows ctx (rest ctx).2) (grows' : ∀ ctx, Grows ctx (rest' ctx).2) :
    Follows sys root memory (goOn code rest) (goOn reference rest') := by
  have longer := fun result : Outcome Str Unit × LoadContext =>
    (goOn_grows (Grows.refl result.2) grows).checks
  have longer' := fun result : Outcome Str Unit × LoadContext =>
    (goOn_grows (Grows.refl result.2) grows').checks
  cases h with
  | same right =>
      obtain ⟨outcome, ctx⟩ := code
      cases outcome with
      | ok a => exact hrest ctx right
      | threw message => exact .same right
      | aborted => exact .same right
  | stopped right reached fails outcome checks =>
      have stays : goOn code rest = code := by
        obtain ⟨o, ctx⟩ := code
        cases o with
        | ok a => exact absurd rfl outcome
        | threw message => rfl
        | aborted => rfl
      rw [stays]
      exact .stopped right (reached.trans (longer' reference)) fails outcome checks
  | deviated right reached found different noted =>
      exact .deviated right (reached.trans (longer' reference)) found different
        (noted.trans (longer code))

/-- One loop over a directory. -/
theorem follows_loadDependencies {memory : Memory}
    {load load' : Str → Int → LoadContext → Outcome Str Unit × LoadContext}
    (hload : ∀ name dependent ctx, Right sys root memory ctx.checks →
      Follows sys root memory (load name dependent ctx) (load' name dependent ctx))
    (grows : ∀ name dependent ctx, Grows ctx (load name dependent ctx).2)
    (grows' : ∀ name dependent ctx, Grows ctx (load' name dependent ctx).2)
    (service : Str) (sid : Nat) (entries : List DirEntry) {ctx : LoadContext}
    (right : Right sys root memory ctx.checks) :
    Follows sys root memory
      (loadDependencies (root.view sys defaults memory) load service sid entries ctx)
      (loadDependencies (root.ownView sys defaults memory.settings) load' service sid entries
        ctx) := by
  induction entries generalizing ctx with
  | nil => exact .same right
  | cons entry entries ih =>
      have rest := loadDependencies_grows (root.view sys defaults memory) grows service sid entries
      have rest' := loadDependencies_grows (root.ownView sys defaults memory.settings) grows'
        service sid entries
      rw [loadDependencies, loadDependencies]
      split
      · exact ih right
      · have noted : ∀ value, Grows (ctx.note service entry.dName value)
            (goOn (if value then load (removeDepSuffix entry.dName) sid
                (ctx.note service entry.dName value)
              else (.ok (), ctx.note service entry.dName value))
              (loadDependencies (root.view sys defaults memory) load service sid entries)).2 := by
          intro value
          refine goOn_grows ?_ rest
          split
          · exact grows _ _ _
          · exact Grows.refl _
        have noted' : ∀ value, Grows (ctx.note service entry.dName value)
            (goOn (if value then load' (removeDepSuffix entry.dName) sid
                (ctx.note service entry.dName value)
              else (.ok (), ctx.note service entry.dName value))
              (loadDependencies (root.ownView sys defaults memory.settings) load' service sid
                entries)).2 := by
          intro value
          refine goOn_grows ?_ rest'
          split
          · exact grows' _ _ _
          · exact Grows.refl _
        have reached := (noted' (root.counts sys service entry.dName)).checks
        rw [LoadContext.note_checks] at reached
        cases found : root.check sys ctx.cwd entry.dName (memory.stack ctx.checks.length)
            (memory.depends ctx.checks.length) with
        | threw message =>
            simp only [ServicesRoot.view, ServicesRoot.ownView, found]
            exact .stopped right reached (by simp [found]) (by simp) rfl
        | aborted =>
            simp only [ServicesRoot.view, ServicesRoot.ownView, found]
            exact .stopped right reached (by simp [found]) (by simp) rfl
        | ok value =>
            simp only [ServicesRoot.view, ServicesRoot.ownView, found]
            by_cases same : value = root.counts sys service entry.dName
            · subst same
              have right' : Right sys root memory
                  (ctx.note service entry.dName (root.counts sys service entry.dName)).checks := by
                rw [LoadContext.note_checks]
                exact right.concat found
              refine Follows.rest ?_ (fun ctx right => ih right) rest rest'
              split
              · exact hload _ _ _ right'
              · exact .same right'
            · have deviates := (noted value).checks
              rw [LoadContext.note_checks] at deviates
              exact .deviated right reached found same deviates

/-- The code follows the reference. -/
theorem follows_loadWithDepth {memory : Memory} (depth : Nat) (service : Str) (dependent : Int)
    {ctx : LoadContext} (right : Right sys root memory ctx.checks) :
    Follows sys root memory
      (loadWithDepth (root.view sys defaults memory) depth service dependent ctx)
      (loadWithDepth (root.ownView sys defaults memory.settings) depth service dependent ctx) := by
  induction depth generalizing service dependent ctx with
  | zero => exact .same right
  | succ depth ih =>
      have sameLoad : loadService (root.view sys defaults memory) service ctx =
          loadService (root.ownView sys defaults memory.settings) service ctx := rfl
      have sameListing : (root.view sys defaults memory).listing service =
          (root.ownView sys defaults memory.settings).listing service := rfl
      rw [loadWithDepth, loadWithDepth, sameLoad, sameListing]
      split
      · exact .same right
      · split
        · exact .same right
        · next fresh =>
            have checks := loadService_checks
              (root.ownView sys defaults memory.settings) service ctx
            split
            · next run => exact .same (by rw [run] at checks; rwa [checks])
            · next run => exact .same (by rw [run] at checks; rwa [checks])
            · next sid ctx' run =>
                have right' : Right sys root memory ctx'.checks := by
                  rw [run] at checks
                  rwa [checks]
                split
                · exact .same right'
                · simp only
                  split
                  · exact .same right'
                  · exact .same right'
                  · exact follows_loadDependencies (fun _ _ _ right => ih _ _ right)
                      (fun _ _ _ => loadWithDepth_grows _ _ _ _ _)
                      (fun _ _ _ => loadWithDepth_grows _ _ _ _ _) service sid _ right'

/-- Every check is noted with the value that counts. -/
def NotedAs (counted : Str → Str → Bool) (ctx : LoadContext) : Prop :=
  ∀ c ∈ ctx.checks, c.depends = counted c.service c.dName

theorem loadWithDepth_notedAs {view : View} {counted : Str → Str → Bool}
    (hview : ∀ cwd service dName n, view.depends cwd service dName n = .ok (counted service dName))
    (depth : Nat) (service : Str) (dependent : Int) {ctx : LoadContext} (h : NotedAs counted ctx) :
    NotedAs counted (loadWithDepth view depth service dependent ctx).2 := by
  refine loadWithDepth_keeps ?_ ?_ ?_ depth service dependent h
  · intro service ctx h
    rwa [NotedAs, loadService_checks]
  · intro ctx sid dependent srv _ _ h
    exact h
  · intro ctx service dName depends found h c hc
    rcases List.mem_append.mp hc with old | new
    · exact h c old
    · obtain rfl := List.mem_singleton.mp new
      exact (Outcome.ok.inj ((hview _ _ _ _).symm.trans found)).symm

/-- The file of a dependency is an entry the loading loop looks at. -/
theorem isDep_iff {entry : DirEntry} :
    entry.isDep = true ↔ entry.isReg = true ∧ ∃ t, entry.dName = depFile t := by
  constructor
  · intro h
    simp only [DirEntry.isDep, Bool.and_eq_true, endsWith, List.isSuffixOf_iff_suffix] at h
    obtain ⟨⟨-, isReg⟩, t, named⟩ := h
    exact ⟨isReg, t, named.symm⟩
  · rintro ⟨isReg, t, named⟩
    obtain ⟨dName, reg, node⟩ := entry
    simp only at isReg named
    subst isReg named
    exact isDep_depFile t node

/-- The services that are needed are those a walk over the dependencies that count reaches. -/
theorem needed_iff_reach {settings : Str → Str → Str} {top s : Str} :
    Needed sys root (root.ownView sys defaults settings).disabled top s ↔
      Reach ((root.ownView sys defaults settings).next (root.counts sys)) top s := by
  constructor
  · intro needed
    induction needed with
    | top => exact .refl
    | @dependency s t dir entry needed enabled isDir listed isFile named isTrue ih =>
        refine ih.tail ?_
        have entries : (root.ownView sys defaults settings).entries s = dir.entries := by
          simp [View.entries, ServicesRoot.ownView, ServicesRoot.view, isDir]
        rw [Step, View.next, if_neg (by simp [enabled]), entries]
        refine List.mem_map.mpr ⟨entry, List.mem_filter.mpr ⟨listed, ?_⟩, ?_⟩
        · have counts : root.counts sys s entry.dName = true := by
            rw [ServicesRoot.counts, named, isTrue]
            rfl
          rw [isDep_iff.mpr ⟨isFile, t, named⟩, counts, Bool.and_self]
        · rw [named, removeDepSuffix_depFile]
  · intro path
    induction path with
    | refl => exact .top
    | @tail s t _ step ih =>
        rw [Step, View.next] at step
        split at step
        · simp at step
        · next enabled =>
            obtain ⟨entry, hentry, rfl⟩ := List.mem_map.mp step
            obtain ⟨listed, counted⟩ := List.mem_filter.mp hentry
            obtain ⟨isDep, counts⟩ := Bool.and_eq_true_iff.mp counted
            obtain ⟨isFile, t, named⟩ := isDep_iff.mp isDep
            rw [named, removeDepSuffix_depFile]
            cases isDir : root.dir s with
            | error e => simp [View.entries, ServicesRoot.ownView, ServicesRoot.view,
                isDir] at listed
            | ok dir =>
                have inDir : entry ∈ dir.entries := by
                  simpa [View.entries, ServicesRoot.ownView, ServicesRoot.view, isDir] using listed
                refine .dependency ih (by simpa using enabled) isDir inDir isFile named ?_
                rw [named] at counts
                exact eq_of_beq counts

/-- Two checks of the same history: one comes before the other, or they are the same. -/
theorem checks_trichotomy {earlier earlier' checks : List Check} {c c' : Check}
    (h : earlier ++ [c] <+: checks) (h' : earlier' ++ [c'] <+: checks) :
    earlier ++ [c] <+: earlier' ∨ (earlier = earlier' ∧ c = c') ∨
      earlier' ++ [c'] <+: earlier := by
  rcases List.prefix_or_prefix_of_prefix h h' with first | second
  · rcases List.prefix_concat_iff.mp first with whole | shorter
    · obtain ⟨same, last⟩ := List.append_inj' whole rfl
      exact Or.inr (Or.inl ⟨same, List.singleton_inj.mp last⟩)
    · exact Or.inl shorter
  · rcases List.prefix_concat_iff.mp second with whole | shorter
    · obtain ⟨same, last⟩ := List.append_inj' whole rfl
      exact Or.inr (Or.inl ⟨same.symm, (List.singleton_inj.mp last).symm⟩)
    · exact Or.inr (Or.inr shorter)

theorem Right.found {memory : Memory} {checks : List Check} (h : Right sys root memory checks) :
    ∀ e ∈ checks, ∃ stack unassigned,
      root.check sys e.cwd e.dName stack unassigned = .ok e.depends := by
  intro e he
  obtain ⟨before, after, rfl⟩ := List.append_of_mem he
  exact ⟨_, _, h before e ⟨after, by simp⟩⟩

theorem right_nil (memory : Memory) : Right sys root memory [] := by
  intro earlier c hprefix
  have := List.prefix_nil.mp hprefix
  simp at this

/-- The checks of the reference are noted as they count in the directories that were listed. -/
theorem referenceChecks_notedAs (sys : System) (defaults : ServiceDefaults) (root : ServicesRoot)
    (settings : Str → Str → Str) (top cwd : Str) :
    ∀ c ∈ referenceChecks sys defaults root settings top cwd,
      c.depends = root.counts sys c.service c.dName :=
  loadWithDepth_notedAs (fun _ _ _ _ => rfl) _ top (-1) (by simp [NotedAs])

/-- The code and the reference, from an empty table. -/
theorem follows_reference (sys : System) (defaults : ServiceDefaults) (root : ServicesRoot)
    (memory : Memory) (top cwd : Str) :
    Follows sys root memory
      (loadServiceWithDeps (root.view sys defaults memory) top (-1) { cwd := cwd })
      (loadServiceWithDeps (root.ownView sys defaults memory.settings) top (-1) { cwd := cwd }) :=
  follows_loadWithDepth _ top (-1) (right_nil memory)

/-- The reference loads what is needed, if it returns. -/
theorem reference_loads (sys : System) (defaults : ServiceDefaults) (root : ServicesRoot)
    (settings : Str → Str → Str) (top cwd : Str)
    (returned : (loadServiceWithDeps (root.ownView sys defaults settings) top (-1)
      { cwd := cwd }).1 = .ok ()) (s : Str) :
    s ∈ (loadServiceWithDeps (root.ownView sys defaults settings) top (-1)
        { cwd := cwd }).2.services.map Service.name ↔
      Needed sys root (root.ownView sys defaults settings).disabled top s := by
  obtain ⟨v, walk, rep⟩ := loadWithDepth_walk (fun _ _ _ _ => rfl)
    (represents_empty (root.ownView sys defaults settings) cwd) (rfl : Dependent {} [] (-1))
    (Prod.ext returned rfl)
  rw [needed_iff_reach, ← walk.entered_iff_reach s, ← rep.names]
  rfl

/-- Where the checks agree, the code makes the checks of the reference, and returns only if and
with what the reference does. -/
theorem Follows.of_agrees {memory : Memory} {code reference : Outcome Str Unit × LoadContext}
    {needed : Str → Prop} (follows : Follows sys root memory code reference)
    (noted : NotedAs (root.counts sys) reference.2) (agrees : Agrees sys root reference.2.checks)
    (loads : reference.1 = .ok () → ∀ s, s ∈ reference.2.services.map Service.name ↔ needed s) :
    NotedAs (root.counts sys) code.2 ∧
      (code.1 = .ok () → ∀ s, s ∈ code.2.services.map Service.name ↔ needed s) := by
  cases follows with
  | same right => exact ⟨noted, loads⟩
  | stopped right reached fails outcome checks =>
      refine ⟨?_, fun returned => absurd returned outcome⟩
      intro c hc
      rw [checks] at hc
      exact noted c (reached.subset (List.mem_append_left _ hc))
  | deviated right reached found different _ =>
      exact absurd (agrees _ _ reached right.found _ _ _ found) different

/-- The memory in which some checks come out as they can, and the next one as it did. -/
theorem exists_memory (settings : Str → Str → Str) {earlier : List Check}
    (h : ∀ e ∈ earlier, ∃ stack unassigned,
      root.check sys e.cwd e.dName stack unassigned = .ok e.depends)
    (stack : Str) (unassigned : Bool) :
    ∃ memory : Memory, memory.settings = settings ∧ Right sys root memory earlier ∧
      memory.stack earlier.length = stack ∧ memory.depends earlier.length = unassigned := by
  choose! earlierStacks unassigneds found using h
  refine ⟨{ settings := settings
            stack := fun n => (earlier[n]?.map earlierStacks).getD stack
            depends := fun n => (earlier[n]?.map unassigneds).getD unassigned }, rfl, ?_, ?_, ?_⟩
  · rintro before c ⟨after, rfl⟩
    have here : (before ++ [c] ++ after)[before.length]? = some c := by simp
    simp only [here, Option.map_some, Option.getD_some]
    exact found c (by simp)
  · simp
  · simp

/-- Where the checks do not agree, the first one that can come to another value does so with some
contents of unassigned memory, and the code notes it. -/
theorem Follows.value_eq {memory : Memory} {code reference : Outcome Str Unit × LoadContext}
    {earlier : List Check} {c : Check} {value : Bool}
    (follows : Follows sys root memory code reference)
    (noted : NotedAs (root.counts sys) reference.2) (notedCode : NotedAs (root.counts sys) code.2)
    (reached : earlier ++ [c] <+: reference.2.checks) (right : Right sys root memory earlier)
    (found : root.check sys c.cwd c.dName (memory.stack earlier.length)
      (memory.depends earlier.length) = .ok value) : value = c.depends := by
  cases follows with
  | same whole => exact Outcome.ok.inj (found.symm.trans (whole earlier c reached))
  | @stopped _ earlier' c' right' reached' fails outcome checks =>
      rcases checks_trichotomy reached reached' with before | ⟨rfl, rfl⟩ | after
      · exact Outcome.ok.inj (found.symm.trans (right' earlier c before))
      · exact absurd found (fails value)
      · exact absurd (right earlier' c' after) (fails _)
  | @deviated _ earlier' c' value' right' reached' found' different noted' =>
      rcases checks_trichotomy reached reached' with before | ⟨rfl, rfl⟩ | after
      · exact Outcome.ok.inj (found.symm.trans (right' earlier c before))
      · obtain rfl := Outcome.ok.inj (found.symm.trans found')
        have inCode := notedCode _ (noted'.subset (List.mem_append_right _ List.mem_cons_self))
        have inReference := noted c (reached.subset (List.mem_append_right _ List.mem_cons_self))
        exact inCode.trans inReference.symm
      · exact absurd (Outcome.ok.inj (found'.symm.trans (right earlier' c' after))) different

/-- The law of loading, for every services root and every service to start from. Whatever
unassigned memory holds, every dependency check comes out as the file in the service's own
directory says and a call that returns has loaded exactly the services that are needed, if and
only if every check of the reference comes out the same in the working directory. -/
theorem loadsNeeded_iff (sys : System) (defaults : ServiceDefaults) (root : ServicesRoot)
    (settings : Str → Str → Str) (top cwd : Str) :
    (∀ stack depends, LoadsNeeded sys defaults root top cwd
        { settings := settings, stack := stack, depends := depends }) ↔
      Agrees sys root (referenceChecks sys defaults root settings top cwd) := by
  have noted := referenceChecks_notedAs sys defaults root settings top cwd
  constructor
  · intro h earlier c reached possible stack unassigned value found
    obtain ⟨memory, rfl, right, rfl, rfl⟩ := exists_memory settings possible stack unassigned
    exact (follows_reference sys defaults root memory top cwd).value_eq noted
      (h memory.stack memory.depends).1 reached right found
  · intro agrees stack depends
    exact (follows_reference sys defaults root ⟨settings, stack, depends⟩ top cwd).of_agrees noted
      agrees (reference_loads sys defaults root settings top cwd)

/-- A service group that depends on two services without files of their own. -/
def twoDependencies : ServicesRoot :=
  { dir := fun service =>
      if service = "default".toList then
        .ok { entries :=
          [{ dName := "app.dep".toList, isReg := true, node := some (.file []) },
            { dName := "xvnc.dep".toList, isReg := true, node := some (.file []) }] }
      else if service = "app".toList ∨ service = "xvnc".toList then .ok { entries := [] }
      else .error .enoent }

/-- The directory of a service that runs at an interval. -/
def intervalDir (interval : String) : ServiceDir where
  entries :=
    [{ dName := "run".toList, isReg := true, node := some (.program [] 0) },
      { dName := "interval".toList, isReg := true, node := some (.file interval.toList) }]
  nodup := by simp

/-- A system where allocations succeed and no user or group has a name. -/
def plainSystem : System :=
  { malloc := fun _ => true
    strerror := fun _ => "error".toList
    getpwnam := fun _ => none
    getgrnam := fun _ => none }

/-- Memory that holds nothing but zeros. -/
def zeroMemory : Memory :=
  { settings := fun _ _ => [], stack := fun _ => [], depends := fun _ => false }

/-- After the first dependency has been loaded, the file of the second one is looked for in the
directory of the first: the call returns, and a service that is needed has not been loaded. -/
theorem second_dependency_lost :
    ((loadServiceWithDeps (twoDependencies.view plainSystem {} zeroMemory) "default".toList (-1)
        {}).1 = .ok () ∧
      (loadServiceWithDeps (twoDependencies.view plainSystem {} zeroMemory) "default".toList (-1)
        {}).2.services.map Service.name = ["default".toList, "app".toList]) ∧
    Needed plainSystem twoDependencies (twoDependencies.view plainSystem {} zeroMemory).disabled
      "default".toList "xvnc".toList ∧
    ¬ LoadsNeeded plainSystem {} twoDependencies "default".toList [] zeroMemory := by
  have run : (loadServiceWithDeps (twoDependencies.view plainSystem {} zeroMemory)
        "default".toList (-1) {}).1 = .ok () ∧
      (loadServiceWithDeps (twoDependencies.view plainSystem {} zeroMemory) "default".toList (-1)
        {}).2.services.map Service.name = ["default".toList, "app".toList] := by
    decide +kernel
  have needed : Needed plainSystem twoDependencies
      (twoDependencies.view plainSystem {} zeroMemory).disabled "default".toList "xvnc".toList :=
    .dependency .top (by decide +kernel) rfl (List.mem_cons_of_mem _ List.mem_cons_self) rfl
      (by decide) (by decide +kernel)
  refine ⟨run, needed, ?_⟩
  intro h
  have loaded := (h.2 run.1 "xvnc".toList).mpr needed
  rw [run.2] at loaded
  exact absurd loaded (by decide)

end Baseimage.Cinit
