import Baseimage.Cinit.SupplementaryGroups
import Baseimage.Run.Slots

/-!
# The service table

The table has a fixed number of entries, and an entry is in use when its name is not empty. Every
loop over the services stops at the first entry that is not in use. `load_service` takes the first
free entry, fills it, and stores the name when nothing can fail any more; when something fails
before, the entry is cleared. So the table stays packed.

The supplementary groups are an exception to this. `load_service` stores those of the file `sgid`
behind the default groups, and the one that the array of the entry has no place for is written
beyond the array, where other entries are. What the table holds then is undefined: here it can be
anything.
-/

namespace Baseimage.Cinit

/-! ## The functions on the table -/

/-- The name of the entry is not empty. -/
def ServiceEntry.named (srv : ServiceEntry) : Bool := srv.settings.name ≠ []

/-- `g_ctx.services`. -/
@[ext] structure ServiceTable where
  slots : List ServiceEntry
  size : slots.length = maxNumServices

/-- What one call of `load_service` meets: the system, the defaults in `g_ctx`, the services root,
unassigned memory, and what the entry holds besides its name when the filling throws. -/
structure LoadSite where
  sys : System
  defaults : ServiceDefaults
  root : ServicesRoot
  memory : Memory
  filled : ServiceEntry

/-- What the loading finds in the file system. -/
def LoadSite.view (site : LoadSite) : View := site.root.view site.sys site.defaults site.memory

namespace ServiceTable

/-- The table before anything was loaded. -/
def empty : ServiceTable where
  slots := List.replicate maxNumServices .unused
  size := List.length_replicate

def set (t : ServiceTable) (sid : Nat) (srv : ServiceEntry) : ServiceTable where
  slots := t.slots.set sid srv
  size := (List.length_set ..).trans t.size

/-- The entries that `FOR_EACH_SERVICE` comes to. -/
def visited (t : ServiceTable) : List ServiceEntry := Slots.visited ServiceEntry.named t.slots

/-- `alloc_service_index`. -/
def allocServiceIndex (t : ServiceTable) : Option Nat := Slots.firstFree ServiceEntry.named t.slots

/-- `find_service`. -/
def findService (t : ServiceTable) (service : Str) : Option Nat :=
  t.visited.findIdx? fun srv => srv.settings.name == service

/-- `unload_service`. -/
def unloadService (t : ServiceTable) (sid : Nat) : ServiceTable := t.set sid .unused

/-- `unload_services`. -/
def unloadServices (t : ServiceTable) : ServiceTable where
  slots :=
    Slots.forEach ServiceEntry.named (fun sid slots => slots.set sid .unused) maxNumServices 0
      t.slots
  size := (Slots.length_forEach (fun _ _ => List.length_set ..) _ _).trans t.size

/-- The entry while it is filled. -/
def fill (t : ServiceTable) (sid : Nat) (filled : ServiceEntry) : ServiceTable :=
  t.set sid { filled with settings := { filled.settings with name := [] } }

/-- `load_service`: the index of the entry, and the table. -/
def loadService (site : LoadSite) (service : Str) (t : ServiceTable) :
    Outcome Str Nat × ServiceTable :=
  if service = [] then (.aborted, t)
  else
    match t.findService service with
    | some sid => (.ok sid, t)
    | none =>
        if service.length ≥ serviceNameSize then (throwMessage "name too long".toList, t)
        else
          match site.view.chdirToService service with
          | .threw message => (.threw message, t)
          | .aborted => (.aborted, t)
          | .ok () =>
              match t.allocServiceIndex with
              | none => (throwMessage "maximum number of services reached".toList, t)
              | some sid =>
                  match site.view.settings service with
                  | .ok srv => (.ok sid, t.set sid { settings := { srv with name := service } })
                  | .threw message =>
                      (.threw message, (t.fill sid site.filled).unloadService sid)
                  | .aborted => (.aborted, t.fill sid site.filled)

end ServiceTable

/-! ## Where a group is stored beyond the array -/

/-- The part of the loading of the settings in front of the file `sgid`. -/
def reachesSgid (sys : System) (dir : ServiceDir) (stack : Str → Str) : Outcome Str Bool := do
  let disabled ← loadValueAsBool sys "disabled".toList (dir.lookup "disabled".toList)
    (stack "disabled".toList)
  if (dir.lookup "run".toList).isNone ∨ disabled.getD false then return false
  if dir.runExecutable = false then throwMessage "run file not executable".toList
  let _ ← match dir.runPath with
    | .ok path => Outcome.ok path
    | .error strerror =>
        throwMessage ("could not get realpath of run program".toList ++ strerror)
  let _ ← loadList sys "params".toList (dir.lookup "params".toList) maxNumServiceRunParams
    "too much parameters".toList (acceptParam sys) []
  let _ ← loadList sys "environment".toList (dir.lookup "environment".toList)
    maxNumServiceEnvVars "too much environment variables".toList (acceptVariable sys) []
  let _ ← loadList sys "environment_extra".toList (dir.lookup "environment_extra".toList)
    maxNumServiceEnvVars "too much environment variables".toList (acceptVariable sys) []
  let _ ← loadValueAsUid sys "uid".toList (dir.lookup "uid".toList) (stack "uid".toList)
  let _ ← loadValueAsGid sys "gid".toList (dir.lookup "gid".toList) (stack "gid".toList)
  return true

/-- A group of the file `sgid` is stored at an index that the array of the entry does not have. -/
def StoresOutside (sys : System) (defaults : ServiceDefaults) (dir : ServiceDir)
    (stack : Str → Str) : Prop :=
  reachesSgid sys dir stack = .ok true ∧
    ∃ index, loadSgid sys (dir.lookup "sgid".toList) defaults.sgidList = .threw (.overrun index)

/-- `load_service` gets an entry for the service and stores a group outside of its array. -/
structure WritesOutside (site : LoadSite) (service : Str) (t : ServiceTable) : Prop where
  nonempty : service ≠ []
  missing : t.findService service = none
  short : service.length < serviceNameSize
  allocated : ∃ sid, t.allocServiceIndex = some sid
  stored : ∃ dir, site.root.dir service = .ok dir ∧
    StoresOutside site.sys site.defaults dir (site.memory.settings service)

/-- This takes more default groups and groups of the file than the array has places. -/
theorem WritesOutside.many {site : LoadSite} {service : Str} {t : ServiceTable}
    (h : WritesOutside site service t) :
    ∃ dir buf, site.root.dir service = .ok dir ∧ sgidText site.sys dir = some buf ∧
      serviceSgidListSize <
        site.defaults.sgidList.length + (groupTokens (fileTokens buf)).length := by
  obtain ⟨dir, root, -, index, overrun⟩ := h.stored
  obtain ⟨buf, text, -, many⟩ := loadSgid_overrun_many overrun
  exact ⟨dir, buf, root, text, many⟩

theorem loadSettings_of_storesOutside {sys : System} {defaults : ServiceDefaults} {dir : ServiceDir}
    {stack : Str → Str} (outside : StoresOutside sys defaults dir stack) (name : Str) :
    loadSettings sys defaults dir stack name = .aborted := by
  obtain ⟨reached, index, overrun⟩ := outside
  have stopped : loadList sys "sgid".toList (dir.lookup "sgid".toList) serviceSgidListSize
      "too much supplementary groups".toList (acceptGroup sys) defaults.sgidList = .aborted := by
    rw [← withoutIndex_loadSgid, overrun]
    rfl
  unfold reachesSgid at reached
  obtain ⟨disabled, readDisabled, reached⟩ := Outcome.bind_eq_ok_iff.mp reached
  unfold loadSettings
  dsimp only
  rw [readDisabled, Outcome.ok_bind]
  split at reached
  · cases reached
  · next run =>
      rw [if_neg run]
      cases exec : dir.runExecutable with
      | false =>
          rw [exec] at reached
          exact (throwMessage_bind_returns (Q := fun _ => False) _ _ true reached).elim
      | true =>
          cases path : dir.runPath with
          | error strerror =>
              rw [exec, path] at reached
              exact (throwMessage_bind_returns (Q := fun _ => False) _ _ true reached).elim
          | ok path =>
              rw [exec, path] at reached
              simp only [Bool.true_eq_false, if_false, Outcome.ok_bind] at reached ⊢
              obtain ⟨params, readParams, reached⟩ := Outcome.bind_eq_ok_iff.mp reached
              obtain ⟨environment, readEnvironment, reached⟩ := Outcome.bind_eq_ok_iff.mp reached
              obtain ⟨extra, readExtra, reached⟩ := Outcome.bind_eq_ok_iff.mp reached
              obtain ⟨uid, readUid, reached⟩ := Outcome.bind_eq_ok_iff.mp reached
              obtain ⟨gid, readGid, -⟩ := Outcome.bind_eq_ok_iff.mp reached
              rw [readParams, Outcome.ok_bind, readEnvironment, Outcome.ok_bind, readExtra,
                Outcome.ok_bind, readUid, Outcome.ok_bind, readGid, Outcome.ok_bind, stopped]
              rfl

/-- The function on the table has no result there. -/
theorem WritesOutside.aborted {site : LoadSite} {service : Str} {t : ServiceTable}
    (h : WritesOutside site service t) : (t.loadService site service).1 = .aborted := by
  obtain ⟨sid, taken⟩ := h.allocated
  obtain ⟨dir, root, stored⟩ := h.stored
  have chdir : site.view.chdirToService service = .ok () := by
    change site.root.chdirToService service = .ok ()
    rw [ServicesRoot.chdirToService, root]
  have settings : site.view.settings service = .aborted := by
    rw [LoadSite.view, ServicesRoot.view]
    dsimp only
    rw [root]
    exact loadSettings_of_storesOutside stored service
  rw [ServiceTable.loadService, if_neg h.nonempty, h.missing]
  dsimp only
  rw [if_neg (Nat.not_le_of_gt h.short), chdir]
  dsimp only
  rw [taken]
  dsimp only
  rw [settings]

/-! ## Tables with the loaded entries in front -/

namespace ServiceTable

/-- The loaded entries stand in front and have different names; all others are cleared. -/
structure Holds (t : ServiceTable) (loaded : List ServiceEntry) : Prop where
  packed : Slots.Packed ServiceEntry.named .unused loaded t.slots
  distinct : (loaded.map fun srv => srv.settings.name).Nodup

/-- An entry has the name of the service. -/
def Designates (t : ServiceTable) (sid : Nat) (service : Str) : Prop :=
  ∃ srv, t.slots[sid]? = some srv ∧ srv.settings.name = service

theorem empty_holds : empty.Holds [] where
  packed :=
    { split := ⟨maxNumServices, (List.nil_append _).symm⟩
      inUse := fun _ member => absurd member List.not_mem_nil
      unused := rfl }
  distinct := List.nodup_nil

namespace Holds

variable {t : ServiceTable} {loaded : List ServiceEntry}

theorem designates_iff (h : t.Holds loaded) {service : Str} (nonempty : service ≠ []) {sid : Nat} :
    t.Designates sid service ↔
      ∃ srv, loaded[sid]? = some srv ∧ srv.settings.name = service := by
  constructor
  · rintro ⟨srv, found, rfl⟩
    rcases h.packed.getElem? found with inside | rfl
    · exact ⟨srv, inside, rfl⟩
    · exact absurd rfl nonempty
  · rintro ⟨srv, found, name⟩
    exact ⟨srv, h.packed.getElem?_front found, name⟩

theorem designates_unique (h : t.Holds loaded) {service : Str} (nonempty : service ≠ [])
    {sid sid' : Nat} (first : t.Designates sid service) (second : t.Designates sid' service) :
    sid = sid' := by
  obtain ⟨srv, found, name⟩ := (h.designates_iff nonempty).mp first
  obtain ⟨srv', found', name'⟩ := (h.designates_iff nonempty).mp second
  have names : (loaded.map fun srv => srv.settings.name)[sid]? =
      (loaded.map fun srv => srv.settings.name)[sid']? := by
    rw [List.getElem?_map, List.getElem?_map, found, found', Option.map_some, Option.map_some, name,
      name']
  have inside : sid < (loaded.map fun srv => srv.settings.name).length := by
    rw [List.length_map]
    exact (List.getElem?_eq_some_iff.mp found).1
  exact (List.getElem?_inj inside h.distinct).mp names

theorem findService_eq_some_iff (h : t.Holds loaded) {service : Str} (nonempty : service ≠ [])
    {sid : Nat} : t.findService service = some sid ↔ t.Designates sid service := by
  rw [findService, visited, h.packed.visited]
  constructor
  · intro found
    obtain ⟨inside, name, -⟩ := List.findIdx?_eq_some_iff_getElem.mp found
    exact (h.designates_iff nonempty).mpr
      ⟨loaded[sid], List.getElem?_eq_getElem inside, eq_of_beq name⟩
  · intro designates
    obtain ⟨srv, found, name⟩ := (h.designates_iff nonempty).mp designates
    obtain ⟨inside, same⟩ := List.getElem?_eq_some_iff.mp found
    rw [List.findIdx?_eq_some_iff_getElem]
    refine ⟨inside, by rw [same, name]; exact beq_self_eq_true _, fun i before named => ?_⟩
    have other : t.Designates i service := (h.designates_iff nonempty).mpr
      ⟨loaded[i], List.getElem?_eq_getElem _, eq_of_beq named⟩
    have same : i = sid := h.designates_unique nonempty other designates
    omega

theorem findService_eq_none_iff (h : t.Holds loaded) {service : Str} (nonempty : service ≠ []) :
    t.findService service = none ↔ ∀ sid, ¬ t.Designates sid service := by
  rw [Option.eq_none_iff_forall_ne_some]
  exact forall_congr' fun sid => not_congr (h.findService_eq_some_iff nonempty)

theorem unloadServices (h : t.Holds loaded) : t.unloadServices = empty := by
  have cleared := h.packed.forEach_clear
  rw [t.size] at cleared
  exact ServiceTable.ext cleared

/-- An entry that could not be filled is cleared, which it was before. -/
theorem unloadService_fill (h : t.Holds loaded) {sid : Nat} (taken : t.allocServiceIndex = some sid)
    (filled : ServiceEntry) : (t.fill sid filled).unloadService sid = t :=
  ServiceTable.ext (h.packed.set_set_blank taken _)

/-- An entry that could be filled is loaded. -/
theorem set (h : t.Holds loaded) {sid : Nat} (taken : t.allocServiceIndex = some sid)
    {srv : ServiceEntry} (nonempty : srv.settings.name ≠ [])
    (missing : t.findService srv.settings.name = none) :
    (t.set sid srv).Holds (loaded ++ [srv]) := by
  refine { packed := h.packed.set taken (decide_eq_true nonempty), distinct := ?_ }
  rw [List.map_append, List.map_singleton]
  refine List.Nodup.append h.distinct (List.nodup_singleton _) ?_
  rw [List.disjoint_singleton]
  intro member
  obtain ⟨other, found, name⟩ := List.mem_map.mp member
  obtain ⟨sid, inside, same⟩ := List.getElem_of_mem found
  refine (h.findService_eq_none_iff nonempty).mp missing sid ?_
  exact (h.designates_iff nonempty).mpr
    ⟨other, List.getElem?_eq_some_iff.mpr ⟨inside, same⟩, name⟩

end Holds

/-- What a call of `load_service` can do to a table with the loaded entries in front: the service
is loaded already, the call fails and leaves the table as it was, the program ends, or an entry is
added. -/
theorem loadService_cases {t : ServiceTable} {loaded : List ServiceEntry} (h : t.Holds loaded)
    {site : LoadSite} {service : Str} {outcome : Outcome Str Nat} {t' : ServiceTable}
    (run : loadService site service t = (outcome, t')) :
    outcome = .aborted ∨ (∃ message, outcome = .threw message ∧ t' = t) ∨
      service ≠ [] ∧ ∃ sid, outcome = .ok sid ∧
        (t.findService service = some sid ∧ t' = t ∨
          ∃ srv, site.view.settings service = .ok srv ∧ t.findService service = none ∧
            t.allocServiceIndex = some sid ∧
            t' = t.set sid { settings := { srv with name := service } }) := by
  have thrown : ∀ message : Str, (throwMessage message, t) = (outcome, t') →
      outcome = .aborted ∨ (∃ message, outcome = .threw message ∧ t' = t) := by
    intro message run
    rw [throwMessage] at run
    split at run
    · cases run
      exact .inr ⟨message, rfl, rfl⟩
    · cases run
      exact .inl rfl
  unfold loadService at run
  split at run
  · cases run
    exact .inl rfl
  · next nonempty =>
      split at run
      · next sid found =>
          cases run
          exact .inr (.inr ⟨nonempty, sid, rfl, .inl ⟨found, rfl⟩⟩)
      · next missing =>
          split at run
          · exact (thrown _ run).imp_right .inl
          · split at run
            · cases run
              exact .inr (.inl ⟨_, rfl, rfl⟩)
            · cases run
              exact .inl rfl
            · split at run
              · exact (thrown _ run).imp_right .inl
              · next sid taken =>
                  split at run
                  · next srv settings =>
                      cases run
                      refine .inr (.inr ⟨nonempty, sid, rfl, .inr ?_⟩)
                      exact ⟨srv, settings, missing, taken, rfl⟩
                  · rw [h.unloadService_fill taken] at run
                    cases run
                    exact .inr (.inl ⟨_, rfl, rfl⟩)
                  · cases run
                    exact .inl rfl

/-- The loaded entries are the services of the list that the loading with dependencies works on:
the outcome is the same, and so are the entries afterwards. -/
theorem loadService_refines {t : ServiceTable} {loaded : List ServiceEntry} (h : t.Holds loaded)
    (site : LoadSite) (service : Str) {ctx : LoadContext}
    (same : ctx.services = loaded.map ServiceEntry.settings) :
    (loadService site service t).1 = (Cinit.loadService site.view service ctx).1 ∧
      ((loadService site service t).1 ≠ .aborted → ∃ loaded',
        (loadService site service t).2.Holds loaded' ∧
          (Cinit.loadService site.view service ctx).2.services =
            loaded'.map ServiceEntry.settings) := by
  have find : t.findService service = Cinit.findService ctx.services service := by
    rw [findService, visited, h.packed.visited, Cinit.findService, same, List.findIdx?_map]
    rfl
  have size : ctx.services.length = loaded.length := by rw [same, List.length_map]
  have unchanged : ∃ loaded', t.Holds loaded' ∧
      ctx.services = loaded'.map ServiceEntry.settings := ⟨loaded, h, same⟩
  unfold loadService Cinit.loadService
  split
  · exact ⟨rfl, fun _ => unchanged⟩
  · next nonempty =>
      rw [find]
      cases missing : Cinit.findService ctx.services service with
      | some sid => exact ⟨rfl, fun _ => unchanged⟩
      | none =>
          rw [← find] at missing
          dsimp only
          split
          · exact ⟨rfl, fun _ => unchanged⟩
          · cases site.view.chdirToService service with
            | threw message => exact ⟨rfl, fun _ => unchanged⟩
            | aborted => exact ⟨rfl, fun _ => unchanged⟩
            | ok =>
                dsimp only
                cases taken : t.allocServiceIndex with
                | none =>
                    have full : maxNumServices = loaded.length := by
                      by_contra room
                      rw [allocServiceIndex, h.packed.firstFree, t.size, if_neg room] at taken
                      cases taken
                    rw [if_pos (by omega)]
                    exact ⟨rfl, fun _ => unchanged⟩
                | some sid =>
                    obtain ⟨place, n, slots⟩ := h.packed.taken_eq taken
                    have room : ¬ ctx.services.length ≥ maxNumServices := by
                      rw [size, ← t.size, slots, List.length_append, List.length_replicate]
                      omega
                    rw [if_neg room]
                    cases settings : site.view.settings service with
                    | ok srv =>
                        refine ⟨by rw [size, place], fun _ => ⟨_, h.set taken nonempty missing, ?_⟩⟩
                        rw [LoadContext.add_services, same, List.map_append]
                        rfl
                    | threw message =>
                        refine ⟨rfl, fun _ => ⟨loaded, ?_, same⟩⟩
                        change ((t.fill sid site.filled).unloadService sid).Holds loaded
                        rwa [h.unloadService_fill taken]
                    | aborted => exact ⟨rfl, fun running => absurd rfl running⟩

end ServiceTable

/-! ## Sequences of calls -/

/-- A call of `load_service` that comes to an end: the index or the message, and the table. -/
inductive LoadStep (site : LoadSite) (service : Str) (t : ServiceTable) :
    Except Str Nat → ServiceTable → Prop
  | returns {sid : Nat} {t' : ServiceTable}
      (run : t.loadService site service = (.ok sid, t')) : LoadStep site service t (.ok sid) t'
  | throws {message : Str} {t' : ServiceTable}
      (run : t.loadService site service = (.threw message, t')) :
      LoadStep site service t (.error message) t'
  -- Behind a write outside of the array nothing is certain.
  | outside (writes : WritesOutside site service t) (result : Except Str Nat) (t' : ServiceTable) :
      LoadStep site service t result t'

/-- A call of a sequence. -/
structure LoadCall where
  site : LoadSite
  service : Str
  before : ServiceTable
  result : Except Str Nat
  after : ServiceTable

/-- A sequence of calls, from the empty table. Each of them meets a file system of its own. -/
inductive LoadRun : List LoadCall → ServiceTable → Prop
  | start : LoadRun [] .empty
  | call {calls : List LoadCall} {t t' : ServiceTable} {site : LoadSite} {service : Str}
      {result : Except Str Nat} (run : LoadRun calls t) (step : LoadStep site service t result t') :
      LoadRun
        (calls ++
          [{ site := site, service := service, before := t, result := result, after := t' }])
        t'

/-- The loaded entries are a prefix of the table and have different names, so every loop comes to
all of them, and a service is found exactly if it is loaded. Unloading leaves nothing behind. -/
structure ServiceTable.Integrity (t : ServiceTable) : Prop where
  contiguous : ∃ n : Nat, ∀ sid : Nat,
    (∃ srv : ServiceEntry, t.slots[sid]? = some srv ∧ srv.named = true) ↔ sid < n
  distinct : ∀ service sid sid', service ≠ [] → t.Designates sid service →
    t.Designates sid' service → sid = sid'
  visited : t.visited = t.slots.filter ServiceEntry.named
  found : ∀ service sid, service ≠ [] →
    (t.findService service = some sid ↔ t.Designates sid service)
  missed : ∀ service, service ≠ [] →
    (t.findService service = none ↔ ∀ sid, ¬ t.Designates sid service)
  unloaded : t.unloadServices = .empty

/-- What a sequence of calls has led to. -/
structure LoadCall.Kept (calls : List LoadCall) (t : ServiceTable) : Prop where
  integrity : t.Integrity
  /-- An index that was returned designates the service it was returned for, with all its
  settings. -/
  stable : ∀ c ∈ calls, ∀ sid, c.result = .ok sid →
    t.Designates sid c.service ∧ t.slots[sid]? = c.after.slots[sid]?
  /-- A call that fails changes nothing, and the entry it may have taken is free. -/
  failing : ∀ c ∈ calls, ∀ message, c.result = .error message →
    c.after = c.before ∧
      ∀ sid, c.before.allocServiceIndex = some sid → c.after.slots[sid]? = some .unused

theorem ServiceTable.Holds.integrity {t : ServiceTable} {loaded : List ServiceEntry}
    (h : t.Holds loaded) : t.Integrity where
  contiguous := ⟨loaded.length, fun _ => h.packed.used_iff⟩
  distinct _ _ _ nonempty := h.designates_unique nonempty
  visited := h.packed.visited.trans h.packed.filter.symm
  found _ _ nonempty := h.findService_eq_some_iff nonempty
  missed _ nonempty := h.findService_eq_none_iff nonempty
  unloaded := h.unloadServices

/-- What one call does to a table with the loaded entries in front: they stay, and one may come
behind them. -/
theorem LoadStep.holds {site : LoadSite} {service : Str} {t t' : ServiceTable}
    {result : Except Str Nat} {loaded : List ServiceEntry}
    (step : LoadStep site service t result t') (inside : ¬ WritesOutside site service t)
    (h : t.Holds loaded) :
    ∃ added, t'.Holds (loaded ++ added) ∧
      (∀ sid, result = .ok sid → service ≠ [] ∧ t'.Designates sid service) ∧
        ∀ message, result = .error message → t' = t := by
  cases step with
  | outside writes => exact absurd writes inside
  | throws run =>
      obtain ended | ⟨message, -, rfl⟩ | ⟨-, sid, returned, -⟩ :=
        ServiceTable.loadService_cases h run
      · cases ended
      · exact ⟨[], by rwa [List.append_nil], nofun, fun _ _ => rfl⟩
      · cases returned
  | @returns sid _ run =>
      obtain ended | ⟨message, failed, -⟩ | ⟨nonempty, _, ⟨⟩, loading⟩ :=
        ServiceTable.loadService_cases h run
      · cases ended
      · cases failed
      · obtain ⟨found, rfl⟩ | ⟨srv, -, missing, taken, rfl⟩ := loading
        · refine ⟨[], by rwa [List.append_nil], ?_, nofun⟩
          rintro _ ⟨⟩
          exact ⟨nonempty, (h.findService_eq_some_iff nonempty).mp found⟩
        · refine ⟨[_], h.set taken nonempty missing, ?_, nofun⟩
          rintro _ ⟨⟩
          have place : sid < t.slots.length :=
            (List.getElem?_eq_some_iff.mp (h.packed.taken_blank taken)).1
          exact ⟨nonempty, _, List.getElem?_set_self place, rfl⟩

/-- What the table holds behind an index that designates a service, it holds from then on. -/
theorem ServiceTable.Holds.later {t t' : ServiceTable} {loaded added : List ServiceEntry}
    (h : t.Holds loaded) (h' : t'.Holds (loaded ++ added)) {service : Str} (nonempty : service ≠ [])
    {sid : Nat} (designates : t.Designates sid service) :
    t'.Designates sid service ∧ t'.slots[sid]? = t.slots[sid]? := by
  obtain ⟨srv, found, name⟩ := (h.designates_iff nonempty).mp designates
  have kept : (loaded ++ added)[sid]? = some srv :=
    (List.getElem?_append_left (List.getElem?_eq_some_iff.mp found).1).trans found
  exact ⟨⟨srv, h'.packed.getElem?_front kept, name⟩,
    (h'.packed.getElem?_front kept).trans (h.packed.getElem?_front found).symm⟩

/-- The loaded entries of a sequence of calls that stay inside their entries. -/
theorem LoadRun.holds {calls : List LoadCall} {t : ServiceTable} (run : LoadRun calls t)
    (inside : ∀ c ∈ calls, ¬ WritesOutside c.site c.service c.before) :
    (∃ loaded, t.Holds loaded) ∧
      (∀ c ∈ calls, ∀ sid, c.result = .ok sid →
        c.service ≠ [] ∧ t.Designates sid c.service ∧ t.slots[sid]? = c.after.slots[sid]?) ∧
      ∀ c ∈ calls, ∀ message, c.result = .error message →
        c.after = c.before ∧ ∃ loaded, c.before.Holds loaded := by
  induction run with
  | start =>
      exact ⟨⟨[], ServiceTable.empty_holds⟩, fun c member => absurd member List.not_mem_nil,
        fun c member => absurd member List.not_mem_nil⟩
  | @call calls t t' site service result run step ih =>
      obtain ⟨⟨loaded, h⟩, stable, failing⟩ :=
        ih fun c member => inside c (List.mem_append_left _ member)
      have last : ¬ WritesOutside site service t :=
        inside { site := site, service := service, before := t, result := result, after := t' }
          (List.mem_append_right _ (List.mem_singleton_self _))
      obtain ⟨added, h', returned, thrown⟩ := step.holds last h
      refine ⟨⟨_, h'⟩, ?_, ?_⟩
      · intro c member sid result
        rcases List.mem_append.mp member with earlier | last
        · obtain ⟨nonempty, designates, same⟩ := stable c earlier sid result
          obtain ⟨still, kept⟩ := h.later h' nonempty designates
          exact ⟨nonempty, still, kept.trans same⟩
        · cases List.mem_singleton.mp last
          obtain ⟨nonempty, designates⟩ := returned sid result
          exact ⟨nonempty, designates, rfl⟩
      · intro c member message result
        rcases List.mem_append.mp member with earlier | last
        · exact failing c earlier message result
        · cases List.mem_singleton.mp last
          exact ⟨thrown message result, loaded, h⟩

/-- As long as no call stores a group outside of the entry it fills, the loaded entries stay a
prefix of the table and keep their indices, and calls that fail change nothing. -/
theorem loadRun_kept {calls : List LoadCall} {t : ServiceTable} (run : LoadRun calls t)
    (inside : ∀ c ∈ calls, ¬ WritesOutside c.site c.service c.before) : LoadCall.Kept calls t := by
  obtain ⟨⟨loaded, h⟩, stable, failing⟩ := run.holds inside
  refine { integrity := h.integrity, stable := ?_, failing := ?_ }
  · exact fun c member sid result => (stable c member sid result).2
  · intro c member message result
    obtain ⟨same, before, holds⟩ := failing c member message result
    exact ⟨same, fun sid taken => by rw [same]; exact holds.packed.taken_blank taken⟩

/-- A services root with one service. -/
def oneService (service : Str) (dir : ServiceDir) : ServicesRoot where
  dir := fun other => if other = service then .ok dir else .error .enoent

/-- A service that cannot be found is not loaded, and the next one gets its entry. -/
theorem loadRun_kept_app : ∃ calls t, calls.map LoadCall.result =
    [.error "service directory not found".toList, .ok 0] ∧ LoadCall.Kept calls t := by
  let site : LoadSite :=
    { sys := plainSystem
      defaults := {}
      root := oneService "app".toList (withSgid none)
      memory := zeroMemory
      filled := .unused }
  obtain ⟨srv, loaded⟩ : ∃ srv, loadSettings plainSystem {} (withSgid none)
      (zeroMemory.settings "app".toList) "app".toList = .ok srv :=
    exists_loadSettings (by decide +kernel)
  have failing : ServiceTable.empty.loadService site "db".toList =
      (.threw "service directory not found".toList, .empty) := rfl
  have settings : site.view.settings "app".toList = .ok srv := loaded
  have returning : ServiceTable.empty.loadService site "app".toList =
      (.ok 0, ServiceTable.empty.set 0 { settings := { srv with name := "app".toList } }) := by
    unfold ServiceTable.loadService
    rw [settings]
    rfl
  have run := (LoadRun.start.call (.throws failing)).call (.returns returning)
  refine ⟨_, _, rfl, loadRun_kept run ?_⟩
  intro c member outside
  obtain ⟨dir, root, -, index, overrun⟩ := outside.stored
  rcases List.mem_append.mp member with first | second
  · cases List.mem_singleton.mp first
    cases root
  · cases List.mem_singleton.mp second
    cases root
    cases overrun

/-- A service with two groups and two flags that exclude each other. -/
def exclusiveFlags : ServiceDir where
  entries :=
    [{ dName := "run".toList, isReg := true, node := some (.program [] 0) },
      { dName := "sgid".toList, isReg := true, node := some (.file "113\n97\n".toList) },
      { dName := "respawn".toList, isReg := true, node := some (.file "1".toList) },
      { dName := "sync".toList, isReg := true, node := some (.file "1".toList) }]
  nodup := (by decide : ["run".toList, "sgid".toList, "respawn".toList, "sync".toList].Nodup)

/-- There are 32 default groups. The first group of the file is written where the size of the list
is kept, the second one into the name of the next entry; then the flags turn out to be exclusive,
and the entry of the service is cleared. -/
theorem not_kept_outside : ¬ ∀ calls t, LoadRun calls t → LoadCall.Kept calls t := by
  intro kept
  let site : LoadSite :=
    { sys := plainSystem
      defaults := { sgidList := List.range' 1 32 }
      root := oneService "app".toList exclusiveFlags
      memory := zeroMemory
      filled := .unused }
  let stray : ServiceEntry :=
    { ServiceEntry.unused with
      settings := { ServiceEntry.unused.settings with name := "a".toList } }
  have writes : WritesOutside site "app".toList .empty :=
    { nonempty := by decide
      missing := rfl
      short := by decide
      allocated := ⟨0, rfl⟩
      stored := ⟨exclusiveFlags, rfl, by decide +kernel, 32, by decide +kernel⟩ }
  have run := LoadRun.start.call
    (.outside writes (.error "'respawn' and 'sync' flags are exclusive".toList)
      (ServiceTable.empty.set 1 stray))
  obtain ⟨n, prefixed⟩ := (kept _ _ run).integrity.contiguous
  have one : 1 < n := (prefixed 1).mp ⟨stray, rfl, rfl⟩
  obtain ⟨srv, found, named⟩ := (prefixed 0).mpr (Nat.lt_of_succ_lt one)
  cases found
  cases named

end Baseimage.Cinit
