import Baseimage.Cinit.Service

/-!
# Loading a service with its dependencies

`load_service_with_deps` loads a service, puts it in the start order in front of the service that
depends on it, and then goes through the directory for `.dep` files. The directory it lists is
the one it has just changed to; the files it then checks are looked up by name in the working
directory, which every load changes.

What the functions find in the file system is a `View`. The view of the supervisor is the one of
its services root; the loading itself does not depend on where the answers come from.
-/

namespace Baseimage.Cinit

/-- `MAX_NUM_SERVICES`. -/
def maxNumServices : Nat := 64

/-- What loading finds in the file system. -/
structure View where
  /-- `chdir_to_service`. -/
  chdirToService : Str → Outcome Str Unit
  /-- The settings `load_service` reads in the directory of the service. -/
  settings : Str → Outcome Str Service
  /-- `opendir` and `readdir` in the directory of the service. -/
  listing : Str → Outcome Str (List DirEntry)
  /-- The value of `depends` after the dependency state was checked: for the file of that name in
  the working directory, on behalf of a service, at the n-th check. -/
  depends : (cwd service dName : Str) → Nat → Outcome Str Bool

/-- A check of a dependency state and its result. -/
structure Check where
  service : Str
  dName : Str
  cwd : Str
  depends : Bool
  deriving DecidableEq, Repr

/-- What loading works on: the used entries of the service table, the start order, and the
working directory, which is the one of the service named here. -/
structure LoadContext where
  services : List Service := []
  startOrder : List Int := List.replicate maxNumServices (-1)
  cwd : Str := []
  /-- The dependency checks that came to a value so far. -/
  checks : List Check := []

/-- A dependency check has come to a value. -/
def LoadContext.note (ctx : LoadContext) (service dName : Str) (depends : Bool) : LoadContext :=
  { ctx with
    checks := ctx.checks ++
      [{ service := service, dName := dName, cwd := ctx.cwd, depends := depends }] }

/-- A service was loaded: its directory is the working directory and its entry is the next one. -/
def LoadContext.add (ctx : LoadContext) (service : Str) (srv : Service) : LoadContext :=
  { ctx with
    cwd := service
    services := ctx.services ++ [{ srv with name := service }] }

@[simp] theorem LoadContext.note_services (ctx : LoadContext) (service dName : Str) (b : Bool) :
    (ctx.note service dName b).services = ctx.services := rfl

@[simp] theorem LoadContext.note_checks (ctx : LoadContext) (service dName : Str) (b : Bool) :
    (ctx.note service dName b).checks =
      ctx.checks ++ [{ service := service, dName := dName, cwd := ctx.cwd, depends := b }] := rfl

@[simp] theorem LoadContext.add_services (ctx : LoadContext) (service : Str) (srv : Service) :
    (ctx.add service srv).services = ctx.services ++ [{ srv with name := service }] := rfl

@[simp] theorem LoadContext.add_checks (ctx : LoadContext) (service : Str) (srv : Service) :
    (ctx.add service srv).checks = ctx.checks := rfl

/-- `find_service`. -/
def findService (services : List Service) (service : Str) : Option Nat :=
  services.findIdx? (fun srv => srv.name == service)

/-- `add_to_start_order`. -/
def addToStartOrder (service before : Int) : List Int → List Int
  | [] => []
  | x :: xs =>
      if x = -1 then service :: xs
      -- Moving all services to the right drops the last entry of the table.
      else if x = before then service :: (x :: xs).dropLast
      else x :: addToStartOrder service before xs

/-- `load_service`: the index of the entry. A failure leaves the table as it was. -/
def loadService (view : View) (service : Str) (ctx : LoadContext) :
    Outcome Str Nat × LoadContext :=
  if service = [] then (.aborted, ctx)
  else
    match findService ctx.services service with
    | some sid => (.ok sid, ctx)
    | none =>
        if service.length ≥ serviceNameSize then (throwMessage "name too long".toList, ctx)
        else
          match view.chdirToService service with
          | .threw message => (.threw message, ctx)
          | .aborted => (.aborted, ctx)
          | .ok () =>
              if ctx.services.length ≥ maxNumServices then
                (throwMessage "maximum number of services reached".toList,
                  { ctx with cwd := service })
              else
                match view.settings service with
                | .threw message => (.threw message, { ctx with cwd := service })
                | .aborted => (.aborted, { ctx with cwd := service })
                | .ok srv => (.ok ctx.services.length, ctx.add service srv)

/-- The name of the service a `.dep` file is about: what stands before the last dot. -/
def removeDepSuffix (dName : Str) : Str :=
  ((dName.reverse.dropWhile (fun c => c != '.')).drop 1).reverse

/-- The entries the loading loop looks at. -/
def DirEntry.isDep (entry : DirEntry) : Bool :=
  entry.dName ≠ ".".toList && entry.dName ≠ "..".toList && entry.isReg &&
    endsWith entry.dName ".dep".toList

/-- Go on with the loading, unless it has failed. -/
def goOn (result : Outcome Str Unit × LoadContext)
    (rest : LoadContext → Outcome Str Unit × LoadContext) : Outcome Str Unit × LoadContext :=
  match result with
  | (.ok (), ctx) => rest ctx
  | failed => failed

/-- The loop over the directory of a service. -/
def loadDependencies (view : View) (load : Str → Int → LoadContext → Outcome Str Unit × LoadContext)
    (service : Str) (sid : Nat) : List DirEntry → LoadContext → Outcome Str Unit × LoadContext
  | [], ctx => (.ok (), ctx)
  | entry :: entries, ctx =>
      if entry.isDep = false then loadDependencies view load service sid entries ctx
      else
        match view.depends ctx.cwd service entry.dName ctx.checks.length with
        | .threw message => (.threw message, ctx)
        | .aborted => (.aborted, ctx)
        | .ok depends =>
            let ctx := ctx.note service entry.dName depends
            goOn (if depends then load (removeDepSuffix entry.dName) sid ctx else (.ok (), ctx))
              (loadDependencies view load service sid entries)

/-- The messages of a service that cannot be loaded. -/
def couldNotLoadService (service message : Str) : Str :=
  "could not load service '".toList ++ service ++ "': ".toList ++ message

/-- `load_service_with_deps`, for a depth of nested calls. -/
def loadWithDepth (view : View) : Nat → Str → Int → LoadContext → Outcome Str Unit × LoadContext
  | 0, _, _, ctx => (.aborted, ctx)
  | depth + 1, service, dependent, ctx =>
      if service = [] then (.aborted, ctx)
      else
        match findService ctx.services service with
        | some _ => (.ok (), ctx)
        | none =>
            match loadService view service ctx with
            | (.threw message, ctx) => (throwMessage (couldNotLoadService service message), ctx)
            | (.aborted, ctx) => (.aborted, ctx)
            | (.ok sid, ctx) =>
                if (ctx.services[sid]?.map Service.disabled).getD false then (.ok (), ctx)
                else
                  let ctx := { ctx with startOrder := addToStartOrder sid dependent ctx.startOrder }
                  match view.listing service with
                  | .threw strerror =>
                      (throwMessage (couldNotLoadService service
                        ("could not open stream for service directory".toList ++ strerror)), ctx)
                  | .aborted => (.aborted, ctx)
                  | .ok entries =>
                      loadDependencies view (loadWithDepth view depth) service sid entries ctx

/-- `load_service_with_deps`. Every nested call is made on behalf of one more loaded service, so
the depth that is enough for a full table is enough. -/
def loadServiceWithDeps (view : View) (service : Str) (dependent : Int) (ctx : LoadContext) :
    Outcome Str Unit × LoadContext :=
  loadWithDepth view (maxNumServices + 1) service dependent ctx

theorem findService_eq_none_iff {services : List Service} {service : Str} :
    findService services service = none ↔ service ∉ services.map Service.name := by
  rw [findService, List.findIdx?_eq_none_iff]
  simp [List.mem_map]

theorem findService_eq_some {services : List Service} {service : Str} {sid : Nat}
    (h : findService services service = some sid) :
    ∃ srv, services[sid]? = some srv ∧ srv.name = service := by
  obtain ⟨hlt, found, -⟩ := List.findIdx?_eq_some_iff_getElem.mp h
  exact ⟨services[sid], List.getElem?_eq_getElem hlt, eq_of_beq found⟩

/-- What a successful `load_service` of a service that is not in the table does. -/
theorem loadService_ok {view : View} {service : Str} {ctx ctx' : LoadContext} {sid : Nat}
    (fresh : findService ctx.services service = none)
    (h : loadService view service ctx = (.ok sid, ctx')) :
    ∃ srv, view.settings service = .ok srv ∧ sid = ctx.services.length ∧
      ctx.services.length < maxNumServices ∧
      ctx' = ctx.add service srv := by
  simp only [loadService, fresh] at h
  split at h
  · simp at h
  · split at h
    · exact absurd (Prod.mk.inj h).1 (throwMessage_ne_ok _ _)
    · split at h
      · simp at h
      · simp at h
      · split at h
        · exact absurd (Prod.mk.inj h).1 (throwMessage_ne_ok _ _)
        · next room =>
            split at h
            · simp at h
            · simp at h
            · next srv hsettings =>
                simp only [Prod.mk.injEq, Outcome.ok.injEq] at h
                exact ⟨srv, hsettings, h.1.symm, Nat.lt_of_not_le room, h.2.symm⟩

/-- Loading only adds to the table and to the history. -/
structure Grows (ctx ctx' : LoadContext) : Prop where
  services : ctx.services.length ≤ ctx'.services.length
  room : ctx.services.length ≤ maxNumServices → ctx'.services.length ≤ maxNumServices
  checks : ctx.checks <+: ctx'.checks

theorem Grows.refl (ctx : LoadContext) : Grows ctx ctx :=
  { services := Nat.le_refl _
    room := fun h => h
    checks := List.prefix_refl _ }

theorem Grows.trans {ctx ctx' ctx'' : LoadContext} (first : Grows ctx ctx')
    (second : Grows ctx' ctx'') : Grows ctx ctx'' :=
  { services := Nat.le_trans first.services second.services
    room := fun h => second.room (first.room h)
    checks := first.checks.trans second.checks }

theorem LoadContext.note_grows (ctx : LoadContext) (service dName : Str) (b : Bool) :
    Grows ctx (ctx.note service dName b) :=
  { Grows.refl ctx with checks := List.prefix_append _ _ }

theorem goOn_eq_ok_iff {result : Outcome Str Unit × LoadContext}
    {rest : LoadContext → Outcome Str Unit × LoadContext} {ctx' : LoadContext} :
    goOn result rest = (.ok (), ctx') ↔
      ∃ ctx, result = (.ok (), ctx) ∧ rest ctx = (.ok (), ctx') := by
  obtain ⟨outcome, ctx⟩ := result
  cases outcome with
  | ok a => simp [goOn]
  | threw message => simp [goOn]
  | aborted => simp [goOn]

theorem loadService_grows (view : View) (service : Str) (ctx : LoadContext) :
    Grows ctx (loadService view service ctx).2 := by
  have moved : Grows ctx { ctx with cwd := service } := { Grows.refl ctx with }
  unfold loadService
  split
  · exact Grows.refl ctx
  · split
    · exact Grows.refl ctx
    · split
      · exact Grows.refl ctx
      · split
        · exact Grows.refl ctx
        · exact Grows.refl ctx
        · split
          · exact moved
          · next room =>
              split
              · exact moved
              · exact moved
              · exact
                  { services := by simp
                    room := fun _ => by
                      rw [LoadContext.add_services, List.length_append]
                      exact Nat.lt_of_not_le room
                    checks := List.prefix_refl _ }

/-- Loading a service makes no dependency check. -/
theorem loadService_checks (view : View) (service : Str) (ctx : LoadContext) :
    (loadService view service ctx).2.checks = ctx.checks := by
  unfold loadService
  split
  · rfl
  · split
    · rfl
    · split
      · rfl
      · split
        · rfl
        · rfl
        · split
          · rfl
          · split <;> rfl

theorem goOn_keeps {invariant : LoadContext → Prop} {result : Outcome Str Unit × LoadContext}
    {rest : LoadContext → Outcome Str Unit × LoadContext} (first : invariant result.2)
    (hrest : ∀ ctx, invariant ctx → invariant (rest ctx).2) : invariant (goOn result rest).2 := by
  obtain ⟨outcome, ctx⟩ := result
  cases outcome with
  | ok a => exact hrest ctx first
  | threw message => exact first
  | aborted => exact first

theorem loadDependencies_keeps {view : View} {invariant : LoadContext → Prop}
    (hnote : ∀ ctx service dName depends,
      view.depends ctx.cwd service dName ctx.checks.length = .ok depends → invariant ctx →
        invariant (ctx.note service dName depends))
    {load : Str → Int → LoadContext → Outcome Str Unit × LoadContext}
    (hload : ∀ name dependent ctx, invariant ctx → invariant (load name dependent ctx).2)
    (service : Str) (sid : Nat) (entries : List DirEntry) {ctx : LoadContext}
    (h : invariant ctx) : invariant (loadDependencies view load service sid entries ctx).2 := by
  induction entries generalizing ctx with
  | nil => exact h
  | cons entry entries ih =>
      rw [loadDependencies]
      split
      · exact ih h
      · split
        · exact h
        · exact h
        · next depends found =>
            have noted := hnote ctx service entry.dName depends found h
            refine goOn_keeps ?_ (fun _ => ih)
            split
            · exact hload _ _ _ noted
            · exact noted

/-- What loading one service, ordering the services and checking a dependency keep, the loading
with dependencies keeps, however it ends. -/
theorem loadWithDepth_keeps {view : View} {invariant : LoadContext → Prop}
    (hservice : ∀ service ctx, invariant ctx → invariant (loadService view service ctx).2)
    (horder : ∀ ctx (sid : Nat) dependent srv, ctx.services[sid]? = some srv →
      srv.disabled = false → invariant ctx →
        invariant { ctx with startOrder := addToStartOrder sid dependent ctx.startOrder })
    (hnote : ∀ ctx service dName depends,
      view.depends ctx.cwd service dName ctx.checks.length = .ok depends → invariant ctx →
        invariant (ctx.note service dName depends))
    (depth : Nat) (service : Str) (dependent : Int) {ctx : LoadContext} (h : invariant ctx) :
    invariant (loadWithDepth view depth service dependent ctx).2 := by
  induction depth generalizing service dependent ctx with
  | zero => exact h
  | succ depth ih =>
      have loaded := hservice service ctx h
      rw [loadWithDepth]
      split
      · exact h
      · split
        · exact h
        · next fresh =>
            split
            · next run => rwa [run] at loaded
            · next run => rwa [run] at loaded
            · next sid ctx' run =>
                rw [run] at loaded
                obtain ⟨srv, -, rfl, -, rfl⟩ := loadService_ok fresh run
                have entry : (ctx.add service srv).services[ctx.services.length]? =
                    some { srv with name := service } := by
                  rw [LoadContext.add_services, List.getElem?_concat_length]
                rw [entry]
                split
                · exact loaded
                · next enabled =>
                    have ordered :=
                      horder _ _ dependent _ entry (Bool.eq_false_iff.mpr enabled) loaded
                    simp only
                    split
                    · exact ordered
                    · exact ordered
                    · exact loadDependencies_keeps hnote (fun _ _ _ => ih _ _) service _ _ ordered

theorem goOn_grows {ctx : LoadContext} {result : Outcome Str Unit × LoadContext}
    {rest : LoadContext → Outcome Str Unit × LoadContext} (first : Grows ctx result.2)
    (hrest : ∀ ctx', Grows ctx' (rest ctx').2) : Grows ctx (goOn result rest).2 :=
  goOn_keeps first (fun ctx' h => h.trans (hrest ctx'))

theorem loadDependencies_grows (view : View)
    {load : Str → Int → LoadContext → Outcome Str Unit × LoadContext}
    (hload : ∀ name dependent ctx, Grows ctx (load name dependent ctx).2)
    (service : Str) (sid : Nat) (entries : List DirEntry) (ctx : LoadContext) :
    Grows ctx (loadDependencies view load service sid entries ctx).2 := by
  refine loadDependencies_keeps ?_ ?_ service sid entries (Grows.refl ctx)
  · intro ctx' service dName depends _ h
    exact h.trans (ctx'.note_grows service dName depends)
  · intro name dependent ctx' h
    exact h.trans (hload name dependent ctx')

theorem loadWithDepth_grows (view : View) (depth : Nat) (service : Str) (dependent : Int)
    (ctx : LoadContext) : Grows ctx (loadWithDepth view depth service dependent ctx).2 := by
  refine loadWithDepth_keeps ?_ ?_ ?_ depth service dependent (Grows.refl ctx)
  · intro service ctx' h
    exact h.trans (loadService_grows view service ctx')
  · intro ctx' sid dependent srv _ _ h
    exact { h with }
  · intro ctx' service dName depends _ h
    exact h.trans (ctx'.note_grows service dName depends)

theorem loadDependencies_congr {view : View}
    {load load' : Str → Int → LoadContext → Outcome Str Unit × LoadContext} {least : Nat}
    (hload : ∀ name dependent ctx, Grows ctx (load name dependent ctx).2)
    (same : ∀ name dependent ctx, least ≤ ctx.services.length →
      ctx.services.length ≤ maxNumServices → load name dependent ctx = load' name dependent ctx)
    (service : Str) (sid : Nat) (entries : List DirEntry) {ctx : LoadContext}
    (hleast : least ≤ ctx.services.length) (room : ctx.services.length ≤ maxNumServices) :
    loadDependencies view load service sid entries ctx =
      loadDependencies view load' service sid entries ctx := by
  induction entries generalizing ctx with
  | nil => rfl
  | cons entry entries ih =>
      rw [loadDependencies, loadDependencies]
      split
      · exact ih hleast room
      · split
        · rfl
        · rfl
        · next depends _ =>
            cases depends with
            | false => exact ih hleast room
            | true =>
                have grown := hload (removeDepSuffix entry.dName) sid
                  (ctx.note service entry.dName true)
                simp only [if_true]
                rw [← same (removeDepSuffix entry.dName) sid (ctx.note service entry.dName true)
                  hleast room]
                cases hrun : load (removeDepSuffix entry.dName) sid
                    (ctx.note service entry.dName true) with
                | mk outcome ctx' =>
                    rw [hrun] at grown
                    cases outcome with
                    | ok a => exact ih (Nat.le_trans hleast grown.services) (grown.room room)
                    | threw message => rfl
                    | aborted => rfl

/-- A depth that is enough for the entries that are left in the table is enough: more of it makes
no difference. -/
theorem loadWithDepth_enough (view : View) {depth depth' : Nat} (service : Str) (dependent : Int)
    {ctx : LoadContext} (room : ctx.services.length ≤ maxNumServices)
    (enough : maxNumServices < depth + ctx.services.length)
    (enough' : maxNumServices < depth' + ctx.services.length) :
    loadWithDepth view depth service dependent ctx =
      loadWithDepth view depth' service dependent ctx := by
  induction depth generalizing depth' service dependent ctx with
  | zero => omega
  | succ depth ih =>
      cases depth' with
      | zero => omega
      | succ depth' =>
          rw [loadWithDepth, loadWithDepth]
          split
          · rfl
          · split
            · rfl
            · next fresh =>
                split
                · rfl
                · rfl
                · next sid ctx' run =>
                    have grown := loadService_grows view service ctx
                    rw [run] at grown
                    obtain ⟨srv, -, -, -, rfl⟩ := loadService_ok fresh run
                    split
                    · rfl
                    · simp only
                      split
                      · rfl
                      · rfl
                      · refine loadDependencies_congr
                          (fun _ _ _ => loadWithDepth_grows view _ _ _ _)
                          (fun name dependent ctx₁ hleast room₁ => ih name dependent room₁ ?_ ?_)
                          service sid _ (Nat.le_refl _) (grown.room room)
                        · simp only [LoadContext.add_services, List.length_append,
                            List.length_singleton] at hleast
                          omega
                        · simp only [LoadContext.add_services, List.length_append,
                            List.length_singleton] at hleast
                          omega

end Baseimage.Cinit
