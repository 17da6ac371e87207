import Baseimage.Cinit.Dependencies
import Baseimage.Cinit.MainLoop

/-!
# The table the supervisor starts with

`load_service` returns early when an entry is disabled or is a service group, so all the other
settings of the entry are the initial ones. A service that is to be respawned and to run at a
regular interval is rejected. Such entries stay in the table, but a disabled one gets no place in
the start order.
-/

namespace Baseimage.Cinit

/-- What `load_service` makes sure of. -/
structure Service.Settled (srv : Service) : Prop where
  notRun : srv.disabled = true ∨ srv.isServiceGroup = true → srv.respawn = false ∧ srv.interval = 0
  exclusive : srv.respawn = true → srv.interval = 0

theorem Service.unused_settled : ServiceEntry.unused.settings.Settled where
  notRun _ := ⟨rfl, rfl⟩
  exclusive _ := rfl

theorem throwMessage_returns {α : Type} {Q : α → Prop} (message : Str) :
    (throwMessage message : Outcome Str α).Returns Q :=
  fun a h => absurd h (throwMessage_ne_ok message a)

theorem throwMessage_bind_returns {α β : Type} {Q : β → Prop} (message : Str)
    (f : α → Outcome Str β) : (throwMessage message >>= f).Returns Q :=
  Outcome.Returns.bind fun a h => absurd h (throwMessage_ne_ok message a)

theorem loadSettings_settled (sys : System) (defaults : ServiceDefaults) (dir : ServiceDir)
    (stack : Str → Str) (name : Str) :
    (loadSettings sys defaults dir stack name).Returns Service.Settled := by
  unfold loadSettings
  refine Outcome.Returns.bind fun disabled _ => ?_
  dsimp only
  split
  · exact Outcome.Returns.pure { notRun := fun _ => ⟨rfl, rfl⟩, exclusive := fun _ => rfl }
  · next run =>
      cases exec : dir.runExecutable with
      | false => exact throwMessage_bind_returns _ _
      | true =>
          cases path : dir.runPath with
          | error strerror => exact throwMessage_bind_returns _ _
          | ok path =>
              simp only [Bool.true_eq_false, if_false, Outcome.ok_bind]
              -- Whatever the files hold, the two flags are looked at behind them.
              repeat refine Outcome.Returns.bind fun _ _ => ?_
              split
              · exact throwMessage_returns _
              · split
                · exact throwMessage_returns _
                · next exclusive =>
                    refine Outcome.Returns.pure
                      { notRun := fun h => absurd h.symm run, exclusive := ?_ }
                    exact fun respawned => Nat.eq_zero_of_not_pos (not_and.mp exclusive respawned)

/-! ## The lists of an entry -/

/-- `load_service` returns before it comes to the settings: the directory has no `run`, or the
service is disabled. -/
def SkipsSettings (sys : System) (dir : ServiceDir) (stack : Str → Str) : Prop :=
  (dir.lookup "run".toList).isNone = true ∨
    loadValueAsBool sys "disabled".toList (dir.lookup "disabled".toList)
      (stack "disabled".toList) = .ok (some true)

/-- The environment of an entry after `environment` was loaded. A null pointer stands for a file
without variables. -/
def storedEnvironment : Option (List Str) → List (Option Str)
  | none => []
  | some [] => [none]
  | some list => list.map some

/-- What was read from the files with lists, and where it was stored. -/
structure ListsLoaded (sys : System) (defaults : ServiceDefaults) (dir : ServiceDir) (srv : Service)
    (environment extra : Option (List Str)) (groups : Option (List Nat)) : Prop where
  readEnvironment : loadList sys "environment".toList (dir.lookup "environment".toList)
    maxNumServiceEnvVars "too much environment variables".toList (acceptVariable sys) [] =
      .ok environment
  readExtra : loadList sys "environment_extra".toList (dir.lookup "environment_extra".toList)
    maxNumServiceEnvVars "too much environment variables".toList (acceptVariable sys) [] = .ok extra
  readSgid : loadList sys "sgid".toList (dir.lookup "sgid".toList) serviceSgidListSize
    "too much supplementary groups".toList (acceptGroup sys) defaults.sgidList = .ok groups
  environment : srv.environment = storedEnvironment environment
  environmentExtra : srv.environmentExtra = extra.getD []
  sgid : srv.sgidList = groups.getD defaults.sgidList

section Lists

variable {sys : System} {defaults : ServiceDefaults} {dir : ServiceDir} {stack : Str → Str}
  {name : Str} {srv : Service}

theorem skipsSettings_iff {disabled : Option Bool}
    (read : loadValueAsBool sys "disabled".toList (dir.lookup "disabled".toList)
      (stack "disabled".toList) = .ok disabled) :
    SkipsSettings sys dir stack ↔
      (dir.lookup "run".toList).isNone = true ∨ disabled.getD false = true := by
  rw [SkipsSettings, read, Outcome.ok.injEq]
  cases disabled <;> simp

/-- The lists of such a service are the initial ones. -/
theorem loadSettings_skipped (skips : SkipsSettings sys dir stack)
    (loaded : loadSettings sys defaults dir stack name = .ok srv) :
    srv = { Service.init defaults name with
      isServiceGroup := srv.isServiceGroup, disabled := srv.disabled } := by
  obtain ⟨disabled, read, rest⟩ := Outcome.bind_eq_ok_iff.mp loaded
  dsimp only at rest
  rw [if_pos ((skipsSettings_iff read).mp skips)] at rest
  cases rest
  rfl

theorem loadSettings_lists (settings : ¬ SkipsSettings sys dir stack) :
    (loadSettings sys defaults dir stack name).Returns fun srv =>
      ∃ environment extra groups, ListsLoaded sys defaults dir srv environment extra groups := by
  unfold loadSettings
  refine Outcome.Returns.bind fun disabled read => ?_
  dsimp only
  rw [if_neg fun skips => settings ((skipsSettings_iff read).mpr skips)]
  cases exec : dir.runExecutable with
  | false => exact throwMessage_bind_returns _ _
  | true =>
      cases path : dir.runPath with
      | error strerror => exact throwMessage_bind_returns _ _
      | ok path =>
          simp only [Bool.true_eq_false, if_false, Outcome.ok_bind]
          refine Outcome.Returns.bind fun params _ => ?_
          refine Outcome.Returns.bind fun environment readEnvironment => ?_
          refine Outcome.Returns.bind fun extra readExtra => ?_
          refine Outcome.Returns.bind fun uid _ => ?_
          refine Outcome.Returns.bind fun gid _ => ?_
          refine Outcome.Returns.bind fun groups readSgid => ?_
          -- The settings behind `sgid` are no lists.
          repeat refine Outcome.Returns.bind fun _ _ => ?_
          split
          · exact throwMessage_returns _
          · split
            · exact throwMessage_returns _
            · refine Outcome.Returns.pure ⟨environment, extra, groups, ?_⟩
              exact
                { readEnvironment := readEnvironment
                  readExtra := readExtra
                  readSgid := readSgid
                  environment := by cases environment with
                    | none => rfl
                    | some list => cases list <;> rfl
                  environmentExtra := rfl
                  sgid := rfl }

end Lists

/-- The settings of every entry are settled, and the entries of the start order are enabled. -/
structure Enrolled (ctx : LoadContext) : Prop where
  settled : ∀ srv ∈ ctx.services, srv.Settled
  enabled : ∀ sid : Nat, (sid : Int) ∈ ctx.startOrder →
    ∃ srv, ctx.services[sid]? = some srv ∧ srv.disabled = false

theorem mem_addToStartOrder {service before x : Int} {xs : List Int}
    (h : x ∈ addToStartOrder service before xs) : x = service ∨ x ∈ xs := by
  induction xs with
  | nil => exact absurd h List.not_mem_nil
  | cons y ys ih =>
      rw [addToStartOrder] at h
      split at h
      · exact (List.mem_cons.mp h).imp_right (List.mem_cons_of_mem _)
      · split at h
        · exact (List.mem_cons.mp h).imp_right List.mem_of_mem_dropLast
        · rcases List.mem_cons.mp h with rfl | later
          · exact .inr List.mem_cons_self
          · exact (ih later).imp_right (List.mem_cons_of_mem _)

theorem Enrolled.add {ctx : LoadContext} (h : Enrolled ctx) (service : Str) {srv : Service}
    (settled : srv.Settled) : Enrolled (ctx.add service srv) where
  settled other hother := by
    rcases List.mem_append.mp hother with old | new
    · exact h.settled other old
    · rw [List.mem_singleton.mp new]
      exact { notRun := settled.notRun, exclusive := settled.exclusive }
  enabled sid hsid := by
    obtain ⟨other, hother, enabled⟩ := h.enabled sid hsid
    have bound := (List.getElem?_eq_some_iff.mp hother).1
    exact ⟨other, (List.getElem?_append_left bound).trans hother, enabled⟩

theorem loadService_enrolled {view : View} (settled : ∀ service, (view.settings service).Returns
    Service.Settled) (service : Str) {ctx : LoadContext} (h : Enrolled ctx) :
    Enrolled (loadService view service ctx).2 := by
  unfold loadService
  have moved : Enrolled { ctx with cwd := service } := { h with }
  split
  · exact h
  · split
    · exact h
    · split
      · exact h
      · split
        · exact h
        · exact h
        · split
          · exact moved
          · split
            · exact moved
            · exact moved
            · next srv hsettings => exact h.add service (settled service srv hsettings)

theorem loadDefault_enrolled {view : View} (settled : ∀ service, (view.settings service).Returns
    Service.Settled) (cwd : Str) : Enrolled (Code.loadDefault view cwd).2 := by
  refine loadWithDepth_keeps (fun service _ => loadService_enrolled settled service) ?_ ?_ _ _ _ ?_
  · intro ctx sid dependent srv hsrv enabled h
    refine { settled := h.settled, enabled := ?_ }
    intro other hother
    rcases mem_addToStartOrder hother with same | old
    · exact ⟨srv, Int.ofNat.inj same ▸ hsrv, enabled⟩
    · exact h.enabled other old
  · intro ctx service dName depends _ h
    exact { h with }
  · refine { settled := by simp, enabled := fun sid hsid => ?_ }
    have free := List.eq_of_mem_replicate hsid
    omega

theorem ServicesRoot.settings_settled (sys : System) (defaults : ServiceDefaults)
    (root : ServicesRoot) (memory : Memory) (service : Str) :
    ((root.view sys defaults memory).settings service).Returns Service.Settled := by
  simp only [ServicesRoot.view]
  split
  · exact loadSettings_settled sys defaults _ _ service
  · intro srv impossible
    cases impossible

end Baseimage.Cinit
