import Baseimage.Cinit.Loading
import Baseimage.Graph.DepthFirst

/-!
# The start order

Loading inserts a service right in front of its dependent, before its own dependencies are
loaded. The services that are still being loaded are therefore always a contiguous block at the
end of the start order, each followed by the one that depends on it, and what stands before this
block is the postorder of a depth-first walk, without the disabled services. So the table ends up
as a topological order when there is one.
-/

namespace Baseimage.Cinit

open DepthFirst

/-- The service is disabled, as its settings say. -/
def View.disabled (view : View) (service : Str) : Bool :=
  match view.settings service with
  | .ok srv => srv.disabled
  | _ => false

/-- The entries the loading loop sees in the directory of the service. -/
def View.entries (view : View) (service : Str) : List DirEntry :=
  match view.listing service with
  | .ok entries => entries
  | _ => []

/-- The dependencies that are loaded on behalf of a service, where `counted` says which of the
entries count. -/
def View.next (view : View) (counted : Str → Str → Bool) (service : Str) : List Str :=
  if view.disabled service then []
  else
    ((view.entries service).filter (fun entry => entry.isDep && counted service entry.dName)).map
      (fun entry => removeDepSuffix entry.dName)

/-- The start order that consists of some loaded services. -/
def slots (entered names : List Str) : List Int :=
  names.map (fun name => (entered.idxOf name : Int)) ++
    List.replicate (maxNumServices - names.length) (-1)

/-- The services of a start order during the walk: those left that are not disabled, followed by
the ones that are being loaded. -/
def View.order (view : View) (v : Visit Str) (stack : List Str) : List Str :=
  v.left.filter (fun name => !view.disabled name) ++ stack

/-- The context of the loading represents the state of a walk, with a stack of services that are
being loaded. -/
structure Represents (view : View) (ctx : LoadContext) (v : Visit Str) (stack : List Str) :
    Prop where
  names : ctx.services.map Service.name = v.entered
  disabled : ∀ srv ∈ ctx.services, view.disabled srv.name = srv.disabled
  room : ctx.services.length ≤ maxNumServices
  valid : v.Valid
  stack_nodup : stack.Nodup
  stack_entered : stack ⊆ v.entered
  stack_inside : ∀ name ∈ stack, name ∉ v.left
  startOrder : ctx.startOrder = slots v.entered (view.order v stack)

/-- The dependent that is passed along is the service at the top of the stack. -/
def Dependent (v : Visit Str) (stack : List Str) (dependent : Int) : Prop :=
  match stack with
  | [] => dependent = -1
  | top :: _ => dependent = v.entered.idxOf top

theorem addToStartOrder_free {service before : Int} {xs : List Int}
    (hxs : ∀ x ∈ xs, x ≠ -1 ∧ x ≠ before) (rest : List Int) :
    addToStartOrder service before (xs ++ -1 :: rest) = xs ++ service :: rest := by
  induction xs with
  | nil => simp [addToStartOrder]
  | cons x xs ih =>
      obtain ⟨hx, hbefore⟩ := hxs x List.mem_cons_self
      have tail := ih (fun y hy => hxs y (List.mem_cons_of_mem _ hy))
      simp [addToStartOrder, hx, hbefore, tail]

/-- In front of a service that is in the table, everything moves by one place into the free
slots. -/
theorem addToStartOrder_before {service before : Int} (hbefore : before ≠ -1) {xs : List Int}
    (hxs : ∀ x ∈ xs, x ≠ -1 ∧ x ≠ before) (ys : List Int) :
    addToStartOrder service before (xs ++ before :: (ys ++ [-1])) =
      xs ++ service :: before :: ys := by
  induction xs with
  | nil =>
      rw [List.nil_append, addToStartOrder, if_neg hbefore, if_pos rfl, ← List.cons_append,
        List.dropLast_concat]
      rfl
  | cons x xs ih =>
      obtain ⟨hx, hne⟩ := hxs x List.mem_cons_self
      have tail := ih (fun y hy => hxs y (List.mem_cons_of_mem _ hy))
      simp [addToStartOrder, hx, hne, tail]

/-- The slots do not change when the table grows behind the services they hold. -/
theorem slots_append {entered names : List Str} (h : names ⊆ entered) (service : Str) :
    slots (entered ++ [service]) names = slots entered names := by
  have same : ∀ name ∈ names, (entered ++ [service]).idxOf name = entered.idxOf name :=
    fun name hname => List.idxOf_append_of_mem (h hname)
  rw [slots, slots]
  congr 1
  exact List.map_congr_left (fun name hname => by rw [same name hname])

theorem View.order_subset {view : View} {v : Visit Str} {stack : List Str} (valid : v.Valid)
    (h : stack ⊆ v.entered) : view.order v stack ⊆ v.entered :=
  List.append_subset.mpr ⟨fun _ hname => valid.subset (List.mem_filter.mp hname).1, h⟩

theorem Represents.order_nodup {view : View} {ctx : LoadContext} {v : Visit Str}
    {stack : List Str} (rep : Represents view ctx v stack) : (view.order v stack).Nodup := by
  refine List.Nodup.append (rep.valid.left.filter _) rep.stack_nodup ?_
  intro name hleft hstack
  exact rep.stack_inside name hstack (List.mem_filter.mp hleft).1

theorem Represents.order_length {view : View} {ctx : LoadContext} {v : Visit Str}
    {stack : List Str} (rep : Represents view ctx v stack) :
    (view.order v stack).length ≤ v.entered.length :=
  (List.subperm_of_subset rep.order_nodup
    (View.order_subset rep.valid rep.stack_entered)).length_le

/-- A table with room ends in a free slot. -/
theorem slots_room {entered names : List Str} (room : names.length < maxNumServices) :
    slots entered names =
      names.map (fun name => (entered.idxOf name : Int)) ++
        (List.replicate (maxNumServices - (names.length + 1)) (-1) ++ [-1]) := by
  rw [slots, ← List.replicate_succ']
  congr 2
  omega

/-- The slots with one more service, which is the last one in the table. -/
theorem slots_insert {entered xs ys : List Str} {service : Str} (fresh : service ∉ entered)
    (hxs : xs ⊆ entered) (hys : ys ⊆ entered) :
    slots (entered ++ [service]) (xs ++ service :: ys) =
      xs.map (fun name => (entered.idxOf name : Int)) ++ (entered.length : Int) ::
        (ys.map (fun name => (entered.idxOf name : Int)) ++
          List.replicate (maxNumServices - ((xs ++ ys).length + 1)) (-1)) := by
  have same : ∀ name ∈ entered, (entered ++ [service]).idxOf name = entered.idxOf name :=
    fun name hname => List.idxOf_append_of_mem hname
  have last : (entered ++ [service]).idxOf service = entered.length := by
    rw [List.idxOf_append_of_notMem fresh]
    simp
  have mapped : ∀ names ⊆ entered,
    names.map (fun name => ((entered ++ [service]).idxOf name : Int)) =
      names.map (fun name => (entered.idxOf name : Int)) := by
    intro names hnames
    exact List.map_congr_left (fun name hname => by rw [same name (hnames hname)])
  have length : (xs ++ service :: ys).length = (xs ++ ys).length + 1 := by
    simp only [List.length_append, List.length_cons]
    omega
  rw [slots, List.map_append, List.map_cons, mapped xs hxs, mapped ys hys, last, length]
  simp

/-- Adding a freshly loaded service: it goes in front of its dependent, behind everything that is
complete. -/
theorem addToStartOrder_slots {view : View} {ctx : LoadContext} {v : Visit Str}
    {stack : List Str} {dependent : Int} {service : Str} (rep : Represents view ctx v stack)
    (hdependent : Dependent v stack dependent) (fresh : service ∉ v.entered)
    (room : v.entered.length < maxNumServices) :
    addToStartOrder v.entered.length dependent ctx.startOrder =
      slots (v.entered ++ [service])
        (v.left.filter (fun name => !view.disabled name) ++ service :: stack) := by
  have complete : v.left.filter (fun name => !view.disabled name) ⊆ v.entered :=
    fun _ hname => rep.valid.subset (List.mem_filter.mp hname).1
  have full := Nat.lt_of_le_of_lt rep.order_length room
  rw [rep.startOrder, slots_room full, slots_insert fresh complete rep.stack_entered]
  cases stack with
  | nil =>
      obtain rfl : dependent = -1 := hdependent
      simp only [View.order, List.append_nil, List.map_nil, List.nil_append]
      rw [← List.replicate_succ', List.replicate_succ]
      apply addToStartOrder_free
      intro x hx
      obtain ⟨name, -, rfl⟩ := List.mem_map.mp hx
      omega
  | cons top stack =>
      obtain rfl : dependent = v.entered.idxOf top := hdependent
      simp only [View.order, List.map_append, List.map_cons, List.append_assoc, List.cons_append]
      rw [← List.append_assoc _ _ [-1]]
      apply addToStartOrder_before (by omega)
      intro x hx
      obtain ⟨name, hname, rfl⟩ := List.mem_map.mp hx
      refine ⟨by omega, ?_⟩
      intro same
      have equal := (List.idxOf_inj (complete hname)).mp (Int.ofNat.inj same)
      rw [equal] at hname
      exact rep.stack_inside top List.mem_cons_self (List.mem_filter.mp hname).1

/-- The context after a service was loaded that is not disabled: it is being loaded on top of the
others. -/
theorem Represents.enter {view : View} {ctx : LoadContext} {v : Visit Str} {stack : List Str}
    {dependent : Int} {service : Str} {srv : Service} (rep : Represents view ctx v stack)
    (hdependent : Dependent v stack dependent) (fresh : service ∉ v.entered)
    (room : ctx.services.length < maxNumServices) (hsettings : view.settings service = .ok srv) :
    Represents view
      { ctx.add service srv with
        startOrder := addToStartOrder ctx.services.length dependent ctx.startOrder }
      { v with entered := v.entered ++ [service] } (service :: stack) := by
  have length : ctx.services.length = v.entered.length := by
    rw [← rep.names, List.length_map]
  have known : view.disabled service = srv.disabled := by
    simp [View.disabled, hsettings]
  exact
    { names := by simp [rep.names]
      disabled := by
        intro other hother
        rcases List.mem_append.mp hother with old | new
        · exact rep.disabled other old
        · obtain rfl := List.mem_singleton.mp new
          exact known
      room := by simpa using Nat.succ_le_of_lt room
      valid := rep.valid.enter fresh
      stack_nodup := List.nodup_cons.mpr ⟨fun h => fresh (rep.stack_entered h), rep.stack_nodup⟩
      stack_entered :=
        List.cons_subset.mpr ⟨by simp, List.subset_append_of_subset_left _ rep.stack_entered⟩
      stack_inside := by
        intro name hname
        rcases List.mem_cons.mp hname with rfl | hname
        · exact fun h => fresh (rep.valid.subset h)
        · exact rep.stack_inside name hname
      startOrder := by
        simp only [length]
        exact addToStartOrder_slots rep hdependent fresh (length ▸ room) }

/-- The context when all dependencies of the service at the top have been loaded. -/
theorem Represents.leave {view : View} {ctx : LoadContext} {v : Visit Str} {stack : List Str}
    {service : Str} (rep : Represents view ctx v (service :: stack))
    (enabled : view.disabled service = false) :
    Represents view ctx { v with left := v.left ++ [service] } stack := by
  obtain ⟨notBelow, nodup⟩ := List.nodup_cons.mp rep.stack_nodup
  obtain ⟨entered, below⟩ := List.cons_subset.mp rep.stack_entered
  exact
    { rep with
      valid := rep.valid.leave entered (rep.stack_inside service List.mem_cons_self)
      stack_nodup := nodup
      stack_entered := below
      stack_inside := by
        intro name hname
        simp only [List.mem_append, List.mem_singleton, not_or]
        refine ⟨rep.stack_inside name (List.mem_cons_of_mem _ hname), ?_⟩
        rintro rfl
        exact notBelow hname
      startOrder := by
        rw [rep.startOrder]
        simp [View.order, enabled] }

/-- The context after a disabled service was loaded: it is in the table only. -/
theorem Represents.skip {view : View} {ctx : LoadContext} {v : Visit Str} {stack : List Str}
    {service : Str} {srv : Service} (rep : Represents view ctx v stack)
    (fresh : service ∉ v.entered) (room : ctx.services.length < maxNumServices)
    (hsettings : view.settings service = .ok srv) (hdisabled : srv.disabled = true) :
    Represents view (ctx.add service srv)
      { entered := v.entered ++ [service], left := v.left ++ [service] } stack := by
  have known : view.disabled service = true := by
    simp [View.disabled, hsettings, hdisabled]
  have notLeft : service ∉ v.left := fun h => fresh (rep.valid.subset h)
  exact
    { names := by simp [rep.names]
      disabled := by
        intro other hother
        rcases List.mem_append.mp hother with old | new
        · exact rep.disabled other old
        · obtain rfl := List.mem_singleton.mp new
          exact known.trans hdisabled.symm
      room := by simpa using Nat.succ_le_of_lt room
      valid := (rep.valid.enter fresh).leave (by simp) notLeft
      stack_nodup := rep.stack_nodup
      stack_entered := List.subset_append_of_subset_left _ rep.stack_entered
      stack_inside := by
        intro name hname
        simp only [List.mem_append, List.mem_singleton, not_or]
        refine ⟨rep.stack_inside name hname, ?_⟩
        rintro rfl
        exact fresh (rep.stack_entered hname)
      startOrder := by
        have order : view.order { entered := v.entered ++ [service], left := v.left ++ [service] }
            stack = view.order v stack := by
          simp [View.order, known]
        rw [order, slots_append (View.order_subset rep.valid rep.stack_entered)]
        exact rep.startOrder }

/-- The index of a service does not change while others are loaded. -/
theorem idxOf_of_grows {entered entered' : List Str} (h : entered <+: entered') {service : Str}
    (hservice : service ∈ entered) : entered'.idxOf service = entered.idxOf service := by
  obtain ⟨rest, rfl⟩ := h
  exact List.idxOf_append_of_mem hservice

/-- The loop over a directory walks from the dependencies that count. -/
theorem loadDependencies_walk {view : View} {counted : Str → Str → Bool}
    (hview : ∀ cwd service dName n, view.depends cwd service dName n = .ok (counted service dName))
    {load : Str → Int → LoadContext → Outcome Str Unit × LoadContext}
    (hload : ∀ {name dependent ctx ctx' v stack}, Represents view ctx v stack →
      Dependent v stack dependent → load name dependent ctx = (.ok (), ctx') →
      ∃ v', Walk (view.next counted) [name] v v' ∧ Represents view ctx' v' stack)
    {service : Str} {sid : Nat} {entries : List DirEntry} {ctx ctx' : LoadContext}
    {v : Visit Str} {stack : List Str} (rep : Represents view ctx v (service :: stack))
    (hsid : sid = v.entered.idxOf service)
    (h : loadDependencies view load service sid entries ctx = (.ok (), ctx')) :
    ∃ v', Walk (view.next counted)
        ((entries.filter (fun entry => entry.isDep && counted service entry.dName)).map
          (fun entry => removeDepSuffix entry.dName)) v v' ∧
      Represents view ctx' v' (service :: stack) := by
  induction entries generalizing ctx v with
  | nil =>
      obtain rfl := (Prod.mk.inj h).2
      exact ⟨v, .nil v, rep⟩
  | cons entry entries ih =>
      rw [loadDependencies, hview] at h
      split at h
      · next notDep =>
          rw [List.filter_cons_of_neg (by simp [notDep])]
          exact ih rep hsid h
      · next isDep =>
          have rep' : Represents view
              (ctx.note service entry.dName (counted service entry.dName)) v (service :: stack) :=
            { rep with }
          obtain ⟨ctx₁, hfirst, hrest⟩ := goOn_eq_ok_iff.mp h
          cases isCounted : counted service entry.dName with
          | false =>
              rw [List.filter_cons_of_neg (by simp [isCounted])]
              rw [isCounted] at hfirst
              obtain rfl := (Prod.mk.inj hfirst).2
              rw [isCounted] at rep'
              exact ih rep' hsid hrest
          | true =>
              rw [List.filter_cons_of_pos (by simp_all)]
              rw [isCounted, if_pos rfl] at hfirst
              rw [isCounted] at rep'
              obtain ⟨v₁, first, rep₁⟩ := hload rep' (congrArg Int.ofNat hsid) hfirst
              have sid₁ : sid = v₁.entered.idxOf service :=
                hsid.trans (idxOf_of_grows first.entered_grows
                  (rep.stack_entered List.mem_cons_self)).symm
              obtain ⟨v₂, rest, rep₂⟩ := ih rep₁ sid₁ hrest
              exact ⟨v₂, first.append rest, rep₂⟩

/-- A loading that returns is a depth-first walk over the dependencies that count. -/
theorem loadWithDepth_walk {view : View} {counted : Str → Str → Bool}
    (hview : ∀ cwd service dName n, view.depends cwd service dName n = .ok (counted service dName))
    {depth : Nat} {service : Str} {dependent : Int} {ctx ctx' : LoadContext} {v : Visit Str}
    {stack : List Str} (rep : Represents view ctx v stack)
    (hdependent : Dependent v stack dependent)
    (h : loadWithDepth view depth service dependent ctx = (.ok (), ctx')) :
    ∃ v', Walk (view.next counted) [service] v v' ∧ Represents view ctx' v' stack := by
  induction depth generalizing service dependent ctx ctx' v stack with
  | zero => simp [loadWithDepth] at h
  | succ depth ih =>
      rw [loadWithDepth] at h
      split at h
      · simp at h
      · split at h
        · next sid found =>
            obtain rfl := (Prod.mk.inj h).2
            refine ⟨v, .again ?_ (.nil v), rep⟩
            rw [← rep.names]
            by_contra missing
            rw [findService_eq_none_iff.mpr missing] at found
            simp at found
        · next missing =>
            have fresh : service ∉ v.entered := by
              rw [← rep.names]
              exact findService_eq_none_iff.mp missing
            split at h
            · exact absurd (Prod.mk.inj h).1 (throwMessage_ne_ok _ _)
            · simp at h
            · next sid ctx₁ loaded =>
                obtain ⟨srv, hsettings, rfl, room, rfl⟩ := loadService_ok missing loaded
                have known : view.disabled service = srv.disabled := by
                  simp [View.disabled, hsettings]
                simp only [LoadContext.add_services, List.getElem?_concat_length, Option.map_some,
                  Option.getD_some] at h
                split at h
                · next hdisabled =>
                    obtain rfl := (Prod.mk.inj h).2
                    refine ⟨_, .enter (w := { v with entered := v.entered ++ [service] }) fresh ?_
                      (.nil _), rep.skip fresh room hsettings hdisabled⟩
                    rw [View.next, if_pos (known.trans hdisabled)]
                    exact .nil _
                · next enabled =>
                    have notDisabled : srv.disabled = false := by simpa using enabled
                    have entered := rep.enter hdependent fresh room hsettings
                    split at h
                    · exact absurd (Prod.mk.inj h).1 (throwMessage_ne_ok _ _)
                    · simp at h
                    · next entries hlisting =>
                        have hsid : ctx.services.length =
                            (v.entered ++ [service]).idxOf service := by
                          rw [List.idxOf_append_of_notMem fresh, ← rep.names]
                          simp
                        obtain ⟨w, inside, rep'⟩ := loadDependencies_walk hview
                          (fun rep dep run => ih rep dep run) entered hsid h
                        refine ⟨_, .enter fresh ?_ (.nil _), rep'.leave (known.trans notDisabled)⟩
                        rw [View.next, if_neg (by simp [known, notDisabled]), View.entries,
                          hlisting]
                        exact inside

/-- Nothing can fail while the services of a list are loaded. -/
structure Loadable (view : View) (counted : Str → Str → Bool) (nodes : List Str) : Prop where
  length : nodes.length ≤ maxNumServices
  named : ∀ s ∈ nodes, s ≠ [] ∧ s.length < serviceNameSize
  chdir : ∀ s ∈ nodes, view.chdirToService s = .ok ()
  settings : ∀ s ∈ nodes, ∃ srv, view.settings s = .ok srv
  listing : ∀ s ∈ nodes, ∃ entries, view.listing s = .ok entries
  depends : ∀ cwd service dName n,
    view.depends cwd service dName n = .ok (counted service dName)
  closed : ∀ s ∈ nodes, ∀ entry ∈ view.entries s, entry.isDep = true →
    counted s entry.dName = true → removeDepSuffix entry.dName ∈ nodes

/-- Every service of the table is on the list, once. -/
structure Within (nodes : List Str) (ctx : LoadContext) : Prop where
  nodup : (ctx.services.map Service.name).Nodup
  subset : ctx.services.map Service.name ⊆ nodes

theorem Within.length_le {nodes : List Str} {ctx : LoadContext} (h : Within nodes ctx) :
    ctx.services.length ≤ nodes.length := by
  have := (List.subperm_of_subset h.nodup h.subset).length_le
  simpa using this

theorem Within.append {nodes : List Str} {ctx : LoadContext} {service : Str}
    (h : Within nodes ctx) (hservice : service ∈ nodes)
    (fresh : findService ctx.services service = none) (srv : Service) :
    Within nodes (ctx.add service srv) := by
  have missing := findService_eq_none_iff.mp fresh
  refine { nodup := ?_, subset := ?_ }
  · rw [LoadContext.add_services, List.map_append]
    exact List.nodup_append_comm.mp (List.nodup_cons.mpr ⟨missing, h.nodup⟩)
  · rw [LoadContext.add_services, List.map_append]
    exact List.append_subset.mpr ⟨h.subset, by simpa using hservice⟩

theorem loadDependencies_returns {view : View} {counted : Str → Str → Bool} {nodes : List Str}
    (able : Loadable view counted nodes)
    {load : Str → Int → LoadContext → Outcome Str Unit × LoadContext} {least : Nat}
    (hload : ∀ {name} dependent {ctx}, name ∈ nodes → Within nodes ctx →
      least ≤ ctx.services.length →
      ∃ ctx', load name dependent ctx = (.ok (), ctx') ∧ Within nodes ctx' ∧
        ctx.services.length ≤ ctx'.services.length)
    {service : Str} (sid : Nat) {entries : List DirEntry}
    (hentries : ∀ entry ∈ entries, entry.isDep = true → counted service entry.dName = true →
      removeDepSuffix entry.dName ∈ nodes)
    {ctx : LoadContext} (within : Within nodes ctx) (hleast : least ≤ ctx.services.length) :
    ∃ ctx', loadDependencies view load service sid entries ctx = (.ok (), ctx') ∧
      Within nodes ctx' ∧ ctx.services.length ≤ ctx'.services.length := by
  induction entries generalizing ctx with
  | nil => exact ⟨ctx, rfl, within, Nat.le_refl _⟩
  | cons entry entries ih =>
      have others := fun {ctx : LoadContext} (within : Within nodes ctx) =>
        ih (fun e he => hentries e (List.mem_cons_of_mem _ he)) within
      have noted : ∀ b, Within nodes (ctx.note service entry.dName b) := fun _ =>
        { within with }
      rw [loadDependencies, able.depends]
      cases isDep : entry.isDep with
      | false => exact others within hleast
      | true =>
          cases isCounted : counted service entry.dName with
          | false =>
              exact others (noted false) hleast
          | true =>
              obtain ⟨ctx₁, first, within₁, longer₁⟩ := hload sid
                (hentries entry List.mem_cons_self isDep isCounted) (noted true) hleast
              obtain ⟨ctx₂, rest, within₂, longer₂⟩ := others within₁ (Nat.le_trans hleast longer₁)
              exact ⟨ctx₂, goOn_eq_ok_iff.mpr ⟨ctx₁, first, rest⟩, within₂,
                Nat.le_trans longer₁ longer₂⟩

theorem loadService_returns {view : View} {counted : Str → Str → Bool} {nodes : List Str}
    (able : Loadable view counted nodes) {service : Str} {ctx : LoadContext} {srv : Service}
    (hservice : service ∈ nodes) (fresh : findService ctx.services service = none)
    (room : ctx.services.length < maxNumServices) (hsettings : view.settings service = .ok srv) :
    loadService view service ctx = (.ok ctx.services.length, ctx.add service srv) := by
  obtain ⟨hne, hshort⟩ := able.named service hservice
  simp only [loadService, if_neg hne, fresh, if_neg (Nat.not_le.mpr hshort),
    able.chdir service hservice, if_neg (Nat.not_le.mpr room), hsettings]

/-- While every service of the list can be loaded, loading one of them returns, whatever depends
on what. -/
theorem loadWithDepth_returns {view : View} {counted : Str → Str → Bool} {nodes : List Str}
    (able : Loadable view counted nodes) {depth : Nat} {service : Str} (dependent : Int)
    {ctx : LoadContext} (hservice : service ∈ nodes) (within : Within nodes ctx)
    (hdepth : maxNumServices < depth + ctx.services.length) :
    ∃ ctx', loadWithDepth view depth service dependent ctx = (.ok (), ctx') ∧
      Within nodes ctx' ∧ ctx.services.length ≤ ctx'.services.length := by
  induction depth generalizing service dependent ctx with
  | zero =>
      have := within.length_le
      have := able.length
      omega
  | succ depth ih =>
      obtain ⟨hne, hshort⟩ := able.named service hservice
      rw [loadWithDepth, if_neg hne]
      cases found : findService ctx.services service with
      | some sid => exact ⟨ctx, rfl, within, Nat.le_refl _⟩
      | none =>
          obtain ⟨srv, hsettings⟩ := able.settings service hservice
          obtain ⟨entries, hlisting⟩ := able.listing service hservice
          have grown := within.append hservice found srv
          have room : ctx.services.length < maxNumServices := by
            have longer := Nat.le_trans grown.length_le able.length
            rw [LoadContext.add_services, List.length_append, List.length_singleton] at longer
            exact longer
          simp only [loadService_returns able hservice found room hsettings,
            LoadContext.add_services, List.getElem?_concat_length, Option.map_some,
              Option.getD_some, hlisting]
          by_cases hdisabled : srv.disabled = true
          · rw [if_pos hdisabled]
            exact ⟨_, rfl, grown, by simp⟩
          · rw [if_neg hdisabled]
            have closed := able.closed service hservice
            rw [View.entries, hlisting] at closed
            have nested : ∀ {name} (dependent : Int) {ctx₁ : LoadContext}, name ∈ nodes →
                Within nodes ctx₁ → ctx.services.length + 1 ≤ ctx₁.services.length →
                ∃ ctx₂, loadWithDepth view depth name dependent ctx₁ = (.ok (), ctx₂) ∧
                  Within nodes ctx₂ ∧ ctx₁.services.length ≤ ctx₂.services.length :=
              fun dependent _ hname within hleast => ih dependent hname within (by omega)
            have started : Within nodes
                { ctx.add service srv with
                  startOrder := addToStartOrder ctx.services.length dependent ctx.startOrder } :=
              { grown with }
            have longer : ctx.services.length + 1 ≤ (ctx.add service srv).services.length := by
              simp
            obtain ⟨ctx', run, within', longer'⟩ :=
              loadDependencies_returns able nested ctx.services.length closed started longer
            exact ⟨ctx', run, within', Nat.le_trans (Nat.le_of_succ_le longer) longer'⟩

/-- A dependency graph of services: for each service the dependencies the loading loop sees, in
the order it sees them. Services may be disabled, and there may be cycles. -/
structure DependencyGraph where
  nodes : List Str
  deps : Str → List Str
  disabled : Str → Bool
  length : nodes.length ≤ maxNumServices
  named : ∀ s ∈ nodes, s ≠ [] ∧ s.length < serviceNameSize
  closed : ∀ s ∈ nodes, ∀ t ∈ deps s, t ∈ nodes

/-- The name of the file that declares a dependency. -/
def depFile (t : Str) : Str := t ++ ".dep".toList

/-- Loading on a dependency graph: every dependency is declared by a file that counts. -/
def DependencyGraph.view (g : DependencyGraph) : View :=
  { chdirToService := fun _ => .ok ()
    settings := fun s => .ok { Service.init {} s with disabled := g.disabled s }
    listing := fun s =>
      .ok ((g.deps s).map (fun t => { dName := depFile t, isReg := true, node := none }))
    depends := fun _ _ _ _ => .ok true }

/-- The dependencies that are followed: those of services that are not disabled. -/
def DependencyGraph.followed (g : DependencyGraph) (s : Str) : List Str :=
  if g.disabled s then [] else g.deps s

theorem removeDepSuffix_depFile (t : Str) : removeDepSuffix (depFile t) = t := by
  simp [removeDepSuffix, depFile]

theorem isDep_depFile (t : Str) (node : Option Node) :
    DirEntry.isDep { dName := depFile t, isReg := true, node := node } = true := by
  have long : 4 ≤ (depFile t).length := by simp [depFile]
  have notDot : depFile t ≠ ".".toList := fun h => absurd (h ▸ long) (by decide)
  have notDots : depFile t ≠ "..".toList := fun h => absurd (h ▸ long) (by decide)
  have suffix : endsWith (depFile t) ".dep".toList = true := by simp [endsWith, depFile]
  simp only [DirEntry.isDep, suffix, ne_eq, notDot, notDots, not_false_eq_true, decide_true,
    Bool.and_self]

theorem DependencyGraph.next_eq (g : DependencyGraph) (s : Str) :
    g.view.next (fun _ _ => true) s = g.followed s := by
  have all : g.view.entries s =
      (g.deps s).map (fun t => { dName := depFile t, isReg := true, node := none }) := rfl
  have kept : ∀ entry ∈ g.view.entries s, (entry.isDep && true) = true := by
    rw [all]
    intro entry hentry
    obtain ⟨t, -, rfl⟩ := List.mem_map.mp hentry
    rw [isDep_depFile, Bool.and_self]
  have names : (g.view.entries s).map (fun entry => removeDepSuffix entry.dName) = g.deps s := by
    rw [all, List.map_map]
    exact (List.map_congr_left (fun t _ => removeDepSuffix_depFile t)).trans (List.map_id _)
  rw [View.next, List.filter_eq_self.mpr kept, names]
  rfl

theorem DependencyGraph.loadable (g : DependencyGraph) :
    Loadable g.view (fun _ _ => true) g.nodes :=
  { length := g.length
    named := g.named
    chdir := fun _ _ => rfl
    settings := fun _ _ => ⟨_, rfl⟩
    listing := fun _ _ => ⟨_, rfl⟩
    depends := fun _ _ _ _ => rfl
    closed := by
      intro s hs entry hentry _ _
      obtain ⟨t, ht, rfl⟩ := List.mem_map.mp hentry
      rw [removeDepSuffix_depFile]
      exact g.closed s hs t ht }

/-- The empty table represents a walk that has not begun. -/
theorem represents_empty (view : View) (cwd : Str) : Represents view { cwd := cwd } {} [] :=
  { names := rfl
    disabled := by simp
    room := Nat.zero_le _
    valid := valid_empty
    stack_nodup := List.nodup_nil
    stack_entered := List.Subset.refl _
    stack_inside := by simp
    startOrder := rfl }

/-- The service at some position of the start order. -/
def StartedAt (ctx : LoadContext) (position : Nat) (s : Str) : Prop :=
  ∃ sid srv, ctx.startOrder[position]? = some (Int.ofNat sid) ∧ ctx.services[sid]? = some srv ∧
    srv.name = s

/-- A service that has been entered has an entry, at the index of its name. -/
theorem Represents.entry {view : View} {ctx : LoadContext} {v : Visit Str} {stack : List Str}
    (rep : Represents view ctx v stack) {name : Str} (hname : name ∈ v.entered) :
    ∃ srv, ctx.services[v.entered.idxOf name]? = some srv ∧ srv.name = name ∧
      srv.disabled = view.disabled name := by
  have here := List.getElem?_idxOf hname
  rw [← rep.names, List.getElem?_map, Option.map_eq_some_iff] at here
  obtain ⟨srv, found, rfl⟩ := here
  rw [rep.names] at found
  exact ⟨srv, found, rfl, (rep.disabled srv (List.mem_of_getElem? found)).symm⟩

theorem Represents.index {view : View} {ctx : LoadContext} {v : Visit Str} {stack : List Str}
    (rep : Represents view ctx v stack) {sid : Nat} {srv : Service}
    (found : ctx.services[sid]? = some srv) :
    srv.name ∈ v.entered ∧ v.entered.idxOf srv.name = sid := by
  have here : v.entered[sid]? = some srv.name := by
    rw [← rep.names, List.getElem?_map, found, Option.map_some]
  obtain ⟨hlt, hget⟩ := List.getElem?_eq_some_iff.mp here
  refine ⟨List.mem_of_getElem? here, ?_⟩
  rw [← hget]
  exact rep.valid.entered.idxOf_getElem sid hlt

/-- A service of a complete start order stands at the position of its name in the order. -/
theorem Represents.startedAt {view : View} {ctx : LoadContext} {v : Visit Str} {s : Str}
    {before after : List Str} (rep : Represents view ctx v [])
    (horder : v.left.filter (fun name => !view.disabled name) = before ++ s :: after) :
    StartedAt ctx before.length s := by
  have hs : s ∈ v.left.filter (fun name => !view.disabled name) := by simp [horder]
  obtain ⟨srv, found, hname, -⟩ := rep.entry (rep.valid.subset (List.mem_filter.mp hs).1)
  refine ⟨v.entered.idxOf s, srv, ?_, found, hname⟩
  rw [rep.startOrder, View.order, List.append_nil, horder, slots, List.map_append,
    List.append_assoc, List.getElem?_append_right (by simp)]
  simp

/-- The services of a complete start order: those that are not disabled, each once. -/
theorem Represents.order_complete {view : View} {ctx : LoadContext} {v : Visit Str}
    (rep : Represents view ctx v []) (hleft : v.left.Perm v.entered) :
    ∃ order : List Nat,
      ctx.startOrder = order.map Int.ofNat ++ List.replicate (maxNumServices - order.length) (-1) ∧
      order.length ≤ maxNumServices ∧ order.Nodup ∧
      ∀ sid, sid ∈ order ↔ ∃ srv, ctx.services[sid]? = some srv ∧ srv.disabled = false := by
  have entered : ∀ name ∈ v.left.filter (fun name => !view.disabled name), name ∈ v.entered :=
    fun name hname => rep.valid.subset (List.mem_filter.mp hname).1
  have short : (view.order v []).length ≤ maxNumServices := by
    have length : v.entered.length = ctx.services.length := by rw [← rep.names, List.length_map]
    exact Nat.le_trans (length ▸ rep.order_length) rep.room
  have nodup := rep.order_nodup
  simp only [View.order, List.append_nil] at short nodup
  refine ⟨(v.left.filter (fun name => !view.disabled name)).map v.entered.idxOf, ?_, ?_, ?_, ?_⟩
  · rw [rep.startOrder, View.order, List.append_nil, slots, List.map_map, List.length_map]
    rfl
  · rw [List.length_map]
    exact short
  · refine nodup.map_on ?_
    intro x hx y hy same
    exact (List.idxOf_inj (entered x hx)).mp same
  · intro sid
    constructor
    · intro hsid
      obtain ⟨name, hname, rfl⟩ := List.mem_map.mp hsid
      obtain ⟨srv, found, -, disabled⟩ := rep.entry (entered name hname)
      refine ⟨srv, found, ?_⟩
      rw [disabled]
      simpa using (List.mem_filter.mp hname).2
    · rintro ⟨srv, found, enabled⟩
      obtain ⟨hname, index⟩ := rep.index found
      have known := rep.disabled srv (List.mem_of_getElem? found)
      refine List.mem_map.mpr ⟨srv.name, List.mem_filter.mpr ⟨hleft.mem_iff.mpr hname, ?_⟩, index⟩
      rw [known, enabled]
      rfl

theorem DependencyGraph.followed_acyclic {g : DependencyGraph} (acyclic : Acyclic g.deps) :
    Acyclic g.followed := by
  have weaker : ∀ a b, Step g.followed a b → Step g.deps a b := by
    intro a b step
    simp only [Step, DependencyGraph.followed] at step
    split at step
    · simp at step
    · exact step
  intro s cycle
  exact acyclic s (Relation.TransGen.mono weaker s s cycle)

/-- The law of the start order. From a service of any graph, possibly with cycles, loading
returns; it loads the services that can be reached, each once; and the start order consists of
the loaded services that are not disabled, each once, followed by free slots only. When the graph
is acyclic, every dependency stands before the services that depend on it. -/
theorem loadServiceWithDeps_startOrder (g : DependencyGraph) {root : Str} (hroot : root ∈ g.nodes)
    (cwd : Str) :
    ∃ ctx, loadServiceWithDeps g.view root (-1) { cwd := cwd } = (.ok (), ctx) ∧
      (ctx.services.map Service.name).Nodup ∧
      (∀ s, s ∈ ctx.services.map Service.name ↔ Reach g.followed root s) ∧
      (∃ order : List Nat,
        ctx.startOrder =
          order.map Int.ofNat ++ List.replicate (maxNumServices - order.length) (-1) ∧
        order.length ≤ maxNumServices ∧ order.Nodup ∧
        ∀ sid, sid ∈ order ↔ ∃ srv, ctx.services[sid]? = some srv ∧ srv.disabled = false) ∧
      (Acyclic g.deps → ∀ s t, s ∈ ctx.services.map Service.name → g.disabled s = false →
        t ∈ g.deps s → g.disabled t = false →
        ∃ i j, i < j ∧ StartedAt ctx i t ∧ StartedAt ctx j s) := by
  have empty : Within g.nodes { cwd := cwd } := { nodup := List.nodup_nil, subset := by simp }
  obtain ⟨ctx, run, within, -⟩ :=
    loadWithDepth_returns g.loadable (-1) hroot empty (Nat.lt_succ_self maxNumServices)
  obtain ⟨v, walk, rep⟩ := loadWithDepth_walk g.loadable.depends (represents_empty g.view cwd)
    (rfl : Dependent {} [] (-1)) run
  have next : g.view.next (fun _ _ => true) = g.followed := funext g.next_eq
  rw [next] at walk
  refine ⟨ctx, run, within.nodup, ?_, rep.order_complete walk.left_perm, ?_⟩
  · intro s
    rw [rep.names]
    exact walk.entered_iff_reach s
  · intro acyclic s t hs enabled ht tEnabled
    rw [rep.names, ← walk.left_perm.mem_iff] at hs
    obtain ⟨before, after, hcut⟩ := List.append_of_mem hs
    have first : t ∈ before := by
      refine walk.left_ordered (DependencyGraph.followed_acyclic acyclic) before s after hcut t ?_
      simpa [DependencyGraph.followed, enabled] using ht
    obtain ⟨start, middle, rfl⟩ := List.append_of_mem first
    have keepS : (!g.view.disabled s) = true := by simpa [View.disabled, DependencyGraph.view]
    have keepT : (!g.view.disabled t) = true := by simpa [View.disabled, DependencyGraph.view]
    have order : v.left.filter (fun name => !g.view.disabled name) =
        start.filter (fun name => !g.view.disabled name) ++
          t :: (middle.filter (fun name => !g.view.disabled name) ++
            s :: after.filter (fun name => !g.view.disabled name)) := by
      simp [hcut, keepS, keepT]
    have upToS := order
    rw [← List.cons_append, ← List.append_assoc] at upToS
    refine ⟨_, _, ?_, rep.startedAt order, rep.startedAt upToS⟩
    simp

/-- Two services that share a dependency, and a disabled one. -/
def diamond : DependencyGraph :=
  { nodes := ["default".toList, "app".toList, "xvnc".toList, "certs".toList, "nginx".toList]
    deps := fun s =>
      if s = "default".toList then ["app".toList, "xvnc".toList, "nginx".toList]
      else if s = "app".toList then ["xvnc".toList]
      else if s = "xvnc".toList then ["certs".toList]
      else []
    disabled := fun s => s = "nginx".toList
    length := by decide
    named := by decide
    closed := by decide }

/-- Loading the diamond returns, with the disabled service in the table only. -/
theorem loadServiceWithDeps_startOrder_diamond :
    ∃ ctx, loadServiceWithDeps diamond.view "default".toList (-1) { cwd := "/".toList } =
        (.ok (), ctx) ∧
      (ctx.services.map Service.name).Nodup := by
  have known : "default".toList ∈ diamond.nodes := by decide
  obtain ⟨ctx, run, nodup, -⟩ := loadServiceWithDeps_startOrder diamond known "/".toList
  exact ⟨ctx, run, nodup⟩

example :
    (loadServiceWithDeps diamond.view "default".toList (-1) {}).2.startOrder.take 5 =
      [3, 2, 1, 0, -1] := by
  decide +kernel

end Baseimage.Cinit
