import Baseimage.Cinit.BringUp

/-!
# Services come up one after the other

The start-up goes through the start order, in which no service has two places, and comes to a
service only when all the services before it have come up. A service may instead have failed, when
its failures are to be ignored. When a shutdown is requested nothing more is started.
-/

namespace Baseimage.Cinit

open Script Supervisor Code

/-! ## No service has two places in the start order -/

/-- The entries of the start order are different entries of the table. -/
structure Placed (ctx : LoadContext) : Prop where
  nodup : (ctx.startOrder.filter (0 ≤ ·)).Nodup
  used : ∀ x ∈ ctx.startOrder, x < ctx.services.length

theorem addToStartOrder_nodup {service before : Int} (used : 0 ≤ service) {xs : List Int}
    (fresh : service ∉ xs) (nodup : (xs.filter (0 ≤ ·)).Nodup) :
    ((addToStartOrder service before xs).filter (0 ≤ ·)).Nodup := by
  have front {ys : List Int} (sub : List.Sublist ys xs) :
      ((service :: ys).filter (0 ≤ ·)).Nodup := by
    rw [List.filter_cons_of_pos (by simpa using used)]
    refine List.nodup_cons.mpr ⟨fun member => ?_, nodup.sublist (sub.filter _)⟩
    exact fresh (sub.subset (List.mem_filter.mp member).1)
  induction xs with
  | nil => exact nodup
  | cons x xs ih =>
      obtain ⟨other, fresh'⟩ := not_or.mp (mt List.mem_cons.mpr fresh)
      rw [addToStartOrder]
      split
      · exact front (List.sublist_cons_self x xs)
      · split
        · exact front (List.dropLast_sublist (x :: xs))
        · have nodup' : (xs.filter (0 ≤ ·)).Nodup :=
            nodup.sublist ((List.sublist_cons_self x xs).filter _)
          have tail := ih fresh' nodup' fun sub => front (sub.cons x)
          by_cases nonneg : 0 ≤ x
          · rw [List.filter_cons_of_pos (by simpa using nonneg)] at nodup ⊢
            refine List.nodup_cons.mpr ⟨fun member => ?_, tail⟩
            obtain ⟨listed, -⟩ := List.mem_filter.mp member
            rcases mem_addToStartOrder listed with same | old
            · exact other same.symm
            · exact (List.nodup_cons.mp nodup).1 (List.mem_filter.mpr ⟨old, by simpa using nonneg⟩)
          · rw [List.filter_cons_of_neg (by simpa using nonneg)]
            exact tail

theorem Placed.of_same {ctx ctx' : LoadContext} (h : Placed ctx)
    (order : ctx'.startOrder = ctx.startOrder) (grown : Grows ctx ctx') : Placed ctx' where
  nodup := order ▸ h.nodup
  used x member := by
    have := h.used x (order ▸ member)
    have := grown.services
    omega

/-- A service has one place at most. -/
theorem Placed.count_le_one {ctx : LoadContext} (h : Placed ctx) (sid : Nat) :
    ctx.startOrder.count (sid : Int) ≤ 1 := by
  have placed := List.nodup_iff_count_le_one.mp h.nodup sid
  rwa [List.count_filter (by simp)] at placed

/-- A failed `load_service` leaves the start order as it was, and so does one that succeeds. -/
theorem loadService_startOrder (view : View) (service : Str) (ctx : LoadContext) :
    (loadService view service ctx).2.startOrder = ctx.startOrder := by
  unfold loadService
  split
  · rfl
  · split
    · rfl
    · split
      · rfl
      · split
        · rfl
        · rfl
        · split
          · rfl
          · split <;> rfl

theorem loadWithDepth_placed (view : View) (depth : Nat) (service : Str) (dependent : Int)
    {ctx : LoadContext} (h : Placed ctx) :
      Placed (loadWithDepth view depth service dependent ctx).2 := by
  have noted : ∀ ctx service dName depends,
      view.depends ctx.cwd service dName ctx.checks.length = .ok depends → Placed ctx →
        Placed (ctx.note service dName depends) :=
    fun ctx service dName depends _ h => h.of_same rfl (ctx.note_grows service dName depends)
  induction depth generalizing service dependent ctx with
  | zero => exact h
  | succ depth ih =>
      have loaded := h.of_same (loadService_startOrder view service ctx)
        (loadService_grows view service ctx)
      rw [loadWithDepth]
      split
      · exact h
      · split
        · exact h
        · next fresh =>
            split
            · next run => rwa [run] at loaded
            · next run => rwa [run] at loaded
            · next sid ctx' run =>
                rw [run] at loaded
                obtain ⟨srv, -, rfl, -, rfl⟩ := loadService_ok fresh run
                split
                · exact loaded
                · have ordered : Placed { ctx.add service srv with
                      startOrder := addToStartOrder ctx.services.length dependent
                        (ctx.add service srv).startOrder } := by
                    -- The new entry is the last one, so it has no place yet.
                    refine { nodup := addToStartOrder_nodup (by omega) ?_ loaded.nodup, used := ?_ }
                    · exact fun listed => Int.lt_irrefl _ (h.used _ listed)
                    · intro x member
                      rcases mem_addToStartOrder member with rfl | old
                      · simp
                      · exact loaded.used x old
                  simp only
                  split
                  · exact ordered
                  · exact ordered
                  · exact loadDependencies_keeps noted (fun _ _ _ => ih _ _) service _ _ ordered

theorem loadDefault_placed (view : View) (cwd : Str) : Placed (loadDefault view cwd).2 := by
  apply loadWithDepth_placed
  refine { nodup := ?_, used := fun x member => ?_ }
  · rw [List.filter_eq_nil_iff.mpr fun x member => ?_]
    · exact List.nodup_nil
    · rw [List.eq_of_mem_replicate member]
      decide
  · rw [List.eq_of_mem_replicate member]
    simp

/-! ## The start order -/

section Order

variable (loaded : Nat → Service)

/-- The service does not have to come up, or it came up. -/
def Provided (past : List Answer) (history : List Event) (sid : Nat) : Prop :=
  (loaded sid).isServiceGroup = true ∨ (loaded sid).ignoreFailure = true ∨
    ∃ pid taken, taken <:+: past ∧ .forked sid pid ∈ history ∧ CameUp (loaded sid) pid taken

/-- A service is only forked when the services before it are provided. -/
def ForkedInOrder (order : List Int) (past : List Answer) (history : List Event) : Prop :=
  ∀ dep sid : Nat, [(dep : Int), (sid : Int)].Sublist order → .forking sid ∈ history →
    Provided loaded past history dep

/-- What holds between two turns: the services in front have had theirs. -/
structure Between (count : Nat) (front rest : List Int) (past : List Answer) (s : Supervisor) :
    Prop where
  consistent : Consistent s
  length : s.services.length = count
  settings : ∀ i, s.ledger.settings i = loaded i
  down : ∀ i : Nat, (i : Int) ∈ rest → (s.srv i).pid = 0
  forks : ∀ i : Nat, .forking i ∈ s.history → (i : Int) ∈ front
  provided : ∀ i : Nat, (i : Int) ∈ front → s.doShutdown = true ∨ Provided loaded past s.history i
  inOrder : ForkedInOrder loaded front past s.history

variable {loaded} {count : Nat} {front rest : List Int} {past past' : List Answer}
variable {history history' : List Event} {s t : Supervisor}

theorem Provided.mono {sid : Nat} (h : Provided loaded past history sid) (more : past <+: past')
    (grown : history <:+ history') : Provided loaded past' history' sid := by
  rcases h with group | ignored | ⟨pid, taken, within, forked, up⟩
  · exact .inl group
  · exact .inr (.inl ignored)
  · exact .inr (.inr ⟨pid, taken, within.trans more.isInfix, grown.subset forked, up⟩)

theorem sublist_of_append {d x : Int} (h : [d, x].Sublist (front ++ rest)) (other : x ∉ rest) :
    [d, x].Sublist front := by
  obtain ⟨l₁, l₂, split, first, second⟩ := List.sublist_append_iff.mp h
  cases l₂ using List.reverseRecOn with
  | nil =>
      rw [split, List.append_nil]
      exact first
  | append_singleton l₂ y =>
      have last : x = y := by
        have := congrArg List.getLast? split
        simpa using this
      exact absurd (second.subset (by simp [last])) other

/-- Nodup as far as the entries of the table go. -/
theorem not_mem_of_nodup {sid : Nat} {x y : List Int} (nodup : ((x ++ y).filter (0 ≤ ·)).Nodup)
    (member : (sid : Int) ∈ x) : (sid : Int) ∉ y := by
  intro again
  rw [List.filter_append] at nodup
  have inFront : (sid : Int) ∈ x.filter (0 ≤ ·) := List.mem_filter.mpr ⟨member, by simp⟩
  have inBack : (sid : Int) ∈ y.filter (0 ≤ ·) := List.mem_filter.mpr ⟨again, by simp⟩
  exact (List.disjoint_of_nodup_append nodup) inFront inBack

/-- What holds at the end of the start-up. -/
theorem Between.forkedInOrder (h : Between loaded count front rest past s)
    (nodup : ((front ++ rest).filter (0 ≤ ·)).Nodup) :
    ForkedInOrder loaded (front ++ rest) past s.history := by
  intro dep sid before forking
  exact h.inOrder dep sid (sublist_of_append before (not_mem_of_nodup nodup (h.forks sid forking)))
    forking

/-- The turn of a service begins. -/
theorem Between.turn {sid : Nat} (h : Between loaded count front (sid :: rest) past s) :
    Turn loaded count rest sid s.history s where
  consistent := h.consistent
  length := h.length
  settings := h.settings
  down i later := h.down i (List.mem_cons_of_mem _ later)
  grown := List.suffix_rfl
  forks _ forking := .inr forking

/-- More was answered meanwhile. -/
theorem Between.more (h : Between loaded count front rest past s) (more : past <+: past') :
    Between loaded count front rest past' s :=
  { h with
    provided := fun i member =>
      (h.provided i member).imp_right fun provided => provided.mono more List.suffix_rfl
    inOrder := fun dep sid before forking =>
      (h.inOrder dep sid before forking).mono more List.suffix_rfl }

/-- A service group has no turn of its own. -/
theorem Between.group {sid : Nat} (h : Between loaded count front (sid :: rest) past s)
    (group : (loaded sid).isServiceGroup = true)
    (nodup : ((front ++ (sid : Int) :: rest).filter (0 ≤ ·)).Nodup) :
    Between loaded count (front ++ [(sid : Int)]) rest past s where
  consistent := h.consistent
  length := h.length
  settings := h.settings
  down i later := h.down i (List.mem_cons_of_mem _ later)
  forks i forking := List.mem_append_left _ (h.forks i forking)
  provided i member := by
    rcases List.mem_append.mp member with earlier | last
    · exact h.provided i earlier
    · obtain rfl : i = sid := Int.ofNat.inj (List.mem_singleton.mp last)
      exact .inr (.inl group)
  inOrder dep i before forking := by
    refine h.forkedInOrder nodup dep i (before.trans ?_) forking
    simp

/-- Whatever happens in the turn of a service, nothing is forked out of order. -/
theorem Between.during {sid : Nat} (h : Between loaded count front (sid :: rest) past s)
    (notRequested : s.doShutdown = false)
    (nodup : ((front ++ (sid : Int) :: rest).filter (0 ≤ ·)).Nodup)
    (ht : During (Turn loaded count rest sid s.history) past past' t) :
    ForkedInOrder loaded (front ++ (sid : Int) :: rest) past' t.history := by
  intro dep i before forking
  rcases ht.2.forks i forking with rfl | old
  · -- The service itself: all the others in front are provided.
    have earlier : (dep : Int) ∈ front := by
      have split : front ++ (i : Int) :: rest = (front ++ [(i : Int)]) ++ rest := by simp
      rw [split] at before nodup
      have later := sublist_of_append before (not_mem_of_nodup nodup (by simp))
      have reversed := later.reverse.tail
      simpa using reversed
    rcases h.provided dep earlier with requested | provided
    · exact absurd (requested.symm.trans notRequested) (by decide)
    · exact provided.mono ht.1 ht.2.grown
  · exact (h.forkedInOrder nodup dep i before old).mono ht.1 ht.2.grown

/-- The turn of a service is over: it is provided, or a shutdown is requested. -/
theorem Between.next {sid : Nat} (h : Between loaded count front (sid :: rest) past s)
    (notRequested : s.doShutdown = false)
    (nodup : ((front ++ (sid : Int) :: rest).filter (0 ≤ ·)).Nodup)
    (ht : During (Turn loaded count rest sid s.history) past past' t)
    (own : t.doShutdown = true ∨ Provided loaded past' t.history sid) :
    Between loaded count (front ++ [(sid : Int)]) rest past' t where
  consistent := ht.2.consistent
  length := ht.2.length
  settings := ht.2.settings
  down := ht.2.down
  forks i forking := by
    rcases ht.2.forks i forking with rfl | old
    · simp
    · exact List.mem_append_left _ (h.forks i old)
  provided i member := by
    rcases List.mem_append.mp member with earlier | last
    · rcases h.provided i earlier with requested | provided
      · exact absurd (requested.symm.trans notRequested) (by decide)
      · exact .inr (provided.mono ht.1 ht.2.grown)
    · obtain rfl : i = sid := Int.ofNat.inj (List.mem_singleton.mp last)
      exact own
  inOrder dep i before forking := by
    refine h.during notRequested nodup ht dep i (before.trans ?_) forking
    simp

/-- What the start-up knows about its services. -/
theorem startFailed_told {sid : Nat} {P : List Answer → Supervisor → Prop}
    (settings : ∀ past s, P past s → (s.srv sid).settings = loaded sid) (message : Str) :
    Told P (startFailed sid message)
      (fun _ past s => P past s ∧ (loaded sid).ignoreFailure = true) (fun _ => P) P := by
  refine Told.bind (srv_told sid) fun service => ?_
  refine Told.ite (fun ignored => Told.pure ?_) fun _ => throwMessage_told _ (fun _ _ hs => hs.1)
    fun _ _ hs => hs.1
  rintro past s ⟨hs, rfl⟩
  rw [settings past s hs] at ignored
  exact ⟨hs, ignored⟩

/-- The turn of a service that is not a group. -/
theorem turn_told {sid : Nat} (used : sid < count)
    (nodup : ((front ++ (sid : Int) :: rest).filter (0 ≤ ·)).Nodup)
    (hs : Between loaded count front (sid :: rest) past s) (notRequested : s.doShutdown = false) :
    Told (fun past' t => past' = past ∧ t = s) (tryCatch (bringUp sid) (startFailed sid))
      (fun _ => Between loaded count (front ++ [(sid : Int)]) rest)
      (fun _ past s => ForkedInOrder loaded (front ++ (sid : Int) :: rest) past s.history)
      fun past s => ForkedInOrder loaded (front ++ (sid : Int) :: rest) past s.history := by
  have own : (sid : Int) ∉ rest := by
    have split : front ++ (sid : Int) :: rest = (front ++ [(sid : Int)]) ++ rest := by simp
    exact not_mem_of_nodup (split ▸ nodup) (by simp)
  have during : ∀ past' t, During (Turn loaded count rest sid s.history) past past' t →
      ForkedInOrder loaded (front ++ (sid : Int) :: rest) past' t.history :=
    fun _ _ ht => hs.during notRequested nodup ht
  refine Told.tryCatch (T := fun _ => During (Turn loaded count rest sid s.history) past) ?_
    fun message => ?_
  · refine (bringUp_told used own).consequence ?_ ?_ (fun _ _ _ ht => ht) during
    · rintro _ _ ⟨rfl, rfl⟩
      exact ⟨rfl, hs.turn, hs.down sid List.mem_cons_self⟩
    · rintro _ past' t ⟨ht, requested | ⟨pid, taken, rfl, forked, up⟩⟩
      · exact hs.next notRequested nodup ht (.inl requested)
      · have within : taken <:+: past ++ taken := (List.suffix_append past taken).isInfix
        exact hs.next notRequested nodup ht (.inr (.inr (.inr ⟨pid, taken, within, forked, up⟩)))
  · refine (startFailed_told (fun past' t ht => ht.2.srv_settings sid) message).consequence
      (fun _ _ ht => ht) ?_ (fun _ => during) during
    rintro _ past' t ⟨ht, ignored⟩
    exact hs.next notRequested nodup ht (.inr (.inr (.inl ignored)))

theorem startServices_told (used : ∀ i : Nat, (i : Int) ∈ front ++ rest → i < count)
    (nodup : ((front ++ rest).filter (0 ≤ ·)).Nodup) :
    Told (Between loaded count front rest) (startServices rest)
      (fun _ past s => ForkedInOrder loaded (front ++ rest) past s.history)
      (fun _ past s => ForkedInOrder loaded (front ++ rest) past s.history)
      fun past s => ForkedInOrder loaded (front ++ rest) past s.history := by
  induction rest generalizing front with
  | nil => exact Told.pure fun _ _ hs => hs.forkedInOrder nodup
  | cons entry rest ih =>
      have whole : front ++ entry :: rest = (front ++ [entry]) ++ rest := by simp
      refine Told.ite (fun _ => Told.pure fun _ _ hs => hs.forkedInOrder nodup) fun nonneg => ?_
      obtain ⟨sid, rfl⟩ := Int.eq_ofNat_of_zero_le (Int.not_lt.mp nonneg)
      rw [Int.toNat_natCast]
      have onward : Told (Between loaded count (front ++ [(sid : Int)]) rest) (startServices rest)
          (fun _ past s => ForkedInOrder loaded (front ++ (sid : Int) :: rest) past s.history)
          (fun _ past s => ForkedInOrder loaded (front ++ (sid : Int) :: rest) past s.history)
          (fun past s => ForkedInOrder loaded (front ++ (sid : Int) :: rest) past s.history) := by
        rw [whole] at used nodup ⊢
        exact ih used nodup
      refine Told.bind (srv_told sid) fun service => Told.with_entry ?_
      rintro past s ⟨hs, rfl⟩
      rw [hs.turn.srv_settings sid]
      refine Told.ite (fun group => onward.pre ?_) fun _ => ?_
      · rintro _ _ ⟨rfl, rfl⟩
        exact hs.group group nodup
      refine Told.bind (shutdownRequested_told ?_) fun requested => ?_
      · rintro _ _ ⟨rfl, rfl⟩
        exact hs.forkedInOrder nodup
      refine Told.ite (fun _ => Told.pure ?_) fun notAsked => Told.with_entry ?_
      · rintro _ t ⟨_, _, k, ⟨rfl, rfl⟩, rfl, -, rfl | rfl⟩
        all_goals exact (hs.more (List.prefix_append _ [.signals k])).forkedInOrder nodup
      · rintro _ t ⟨before, u, k, ⟨rfl, rfl⟩, rfl, down, moved⟩
        have notRequested : t.doShutdown = false := down.trans (Bool.eq_false_iff.mpr notAsked)
        obtain rfl : t = u := by
          rcases moved with same | rfl
          · exact same
          · cases notRequested
        have later := hs.more (List.prefix_append before [.signals k])
        exact Told.bind (turn_told (used sid (by simp)) nodup later notRequested) fun _ => onward

theorem load_down (ctx : LoadContext) (i : Nat) : ((booted.load ctx).srv i).pid = 0 := by
  simp only [Supervisor.srv, Supervisor.load, List.getD_eq_getElem?_getD, List.getElem?_map]
  cases ctx.services[i]? <;> rfl

/-- The services are only forked when those before them in the start order are provided. -/
theorem bringUpServices_told (view : View) (cwd : Str) :
    Told (fun past s => past = [] ∧ s = booted) (bringUpServices view cwd)
      (fun _ past s => ForkedInOrder (loadedSettings view cwd) (loadDefault view cwd).2.startOrder
        past s.history)
      (fun _ _ _ => False)
      fun past s => ForkedInOrder (loadedSettings view cwd) (loadDefault view cwd).2.startOrder
        past s.history := by
  have placed := loadDefault_placed view cwd
  have used : ∀ i : Nat, (i : Int) ∈ [] ++ (loadDefault view cwd).2.startOrder →
      i < (loadDefault view cwd).2.services.length := fun i member =>
    Int.ofNat_lt.mp (placed.used i member)
  have quiet {past : List Answer} {s : Supervisor} (nothing : s.history = []) :
      ForkedInOrder (loadedSettings view cwd) (loadDefault view cwd).2.startOrder past s.history :=
    fun _ _ _ forking => absurd (nothing ▸ forking) List.not_mem_nil
  refine Told.tryCatch (T := fun _ past s => ForkedInOrder (loadedSettings view cwd)
    (loadDefault view cwd).2.startOrder past s.history) ?_ fun _ => ?_
  · refine Told.bind (M := fun _ _ s => s = booted.load (loadDefault view cwd).2) ?_ fun _ => ?_
    · refine Told.bind (M := fun _ _ s => s = booted.load (loadDefault view cwd).2)
        (Told.modify (by rintro _ _ ⟨-, rfl⟩; rfl)) fun _ => Told.ofOutcome ?_ ?_ ?_
      · exact fun _ _ _ _ hs => hs
      · rintro _ past _ - rfl
        exact quiet rfl
      · rintro past _ - rfl
        exact quiet rfl
    · refine Told.bind
        (M := fun _ _ s => s = (booted.load (loadDefault view cwd).2).enter .starting)
        (Told.modify (by rintro _ _ rfl; rfl)) fun _ => ?_
      refine Told.bind
        (M := fun t _ s => s = (booted.load (loadDefault view cwd).2).enter .starting ∧
        t.startOrder = (loadDefault view cwd).2.startOrder) (Told.get ?_) fun t =>
          Told.with_entry ?_
      · rintro _ _ rfl
        exact ⟨rfl, rfl⟩
      rintro past _ ⟨rfl, order⟩
      rw [order]
      refine Told.bind (M := fun _ past s => ForkedInOrder (loadedSettings view cwd)
        (loadDefault view cwd).2.startOrder past s.history) (Told.pre (P := Between
          (loadedSettings view cwd) (loadDefault view cwd).2.services.length []
          (loadDefault view cwd).2.startOrder) ?_ ?_) fun _ => Told.pure fun _ _ hs => hs
      · exact startServices_told used (by simpa using placed.nodup)
      rintro _ _ ⟨rfl, rfl⟩
      exact
        { consistent := (Consistent.load _).enter _
          length := by simp [Supervisor.load, Supervisor.enter]
          settings := fun i => by
            rw [ledger_enter]
            exact loadedLedger_settings view cwd i
          down := fun i _ => load_down _ i
          forks := fun i forking => absurd forking List.not_mem_nil
          provided := fun i member => absurd member List.not_mem_nil
          inOrder := fun dep sid before => absurd before.length_le (by simp) }
  · exact Told.bind (M := fun _ past s => ForkedInOrder (loadedSettings view cwd)
      (loadDefault view cwd).2.startOrder past s.history) (Told.modify fun _ _ hs => hs) fun _ =>
      Told.pure fun _ _ hs => hs

end Order

/-- No service has two places in the start order, and in every run of the start-up a service is only
forked when each service before it in the order has come up, unless this is a group or its failures
are ignored. -/
theorem bringUpServices_inOrder (sys : System) (defaults : ServiceDefaults) (root : ServicesRoot)
    (memory : Memory) (cwd : Str) (answers : List Answer) :
    (∀ sid : Nat,
      (loadDefault (root.view sys defaults memory) cwd).2.startOrder.count (sid : Int) ≤ 1) ∧
    ForkedInOrder (loadedSettings (root.view sys defaults memory) cwd)
      (loadDefault (root.view sys defaults memory) cwd).2.startOrder answers
      ((bringUpServices (root.view sys defaults memory) cwd).run answers booted).state.history := by
  refine ⟨(loadDefault_placed _ cwd).count_le_one, ?_⟩
  have told := bringUpServices_told (root.view sys defaults memory) cwd
  have outset : ([] : List Answer) = [] ∧ booted = booted := ⟨rfl, rfl⟩
  obtain ⟨taken, split, ends⟩ := Told.ends told outset
  have order : ForkedInOrder (loadedSettings (root.view sys defaults memory) cwd)
      (loadDefault (root.view sys defaults memory) cwd).2.startOrder taken
      ((bringUpServices (root.view sys defaults memory) cwd).run answers booted).state.history := by
    unfold Ends at ends
    split at ends
    · exact ends
    · exact ends.elim
    · exact ends
    · exact ends
  intro dep sid before forking
  exact (order dep sid before forking).mono ⟨_, split.symm⟩ List.suffix_rfl

end Baseimage.Cinit
