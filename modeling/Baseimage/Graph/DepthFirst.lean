import Mathlib

/-!
# Depth-first walks

A graph is given by the list of successors of each node, in the order they are tried. A walk
enters a node at most once: it notes the node as entered, walks from its successors, and notes
it as left. The lists of the nodes entered and left are the preorder and the postorder.

Cycles are allowed: a successor that has been entered already is passed over, also when it has
not been left yet. The nodes entered by a walk from a root are the nodes that can be reached from
it. In the postorder of an acyclic graph every node comes after all of its successors.
-/

namespace DepthFirst

variable {α : Type*}

/-- The nodes entered and the nodes left so far, in order. -/
structure Visit (α : Type*) where
  entered : List α := []
  left : List α := []

/-- Walk from some nodes, one after the other. -/
inductive Walk (next : α → List α) : List α → Visit α → Visit α → Prop where
  | nil (v : Visit α) : Walk next [] v v
  | again {s : α} {ss : List α} {v v' : Visit α} (seen : s ∈ v.entered)
      (rest : Walk next ss v v') : Walk next (s :: ss) v v'
  | enter {s : α} {ss : List α} {v w v' : Visit α} (fresh : s ∉ v.entered)
      (inside : Walk next (next s) { v with entered := v.entered ++ [s] } w)
      (rest : Walk next ss { w with left := w.left ++ [s] } v') : Walk next (s :: ss) v v'

/-- One node is a successor of the other. -/
def Step (next : α → List α) (a b : α) : Prop := b ∈ next a

/-- The nodes that can be reached from a node, itself included. -/
abbrev Reach (next : α → List α) : α → α → Prop := Relation.ReflTransGen (Step next)

/-- No node can be reached from itself by one step or more. -/
def Acyclic (next : α → List α) : Prop := ∀ a, ¬ Relation.TransGen (Step next) a a

/-- Every node of the list comes after all of its successors. -/
def Ordered (next : α → List α) (l : List α) : Prop :=
  ∀ before x after, l = before ++ x :: after → ∀ t ∈ next x, t ∈ before

/-- Nodes are entered once, and left once after they have been entered. -/
structure Visit.Valid (v : Visit α) : Prop where
  entered : v.entered.Nodup
  left : v.left.Nodup
  subset : v.left ⊆ v.entered

variable {next : α → List α} {ss : List α} {v v' : Visit α}

theorem valid_empty : Visit.Valid ({} : Visit α) :=
  { entered := List.nodup_nil
    left := List.nodup_nil
    subset := List.Subset.refl _ }

/-- Two walks one after the other. -/
theorem Walk.append {ts : List α} {w : Visit α} (first : Walk next ss v w)
    (second : Walk next ts w v') : Walk next (ss ++ ts) v v' := by
  induction first with
  | nil v => exact second
  | again seen rest ih => exact .again seen (ih second)
  | enter fresh inside rest _ ihRest => exact .enter fresh inside (ihRest second)

theorem Walk.entered_grows (h : Walk next ss v v') : v.entered <+: v'.entered := by
  induction h with
  | nil v => exact List.prefix_refl _
  | again seen rest ih => exact ih
  | enter fresh inside rest ihInside ihRest =>
      exact ((List.prefix_append _ _).trans ihInside).trans ihRest

/-- Every node the walk starts from is entered. -/
theorem Walk.mem_entered (h : Walk next ss v v') : ∀ s ∈ ss, s ∈ v'.entered := by
  induction h with
  | nil v => simp
  | again seen rest ih =>
      intro s hs
      rcases List.mem_cons.mp hs with rfl | hs
      · exact rest.entered_grows.subset seen
      · exact ih s hs
  | enter fresh inside rest ihInside ihRest =>
      intro s hs
      rcases List.mem_cons.mp hs with rfl | hs
      · apply rest.entered_grows.subset
        exact inside.entered_grows.subset (by simp)
      · exact ihRest s hs

/-- Entering a fresh node. -/
theorem Visit.Valid.enter {s : α} (valid : v.Valid) (fresh : s ∉ v.entered) :
    ({ v with entered := v.entered ++ [s] } : Visit α).Valid :=
  { entered := List.nodup_append_comm.mp (List.nodup_cons.mpr ⟨fresh, valid.entered⟩)
    left := valid.left
    subset := List.subset_append_of_subset_left _ valid.subset }

/-- Leaving a node that has been entered. -/
theorem Visit.Valid.leave {s : α} (valid : v.Valid) (entered : s ∈ v.entered)
    (inside : s ∉ v.left) : ({ v with left := v.left ++ [s] } : Visit α).Valid :=
  { entered := valid.entered
    left := List.nodup_append_comm.mp (List.nodup_cons.mpr ⟨inside, valid.left⟩)
    subset := List.append_subset.mpr ⟨valid.subset, by simpa using entered⟩ }

/-- What a walk enters it also leaves. -/
theorem Walk.valid (h : Walk next ss v v') (valid : v.Valid) :
    v'.Valid ∧ ∀ x, x ∈ v'.left ↔ x ∈ v.left ∨ (x ∈ v'.entered ∧ x ∉ v.entered) := by
  induction h with
  | nil v => exact ⟨valid, fun x => by simp⟩
  | again seen rest ih => exact ih valid
  | @enter s ss v w v' fresh inside rest ihInside ihRest =>
      obtain ⟨validInside, leftInside⟩ := ihInside (valid.enter fresh)
      have within := inside.entered_grows.subset
      have entered : s ∈ w.entered := within (by simp)
      have notLeft : s ∉ w.left := by
        intro member
        rcases (leftInside s).mp member with before | ⟨-, new⟩
        · exact fresh (valid.subset before)
        · exact new (by simp)
      obtain ⟨validRest, leftRest⟩ := ihRest (validInside.leave entered notLeft)
      refine ⟨validRest, ?_⟩
      intro x
      have later : x ∈ w.entered → x ∈ v'.entered := fun hx => rest.entered_grows.subset hx
      have earlier : x ∈ v.entered → x ∈ w.entered := fun hx =>
        within (List.mem_append_left _ hx)
      rw [leftRest, List.mem_append, List.mem_singleton, leftInside, List.mem_append,
        List.mem_singleton]
      constructor
      · rintro (((before | ⟨here, new⟩) | rfl) | ⟨here, new⟩)
        · exact Or.inl before
        · exact Or.inr ⟨later here, fun hx => new (Or.inl hx)⟩
        · exact Or.inr ⟨later entered, fresh⟩
        · exact Or.inr ⟨here, fun hx => new (earlier hx)⟩
      · rintro (before | ⟨here, new⟩)
        · exact Or.inl (Or.inl (Or.inl before))
        · by_cases inW : x ∈ w.entered
          · by_cases same : x = s
            · exact Or.inl (Or.inr same)
            · exact Or.inl (Or.inl (Or.inr ⟨inW, fun hx => hx.elim new same⟩))
          · exact Or.inr ⟨here, inW⟩

/-- The successors of a node the walk enters are entered too. -/
theorem Walk.next_entered (h : Walk next ss v v') {x t : α} (hx : x ∈ v'.entered)
    (fresh : x ∉ v.entered) (ht : t ∈ next x) : t ∈ v'.entered := by
  induction h with
  | nil v => exact absurd hx fresh
  | again seen rest ih => exact ih hx fresh
  | @enter s ss v w v' _ inside rest ihInside ihRest =>
      by_cases inW : x ∈ w.entered
      · apply rest.entered_grows.subset
        by_cases same : x = s
        · subst same
          exact inside.mem_entered t ht
        · exact ihInside inW (by simp [fresh, same])
      · exact ihRest hx inW

/-- A walk enters only nodes that can be reached from where it starts. -/
theorem Walk.reach (h : Walk next ss v v') {x : α} (hx : x ∈ v'.entered)
    (fresh : x ∉ v.entered) : ∃ s ∈ ss, Reach next s x := by
  induction h with
  | nil v => exact absurd hx fresh
  | again seen rest ih =>
      obtain ⟨s, hs, path⟩ := ih hx fresh
      exact ⟨s, List.mem_cons_of_mem _ hs, path⟩
  | @enter s ss v w v' _ inside rest ihInside ihRest =>
      by_cases inW : x ∈ w.entered
      · refine ⟨s, List.mem_cons_self, ?_⟩
        by_cases same : x = s
        · subst same
          exact .refl
        · obtain ⟨t, ht, path⟩ := ihInside inW (by simp [fresh, same])
          exact .head ht path
      · obtain ⟨t, ht, path⟩ := ihRest hx inW
        exact ⟨t, List.mem_cons_of_mem _ ht, path⟩

/-- The nodes entered by a walk from a root are the nodes that can be reached from it. -/
theorem Walk.entered_iff_reach {root : α} (h : Walk next [root] {} v) (x : α) :
    x ∈ v.entered ↔ Reach next root x := by
  constructor
  · intro hx
    obtain ⟨s, hs, path⟩ := h.reach hx List.not_mem_nil
    exact List.mem_singleton.mp hs ▸ path
  · intro path
    induction path with
    | refl => exact h.mem_entered root List.mem_cons_self
    | tail _ step ih => exact h.next_entered ih List.not_mem_nil step

/-- A walk from a root leaves exactly the nodes it enters. -/
theorem Walk.left_perm {root : α} (h : Walk next [root] {} v) : v.left.Perm v.entered := by
  obtain ⟨valid, left⟩ := h.valid valid_empty
  refine (List.perm_ext_iff_of_nodup valid.left valid.entered).mpr ?_
  intro x
  simpa using left x

theorem ordered_append {l : List α} {x : α} (h : Ordered next l) (hx : ∀ t ∈ next x, t ∈ l) :
    Ordered next (l ++ [x]) := by
  intro before y after hcut
  rcases List.eq_nil_or_concat after with rfl | ⟨init, last, rfl⟩
  · obtain ⟨rfl, hy⟩ := List.append_inj' hcut rfl
    obtain rfl := List.singleton_inj.mp hy
    exact hx
  · rw [List.concat_eq_append, ← List.cons_append, ← List.append_assoc] at hcut
    obtain ⟨rfl, -⟩ := List.append_inj' hcut rfl
    exact h before y init rfl

/-- The nodes that have been entered and not left all reach the node the walk is at, so in an
acyclic graph none of them is a successor of it. -/
theorem Walk.ordered (acyclic : Acyclic next) (h : Walk next ss v v') (valid : v.Valid)
    (active : ∀ a ∈ v.entered, a ∉ v.left → ∀ s ∈ ss, Relation.TransGen (Step next) a s)
    (ordered : Ordered next v.left) : Ordered next v'.left := by
  induction h with
  | nil v => exact ordered
  | again seen rest ih =>
      exact ih valid (fun a ha hl s hs => active a ha hl s (List.mem_cons_of_mem _ hs)) ordered
  | @enter s ss v w v' fresh inside rest ihInside ihRest =>
      have entering := valid.enter fresh
      obtain ⟨validInside, leftInside⟩ := inside.valid entering
      have activeInside : ∀ a ∈ v.entered ++ [s], a ∉ v.left → ∀ t ∈ next s,
          Relation.TransGen (Step next) a t := by
        intro a ha hl t ht
        rcases List.mem_append.mp ha with before | here
        · exact .tail (active a before hl s List.mem_cons_self) ht
        · exact .single (List.mem_singleton.mp here ▸ ht)
      have orderedInside := ihInside entering activeInside ordered
      have within := inside.entered_grows.subset
      -- A successor of s that has not been left would close a cycle through s.
      have successors : ∀ t ∈ next s, t ∈ w.left := by
        intro t ht
        rw [leftInside]
        by_contra notLeft
        have open_ : t ∈ v.entered ++ [s] ∧ t ∉ v.left := by
          have entered := inside.mem_entered t ht
          exact ⟨by_contra fun h => notLeft (Or.inr ⟨entered, h⟩), fun h => notLeft (Or.inl h)⟩
        have toT := activeInside t open_.1 open_.2 t ht
        exact acyclic t toT
      have notLeft : s ∉ w.left := by
        intro member
        rcases (leftInside s).mp member with before | ⟨-, new⟩
        · exact fresh (valid.subset before)
        · exact new (by simp)
      refine ihRest (validInside.leave (within (by simp)) notLeft) ?_
        (ordered_append orderedInside successors)
      intro a ha hl t ht
      simp only [List.mem_append, List.mem_singleton, not_or] at hl
      refine active a ?_ ?_ t (List.mem_cons_of_mem _ ht)
      · by_contra new
        exact hl.1 ((leftInside a).mpr (Or.inr ⟨ha, by simp [new, hl.2]⟩))
      · intro before
        exact hl.1 ((leftInside a).mpr (Or.inl before))

/-- In an acyclic graph the postorder of a walk from a root is a topological order. -/
theorem Walk.left_ordered {root : α} (acyclic : Acyclic next) (h : Walk next [root] {} v) :
    Ordered next v.left := by
  refine h.ordered acyclic valid_empty (by simp) ?_
  intro before x after hcut
  exact absurd hcut (by simp)

end DepthFirst
