import Baseimage.Gpasswd.Command
import Baseimage.Run.Actions

/-!
# Concurrent invocations of gpasswd

Each invocation locks, reads, writes and unlocks `/etc/group`, and then does the same with
`/etc/gshadow`. A lock excludes the other invocations, and a file is written at once. Between the
two files an invocation holds no lock, so the others may overtake it: the two files are written in
orders of their own.
-/

namespace Baseimage.Gpasswd

/-- What an invocation works with: its options, and the hash of the new password if one was
prompted for. -/
structure Invocation where
  options : Options
  password : Option Str := none
  deriving DecidableEq, Repr

/-- Where an invocation is, with what it has read. -/
inductive Pc where
  | start
  | groupLocked
  | groupRead (entries : List GroupEntry)
  | groupWritten (members : List Str)
  | groupReleased (members : List Str)
  | gshadowLocked (members : List Str)
  | gshadowRead (members : List Str) (entries : List GshadowEntry)
  | gshadowWritten
  | exited (code : Nat)
  deriving DecidableEq, Repr

/-- The files, their locks, and so many invocations. -/
structure System (n : Nat) where
  passwd : List Str
  group : List GroupEntry
  /-- `none` where the file does not exist. -/
  gshadow : Option (List GshadowEntry)
  groupLock : Option (Fin n) := none
  gshadowLock : Option (Fin n) := none
  pc : Fin n → Pc := fun _ => .start
  /-- The invocations that wrote a file, in this order. -/
  groupWrites : List (Fin n) := []
  gshadowWrites : List (Fin n) := []

variable {n : Nat}

def System.go (s : System n) (p : Fin n) (pc : Pc) : System n :=
  { s with pc := Function.update s.pc p pc }

@[simp] theorem System.go_pc_self (s : System n) (p : Fin n) (pc : Pc) : (s.go p pc).pc p = pc :=
  Function.update_self _ _ _

theorem System.go_pc_other (s : System n) {p q : Fin n} (h : q ≠ p) (pc : Pc) :
    (s.go p pc).pc q = s.pc q :=
  Function.update_of_ne h _ _

inductive Action (n : Nat) where
  /-- The invocation takes its next step. -/
  | advance (p : Fin n)
  /-- A lock, a read or a write fails: the invocation releases its lock and exits. -/
  | fail (p : Fin n)
  deriving DecidableEq, Repr

/-- The next step of an invocation; `none` when it has to wait or has exited. -/
def advance (invocations : Fin n → Invocation) (s : System n) (p : Fin n) : Option (System n) :=
  let o := (invocations p).options
  let password := (invocations p).password
  match s.pc p with
  | .start =>
      if s.groupLock = none then some ({ s with groupLock := some p }.go p .groupLocked) else none
  | .groupLocked => some (s.go p (.groupRead s.group))
  | .groupRead entries =>
      match updateGroup o password s.passwd entries with
      | .error e => some ({ s with groupLock := none }.go p (.exited e.code))
      | .ok (entries, entry) =>
          some ({ s with group := entries, groupWrites := s.groupWrites ++ [p] }.go p
            (.groupWritten entry.members))
  | .groupWritten members => some ({ s with groupLock := none }.go p (.groupReleased members))
  | .groupReleased members =>
      if s.gshadow = none then some (s.go p (.exited 0))
      else if s.gshadowLock = none then
        some ({ s with gshadowLock := some p }.go p (.gshadowLocked members))
      else none
  | .gshadowLocked members => s.gshadow.map fun entries => s.go p (.gshadowRead members entries)
  | .gshadowRead members entries =>
      some ({ s with
        gshadow := some (updateGshadow o password members entries)
        gshadowWrites := s.gshadowWrites ++ [p] }.go p .gshadowWritten)
  | .gshadowWritten => some ({ s with gshadowLock := none }.go p (.exited 0))
  | .exited _ => none

/-- What a failure leaves: `CantUpdate`. -/
def fail (s : System n) (p : Fin n) : Option (System n) :=
  match s.pc p with
  | .start => some (s.go p (.exited 10))
  | .groupLocked => some ({ s with groupLock := none }.go p (.exited 10))
  | .groupRead _ => some ({ s with groupLock := none }.go p (.exited 10))
  | .groupReleased _ => some (s.go p (.exited 10))
  | .gshadowLocked _ => some ({ s with gshadowLock := none }.go p (.exited 10))
  | .gshadowRead _ _ => some ({ s with gshadowLock := none }.go p (.exited 10))
  | _ => none

def step (invocations : Fin n → Invocation) (s : System n) : Action n → Option (System n)
  | .advance p => advance invocations s p
  | .fail p => fail s p

/-- An invocation that adds a user to the group, or deletes one from it. -/
inductive Change where
  | add (user : Str)
  | delete (user : Str)
  deriving DecidableEq, Repr

def Change.user : Change → Str
  | add user => user
  | delete user => user

/-- `gpasswd -a USER GROUP` and `gpasswd -d USER GROUP`. -/
def Change.invocation (group : Str) : Change → Invocation
  | add user => { options := { group := group, add := some user } }
  | delete user => { options := { group := group, delete := some user } }

/-- Whether a user is a member after one change. -/
def Change.effect (was : Prop) (user : Str) : Change → Prop
  | add other => was ∨ user = other
  | delete other => was ∧ user ≠ other

/-- The last of some changes of a user. -/
def lastChange (user : Str) (changes : List Change) : Option Change :=
  (changes.filter fun c => c.user == user).getLast?

/-- Whether a user is a member after some changes. -/
def memberAfter (was : Prop) (user : Str) (changes : List Change) : Prop :=
  match lastChange user changes with
  | none => was
  | some (.add _) => True
  | some (.delete _) => False

theorem lastChange_concat (user : Str) (changes : List Change) (c : Change) :
    lastChange user (changes ++ [c]) = if c.user = user then some c
      else lastChange user changes := by
  unfold lastChange
  rw [List.filter_append]
  split
  · next same =>
      have mine : [c].filter (fun c => c.user == user) = [c] := by simp [same]
      rw [mine, List.getLast?_concat]
  · next other =>
      have nothing : [c].filter (fun c => c.user == user) = [] := by simp [other]
      rw [nothing, List.append_nil]

theorem memberAfter_concat (was : Prop) (user : Str) (changes : List Change) (c : Change) :
    memberAfter was user (changes ++ [c]) ↔ c.effect (memberAfter was user changes) user := by
  by_cases same : c.user = user
  · have after : memberAfter was user (changes ++ [c]) ↔ c.effect False user := by
      rw [memberAfter, lastChange_concat, if_pos same]
      cases c with
      | add other => simp [Change.effect, ← same, Change.user]
      | delete other => simp [Change.effect]
    rw [after]
    cases c with
    | add other => simp [Change.effect, ← same, Change.user]
    | delete other => simp [Change.effect, ← same, Change.user]
  · have after : memberAfter was user (changes ++ [c]) = memberAfter was user changes := by
      rw [memberAfter, lastChange_concat, if_neg same]
      rfl
    rw [after]
    cases c with
    | add other =>
        have differs : user ≠ other := fun h => same h.symm
        simp [Change.effect, differs]
    | delete other =>
        have differs : user ≠ other := fun h => same h.symm
        simp [Change.effect, differs]

/-- What a change does to `/etc/group`. -/
theorem groupMember_update {group : Str} {c : Change} {passwd : List Str}
    {entries entries' : List GroupEntry} {entry : GroupEntry}
    (h : updateGroup (c.invocation group).options (c.invocation group).password passwd entries =
      .ok (entries', entry)) (user : Str) :
    (GroupMember group entries' user ↔ c.effect (GroupMember group entries user) user) ∧
      (user ∈ entry.members ↔ GroupMember group entries' user) := by
  obtain ⟨before, hbefore, hupdate, hafter⟩ := updateGroup_ok h
  obtain ⟨middle, hmembers, hrest⟩ := Except.bind_eq_ok hupdate
  obtain ⟨_, -, hpure⟩ := Except.bind_eq_ok hrest
  obtain rfl := Except.ok.inj hpure
  cases c with
  | add other =>
      obtain ⟨_, -, rfl⟩ := Except.map_eq_ok hmembers
      refine ⟨?_, ?_⟩
      · simp_all [GroupMember, Change.effect, Change.invocation]
      · simp_all [GroupMember, Change.invocation]
  | delete other =>
      obtain rfl := Except.ok.inj hmembers
      refine ⟨?_, ?_⟩
      · simp_all [GroupMember, Change.effect, Change.invocation]
      · simp_all [GroupMember, Change.invocation]

/-- What a change does to `/etc/gshadow`. The line is made from the members in `/etc/group` where
there is none. -/
theorem gshadowMember_update {group : Str} (c : Change) (membersForGshadow : List Str)
    (entries : List GshadowEntry) (user : Str) :
    GshadowMember group
        (updateGshadow (c.invocation group).options (c.invocation group).password membersForGshadow
          entries) user ↔
      c.effect
        (GshadowMember group entries user ∨
          entries.find? (fun g => g.name == group) = none ∧ user ∈ membersForGshadow) user := by
  have updated := find?_updateGshadow (c.invocation group).options (c.invocation group).password
    membersForGshadow entries
  have same : (c.invocation group).options.group = group := by cases c <;> rfl
  rw [same] at updated
  rw [GshadowMember, updated]
  cases hfind : entries.find? fun g => g.name == group with
  | none =>
      cases c <;> simp [GshadowMember, hfind, Change.effect, Change.invocation, updateLine]
  | some g =>
      cases c <;> simp [GshadowMember, hfind, Change.effect, Change.invocation, updateLine]

/-! ## What a step does -/

/-- What one step of an invocation does. -/
inductive Moved (invocations : Fin n → Invocation) (s : System n) (p : Fin n) : System n → Prop
  | lockGroup (pc : s.pc p = .start) (free : s.groupLock = none) :
      Moved invocations s p ({ s with groupLock := some p }.go p .groupLocked)
  | readGroup (pc : s.pc p = .groupLocked) : Moved invocations s p (s.go p (.groupRead s.group))
  | refuse (entries : List GroupEntry) (e : GpasswdError) (pc : s.pc p = .groupRead entries)
      (refused : updateGroup (invocations p).options (invocations p).password s.passwd entries =
        .error e) :
      Moved invocations s p ({ s with groupLock := none }.go p (.exited e.code))
  | writeGroup (entries entries' : List GroupEntry) (entry : GroupEntry)
      (pc : s.pc p = .groupRead entries)
      (updated : updateGroup (invocations p).options (invocations p).password s.passwd entries =
        .ok (entries', entry)) :
      Moved invocations s p ({ s with
        group := entries', groupWrites := s.groupWrites ++ [p] }.go p (.groupWritten entry.members))
  | unlockGroup (members : List Str) (pc : s.pc p = .groupWritten members) :
      Moved invocations s p ({ s with groupLock := none }.go p (.groupReleased members))
  | skipGshadow (members : List Str) (pc : s.pc p = .groupReleased members)
      (missing : s.gshadow = none) : Moved invocations s p (s.go p (.exited 0))
  | lockGshadow (members : List Str) (pc : s.pc p = .groupReleased members)
      (free : s.gshadowLock = none) :
      Moved invocations s p ({ s with gshadowLock := some p }.go p (.gshadowLocked members))
  | readGshadow (members : List Str) (entries : List GshadowEntry)
      (pc : s.pc p = .gshadowLocked members) (content : s.gshadow = some entries) :
      Moved invocations s p (s.go p (.gshadowRead members entries))
  | writeGshadow (members : List Str) (entries : List GshadowEntry)
      (pc : s.pc p = .gshadowRead members entries) :
      Moved invocations s p ({ s with
        gshadow := some (updateGshadow (invocations p).options (invocations p).password members
          entries)
        gshadowWrites := s.gshadowWrites ++ [p] }.go p .gshadowWritten)
  | unlockGshadow (pc : s.pc p = .gshadowWritten) :
      Moved invocations s p ({ s with gshadowLock := none }.go p (.exited 0))
  | quit (pc : s.pc p = .start ∨ ∃ members, s.pc p = .groupReleased members) :
      Moved invocations s p (s.go p (.exited 10))
  | quitGroup (pc : s.pc p = .groupLocked ∨ ∃ entries, s.pc p = .groupRead entries) :
      Moved invocations s p ({ s with groupLock := none }.go p (.exited 10))
  | quitGshadow (pc : (∃ members, s.pc p = .gshadowLocked members) ∨
      ∃ members entries, s.pc p = .gshadowRead members entries) :
      Moved invocations s p ({ s with gshadowLock := none }.go p (.exited 10))

variable {invocations : Fin n → Invocation} {s t : System n}

theorem moved_of_advance {p : Fin n} (h : advance invocations s p = some t) :
    Moved invocations s p t := by
  unfold advance at h
  cases hpc : s.pc p with
  | start =>
      simp only [hpc] at h
      obtain ⟨free, ht⟩ := Option.ite_none_right_eq_some.mp h
      exact Option.some.inj ht ▸ .lockGroup hpc free
  | groupLocked =>
      simp only [hpc] at h
      exact Option.some.inj h ▸ .readGroup hpc
  | groupRead entries =>
      simp only [hpc] at h
      cases hupdate :
        updateGroup (invocations p).options (invocations p).password s.passwd entries with
      | error e =>
          simp only [hupdate] at h
          exact Option.some.inj h ▸ .refuse entries e hpc hupdate
      | ok result =>
          simp only [hupdate] at h
          exact Option.some.inj h ▸ .writeGroup entries result.1 result.2 hpc hupdate
  | groupWritten members =>
      simp only [hpc] at h
      exact Option.some.inj h ▸ .unlockGroup members hpc
  | groupReleased members =>
      simp only [hpc] at h
      split at h
      · next missing => exact Option.some.inj h ▸ .skipGshadow members hpc missing
      · obtain ⟨free, ht⟩ := Option.ite_none_right_eq_some.mp h
        exact Option.some.inj ht ▸ .lockGshadow members hpc free
  | gshadowLocked members =>
      simp only [hpc] at h
      obtain ⟨entries, content, rfl⟩ := Option.map_eq_some_iff.mp h
      exact .readGshadow members entries hpc content
  | gshadowRead members entries =>
      simp only [hpc] at h
      exact Option.some.inj h ▸ .writeGshadow members entries hpc
  | gshadowWritten =>
      simp only [hpc] at h
      exact Option.some.inj h ▸ .unlockGshadow hpc
  | exited code =>
      simp only [hpc] at h
      cases h

theorem moved_of_fail {p : Fin n} (h : fail s p = some t) : Moved invocations s p t := by
  unfold fail at h
  cases hpc : s.pc p with
  | start =>
      simp only [hpc] at h
      exact Option.some.inj h ▸ .quit (.inl hpc)
  | groupLocked =>
      simp only [hpc] at h
      exact Option.some.inj h ▸ .quitGroup (.inl hpc)
  | groupRead entries =>
      simp only [hpc] at h
      exact Option.some.inj h ▸ .quitGroup (.inr ⟨entries, hpc⟩)
  | groupReleased members =>
      simp only [hpc] at h
      exact Option.some.inj h ▸ .quit (.inr ⟨members, hpc⟩)
  | gshadowLocked members =>
      simp only [hpc] at h
      exact Option.some.inj h ▸ .quitGshadow (.inl ⟨members, hpc⟩)
  | gshadowRead members entries =>
      simp only [hpc] at h
      exact Option.some.inj h ▸ .quitGshadow (.inr ⟨members, entries, hpc⟩)
  | groupWritten members =>
      simp only [hpc] at h
      cases h
  | gshadowWritten =>
      simp only [hpc] at h
      cases h
  | exited code =>
      simp only [hpc] at h
      cases h

theorem moved_of_step {a : Action n} (h : step invocations s a = some t) :
    ∃ p, Moved invocations s p t := by
  cases a with
  | advance p => exact ⟨p, moved_of_advance h⟩
  | fail p => exact ⟨p, moved_of_fail h⟩

/-! ## The locks -/

def Pc.holdsGroup : Pc → Bool
  | groupLocked => true
  | groupRead _ => true
  | groupWritten _ => true
  | _ => false

def Pc.holdsGshadow : Pc → Bool
  | gshadowLocked _ => true
  | gshadowRead _ _ => true
  | gshadowWritten => true
  | _ => false

/-- Who holds a lock, and that what its holder has read is still the content of the file. -/
structure Locked (s : System n) : Prop where
  group : ∀ p, (s.pc p).holdsGroup = true ↔ s.groupLock = some p
  gshadow : ∀ p, (s.pc p).holdsGshadow = true ↔ s.gshadowLock = some p
  groupRead : ∀ p entries, s.pc p = .groupRead entries → entries = s.group
  gshadowRead : ∀ p members entries, s.pc p = .gshadowRead members entries →
    s.gshadow = some entries

/-- The holder of a lock after an invocation went on. -/
def lockAfter (lock : Option (Fin n)) (p : Fin n) (held holds : Bool) : Option (Fin n) :=
  if holds then some p else if held then none else lock

theorem lockAfter_iff {lock : Option (Fin n)} {p q : Fin n} {held : Bool} (holds : Bool)
    (before : held = true ↔ lock = some p) (free : holds = true → held = true ∨ lock = none)
    (hq : q ≠ p) : lock = some q ↔ lockAfter lock p held holds = some q := by
  cases holds with
  | true =>
      rw [lockAfter, if_pos rfl]
      constructor
      · intro hlock
        obtain hheld | hnone := free rfl
        · exact absurd (Option.some.inj ((before.mp hheld).symm.trans hlock)) hq.symm
        · cases hnone.symm.trans hlock
      · intro same
        exact absurd (Option.some.inj same) hq.symm
  | false =>
      rw [lockAfter, if_neg Bool.false_ne_true]
      cases held with
      | true =>
          rw [if_pos rfl, before.mp rfl]
          constructor
          · intro same
            exact absurd (Option.some.inj same) hq.symm
          · intro absurdity
            cases absurdity
      | false => exact Iff.rfl

/-- An invocation goes on. A file is only written by the holder of its lock. -/
theorem Locked.go {u : System n} {p : Fin n} {pc : Pc} (h : Locked s) (same : u.pc = s.pc)
    (groupLock : u.groupLock = lockAfter s.groupLock p (s.pc p).holdsGroup pc.holdsGroup)
    (gshadowLock :
      u.gshadowLock = lockAfter s.gshadowLock p (s.pc p).holdsGshadow pc.holdsGshadow)
    (groupFree : pc.holdsGroup = true → (s.pc p).holdsGroup = true ∨ s.groupLock = none)
    (gshadowFree : pc.holdsGshadow = true → (s.pc p).holdsGshadow = true ∨ s.gshadowLock = none)
    (group : u.group = s.group ∨ (s.pc p).holdsGroup = true)
    (gshadow : u.gshadow = s.gshadow ∨ (s.pc p).holdsGshadow = true)
    (groupRead : ∀ entries, pc = .groupRead entries → entries = u.group)
    (gshadowRead : ∀ members entries, pc = .gshadowRead members entries →
      u.gshadow = some entries) : Locked (u.go p pc) := by
  have others : ∀ q, q ≠ p → (u.go p pc).pc q = s.pc q := fun q hq => by
    rw [System.go_pc_other u hq, same]
  constructor
  · intro q
    show _ ↔ u.groupLock = some q
    rw [groupLock]
    by_cases here : q = p
    · subst here
      rw [System.go_pc_self, lockAfter]
      have before := h.group q
      cases pc.holdsGroup <;> cases hheld : (s.pc q).holdsGroup <;> simp_all
    · rw [others q here, h.group q]
      exact lockAfter_iff _ (h.group p) groupFree here
  · intro q
    show _ ↔ u.gshadowLock = some q
    rw [gshadowLock]
    by_cases here : q = p
    · subst here
      rw [System.go_pc_self, lockAfter]
      have before := h.gshadow q
      cases pc.holdsGshadow <;> cases hheld : (s.pc q).holdsGshadow <;> simp_all
    · rw [others q here, h.gshadow q]
      exact lockAfter_iff _ (h.gshadow p) gshadowFree here
  · intro q entries hq
    show entries = u.group
    by_cases here : q = p
    · subst here
      rw [System.go_pc_self] at hq
      exact groupRead entries hq
    · rw [others q here] at hq
      obtain unchanged | held := group
      · rw [unchanged]
        exact h.groupRead q entries hq
      · have holder : (s.pc q).holdsGroup = true := by rw [hq]; rfl
        have owner := ((h.group q).mp holder).symm.trans ((h.group p).mp held)
        exact absurd (Option.some.inj owner) here
  · intro q members entries hq
    show u.gshadow = some entries
    by_cases here : q = p
    · subst here
      rw [System.go_pc_self] at hq
      exact gshadowRead members entries hq
    · rw [others q here] at hq
      obtain unchanged | held := gshadow
      · rw [unchanged]
        exact h.gshadowRead q members entries hq
      · have holder : (s.pc q).holdsGshadow = true := by rw [hq]; rfl
        have owner := ((h.gshadow q).mp holder).symm.trans ((h.gshadow p).mp held)
        exact absurd (Option.some.inj owner) here

theorem locked_moved {p : Fin n} (h : Locked s) (moved : Moved invocations s p t) : Locked t := by
  have group := h.group p
  have gshadow := h.gshadow p
  cases moved with
  | lockGroup pc free => apply h.go <;> simp [pc, free, Pc.holdsGroup, Pc.holdsGshadow, lockAfter]
  | lockGshadow members pc free =>
      apply h.go <;> simp [pc, free, Pc.holdsGroup, Pc.holdsGshadow, lockAfter]
  | readGroup pc =>
      have owner := group.mp (by rw [pc]; rfl)
      apply h.go <;> simp [pc, owner, Pc.holdsGroup, Pc.holdsGshadow, lockAfter]
  | readGshadow members entries pc content =>
      have owner := gshadow.mp (by rw [pc]; rfl)
      apply h.go <;> simp [pc, owner, content, Pc.holdsGroup, Pc.holdsGshadow, lockAfter]
  | writeGroup entries entries' entry pc updated =>
      have owner := group.mp (by rw [pc]; rfl)
      apply h.go <;> simp [pc, owner, Pc.holdsGroup, Pc.holdsGshadow, lockAfter]
  | writeGshadow members entries pc =>
      have owner := gshadow.mp (by rw [pc]; rfl)
      apply h.go <;> simp [pc, owner, Pc.holdsGroup, Pc.holdsGshadow, lockAfter]
  | refuse entries e pc refused =>
      apply h.go <;> simp [pc, Pc.holdsGroup, Pc.holdsGshadow, lockAfter]
  | unlockGroup members pc => apply h.go <;> simp [pc, Pc.holdsGroup, Pc.holdsGshadow, lockAfter]
  | skipGshadow members pc missing =>
      apply h.go <;> simp [pc, Pc.holdsGroup, Pc.holdsGshadow, lockAfter]
  | unlockGshadow pc => apply h.go <;> simp [pc, Pc.holdsGroup, Pc.holdsGshadow, lockAfter]
  | quit pc =>
      obtain pc | ⟨members, pc⟩ := pc
      · apply h.go <;> simp [pc, Pc.holdsGroup, Pc.holdsGshadow, lockAfter]
      · apply h.go <;> simp [pc, Pc.holdsGroup, Pc.holdsGshadow, lockAfter]
  | quitGroup pc =>
      obtain pc | ⟨entries, pc⟩ := pc
      · apply h.go <;> simp [pc, Pc.holdsGroup, Pc.holdsGshadow, lockAfter]
      · apply h.go <;> simp [pc, Pc.holdsGroup, Pc.holdsGshadow, lockAfter]
  | quitGshadow pc =>
      obtain ⟨members, pc⟩ | ⟨members, entries, pc⟩ := pc
      · apply h.go <;> simp [pc, Pc.holdsGroup, Pc.holdsGshadow, lockAfter]
      · apply h.go <;> simp [pc, Pc.holdsGroup, Pc.holdsGshadow, lockAfter]

/-! ## The contents of the two files -/

/-- What an invocation remembers of the members in `/etc/group`. -/
def Pc.snapshot : Pc → Option (List Str)
  | groupWritten members => some members
  | groupReleased members => some members
  | gshadowLocked members => some members
  | gshadowRead members _ => some members
  | _ => none

def Pc.groupDone : Pc → Bool
  | gshadowWritten => true
  | exited code => code == 0
  | pc => pc.snapshot.isSome

def Pc.gshadowDone : Pc → Bool
  | gshadowWritten => true
  | exited code => code == 0
  | _ => false

section Contents

variable {changes : Fin n → Change} {group : Str} {was : Str → Prop}

/-- No invocation changes the user. -/
def Unconcerned (changes : Fin n → Change) (user : Str) : Prop := ∀ p, (changes p).user ≠ user

/-- The line of the group in `/etc/gshadow` after some changes, as far as it is settled: for the
users these changed, and for those no invocation changes. -/
structure Shadowed (changes : Fin n → Change) (group : Str) (was : Str → Prop)
    (writes : List (Fin n)) (entries : List GshadowEntry) : Prop where
  members : ∀ user, lastChange user (writes.map changes) ≠ none ∨ Unconcerned changes user →
    (GshadowMember group entries user ↔ memberAfter (was user) user (writes.map changes))
  line : writes ≠ [] → ∃ g, entries.find? (fun g => g.name == group) = some g

theorem memberAfter_unconcerned {user : Str} (h : Unconcerned changes user)
    (writes : List (Fin n)) : memberAfter (was user) user (writes.map changes) = was user := by
  have nothing : lastChange user (writes.map changes) = none := by
    rw [lastChange, List.getLast?_eq_none_iff, List.filter_eq_nil_iff]
    rintro c hc
    obtain ⟨p, -, rfl⟩ := List.mem_map.mp hc
    simpa using h p
  rw [memberAfter, nothing]

theorem Change.effect_other {c : Change} {user : Str} (h : c.user ≠ user) (p : Prop) :
    c.effect p user ↔ p := by
  cases c with
  | add other =>
      have differs : user ≠ other := fun same => h same.symm
      simp [Change.effect, differs]
  | delete other =>
      have differs : user ≠ other := fun same => h same.symm
      simp [Change.effect, differs]

theorem Change.effect_self {c : Change} {user : Str} (h : c.user = user) (p q : Prop) :
    c.effect p user ↔ c.effect q user := by
  cases c with
  | add other => simp [Change.effect, ← h, Change.user]
  | delete other => simp [Change.effect, ← h, Change.user]

/-- An invocation writes the line; the members it remembers only count for users that no invocation
changes. -/
theorem Shadowed.update {writes : List (Fin n)} {entries : List GshadowEntry}
    (h : Shadowed changes group was writes entries) (p : Fin n) {members : List Str}
    (remembered : ∀ user, Unconcerned changes user → (user ∈ members ↔ was user)) :
    Shadowed changes group was (writes ++ [p])
      (updateGshadow ((changes p).invocation group).options ((changes p).invocation group).password
        members entries) := by
  constructor
  · intro user settled
    rw [List.map_append, List.map_singleton] at settled ⊢
    rw [gshadowMember_update, memberAfter_concat]
    by_cases here : (changes p).user = user
    · exact Change.effect_self here _ _
    · rw [Change.effect_other here, Change.effect_other here]
      rw [lastChange_concat, if_neg here] at settled
      have before := h.members user settled
      rw [← before]
      obtain changed | unconcerned := settled
      · have written : writes ≠ [] := by
          rintro rfl
          exact changed rfl
        obtain ⟨g, hg⟩ := h.line written
        simp [hg]
      · rw [memberAfter_unconcerned unconcerned] at before
        constructor
        · rintro (member | ⟨-, member⟩)
          · exact member
          · exact before.mpr ((remembered user unconcerned).mp member)
        · exact Or.inl
  · intro _
    have same : ((changes p).invocation group).options.group = group := by
      cases changes p <;> rfl
    have updated := find?_updateGshadow ((changes p).invocation group).options
      ((changes p).invocation group).password members entries
    rw [same] at updated
    exact ⟨_, updated⟩

/-- What is known of a state in a run of such invocations. -/
structure Tracked (changes : Fin n → Change) (group : Str) (was : Str → Prop) (s : System n) :
    Prop where
  locked : Locked s
  members : ∀ user, GroupMember group s.group user ↔
    memberAfter (was user) user (s.groupWrites.map changes)
  shadowed : ∃ entries, s.gshadow = some entries ∧
    Shadowed changes group was s.gshadowWrites entries
  snapshot : ∀ p members, (s.pc p).snapshot = some members →
    ∀ user, Unconcerned changes user → (user ∈ members ↔ was user)
  wroteGroup : ∀ p, (s.pc p).groupDone = true → p ∈ s.groupWrites
  wroteGshadow : ∀ p, (s.pc p).gshadowDone = true → p ∈ s.gshadowWrites

/-- A step that writes no file. -/
theorem Tracked.go {s u : System n} {p : Fin n} {pc : Pc} (h : Tracked changes group was s)
    (locked : Locked (u.go p pc)) (same : u.pc = s.pc) (groupFile : u.group = s.group)
    (gshadowFile : u.gshadow = s.gshadow) (groupWrites : u.groupWrites = s.groupWrites)
    (gshadowWrites : u.gshadowWrites = s.gshadowWrites)
    (snapshot : ∀ members, pc.snapshot = some members → (s.pc p).snapshot = some members)
    (groupDone : pc.groupDone = true → (s.pc p).groupDone = true)
    (gshadowDone : pc.gshadowDone = true → (s.pc p).gshadowDone = true) :
    Tracked changes group was (u.go p pc) := by
  have pcs : ∀ q, (u.go p pc).pc q = if q = p then pc else s.pc q := by
    intro q
    split
    · next here => rw [here, System.go_pc_self]
    · next other => rw [System.go_pc_other u other, same]
  constructor
  · exact locked
  · show ∀ user, GroupMember group u.group user ↔ memberAfter _ _ (u.groupWrites.map changes)
    rw [groupFile, groupWrites]
    exact h.members
  · show ∃ entries, u.gshadow = some entries ∧ Shadowed _ _ _ u.gshadowWrites entries
    rw [gshadowFile, gshadowWrites]
    exact h.shadowed
  · intro q members hq
    rw [pcs] at hq
    split at hq
    · exact h.snapshot p members (snapshot members hq)
    · exact h.snapshot q members hq
  · intro q hq
    show q ∈ u.groupWrites
    rw [groupWrites]
    rw [pcs] at hq
    split at hq
    · next here => exact here ▸ h.wroteGroup p (groupDone hq)
    · exact h.wroteGroup q hq
  · intro q hq
    show q ∈ u.gshadowWrites
    rw [gshadowWrites]
    rw [pcs] at hq
    split at hq
    · next here => exact here ▸ h.wroteGshadow p (gshadowDone hq)
    · exact h.wroteGshadow q hq

theorem GpasswdError.code_ne_zero (e : GpasswdError) : (e.code == 0) = false := by
  cases e <;> rfl

theorem tracked_moved {s t : System n} {p : Fin n} (h : Tracked changes group was s)
    (moved : Moved (fun q => (changes q).invocation group) s p t) :
    Tracked changes group was t := by
  have locked := locked_moved h.locked moved
  cases moved with
  | lockGroup pc free => apply h.go locked <;> simp [Pc.snapshot, Pc.groupDone, Pc.gshadowDone]
  | readGroup pc => apply h.go locked <;> simp [Pc.snapshot, Pc.groupDone, Pc.gshadowDone]
  | refuse entries e pc refused =>
      have code := GpasswdError.code_ne_zero e
      apply h.go locked <;> simp [code, Pc.snapshot, Pc.groupDone, Pc.gshadowDone]
  | unlockGroup members pc =>
      apply h.go locked <;> simp [pc, Pc.snapshot, Pc.groupDone, Pc.gshadowDone]
  | skipGshadow members pc missing =>
      obtain ⟨entries, content, -⟩ := h.shadowed
      cases missing.symm.trans content
  | lockGshadow members pc free =>
      apply h.go locked <;> simp [pc, Pc.snapshot, Pc.groupDone, Pc.gshadowDone]
  | readGshadow members entries pc content =>
      apply h.go locked <;> simp [pc, Pc.snapshot, Pc.groupDone, Pc.gshadowDone]
  | unlockGshadow pc => apply h.go locked <;> simp [pc, Pc.snapshot, Pc.groupDone, Pc.gshadowDone]
  | quit pc => apply h.go locked <;> simp [Pc.snapshot, Pc.groupDone, Pc.gshadowDone]
  | quitGroup pc => apply h.go locked <;> simp [Pc.snapshot, Pc.groupDone, Pc.gshadowDone]
  | quitGshadow pc => apply h.go locked <;> simp [Pc.snapshot, Pc.groupDone, Pc.gshadowDone]
  | writeGroup entries entries' entry pc updated =>
      obtain rfl := h.locked.groupRead p entries pc
      have update := groupMember_update updated
      have members : ∀ user, GroupMember group entries' user ↔
          memberAfter (was user) user ((s.groupWrites ++ [p]).map changes) := by
        intro user
        rw [List.map_append, List.map_singleton, memberAfter_concat, (update user).1]
        cases changes p with
        | add other => exact or_congr_left (h.members user)
        | delete other => exact and_congr_left fun _ => h.members user
      have remembered : ∀ user, Unconcerned changes user → (user ∈ entry.members ↔ was user) := by
        intro user unconcerned
        rw [(update user).2, members user, memberAfter_unconcerned unconcerned]
      refine ⟨locked, members, h.shadowed, ?_, ?_, ?_⟩
      · intro q remembered' hq
        by_cases here : q = p
        · subst here
          rw [System.go_pc_self] at hq
          exact Option.some.inj hq ▸ remembered
        · rw [System.go_pc_other _ here] at hq
          exact h.snapshot q remembered' hq
      · intro q hq
        by_cases here : q = p
        · exact here ▸ List.mem_concat_self
        · rw [System.go_pc_other _ here] at hq
          exact List.mem_append_left _ (h.wroteGroup q hq)
      · intro q hq
        by_cases here : q = p
        · subst here
          rw [System.go_pc_self] at hq
          cases hq
        · rw [System.go_pc_other _ here] at hq
          exact h.wroteGshadow q hq
  | writeGshadow members entries pc =>
      obtain ⟨current, content, shadowed⟩ := h.shadowed
      have read := h.locked.gshadowRead p members entries pc
      obtain rfl := Option.some.inj (content.symm.trans read)
      have remembered := h.snapshot p members (by rw [pc]; rfl)
      refine ⟨locked, h.members, ⟨_, rfl, shadowed.update p remembered⟩, ?_, ?_, ?_⟩
      · intro q remembered' hq
        by_cases here : q = p
        · subst here
          rw [System.go_pc_self] at hq
          cases hq
        · rw [System.go_pc_other _ here] at hq
          exact h.snapshot q remembered' hq
      · intro q hq
        by_cases here : q = p
        · exact here ▸ h.wroteGroup p (by rw [pc]; rfl)
        · rw [System.go_pc_other _ here] at hq
          exact h.wroteGroup q hq
      · intro q hq
        by_cases here : q = p
        · exact here ▸ List.mem_concat_self
        · rw [System.go_pc_other _ here] at hq
          exact List.mem_append_left _ (h.wroteGshadow q hq)

/-- The files before any invocation has begun. -/
def System.initial (passwd : List Str) (groups : List GroupEntry) (lines : List GshadowEntry) :
    System n where
  passwd := passwd
  group := groups
  gshadow := some lines

theorem tracked_initial {passwd : List Str} {groups : List GroupEntry} {lines : List GshadowEntry}
    (agree : ∀ user, GroupMember group groups user ↔ GshadowMember group lines user) :
    Tracked changes group (GroupMember group groups) (System.initial passwd groups lines) where
  locked :=
    { group := fun _ => ⟨fun h => (nomatch h), fun h => (nomatch h)⟩
      gshadow := fun _ => ⟨fun h => (nomatch h), fun h => (nomatch h)⟩
      groupRead := fun _ _ h => nomatch h
      gshadowRead := fun _ _ _ h => nomatch h }
  members _ := Iff.rfl
  shadowed :=
    ⟨lines, rfl, { members := fun user _ => (agree user).symm, line := fun h => absurd rfl h }⟩
  snapshot _ _ h := nomatch h
  wroteGroup _ h := nomatch h
  wroteGshadow _ h := nomatch h

/-- The same users are members in both files. -/
def MembersAgree (group : Str) (s : System n) : Prop :=
  ∃ lines, s.gshadow = some lines ∧
    ∀ user, GroupMember group s.group user ↔ GshadowMember group lines user

/-- For each user, the last invocation to write `/etc/group` and the last one to write
`/etc/gshadow` do the same with the user. -/
def SameLastChanges (changes : Fin n → Change) (s : System n) : Prop :=
  ∀ user, lastChange user (s.groupWrites.map changes) =
    lastChange user (s.gshadowWrites.map changes)

theorem lastChange_user {user : Str} {cs : List Change} {c : Change}
    (h : lastChange user cs = some c) : c.user = user := by
  have member := List.mem_of_getLast? h
  simpa using (List.mem_filter.mp member).2

/-- Where all invocations wrote a file, there is a last change for each user one of them changes. -/
theorem lastChange_eq_none_iff {writes : List (Fin n)} (all : ∀ p, p ∈ writes) (user : Str) :
    lastChange user (writes.map changes) = none ↔ Unconcerned changes user := by
  rw [lastChange, List.getLast?_eq_none_iff, List.filter_eq_nil_iff]
  constructor
  · intro nothing p
    simpa using nothing _ (List.mem_map_of_mem (all p))
  · intro unconcerned c hc
    obtain ⟨p, -, rfl⟩ := List.mem_map.mp hc
    simpa using unconcerned p

/-- Where each of two last changes of a user is settled, they are the same exactly if the user is a
member after both or after none. -/
theorem memberAfter_iff_iff {user : Str} {cs ds : List Change} {p : Prop}
    (settled : lastChange user cs = none ↔ lastChange user ds = none) :
    (memberAfter p user cs ↔ memberAfter p user ds) ↔ lastChange user cs = lastChange user ds := by
  unfold memberAfter
  cases hc : lastChange user cs with
  | none =>
      rw [settled.mp hc]
      simp
  | some c =>
      cases hd : lastChange user ds with
      | none => cases (settled.mpr hd).symm.trans hc
      | some d =>
          have same := (lastChange_user hc).trans (lastChange_user hd).symm
          cases c <;> cases d <;> simp_all [Change.user]

/-- When all of some invocations that add a user to a group, or delete one, have exited with 0, the
two files agree on the members exactly if for each user the last writes of both do the same. -/
theorem membersAgree_iff {passwd : List Str} {groups : List GroupEntry} {lines : List GshadowEntry}
    (agree : ∀ user, GroupMember group groups user ↔ GshadowMember group lines user)
    {actions : List (Action n)} {s : System n}
    (hrun : Actions.run (step fun p => (changes p).invocation group)
      (System.initial passwd groups lines) actions = some s)
    (exited : ∀ p, s.pc p = .exited 0) :
    MembersAgree group s ↔ SameLastChanges changes s := by
  have keeps : ∀ s a t, Tracked changes group (GroupMember group groups) s →
      step (fun p => (changes p).invocation group) s a = some t →
      Tracked changes group (GroupMember group groups) t := by
    intro s a t h hstep
    obtain ⟨p, moved⟩ := moved_of_step hstep
    exact tracked_moved h moved
  have tracked := Actions.run_invariant keeps (tracked_initial agree) hrun
  obtain ⟨lines', content, shadowed⟩ := tracked.shadowed
  have groupDone : ∀ user, lastChange user (s.groupWrites.map changes) = none ↔
      Unconcerned changes user :=
    lastChange_eq_none_iff fun p => tracked.wroteGroup p (by rw [exited p]; rfl)
  have gshadowDone : ∀ user, lastChange user (s.gshadowWrites.map changes) = none ↔
      Unconcerned changes user :=
    lastChange_eq_none_iff fun p => tracked.wroteGshadow p (by rw [exited p]; rfl)
  have decided : ∀ user, (GroupMember group s.group user ↔ GshadowMember group lines' user) ↔
      lastChange user (s.groupWrites.map changes) =
        lastChange user (s.gshadowWrites.map changes) := by
    intro user
    have settled : lastChange user (s.gshadowWrites.map changes) ≠ none ∨
        Unconcerned changes user := by
      rw [← gshadowDone user]
      exact (Decidable.em _).symm
    rw [tracked.members user, shadowed.members user settled]
    exact memberAfter_iff_iff ((groupDone user).trans (gshadowDone user).symm)
  constructor
  · rintro ⟨_, content', agreeing⟩ user
    obtain rfl := Option.some.inj (content.symm.trans content')
    exact (decided user).mp (agreeing user)
  · intro same
    exact ⟨lines', content, fun user => (decided user).mpr (same user)⟩

end Contents

/-! ## Two invocations -/

/-- The first invocation deletes a user from the group, and the second one adds the user. -/
def deleteAndAdd (p : Fin 2) : Change :=
  if p.val = 0 then .delete "alice".toList else .add "alice".toList

/-- One after the other, and each changes both files. -/
def inTurn : List (Action 2) :=
  List.replicate 8 (.advance ⟨0, Nat.two_pos⟩) ++ List.replicate 8 (.advance ⟨1, Nat.one_lt_two⟩)

/-- The second invocation overtakes the first one between its two files. -/
def overtaken : List (Action 2) :=
  List.replicate 4 (.advance ⟨0, Nat.two_pos⟩) ++
    List.replicate 8 (.advance ⟨1, Nat.one_lt_two⟩) ++
    List.replicate 4 (.advance ⟨0, Nat.two_pos⟩)

/-- The run of the two invocations on a group without members. -/
def deletedAndAdded (actions : List (Action 2)) : Option (System 2) :=
  Actions.run (step fun p => (deleteAndAdd p).invocation "staff".toList)
    (System.initial ["alice".toList] [⟨"staff".toList, "x".toList, 50, []⟩]
      [⟨"staff".toList, "!".toList, [], []⟩]) actions

/-- One group, with a line in each file. -/
theorem members_agree_of_one {group x y : Str} {gid : Nat} {admins members : List Str}
    (user : Str) :
    GroupMember group [⟨group, x, gid, members⟩] user ↔
      GshadowMember group [⟨group, y, admins, members⟩] user := by
  simp [GroupMember, GshadowMember]

theorem membersAgree_iff_inTurn :
    ∃ s, deletedAndAdded inTurn = some s ∧ (∀ p, s.pc p = .exited 0) ∧
      (MembersAgree "staff".toList s ↔ SameLastChanges deleteAndAdd s) := by
  obtain ⟨s, hrun, exited⟩ :
      ∃ s, deletedAndAdded inTurn = some s ∧ ∀ p, s.pc p = .exited 0 := ⟨_, rfl, by decide⟩
  exact ⟨s, hrun, exited, membersAgree_iff members_agree_of_one hrun exited⟩

/-- The user is deleted from `/etc/group` first and from `/etc/gshadow` last. -/
theorem members_differ_overtaken :
    ¬ ∀ (n : Nat) (changes : Fin n → Change) (group : Str) (passwd : List Str)
      (groups : List GroupEntry) (lines : List GshadowEntry),
      (∀ p, (changes p).user ∈ passwd) →
      (∀ user, GroupMember group groups user ↔ GshadowMember group lines user) →
      ∀ (actions : List (Action n)) (s : System n),
        Actions.run (step fun p => (changes p).invocation group)
          (System.initial passwd groups lines) actions = some s →
        (∀ p, s.pc p = .exited 0) → MembersAgree group s := by
  intro claim
  obtain ⟨s, hrun, exited, hgroup, hgshadow⟩ :
      ∃ s, deletedAndAdded overtaken = some s ∧ (∀ p, s.pc p = .exited 0) ∧
        s.group = [⟨"staff".toList, "x".toList, 50, ["alice".toList]⟩] ∧
        s.gshadow = some [⟨"staff".toList, "!".toList, [], []⟩] :=
    ⟨_, rfl, by decide, rfl, rfl⟩
  obtain ⟨lines, content, same⟩ :=
    claim 2 deleteAndAdd "staff".toList ["alice".toList] _ _ (by decide) members_agree_of_one
      overtaken s hrun exited
  obtain rfl := Option.some.inj (hgshadow.symm.trans content)
  have present : GroupMember "staff".toList s.group "alice".toList :=
    hgroup ▸ ⟨_, rfl, List.mem_cons_self⟩
  obtain ⟨g, hg, member⟩ := (same "alice".toList).mp present
  obtain rfl := Option.some.inj hg
  cases member

end Baseimage.Gpasswd
