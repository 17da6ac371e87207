import Mathlib

/-!
# The credentials of a process

A process has a real, an effective and a saved user and group, and supplementary groups. With the
effective user 0 it may set them to anything. Otherwise it may only choose among the users and the
groups it already has, so what it has given up it does not get back, whatever it calls.
-/

/-- The credentials by which the kernel decides on permissions. -/
structure Credentials where
  ruid : Nat
  euid : Nat
  suid : Nat
  rgid : Nat
  egid : Nat
  sgid : Nat
  groups : List Nat
  deriving DecidableEq, Repr

namespace Credentials

variable (c : Credentials)

def privileged : Bool := c.euid == 0

def uids : List Nat := [c.ruid, c.euid, c.suid]

def gids : List Nat := [c.rgid, c.egid, c.sgid]

/-! ## System calls -/

def setgroups (groups : List Nat) : Option Credentials :=
  if c.privileged then some { c with groups := groups } else none

def setgid (gid : Nat) : Option Credentials :=
  if c.privileged then some { c with rgid := gid, egid := gid, sgid := gid }
  else if gid = c.rgid ∨ gid = c.sgid then some { c with egid := gid }
  else none

def setuid (uid : Nat) : Option Credentials :=
  if c.privileged then some { c with ruid := uid, euid := uid, suid := uid }
  else if uid = c.ruid ∨ uid = c.suid then some { c with euid := uid }
  else none

/-- An id is left as it is where -1 is passed. -/
def setresgid (rgid egid sgid : Option Nat) : Option Credentials :=
  if c.privileged ∨ ∀ gid ∈ [rgid, egid, sgid].reduceOption, gid ∈ c.gids then
    some { c with rgid := rgid.getD c.rgid, egid := egid.getD c.egid, sgid := sgid.getD c.sgid }
  else none

def setresuid (ruid euid suid : Option Nat) : Option Credentials :=
  if c.privileged ∨ ∀ uid ∈ [ruid, euid, suid].reduceOption, uid ∈ c.uids then
    some { c with ruid := ruid.getD c.ruid, euid := euid.getD c.euid, suid := suid.getD c.suid }
  else none

end Credentials

/-- A call that asks for other credentials. -/
inductive CredentialCall where
  | setgroups (groups : List Nat)
  | setgid (gid : Nat)
  | setuid (uid : Nat)
  | setresgid (rgid egid sgid : Option Nat)
  | setresuid (ruid euid suid : Option Nat)
  deriving DecidableEq, Repr

namespace Credentials

/-- What the kernel makes of a call, unless it refuses it. -/
def call (c : Credentials) : CredentialCall → Option Credentials
  | .setgroups groups => c.setgroups groups
  | .setgid gid => c.setgid gid
  | .setuid uid => c.setuid uid
  | .setresgid rgid egid sgid => c.setresgid rgid egid sgid
  | .setresuid ruid euid suid => c.setresuid ruid euid suid

/-- A program that makes some calls. One that is refused changes nothing. -/
def attempt (c : Credentials) (calls : List CredentialCall) : Credentials :=
  calls.foldl (fun c call => (c.call call).getD c) c

/-- Root is given up for good: the process has no user but these, no group but these, and exactly
these supplementary groups. -/
structure Confined (uids gids groups : List Nat) (c : Credentials) : Prop where
  uids : ∀ uid ∈ c.uids, uid ∈ uids
  gids : ∀ gid ∈ c.gids, gid ∈ gids
  groups : c.groups = groups

variable {c d : Credentials} {uids gids groups : List Nat}

theorem Confined.unprivileged (h : Confined uids gids groups c) (noRoot : 0 ∉ uids) :
    c.privileged = false := by
  rw [privileged, beq_eq_false_iff_ne]
  intro root
  exact noRoot (root ▸ h.uids c.euid (by simp [Credentials.uids]))

theorem mem_uids {c : Credentials} {uid : Nat} :
    uid ∈ c.uids ↔ uid = c.ruid ∨ uid = c.euid ∨ uid = c.suid := by simp [Credentials.uids]

theorem mem_gids {c : Credentials} {gid : Nat} :
    gid ∈ c.gids ↔ gid = c.rgid ∨ gid = c.egid ∨ gid = c.sgid := by simp [Credentials.gids]

/-- What is chosen among ids, or left, is one of them. -/
theorem getD_mem {ids : List Nat} {id : Nat} {chosen : Option Nat} {all : List (Option Nat)}
    (allowed : ∀ x ∈ all.reduceOption, x ∈ ids) (listed : chosen ∈ all) (own : id ∈ ids) :
    chosen.getD id ∈ ids := by
  cases chosen with
  | none => exact own
  | some x => exact allowed x (List.reduceOption_mem_iff.mpr listed)

/-- A call of a confined process. -/
theorem Confined.call (h : Confined uids gids groups c) (noRoot : 0 ∉ uids)
    {request : CredentialCall}
    (granted : c.call request = some d) : Confined uids gids groups d := by
  have unprivileged := h.unprivileged noRoot
  have ofUids {d : Credentials} (users : ∀ uid ∈ d.uids, uid ∈ c.uids)
      (rest : d.gids = c.gids ∧ d.groups = c.groups) : Confined uids gids groups d :=
    { uids := fun uid member => h.uids uid (users uid member)
      gids := fun gid member => h.gids gid (rest.1 ▸ member)
      groups := rest.2.trans h.groups }
  have ofGids {d : Credentials} (ids : ∀ gid ∈ d.gids, gid ∈ c.gids)
      (rest : d.uids = c.uids ∧ d.groups = c.groups) : Confined uids gids groups d :=
    { uids := fun uid member => h.uids uid (rest.1 ▸ member)
      gids := fun gid member => h.gids gid (ids gid member)
      groups := rest.2.trans h.groups }
  cases request with
  | setgroups groups => simp [Credentials.call, setgroups, unprivileged] at granted
  | setgid gid =>
      simp only [Credentials.call, setgid, unprivileged, Bool.false_eq_true, if_false] at granted
      obtain ⟨own, ⟨⟩⟩ := Option.ite_none_right_eq_some.mp granted
      refine ofGids (fun id member => ?_) ⟨rfl, rfl⟩
      rw [mem_gids] at member ⊢
      grind
  | setuid uid =>
      simp only [Credentials.call, setuid, unprivileged, Bool.false_eq_true, if_false] at granted
      obtain ⟨own, ⟨⟩⟩ := Option.ite_none_right_eq_some.mp granted
      refine ofUids (fun id member => ?_) ⟨rfl, rfl⟩
      rw [mem_uids] at member ⊢
      grind
  | setresgid rgid egid sgid =>
      simp only [Credentials.call, setresgid, unprivileged, Bool.false_eq_true, false_or] at granted
      obtain ⟨allowed, ⟨⟩⟩ := Option.ite_none_right_eq_some.mp granted
      refine ofGids (fun id member => ?_) ⟨rfl, rfl⟩
      rcases mem_gids.mp member with rfl | rfl | rfl
      · exact getD_mem allowed (by simp) (by simp [Credentials.gids])
      · exact getD_mem allowed (by simp) (by simp [Credentials.gids])
      · exact getD_mem allowed (by simp) (by simp [Credentials.gids])
  | setresuid ruid euid suid =>
      simp only [Credentials.call, setresuid, unprivileged, Bool.false_eq_true, false_or] at granted
      obtain ⟨allowed, ⟨⟩⟩ := Option.ite_none_right_eq_some.mp granted
      refine ofUids (fun id member => ?_) ⟨rfl, rfl⟩
      rcases mem_uids.mp member with rfl | rfl | rfl
      · exact getD_mem allowed (by simp) (by simp [Credentials.uids])
      · exact getD_mem allowed (by simp) (by simp [Credentials.uids])
      · exact getD_mem allowed (by simp) (by simp [Credentials.uids])

/-- Whatever a confined process calls, it stays confined. -/
theorem Confined.attempt (h : Confined uids gids groups c) (noRoot : 0 ∉ uids)
    (calls : List CredentialCall) : Confined uids gids groups (c.attempt calls) := by
  induction calls generalizing c with
  | nil => exact h
  | cons request calls ih =>
      refine ih (c := (c.call request).getD c) ?_
      cases granted : c.call request with
      | none => exact h
      | some d => exact h.call noRoot granted

end Credentials
