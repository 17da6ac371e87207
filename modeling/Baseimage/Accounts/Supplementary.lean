import Baseimage.Accounts.Members
import Baseimage.Accounts.Unambiguous

/-!
# The supplementary groups of services

`/defaults/service/sgid` prints the groups a service runs with, from all variables with
supplementary group ids. `10-init-users.sh` makes `app` a member of groups, from two of these
variables and from the
definitions. Both read the same environment.
-/

namespace Baseimage.Accounts

open Filters

def isInternalChar (c : Char) : Bool := ('A' ≤ c && c ≤ 'Z') || c.isDigit || c == '_'

def internalPrefix : Str := "SUP_GROUP_IDS_INTERNAL_".toList

/-- `sed -n 's/\(^SUP_GROUP_IDS_INTERNAL_[A-Z0-9_]\+\)\=.*/\1/p'`, for a line. -/
def sedInternalName (line : Str) : Option Str :=
  if internalPrefix.isPrefixOf line then
    let rest := line.drop internalPrefix.length
    let name := rest.takeWhile isInternalChar
    if name ≠ [] ∧ (rest.dropWhile isInternalChar).head? = some '='
      then some (internalPrefix ++ name)
    else none
  else none

/-- The variables of an environment, in the order `env` prints them. -/
abbrev Environment := List (Str × Str)

namespace Environment

def get (vars : Environment) (name : Str) : Option Str := vars.lookup name

/-- The lines of `env`. A value may have several. -/
def lines (vars : Environment) : List Str := vars.flatMap fun v => (v.1 ++ '=' :: v.2).splitOn '\n'

/-- The names that the loop of `sgid` goes through. -/
def internalNames (vars : Environment) : List Str := vars.lines.filterMap sedInternalName

end Environment

/-- `eval "grps=\${grps},\$${var}"`; an unset variable is an error. -/
def appendInternal (vars : Environment) (grps var : Str) : Option Str :=
  (vars.get var).map fun value => grps ++ ",".toList ++ value

/-- `/defaults/service/sgid`: the lines it prints, or `none` when it fails. -/
def sgid (tools : Tools) (vars : Environment) : Option (List Str) := do
  let groupId ← vars.get "GROUP_ID".toList
  let grps := groupId ++ ",".toList ++ valueOf vars.get "SUP_GROUP_IDS" ++ ",".toList ++
    valueOf vars.get "SUP_GROUP_IDS_INTERNAL"
  let grps ← vars.internalNames.foldlM (appendInternal vars) grps
  return tools.sort.sort (listedIds tools.echo grps)

/-- A comma-separated list of ids without leading zeros. -/
def CanonicalList (list : Str) : Prop :=
  ∀ id ∈ list.splitOn ',', id = [] ∨ isNumber id = true ∧ (id = "0".toList ∨ id.head? ≠ some '0')

instance (list : Str) : Decidable (CanonicalList list) :=
  inferInstanceAs (Decidable (∀ id ∈ list.splitOn ',', _ ∨ _))

/-- `SUP_GROUP_IDS_INTERNAL_<NAME>` -/
def IsInternalName (n : Str) : Prop :=
  ∃ name : Str, name ≠ [] ∧ (∀ c ∈ name, isInternalChar c = true) ∧ n = internalPrefix ++ name

/-- The ids in the environment, with a group of `app` that is not the one with the id 0. -/
structure SupEnvironment (vars : Environment) : Prop where
  user : isNumber (valueOf vars.get "USER_ID") = true
  group : isNumber (valueOf vars.get "GROUP_ID") = true
  nonzero : number (valueOf vars.get "GROUP_ID") ≠ 0
  sup : CanonicalList (valueOf vars.get "SUP_GROUP_IDS")
  supInternal : CanonicalList (valueOf vars.get "SUP_GROUP_IDS_INTERNAL")
  internal : ∀ v ∈ vars, IsInternalName v.1 → CanonicalList v.2

/-- The ids that both scripts take from the environment. -/
def sharedIds (vars : Environment) : List Str :=
  idsOf (valueOf vars.get "SUP_GROUP_IDS") ++ idsOf (valueOf vars.get "SUP_GROUP_IDS_INTERNAL")

/-- The ids that only `sgid` takes from the environment. -/
def internalIds (vars : Environment) : List Str :=
  vars.internalNames.flatMap fun n => idsOf ((vars.get n).getD [])

/-- A group that `sgid` prints, other than the one with the id 0. -/
def Prints (tools : Tools) (vars : Environment) (v : Nat) : Prop :=
  ∃ out, sgid tools vars = some out ∧ ∃ id ∈ out, number id = v ∧ v ≠ 0

/-- A group that `app` is a member of in `/etc/group`. -/
def AppMember (db : Databases) (v : Nat) : Prop :=
  ∃ line ∈ db.group, app ∈ (cut ':' 4 line).splitOn ',' ∧ number (cut ':' 3 line) = v

/-- What one script takes into account and the other does not makes no difference. -/
structure SupAgrees (defs : Definitions) (vars : Environment) : Prop where
  assigned : ∀ n ∈ vars.internalNames, (vars.get n).isSome = true
  internal : ∀ id ∈ internalIds vars,
    number (valueOf vars.get "GROUP_ID") = number id ∨
      (∃ k ∈ sharedIds vars, number k = number id) ∨
      ∃ g ∈ defs.enabledGroups, defs.GivesApp g ∧ number g.id = number id
  defined : ∀ g ∈ defs.enabledGroups, defs.GivesApp g →
    number (valueOf vars.get "GROUP_ID") = number g.id ∨
      ∃ k ∈ sharedIds vars ++ internalIds vars, number k = number g.id

/-! ## sgid -/

theorem CanonicalList.numberList {list : Str} (h : CanonicalList list) : NumberList list :=
  fun id hid => (h id hid).imp_right And.left

theorem CanonicalList.nonzero {list id : Str} (h : CanonicalList list) (hid : id ∈ idsOf list) :
    number id ≠ 0 := by
  obtain ⟨member, kept⟩ := List.mem_filter.mp hid
  obtain ⟨nonempty, notZero⟩ : id ≠ [] ∧ id ≠ "0".toList := of_decide_eq_true kept
  obtain empty | ⟨digits, zero | canonical⟩ := h id member
  · exact absurd empty nonempty
  · exact absurd zero notZero
  · obtain ⟨c, s, rfl⟩ := List.exists_cons_of_ne_nil nonempty
    refine number_ne_zero ((isNumber_iff.mp digits).2 c List.mem_cons_self) (fun same => ?_) s
    exact canonical (same ▸ rfl)

theorem isInternalName_of_mem {vars : Environment} {n : Str} (h : n ∈ vars.internalNames) :
    IsInternalName n := by
  obtain ⟨line, -, hline⟩ := List.mem_filterMap.mp h
  unfold sedInternalName at hline
  split at hline
  · dsimp only at hline
    split at hline
    · next found =>
        refine ⟨_, found.1, fun c hc => ?_, (Option.some.inj hline).symm⟩
        exact List.mem_takeWhile_imp hc
    · cases hline
  · cases hline

section Sgid

variable {tools : Tools} {linked : Bool} {defs : Definitions} {vars : Environment} {db : Databases}

theorem SupEnvironment.numericIds (h : SupEnvironment vars) : NumericIds vars.get where
  user := h.user
  group := h.group
  sup := h.sup.numberList
  supInternal := h.supInternal.numberList

theorem SupEnvironment.canonical (h : SupEnvironment vars) {n : Str} (hn : n ∈ vars.internalNames) :
    CanonicalList ((vars.get n).getD []) := by
  cases hget : vars.get n with
  | none => simp [CanonicalList]
  | some value =>
      obtain ⟨before, after, hvars, -⟩ := List.lookup_eq_some_iff.mp hget
      have member : (n, value) ∈ vars := by
        rw [hvars]
        exact List.mem_append_right _ List.mem_cons_self
      exact h.internal (n, value) member (isInternalName_of_mem hn)

/-- The loop of `sgid` puts the lists of the variables together. -/
theorem foldlM_appendInternal {names : List Str} {grps all : Str} (hgrps : NumberList grps)
    (lists : ∀ n ∈ names, NumberList ((vars.get n).getD []))
    (h : names.foldlM (appendInternal vars) grps = some all) :
    (∀ n ∈ names, (vars.get n).isSome = true) ∧ NumberList all ∧
      idsOf all = idsOf grps ++ names.flatMap fun n => idsOf ((vars.get n).getD []) := by
  induction names generalizing grps with
  | nil =>
      obtain rfl := Option.some.inj h
      exact ⟨fun _ hn => (nomatch hn), hgrps, by simp⟩
  | cons n names ih =>
      obtain ⟨list, others⟩ := List.forall_mem_cons.mp lists
      obtain ⟨middle, hfirst, hrest⟩ := Option.bind_eq_some_iff.mp h
      obtain ⟨value, hget, rfl⟩ := Option.map_eq_some_iff.mp hfirst
      rw [hget, Option.getD_some] at list
      obtain ⟨set, numbers, ids⟩ := ih (hgrps.append list) others hrest
      refine ⟨List.forall_mem_cons.mpr ⟨by rw [hget]; rfl, set⟩, numbers, ?_⟩
      rw [ids, idsOf_append, List.append_assoc, List.flatMap_cons, hget]
      rfl

/-- The loop succeeds when the variables are set. -/
theorem foldlM_appendInternal_isSome {names : List Str}
    (set : ∀ n ∈ names, (vars.get n).isSome = true) (grps : Str) :
    ∃ all, names.foldlM (appendInternal vars) grps = some all := by
  induction names generalizing grps with
  | nil => exact ⟨grps, rfl⟩
  | cons n names ih =>
      obtain ⟨here, others⟩ := List.forall_mem_cons.mp set
      obtain ⟨value, hget⟩ := Option.isSome_iff_exists.mp here
      obtain ⟨all, hall⟩ := ih others (grps ++ ",".toList ++ value)
      refine ⟨all, ?_⟩
      rw [List.foldlM_cons, appendInternal, hget]
      exact hall

theorem numberList_of_isNumber {id : Str} (h : isNumber id = true) : NumberList id := by
  rw [NumberList, List.splitOn_eq_singleton (word_of_isNumber h).no_comma]
  exact List.forall_mem_singleton.mpr (.inr h)

theorem idsOf_number {id : Str} (h : isNumber id = true) (nonzero : number id ≠ 0) :
    idsOf id = [id] := by
  have notZero : id ≠ "0".toList := fun same => nonzero (same ▸ rfl)
  rw [idsOf, List.splitOn_eq_singleton (word_of_isNumber h).no_comma, List.filter_cons_of_pos]
  · rfl
  · exact decide_eq_true ⟨(isNumber_iff.mp h).1, notZero⟩

/-- What `sgid` prints. -/
theorem prints_iff (environment : SupEnvironment vars) (v : Nat) :
    Prints tools vars v ↔ (∀ n ∈ vars.internalNames, (vars.get n).isSome = true) ∧
      (number (valueOf vars.get "GROUP_ID") = v ∨
        ∃ id ∈ sharedIds vars ++ internalIds vars, number id = v) := by
  have numeric := environment.numericIds
  obtain ⟨groupId, hget⟩ : ∃ groupId, vars.get "GROUP_ID".toList = some groupId := by
    cases hget : vars.get "GROUP_ID".toList with
    | none =>
        have number := environment.group
        rw [valueOf, hget] at number
        cases number
    | some groupId => exact ⟨groupId, rfl⟩
  have hvalue : valueOf vars.get "GROUP_ID" = groupId := by rw [valueOf, hget, Option.getD_some]
  have hgroup : isNumber groupId = true := hvalue ▸ environment.group
  have hnonzero : number groupId ≠ 0 := hvalue ▸ environment.nonzero
  have begins := ((numberList_of_isNumber hgroup).append numeric.sup).append numeric.supInternal
  have lists : ∀ n ∈ vars.internalNames, NumberList ((vars.get n).getD []) := fun n hn =>
    (environment.canonical hn).numberList
  let grps := groupId ++ ",".toList ++ valueOf vars.get "SUP_GROUP_IDS" ++ ",".toList ++
    valueOf vars.get "SUP_GROUP_IDS_INTERNAL"
  have ids_grps : idsOf grps = groupId :: sharedIds vars := by
    show idsOf (_ ++ ",".toList ++ _) = _
    rw [idsOf_append, idsOf_append, idsOf_number hgroup hnonzero, List.append_assoc]
    rfl
  have unfolded : sgid tools vars = (vars.internalNames.foldlM (appendInternal vars) grps).bind
      fun all => some (tools.sort.sort (listedIds tools.echo all)) := by
    rw [sgid, hget]
    rfl
  have printed : ∀ {all : Str}, vars.internalNames.foldlM (appendInternal vars) grps = some all →
      ((∃ id ∈ tools.sort.sort (listedIds tools.echo all), number id = v) ↔
        number groupId = v ∨ ∃ id ∈ sharedIds vars ++ internalIds vars, number id = v) := by
    intro all hall
    obtain ⟨-, numbers, ids⟩ := foldlM_appendInternal begins lists hall
    have digits : ∀ id ∈ idsOf all, isNumber id = true := fun _ => isNumber_of_mem_idsOf numbers
    rw [listedIds_eq tools.echo numbers, tools.sort.numbers digits, ids, ids_grps]
    simp [internalIds]
  have nonzero : (number groupId = v ∨ ∃ id ∈ sharedIds vars ++ internalIds vars, number id = v) →
      v ≠ 0 := by
    rintro (rfl | ⟨id, hid, rfl⟩)
    · exact hnonzero
    · obtain hid | hid := List.mem_append.mp hid
      · obtain hid | hid := List.mem_append.mp hid
        · exact environment.sup.nonzero hid
        · exact environment.supInternal.nonzero hid
      · obtain ⟨n, hn, hid⟩ := List.mem_flatMap.mp hid
        exact (environment.canonical hn).nonzero hid
  rw [hvalue]
  constructor
  · rintro ⟨out, hout, id, hid, hv, -⟩
    rw [unfolded] at hout
    obtain ⟨all, hall, hsorted⟩ := Option.bind_eq_some_iff.mp hout
    obtain rfl := Option.some.inj hsorted
    exact ⟨(foldlM_appendInternal begins lists hall).1, (printed hall).mp ⟨id, hid, hv⟩⟩
  · rintro ⟨set, listed⟩
    obtain ⟨all, hall⟩ := foldlM_appendInternal_isSome set grps
    obtain ⟨id, hid, hv⟩ := (printed hall).mpr listed
    exact ⟨_, by rw [unfolded, hall]; rfl, id, hid, hv, nonzero listed⟩

/-- The groups that a successful run makes `app` a member of. -/
theorem appMember_iff (named : defs.Named) (environment : SupEnvironment vars)
    (hrun : initUsers tools linked defs vars.get = some db) (v : Nat) :
    AppMember db v ↔ number (valueOf vars.get "GROUP_ID") = v ∨
      (∃ k ∈ sharedIds vars, number k = v) ∨
      ∃ g ∈ defs.enabledGroups, defs.GivesApp g ∧ number g.id = v := by
  have numeric := environment.numericIds
  obtain ⟨middle, tracked, hsup⟩ := initUsers_named named numeric hrun
  have distinct : defs.enabledGroups.Pairwise fun a b => a.name ≠ b.name := by
    have checked := (List.pairwise_append.mp tracked.groups_checked).1
    exact (List.pairwise_map.mp checked).imp fun different => (different rfl).1
  have ids := supIds tools numeric
  have handled : ∀ id ∈ supGroupIds tools vars.get (valueOf vars.get "GROUP_ID"),
      isNumber id = true ∧ id ≠ valueOf vars.get "GROUP_ID" := fun id hid =>
    ⟨ids.number id hid, of_decide_eq_true (List.mem_filter.mp (ids.listed id hid)).2⟩
  obtain ⟨entries, represents, appIn⟩ :=
    appIn_supGroups tracked.represents (apart_namedEntries distinct) handled hsup
  have member : AppMember db v ↔ AppIn entries v :=
    represents.exists_line_iff fun e valid => by
      rw [valid.mem_members_iff word_app.1, valid.cut_id]
  have numbers : (∃ id ∈ supGroupIds tools vars.get (valueOf vars.get "GROUP_ID"), number id = v) ↔
      ∃ id ∈ supListed vars.get, number id = v := by
    rw [supGroupIds_eq tools numeric]
    exact tools.sort.numbers (isNumber_of_mem_supListed numeric) v
  rw [member, appIn, appIn_namedEntries_iff named distinct, numbers]
  constructor
  · rintro ((own | given) | ⟨id, hid, hv⟩)
    · exact .inl own
    · exact .inr (.inr given)
    · exact .inr (.inl ⟨id, (List.mem_filter.mp hid).1, hv⟩)
  · rintro (own | ⟨k, hk, hv⟩ | given)
    · exact .inl (.inl own)
    · by_cases same : k = valueOf vars.get "GROUP_ID"
      · exact .inl (.inl (same ▸ hv))
      · exact .inr ⟨k, List.mem_filter.mpr ⟨hk, decide_eq_true same⟩, hv⟩
    · exact .inl (.inr given)

/-- The two scripts agree on the groups of `app` exactly if what only one of them takes into account
makes no difference. -/
theorem sgid_agrees_iff (named : defs.Named) (environment : SupEnvironment vars)
    (hrun : initUsers tools linked defs vars.get = some db) :
    (∀ v, Prints tools vars v ↔ AppMember db v) ↔ SupAgrees defs vars := by
  have printed (v : Nat) := @prints_iff tools vars environment v
  have member := appMember_iff named environment hrun
  constructor
  · intro agree
    have own := (member _).mpr (.inl rfl)
    have assigned := ((printed _).mp ((agree _).mpr own)).1
    refine ⟨assigned, fun id hid => ?_, fun g hg gives => ?_⟩
    · have prints := (printed (number id)).mpr
        ⟨assigned, .inr ⟨id, List.mem_append_right _ hid, rfl⟩⟩
      exact (member _).mp ((agree _).mp prints)
    · have given := (member (number g.id)).mpr (.inr (.inr ⟨g, hg, gives, rfl⟩))
      exact ((printed _).mp ((agree _).mpr given)).2
  · intro agrees v
    rw [printed, member]
    constructor
    · rintro ⟨-, own | ⟨id, hid, rfl⟩⟩
      · exact .inl own
      · obtain shared | internal := List.mem_append.mp hid
        · exact .inr (.inl ⟨id, shared, rfl⟩)
        · exact agrees.internal id internal
    · rintro (own | ⟨k, hk, rfl⟩ | ⟨g, hg, gives, rfl⟩)
      · exact ⟨agrees.assigned, .inl own⟩
      · exact ⟨agrees.assigned, .inr ⟨k, List.mem_append_left _ hk, rfl⟩⟩
      · exact ⟨agrees.assigned, agrees.defined g hg gives⟩

end Sgid

/-- The variables of a container whose application adds a group. -/
def exampleVars (sup internal : String) : Environment :=
  [("USER_ID".toList, "1000".toList), ("GROUP_ID".toList, "1000".toList),
    ("SUP_GROUP_IDS".toList, sup.toList), ("SUP_GROUP_IDS_INTERNAL_GPU".toList, internal.toList)]

theorem exampleVars_sup {sup internal : String} (hsup : CanonicalList sup.toList)
    (hinternal : CanonicalList internal.toList) : SupEnvironment (exampleVars sup internal) where
  user := (by decide : isNumber "1000".toList = true)
  group := (by decide : isNumber "1000".toList = true)
  nonzero := (by decide : number "1000".toList ≠ 0)
  sup := hsup
  supInternal := (by decide : CanonicalList [])
  internal := by
    have ids : CanonicalList "1000".toList := by decide
    simp only [exampleVars, List.forall_mem_cons]
    exact ⟨fun _ => ids, fun _ => ids, fun _ => hsup, fun _ => hinternal, fun _ h => nomatch h⟩

theorem sgid_agrees_iff_sameGroup :
    ∃ db, initUsers exampleTools false (twoGroups "44" "109")
      (exampleVars "44" "44").get = some db ∧
      ((∀ v, Prints exampleTools (exampleVars "44" "44") v ↔ AppMember db v) ↔
        SupAgrees (twoGroups "44" "109") (exampleVars "44" "44")) :=
  ⟨_, rfl, sgid_agrees_iff (twoGroups_named _ _) (exampleVars_sup (by decide) (by decide)) rfl⟩

/-- Only `sgid` knows of the group that is added. -/
theorem sgid_disagrees :
    ¬ ∀ (tools : Tools) (linked : Bool) (defs : Definitions) (vars : Environment) (db : Databases),
      defs.Named → SupEnvironment vars → initUsers tools linked defs vars.get = some db →
      ∀ v, Prints tools vars v ↔ AppMember db v := by
  intro claim
  obtain ⟨db, hrun, hgroup⟩ : ∃ db,
      initUsers exampleTools false (twoGroups "44" "109") (exampleVars "" "44").get = some db ∧
        db.group = ["video:x:44:".toList, "render:x:109:".toList, "app:x:1000:app".toList] :=
    ⟨_, rfl, by decide⟩
  have agree := claim exampleTools false (twoGroups "44" "109") (exampleVars "" "44") db
    (twoGroups_named _ _) (exampleVars_sup (by decide) (by decide)) hrun 44
  have prints : Prints exampleTools (exampleVars "" "44") 44 :=
    ⟨["44".toList, "1000".toList], by decide, "44".toList, by decide, by decide, by decide⟩
  obtain ⟨line, hline, member⟩ := agree.mp prints
  rw [hgroup] at hline
  revert line
  decide

end Baseimage.Accounts
