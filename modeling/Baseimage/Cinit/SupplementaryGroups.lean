import Baseimage.Cinit.LoadedTable

/-!
# Supplementary groups

The groups of a service are stored in an array with 32 places. `parse_args` fills the array of the
defaults from the options `-s`, `load_service` copies it into the entry of a service and then
stores the groups of the file `sgid`. Both store behind what is there already, while what they
check is the number of tokens of the list at hand. So a second list may be written beyond the end
of the array, and a service whose file lists its groups keeps the default groups as well.

Writing beyond the end of the array is undefined, and the model ends there with the index.
-/

namespace Baseimage.Cinit

/-- How the storing of groups fails: with an exception, or with a write at an index the array does
not have. -/
inductive Fault where
  | message (text : Str)
  | overrun (index : Nat)
  deriving DecidableEq, Repr

section Faults

variable {α β : Type}

/-- Code that writes to no array. -/
def inBounds : Outcome Str α → Outcome Fault α
  | .ok a => .ok a
  | .threw message => .threw (.message message)
  | .aborted => .aborted

/-- `Try` and `Catch`: nothing catches an overrun. -/
def catchMessage (x : Outcome Fault α) (handler : Str → Outcome Fault α) : Outcome Fault α :=
  match x with
  | .threw (.message message) => handler message
  | other => other

/-- Do not tell an overrun from a violated assertion. -/
def withoutIndex : Outcome Fault α → Outcome Str α
  | .ok a => .ok a
  | .threw (.message message) => .threw message
  | .threw (.overrun _) => .aborted
  | .aborted => .aborted

@[simp] theorem withoutIndex_inBounds (x : Outcome Str α) : withoutIndex (inBounds x) = x := by
  cases x <;> rfl

theorem withoutIndex_bind (x : Outcome Fault α) (f : α → Outcome Fault β) :
    withoutIndex (x >>= f) = withoutIndex x >>= fun a => withoutIndex (f a) := by
  rcases x with a | (text | index) | _ <;> rfl

theorem withoutIndex_catchMessage (x : Outcome Fault α) (handler : Str → Outcome Fault α) :
    withoutIndex (catchMessage x handler) =
      (withoutIndex x).handle fun message => withoutIndex (handler message) := by
  rcases x with a | (text | index) | _ <;> rfl

theorem withoutIndex_eq_ok {x : Outcome Fault α} {a : α} : withoutIndex x = .ok a ↔ x = .ok a := by
  rcases x with a' | (text | index) | _ <;> simp [withoutIndex]

theorem inBounds_ne_overrun (x : Outcome Str α) (index : Nat) :
    inBounds x ≠ .threw (.overrun index) := by
  cases x <;> simp [inBounds]

theorem inBounds_eq_ok {x : Outcome Str α} {a : α} : inBounds x = .ok a ↔ x = .ok a := by
  cases x <;> simp [inBounds]

/-- Where the handler throws, what returns is the code itself. -/
theorem catchMessage_eq_ok {x : Outcome Fault α} {message : Str → Str} {a : α}
    (h : catchMessage x (fun text => inBounds (throwMessage (message text))) = .ok a) :
    x = .ok a := by
  rcases x with a' | (text | index) | _
  · exact h
  · exact absurd (inBounds_eq_ok.mp h) (throwMessage_ne_ok _ _)
  · exact h
  · exact h

theorem catchMessage_eq_overrun {x : Outcome Fault α} {message : Str → Str} {index : Nat}
    (h : catchMessage x (fun text => inBounds (throwMessage (message text))) =
      .threw (.overrun index)) : x = .threw (.overrun index) := by
  rcases x with a' | (text | index) | _
  · exact h
  · exact absurd h (inBounds_ne_overrun _ _)
  · exact h
  · exact h

theorem bind_eq_overrun {x : Outcome Fault α} {f : α → Outcome Fault β} {index : Nat}
    (h : x >>= f = .threw (.overrun index)) :
    x = .threw (.overrun index) ∨ ∃ a, x = .ok a ∧ f a = .threw (.overrun index) := by
  rcases x with a | fault | _
  · exact .inr ⟨a, rfl, h⟩
  · cases h
    exact .inl rfl
  · cases h

end Faults

/-! ## Storing groups -/

/-- Store a group behind those that are there. -/
def storeGroup (list : List Nat) (gid : Nat) : Outcome Fault (List Nat) :=
  if list.length < serviceSgidListSize then .ok (list ++ [gid])
  else .threw (.overrun list.length)

/-- Convert the tokens of a list and store them one by one; empty tokens are skipped. -/
def storeGroups (convert : Str → Outcome Fault Nat) :
    List Str → List Nat → Outcome Fault (List Nat)
  | [], list => .ok list
  | token :: tokens, list =>
      if token.length > 0 then
        convert token >>= fun gid =>
          storeGroup list gid >>= fun longer => storeGroups convert tokens longer
      else storeGroups convert tokens list

/-- An option `-s` of `parse_args`. The list that the message shows is what `split` has left of it,
the first token or, where there was no memory, all of them. -/
def parseSgidList (sys : System) (optarg : Str) (list : List Nat) : Outcome Fault (List Nat) :=
  let buf := trim optarg
  let memory := sys.malloc (8 * ((removeDuplicatedChar ',' buf).count ',' + 1))
  let tokens := split ',' buf
  let shown := if memory then tokens.headD [] else removeDuplicatedChar ',' buf
  let stored :=
    if memory = false then inBounds (throwMessage "failed to process list".toList)
    else if tokens.length > serviceSgidListSize then
      inBounds (throwMessage "too much groups".toList)
    else
      storeGroups
        (fun token => catchMessage (inBounds (stringToGid sys token)) fun message =>
          inBounds (throwMessage ("invalid GID '".toList ++ token ++ "': ".toList ++ message)))
        tokens list
  catchMessage stored fun message =>
    inBounds (throwMessage ("Invalid default service supplementary group list '".toList ++ shown ++
      "': ".toList ++ message))

/-- The options `-s` in their order. -/
def parseSgidLists (sys : System) : List Str → List Nat → Outcome Fault (List Nat)
  | [], list => .ok list
  | optarg :: optargs, list =>
      parseSgidList sys optarg list >>= fun longer => parseSgidLists sys optargs longer

/-- The loading of the file `sgid`: `none` when there is none, otherwise the groups that were
stored before with those of the file behind them. -/
def loadSgid (sys : System) (node : Option Node) (stored : List Nat) :
    Outcome Fault (Option (List Nat)) :=
  inBounds (loadValueAsString sys "sgid".toList node none 0) >>= fun loaded =>
    match loaded.2 with
    | none => .ok none
    | some buf =>
        let tokens := split '\n' (trim (removeAllChar '\r' buf))
        let list :=
          if sys.malloc (8 * tokens.length) = false then
            inBounds (throwMessage "out of memory".toList)
          else if tokens.length > serviceSgidListSize then
            inBounds (throwMessage "too much supplementary groups".toList)
          else storeGroups (fun token => inBounds (stringToGid sys token)) tokens stored
        catchMessage (list >>= fun groups => .ok (some groups)) fun message =>
          inBounds (throwMessage (couldNotLoad "sgid".toList message))

/-! ## The loading in `load_service` -/

theorem withoutIndex_storeGroups (sys : System) (tokens : List Str) (list : List Nat) :
    withoutIndex (storeGroups (fun token => inBounds (stringToGid sys token)) tokens list) =
      acceptLines (acceptGroup sys) tokens list := by
  induction tokens generalizing list with
  | nil => rfl
  | cons token tokens ih =>
      rw [storeGroups, acceptLines]
      split
      · rw [withoutIndex_bind, withoutIndex_inBounds, acceptGroup]
        cases stringToGid sys token with
        | ok gid =>
            rw [Outcome.ok_bind, Outcome.ok_bind, storeGroup]
            split
            · exact ih _
            · rfl
        | threw message => rfl
        | aborted => rfl
      · exact ih list

/-- `load_service` loads the file so. -/
theorem withoutIndex_loadSgid (sys : System) (node : Option Node) (stored : List Nat) :
    withoutIndex (loadSgid sys node stored) =
      loadList sys "sgid".toList node serviceSgidListSize
        "too much supplementary groups".toList (acceptGroup sys) stored := by
  rw [loadSgid, loadList, withoutIndex_bind, withoutIndex_inBounds]
  congr 1
  funext loaded
  cases loaded.2 with
  | none => rfl
  | some buf =>
      dsimp only
      rw [withoutIndex_catchMessage, withoutIndex_bind]
      simp only [withoutIndex_inBounds]
      congr 2
      split
      · rw [withoutIndex_inBounds]
      · split
        · rw [withoutIndex_inBounds]
        · exact withoutIndex_storeGroups sys _ stored

/-! ## What is stored -/

/-- The tokens that are not empty. -/
def groupTokens (tokens : List Str) : List Str := tokens.filter fun token => token.length > 0

/-- The groups that the tokens of a list denote. -/
def groupIds (sys : System) (tokens : List Str) : Option (List Nat) :=
  (groupTokens tokens).mapM fun token => (stringToGid sys token).toOption

/-- The list has become longer by the groups of the tokens, and it has not outgrown the array. -/
structure Grown (sys : System) (tokens : List Str) (list longer : List Nat) : Prop where
  groups : ∃ gids, groupIds sys tokens = some gids ∧ longer = list ++ gids
  length : longer.length = list.length + (groupTokens tokens).length
  fits : list.length ≤ serviceSgidListSize → longer.length ≤ serviceSgidListSize

section Growth

variable {sys : System}

theorem Grown.refl (list : List Nat) : Grown sys [] list list :=
  { groups := ⟨[], rfl, (List.append_nil list).symm⟩, length := rfl, fits := id }

theorem groupTokens_append (tokens others : List Str) :
    groupTokens (tokens ++ others) = groupTokens tokens ++ groupTokens others :=
  List.filter_append ..

theorem Grown.trans {tokens others : List Str} {list longer longest : List Nat}
    (first : Grown sys tokens list longer) (second : Grown sys others longer longest) :
    Grown sys (tokens ++ others) list longest := by
  obtain ⟨gids, groups, hlonger⟩ := first.groups
  obtain ⟨gids', groups', hlongest⟩ := second.groups
  refine { groups := ⟨gids ++ gids', ?_, ?_⟩, length := ?_, fits := ?_ }
  · rw [groupIds] at groups groups' ⊢
    rw [groupTokens_append, List.mapM_append, groups, groups']
    rfl
  · rw [hlongest, hlonger, List.append_assoc]
  · rw [groupTokens_append, List.length_append, second.length, first.length, Nat.add_assoc]
  · exact fun fits => second.fits (first.fits fits)

/-- One more group. -/
theorem Grown.one {token : Str} (full : token.length > 0) {gid : Nat}
    (denoted : stringToGid sys token = .ok gid) {list : List Nat}
    (room : list.length < serviceSgidListSize) : Grown sys [token] list (list ++ [gid]) := by
  have tokens : groupTokens [token] = [token] := List.filter_cons_of_pos (by simpa using full)
  refine { groups := ⟨[gid], ?_, rfl⟩, length := ?_, fits := ?_ }
  · rw [groupIds, tokens, List.mapM_cons, denoted]
    rfl
  · rw [tokens, List.length_append]
    rfl
  · rw [List.length_append, List.length_singleton]
    exact fun _ => room

theorem Grown.skip {token : Str} (empty : ¬ token.length > 0) (list : List Nat) :
    Grown sys [token] list list := by
  have tokens : groupTokens [token] = [] := List.filter_cons_of_neg (by simpa using empty)
  refine { groups := ⟨[], ?_, (List.append_nil list).symm⟩, length := ?_, fits := id }
  · rw [groupIds, tokens]
    rfl
  · rw [tokens]
    rfl

variable {convert : Str → Outcome Fault Nat}

theorem storeGroups_grown
    (converts : ∀ token gid, convert token = .ok gid → stringToGid sys token = .ok gid)
    {tokens : List Str} {list longer : List Nat}
    (h : storeGroups convert tokens list = .ok longer) : Grown sys tokens list longer := by
  induction tokens generalizing list with
  | nil =>
      cases h
      exact Grown.refl _
  | cons token tokens ih =>
      rw [storeGroups] at h
      split at h
      · next full =>
          obtain ⟨gid, converted, rest⟩ := Outcome.bind_eq_ok_iff.mp h
          obtain ⟨next, stored, later⟩ := Outcome.bind_eq_ok_iff.mp rest
          rw [storeGroup] at stored
          split at stored
          · next room =>
              cases stored
              exact (Grown.one full (converts token gid converted) room).trans (ih later)
          · cases stored
      · next empty => exact (Grown.skip empty list).trans (ih h)

/-- There are more groups than places. -/
theorem storeGroups_overrun
    (converts : ∀ token gid, convert token = .ok gid → stringToGid sys token = .ok gid)
    (inside : ∀ token index, convert token ≠ .threw (.overrun index)) {tokens : List Str}
    {list : List Nat} {index : Nat}
    (h : storeGroups convert tokens list = .threw (.overrun index)) :
    serviceSgidListSize < list.length + (groupTokens tokens).length := by
  induction tokens generalizing list with
  | nil => cases h
  | cons token tokens ih =>
      have count : (groupTokens (token :: tokens)).length =
          (groupTokens [token]).length + (groupTokens tokens).length := by
        rw [← List.length_append, ← groupTokens_append, List.singleton_append]
      rw [storeGroups] at h
      split at h
      · next full =>
          obtain failed | ⟨gid, converted, rest⟩ := bind_eq_overrun h
          · exact absurd failed (inside token index)
          · rw [storeGroup] at rest
            split at rest
            · next room =>
                have one := (Grown.one full (converts token gid converted) room).length
                have more := ih rest
                omega
            · next noRoom =>
                have one : groupTokens [token] = [token] :=
                  List.filter_cons_of_pos (by simpa using full)
                rw [one] at count
                simp only [List.length_singleton] at count
                omega
      · next empty =>
          have skipped : Grown sys [token] list list := Grown.skip empty list
          have none := skipped.length
          have more := ih h
          omega

/-! ### The options -/

/-- The tokens of an option. -/
def optionTokens (optarg : Str) : List Str := split ',' (trim optarg)

theorem parseSgidList_grown {optarg : Str} {list longer : List Nat}
    (h : parseSgidList sys optarg list = .ok longer) :
    Grown sys (optionTokens optarg) list longer := by
  have stored := catchMessage_eq_ok h
  split at stored
  · exact absurd (inBounds_eq_ok.mp stored) (throwMessage_ne_ok _ _)
  · split at stored
    · exact absurd (inBounds_eq_ok.mp stored) (throwMessage_ne_ok _ _)
    · exact storeGroups_grown (fun token gid h => inBounds_eq_ok.mp (catchMessage_eq_ok h)) stored

theorem parseSgidList_overrun {optarg : Str} {list : List Nat} {index : Nat}
    (h : parseSgidList sys optarg list = .threw (.overrun index)) :
    serviceSgidListSize < list.length + (groupTokens (optionTokens optarg)).length := by
  have stored := catchMessage_eq_overrun h
  split at stored
  · exact absurd stored (inBounds_ne_overrun _ _)
  · split at stored
    · exact absurd stored (inBounds_ne_overrun _ _)
    · exact storeGroups_overrun (fun token gid h => inBounds_eq_ok.mp (catchMessage_eq_ok h))
        (fun token index h => inBounds_ne_overrun _ _ (catchMessage_eq_overrun h)) stored

theorem parseSgidLists_grown {optargs : List Str} {list longer : List Nat}
    (h : parseSgidLists sys optargs list = .ok longer) :
    Grown sys (optargs.flatMap optionTokens) list longer := by
  induction optargs generalizing list with
  | nil =>
      cases h
      exact Grown.refl _
  | cons optarg optargs ih =>
      obtain ⟨next, first, rest⟩ := Outcome.bind_eq_ok_iff.mp h
      rw [List.flatMap_cons]
      exact (parseSgidList_grown first).trans (ih rest)

theorem parseSgidLists_overrun {optargs : List Str} {list : List Nat} {index : Nat}
    (h : parseSgidLists sys optargs list = .threw (.overrun index)) :
    serviceSgidListSize <
      list.length + (groupTokens (optargs.flatMap optionTokens)).length := by
  induction optargs generalizing list with
  | nil => cases h
  | cons optarg optargs ih =>
      rw [List.flatMap_cons, groupTokens_append, List.length_append]
      obtain failed | ⟨next, first, rest⟩ := bind_eq_overrun h
      · have more := parseSgidList_overrun failed
        omega
      · have grown := (parseSgidList_grown first).length
        have more := ih rest
        omega

/-! ### The file -/

/-- The text of the file `sgid`, if there is one. -/
def sgidText (sys : System) (dir : ServiceDir) : Option Str :=
  ((loadValueAsString sys "sgid".toList (dir.lookup "sgid".toList) none 0).toOption).bind Prod.snd

/-- The tokens of the text. -/
def fileTokens (buf : Str) : List Str := split '\n' (trim (removeAllChar '\r' buf))

variable {dir : ServiceDir} {stored : List Nat}

/-- Without a text nothing is stored. -/
theorem loadSgid_ok {list : Option (List Nat)}
    (h : loadSgid sys (dir.lookup "sgid".toList) stored = .ok list) :
    (sgidText sys dir = none ∧ list = none) ∨
      ∃ buf longer, sgidText sys dir = some buf ∧ list = some longer ∧
        Grown sys (fileTokens buf) stored longer := by
  obtain ⟨⟨found, text⟩, loaded, rest⟩ := Outcome.bind_eq_ok_iff.mp h
  have same : sgidText sys dir = text := by
    rw [sgidText, inBounds_eq_ok.mp loaded]
    rfl
  rw [same]
  cases text with
  | none =>
      cases rest
      exact .inl ⟨rfl, rfl⟩
  | some buf =>
      obtain ⟨longer, storing, last⟩ := Outcome.bind_eq_ok_iff.mp (catchMessage_eq_ok rest)
      cases last
      refine .inr ⟨buf, longer, rfl, rfl, ?_⟩
      split at storing
      · exact absurd (inBounds_eq_ok.mp storing) (throwMessage_ne_ok _ _)
      · split at storing
        · exact absurd (inBounds_eq_ok.mp storing) (throwMessage_ne_ok _ _)
        · exact storeGroups_grown (fun token gid h => inBounds_eq_ok.mp h) storing

/-- What is written beyond the end is one of more groups than the array has places, of a file with
no more tokens than that. -/
theorem loadSgid_overrun_many {index : Nat}
    (h : loadSgid sys (dir.lookup "sgid".toList) stored = .threw (.overrun index)) :
    ∃ buf, sgidText sys dir = some buf ∧ (fileTokens buf).length ≤ serviceSgidListSize ∧
      serviceSgidListSize < stored.length + (groupTokens (fileTokens buf)).length := by
  obtain failed | ⟨⟨found, text⟩, loaded, rest⟩ := bind_eq_overrun h
  · exact absurd failed (inBounds_ne_overrun _ _)
  · have same : sgidText sys dir = text := by
      rw [sgidText, inBounds_eq_ok.mp loaded]
      rfl
    rw [same]
    cases text with
    | none => cases rest
    | some buf =>
        obtain storing | ⟨longer, -, last⟩ := bind_eq_overrun (catchMessage_eq_overrun rest)
        · split at storing
          · exact absurd storing (inBounds_ne_overrun _ _)
          · split at storing
            · exact absurd storing (inBounds_ne_overrun _ _)
            · next checked =>
                have many := storeGroups_overrun (fun token gid h => inBounds_eq_ok.mp h)
                  (fun token index => inBounds_ne_overrun _ index) storing
                exact ⟨buf, rfl, Nat.le_of_not_lt checked, many⟩
        · cases last

/-- So it was stored behind other groups. -/
theorem loadSgid_overrun (fits : stored.length ≤ serviceSgidListSize) {index : Nat}
    (h : loadSgid sys (dir.lookup "sgid".toList) stored = .threw (.overrun index)) :
    stored ≠ [] ∧ ∃ buf, sgidText sys dir = some buf ∧ buf ≠ [] := by
  obtain ⟨buf, text, checked, many⟩ := loadSgid_overrun_many h
  have fewer : (groupTokens (fileTokens buf)).length ≤ (fileTokens buf).length :=
    List.length_filter_le _ _
  refine ⟨fun empty => ?_, buf, text, fun empty => ?_⟩
  · rw [empty, List.length_nil] at many
    omega
  · have noToken : groupTokens (fileTokens []) = [] := by
      simp [fileTokens, trim, removeAllChar, split, removeDuplicatedChar, tokens,
        CString.strchr, Lines.splitFirst, groupTokens]
    rw [empty, noToken, List.length_nil] at many
    omega

end Growth

/-! ## A service and the defaults -/

theorem loadSettings_sgidList (sys : System) (defaults : ServiceDefaults) (dir : ServiceDir)
    (stack : Str → Str) (name : Str) :
    (loadSettings sys defaults dir stack name).Returns fun srv =>
      (SkipsSettings sys dir stack → srv.sgidList = defaults.sgidList) ∧
        (¬ SkipsSettings sys dir stack → ∃ list,
          loadSgid sys (dir.lookup "sgid".toList) defaults.sgidList = .ok list ∧
            srv.sgidList = list.getD defaults.sgidList) := by
  intro srv loaded
  refine ⟨fun skips => ?_, fun settings => ?_⟩
  · rw [loadSettings_skipped skips loaded]
    rfl
  · obtain ⟨environment, extra, list, lists⟩ := loadSettings_lists settings srv loaded
    refine ⟨list, ?_, lists.sgid⟩
    have read := lists.readSgid
    rwa [← withoutIndex_loadSgid, withoutIndex_eq_ok] at read

/-- Neither `parse_args` nor `load_service` rejects what it is given. Where one of them writes
beyond the end of its array it has not rejected it either. -/
def AcceptsGroups (sys : System) (optargs : List Str) (base : ServiceDefaults) (dir : ServiceDir)
    (stack : Str → Str) (name : Str) : Prop :=
  (∃ index, parseSgidLists sys optargs [] = .threw (.overrun index)) ∨
    ∃ list, parseSgidLists sys optargs [] = .ok list ∧
      ((∃ srv, loadSettings sys { base with sgidList := list } dir stack name = .ok srv) ∨
        ¬ SkipsSettings sys dir stack ∧
          ∃ index, loadSgid sys (dir.lookup "sgid".toList) list = .threw (.overrun index))

/-- Both lists fit in their arrays, and the list of the service is that of its file if this holds
a text, and the default list if there is none. -/
structure GroupsRecorded (sys : System) (dir : ServiceDir) (list serviceList : List Nat) :
    Prop where
  defaults : list.length ≤ serviceSgidListSize
  service : serviceList.length ≤ serviceSgidListSize
  file : ∀ buf, sgidText sys dir = some buf → buf ≠ [] →
    groupIds sys (fileTokens buf) = some serviceList
  absent : dir.lookup "sgid".toList = none → serviceList = list

/-- The options and the service are taken in without a write beyond the end of an array, and the
groups are recorded as they should be. -/
def RecordsGroups (sys : System) (optargs : List Str) (base : ServiceDefaults) (dir : ServiceDir)
    (stack : Str → Str) (name : Str) : Prop :=
  ∃ list srv, parseSgidLists sys optargs [] = .ok list ∧
    loadSettings sys { base with sgidList := list } dir stack name = .ok srv ∧
    GroupsRecorded sys dir list srv.sgidList

/-- There are no more than 32 groups in all options together, and a file with a text does not meet
any of them. -/
def GroupsApart (sys : System) (optargs : List Str) (dir : ServiceDir) (stack : Str → Str) : Prop :=
  (groupTokens (optargs.flatMap optionTokens)).length ≤ serviceSgidListSize ∧
    ∀ buf, sgidText sys dir = some buf → buf ≠ [] →
      (¬ SkipsSettings sys dir stack → groupTokens (optargs.flatMap optionTokens) = []) ∧
        (SkipsSettings sys dir stack →
          groupIds sys (fileTokens buf) = groupIds sys (optargs.flatMap optionTokens))

section Recording

variable {sys : System} {optargs : List Str} {base : ServiceDefaults} {dir : ServiceDir}
  {stack : Str → Str} {name : Str} {list : List Nat}

/-- Without default groups there is no token in the options. -/
theorem Grown.eq_nil_iff {tokens : List Str} (h : Grown sys tokens [] list) :
    list = [] ↔ groupTokens tokens = [] := by
  rw [← List.length_eq_zero_iff, ← List.length_eq_zero_iff, h.length, List.length_nil, Nat.zero_add]

theorem Grown.groupIds_eq {tokens : List Str} (h : Grown sys tokens [] list) :
    groupIds sys tokens = some list := by
  obtain ⟨gids, groups, same⟩ := h.groups
  rw [groups, same, List.nil_append]

/-- The list of a service that was loaded. -/
theorem groupsRecorded_iff (options : Grown sys (optargs.flatMap optionTokens) [] list)
    {srv : Service}
    (loaded : loadSettings sys { base with sgidList := list } dir stack name = .ok srv) :
    GroupsRecorded sys dir list srv.sgidList ↔ GroupsApart sys optargs dir stack := by
  obtain ⟨skipped, read⟩ := loadSettings_sgidList sys _ dir stack name srv loaded
  have fits : list.length ≤ serviceSgidListSize := options.fits (Nat.zero_le _)
  have few : (groupTokens (optargs.flatMap optionTokens)).length ≤ serviceSgidListSize := by
    have length := options.length
    rw [List.length_nil, Nat.zero_add] at length
    rwa [← length]
  rw [GroupsApart, and_iff_right few, options.groupIds_eq]
  by_cases skips : SkipsSettings sys dir stack
  · have same : srv.sgidList = list := skipped skips
    rw [same]
    constructor
    · intro recorded buf text full
      exact ⟨fun settings => absurd skips settings, fun _ => recorded.file buf text full⟩
    · intro apart
      exact
        { defaults := fits
          service := fits
          file := fun buf text full => (apart buf text full).2 skips
          absent := fun _ => rfl }
  · obtain ⟨groups, hgroups, hlist⟩ := read skips
    rw [hlist]
    obtain ⟨noText, rfl⟩ | ⟨buf, longer, text, rfl, grown⟩ := loadSgid_ok hgroups
    · rw [noText]
      refine iff_of_true ?_ fun buf text => ?_
      · refine { defaults := fits, service := fits, file := ?_, absent := fun _ => rfl }
        intro buf text
        cases noText.symm.trans text
      · cases text
    · obtain ⟨gids, ids, happend⟩ := grown.groups
      have present : dir.lookup "sgid".toList ≠ none := by
        intro absent
        rw [sgidText, absent] at text
        cases text
      rw [text]
      constructor
      · rintro recorded buf' ⟨⟩ full
        have same := recorded.file buf text full
        rw [ids, Option.some_inj, Option.getD_some, happend] at same
        exact ⟨fun _ => options.eq_nil_iff.mp (List.self_eq_append_left.mp same),
          fun skipped => absurd skipped skips⟩
      · intro apart
        refine
          { defaults := fits
            service := grown.fits fits
            file := ?_
            absent := fun absent => absurd absent present }
        intro buf' text' full
        cases text.symm.trans text'
        have empty := options.eq_nil_iff.mpr ((apart buf rfl full).1 skips)
        rw [ids, Option.getD_some, happend, empty, List.nil_append]

end Recording

/-- The supplementary groups are recorded as they should be unless there are more than 32 of them
in the options, or a service that lists its groups has default groups as well. -/
theorem recordsGroups_iff (sys : System) (optargs : List Str) (base : ServiceDefaults)
    (dir : ServiceDir) (stack : Str → Str) (name : Str)
    (accepted : AcceptsGroups sys optargs base dir stack name) :
    RecordsGroups sys optargs base dir stack name ↔ GroupsApart sys optargs dir stack := by
  obtain ⟨index, overrun⟩ | ⟨list, parsed, loading⟩ := accepted
  · have many := parseSgidLists_overrun overrun
    rw [List.length_nil, Nat.zero_add] at many
    refine iff_of_false ?_ fun apart => absurd apart.1 (Nat.not_le.mpr many)
    rintro ⟨list, srv, parsed, -⟩
    cases overrun.symm.trans parsed
  · have options := parseSgidLists_grown parsed
    obtain ⟨srv, loaded⟩ | ⟨settings, index, overrun⟩ := loading
    · rw [← groupsRecorded_iff options loaded]
      constructor
      · rintro ⟨list', srv', parsed', loaded', recorded⟩
        cases parsed.symm.trans parsed'
        cases loaded.symm.trans loaded'
        exact recorded
      · exact fun recorded => ⟨list, srv, parsed, loaded, recorded⟩
    · obtain ⟨full, buf, text, content⟩ := loadSgid_overrun (options.fits (Nat.zero_le _)) overrun
      refine iff_of_false ?_ fun apart => full (options.eq_nil_iff.mpr ?_)
      · rintro ⟨list', srv, parsed', loaded, -⟩
        cases parsed.symm.trans parsed'
        obtain ⟨groups, stored, -⟩ :=
          (loadSettings_sgidList sys _ dir stack name srv loaded).2 settings
        cases overrun.symm.trans stored
      · exact (apart.2 buf text content).1 settings

/-- A service with a file `sgid`. -/
def withSgid (sgid : Option Str) : ServiceDir where
  entries :=
    [{ dName := "run".toList, isReg := true, node := some (.program [] 0) },
      { dName := "sgid".toList, isReg := true, node := sgid.map .file }]
  nodup := (by decide : ["run".toList, "sgid".toList].Nodup)

theorem exists_loadSettings {sys : System} {defaults : ServiceDefaults} {dir : ServiceDir}
    {stack : Str → Str} {name : Str}
    (h : (loadSettings sys defaults dir stack name).isOk = true) :
    ∃ srv, loadSettings sys defaults dir stack name = .ok srv := by
  cases result : loadSettings sys defaults dir stack name with
  | ok srv => exact ⟨srv, rfl⟩
  | threw message => simp [result, Outcome.isOk] at h
  | aborted => simp [result, Outcome.isOk] at h

/-- Two options fill the default list, and the service has no list of its own. -/
theorem recordsGroups_iff_defaults :
    RecordsGroups plainSystem ["10,,20".toList, " 30 ".toList] {} (withSgid none) (fun _ => [])
      "app".toList :=
  (recordsGroups_iff plainSystem ["10,,20".toList, " 30 ".toList] {} (withSgid none) (fun _ => [])
      "app".toList
      (.inr ⟨[10, 20, 30], by decide +kernel, .inl (exists_loadSettings (by decide +kernel))⟩)).mpr
    ⟨by decide +kernel, fun buf text => absurd (text.symm.trans rfl : some buf = none) (by simp)⟩

/-- A service that lists the group 7 gets the default group 5 as well, and the group that follows
32 others is written beyond the end of the array. -/
theorem groups_outgrow :
    ¬ RecordsGroups plainSystem ["5".toList] {} (withSgid (some "7\n".toList)) (fun _ => [])
        "app".toList ∧
      (loadSettings plainSystem { sgidList := [5] } (withSgid (some "7\n".toList)) (fun _ => [])
        "app".toList).toOption.map Service.sgidList = some [5, 7] ∧
      parseSgidLists plainSystem
        ["1,2,3,4,5,6,7,8,9,10,11,12,13,14,15,16".toList,
          "17,18,19,20,21,22,23,24,25,26,27,28,29,30,31,32".toList, "33".toList] [] =
        .threw (.overrun 32) := by
  have loaded : (loadSettings plainSystem { sgidList := [5] } (withSgid (some "7\n".toList))
      (fun _ => []) "app".toList).toOption.map Service.sgidList = some [5, 7] := by
    decide +kernel
  refine ⟨?_, loaded, by decide +kernel⟩
  rintro ⟨list, srv, parsed, returned, recorded⟩
  have defaults : parseSgidLists plainSystem ["5".toList] [] = .ok [5] := by decide +kernel
  cases defaults.symm.trans parsed
  rw [returned] at loaded
  have both : srv.sgidList = [5, 7] := Option.some.inj loaded
  have own : groupIds plainSystem (fileTokens "7\n".toList) = some srv.sgidList :=
    recorded.file "7\n".toList (by decide +kernel) (by decide)
  rw [both] at own
  exact absurd own (by decide +kernel)

end Baseimage.Cinit
