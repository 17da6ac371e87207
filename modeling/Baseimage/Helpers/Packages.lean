import Baseimage.Startup.Init

/-!
# Virtual packages of apt

`add-pkg --virtual NAME` records the packages that it installs in a file of the name, and `del-pkg
NAME` removes the packages that are recorded there. The lists of packages are texts that the shell
splits again into words. `dpkg` is asked which packages are installed; reading and removing a file
that is there succeeds.
-/

namespace Baseimage.Helpers

open Startup

/-! ## Words of an unquoted expansion -/

/-- A character of `IFS`. -/
def isIfs (c : Char) : Bool := c == ' ' || c == '\t' || c == '\n'

/-- A character with a meaning in the name of a file. -/
def isGlob (c : Char) : Bool := c == '*' || c == '?' || c == '[' || c == '\\'

/-- What becomes of a word that is the pattern of names of files. -/
structure PathnameExpansion where
  expand : Str → List Str
  plain : ∀ {w : Str}, (∀ c ∈ w, isGlob c = false) → expand w = [w]

def words (text : Str) : List Str := (text.splitOnP isIfs).filter fun w => w ≠ []

/-- The fields of an unquoted expansion. -/
def PathnameExpansion.fields (x : PathnameExpansion) (text : Str) : List Str :=
  (words text).flatMap x.expand

/-- A name of a package: a word without a meaning to the shell, and no option. -/
structure PackageName (w : Str) : Prop where
  ne_nil : w ≠ []
  chars : ∀ c ∈ w, isIfs c = false ∧ isGlob c = false
  head : w.head? ≠ some '-'

/-! ## The packages -/

/-- The packages that are installed, and the files of the virtual ones in `/var/lib/apt`. -/
structure Packages where
  installed : Str → Bool
  virtual : Str → Option Str

/-- The variable `pkgs`, and the files. -/
structure Deleting where
  pkgs : Str
  virtual : Str → Option Str

/-- The loop of `del_pkg_apt`, for one of the arguments. The package that `dpkg` is asked about is
the first one. -/
def classify (installed : Str → Bool) (first : Str) (s : Deleting) (pkg : Str) : Deleting :=
  if !installed first then
    match s.virtual pkg with
    | some content =>
        { pkgs := s.pkgs ++ ' ' :: commandSubstitution content
          virtual := Function.update s.virtual pkg none }
    | none => { s with pkgs := s.pkgs ++ ' ' :: pkg }
  else { s with pkgs := s.pkgs ++ ' ' :: pkg }

/-- What `apt-get purge` is given, if it is called, and the files behind that. -/
structure Purge where
  purged : Option (List Str)
  virtual : Str → Option Str

/-- `del_pkg_apt` -/
def delPkgApt (x : PathnameExpansion) (p : Packages) (args : List Str) : Purge :=
  let s := args.foldl (classify p.installed (args.headD [])) { pkgs := [], virtual := p.virtual }
  { purged := if s.pkgs = [] then none else some (x.fields s.pkgs), virtual := s.virtual }

/-- `echo`, for a text without backslashes that is no option. -/
def echo (text : Str) : Str := text ++ ['\n']

/-- `install_pkg_apt`, from its name for a virtual package on; `apt-get` gives the packages that are
installed afterwards, or fails. The exit status, and the packages. -/
def installPkgApt (aptGet : List Str → Option (Str → Bool)) (p : Packages) :
    List Str → Nat × Packages
  | [] => (1, p)
  | name :: pkgs =>
      if p.virtual name ≠ none then (1, p)
      else
        let p := { p with
          virtual := Function.update p.virtual name (some (echo ([' '].intercalate pkgs))) }
        if pkgs.headD [] ≠ [] then
          match aptGet pkgs with
          | some installed => (0, { p with installed := installed })
          | none => (1, p)
        else (0, p)

/-- `add-pkg --virtual NAME PKG...` -/
def addPkgVirtual (x : PathnameExpansion) (aptGet : List Str → Option (Str → Bool)) (p : Packages)
    (name : Str) (args : List Str) : Nat × Packages :=
  if name = [] then (1, p)
  else
    let pkgs := args.foldl
      (fun pkgs pkg => if !p.installed pkg then pkgs ++ ' ' :: pkg else pkgs) name
    installPkgApt aptGet p (x.fields pkgs)

/-! ## What is documented -/

/-- The packages to be purged for an argument. -/
def ownPackages (x : PathnameExpansion) (p : Packages) (pkg : Str) : List Str :=
  if p.installed pkg then [pkg] else ((p.virtual pkg).map x.fields).getD [pkg]

/-- The files when those of the arguments are removed that are not installed. -/
def withoutFiles (p : Packages) (args : List Str) (pkg : Str) : Option Str :=
  if args.contains pkg && !p.installed pkg then none else p.virtual pkg

theorem withoutFiles_eq (p : Packages) (args : List Str) (pkg : Str) :
    withoutFiles p args pkg =
      if pkg ∈ args ∧ p.installed pkg = false then none else p.virtual pkg := by
  simp [withoutFiles]

/-- Every argument is handled as it is recorded. -/
structure AsRecorded (x : PathnameExpansion) (p : Packages) (args : List Str) (result : Purge) :
    Prop where
  purged : result.purged.getD [] = args.flatMap (ownPackages x p)
  virtual : result.virtual = withoutFiles p args

/-- The first argument is installed or not as are those that have a file. -/
def FirstDecides (p : Packages) (args : List Str) : Prop :=
  ∀ pkg ∈ args, p.virtual pkg ≠ none → p.installed pkg = p.installed (args.headD [])

/-! ## Words -/

theorem words_append {a b : Str} {c : Char} (h : isIfs c = true) :
    words (a ++ c :: b) = words a ++ words b := by
  rw [words, List.splitOnP_append_cons _ _ h, List.filter_append]
  rfl

theorem words_blank {b : Str} (h : ∀ c ∈ b, isIfs c = true) : words b = [] := by
  induction b with
  | nil => rfl
  | cons c b ih =>
      obtain ⟨hc, hb⟩ := List.forall_mem_cons.mp h
      exact (words_append (a := []) hc).trans (ih hb)

theorem words_append_blank (a : Str) {b : Str} (h : ∀ c ∈ b, isIfs c = true) :
    words (a ++ b) = words a := by
  cases b with
  | nil => rw [List.append_nil]
  | cons c b =>
      obtain ⟨hc, hb⟩ := List.forall_mem_cons.mp h
      rw [words_append hc, words_blank hb, List.append_nil]

/-- The line feeds at the end of a file do not matter. -/
theorem words_commandSubstitution (content : Str) :
    words (commandSubstitution content) = words content := by
  have whole : commandSubstitution content ++ content.rtakeWhile (fun c => c == '\n') = content :=
    List.rdropWhile_append_rtakeWhile
  have blank : ∀ c ∈ content.rtakeWhile (fun c => c == '\n'), isIfs c = true := by
    intro c hc
    have lineFeed : c = '\n' := by simpa using List.mem_rtakeWhile_imp hc
    rw [lineFeed]
    rfl
  rw [← words_append_blank _ blank, whole]

namespace PathnameExpansion

variable (x : PathnameExpansion)

theorem fields_append (a b : Str) : x.fields (a ++ ' ' :: b) = x.fields a ++ x.fields b := by
  rw [fields, words_append rfl, List.flatMap_append]
  rfl

theorem fields_commandSubstitution (content : Str) :
    x.fields (commandSubstitution content) = x.fields content := by
  rw [fields, words_commandSubstitution]
  rfl

theorem fields_name {w : Str} (h : PackageName w) : x.fields w = [w] := by
  have whole : words w = [w] := by
    rw [words, List.splitOnP_eq_singleton fun c hc => (h.chars c hc).1]
    exact List.filter_cons_of_pos (by simpa using h.ne_nil)
  rw [fields, whole, List.flatMap_singleton, x.plain fun c hc => (h.chars c hc).2]

theorem fields_add (text : Str) {w : Str} (h : PackageName w) :
    x.fields (text ++ ' ' :: w) = x.fields text ++ [w] := by
  rw [fields_append, x.fields_name h]

/-- The fields of names with blanks between them. -/
theorem fields_echo {ws : List Str} (h : ∀ w ∈ ws, PackageName w) :
    x.fields (echo ([' '].intercalate ws)) = ws := by
  have blank : ∀ c ∈ ['\n'], isIfs c = true := by simp [isIfs]
  rw [fields, echo, words_append_blank _ blank]
  show x.fields _ = ws
  induction ws with
  | nil => rfl
  | cons w ws ih =>
      obtain ⟨hw, hws⟩ := List.forall_mem_cons.mp h
      cases ws with
      | nil =>
          rw [List.intercalate_singleton]
          exact x.fields_name hw
      | cons v ws =>
          rw [List.intercalate_cons_cons, List.append_assoc, List.singleton_append, x.fields_append,
            x.fields_name hw, ih hws]
          rfl

end PathnameExpansion

/-! ## The loop -/

/-- The packages that the loop adds for an argument, where the first one is installed or not. -/
def addedPackages (x : PathnameExpansion) (firstInstalled : Bool) (virtual : Str → Option Str)
    (pkg : Str) : List Str :=
  if firstInstalled then [pkg] else ((virtual pkg).map x.fields).getD [pkg]

variable {x : PathnameExpansion}

/-- One round of the loop. -/
theorem classify_spec (installed : Str → Bool) (first : Str) (s : Deleting) {pkg : Str}
    (h : PackageName pkg) :
    x.fields (classify installed first s pkg).pkgs =
        x.fields s.pkgs ++ addedPackages x (installed first) s.virtual pkg ∧
      (classify installed first s pkg).virtual =
        if installed first then s.virtual else Function.update s.virtual pkg none := by
  unfold classify addedPackages
  cases installed first with
  | true => exact ⟨x.fields_add s.pkgs h, rfl⟩
  | false =>
      cases hv : s.virtual pkg with
      | some content =>
          refine ⟨?_, rfl⟩
          show x.fields (s.pkgs ++ ' ' :: commandSubstitution content) = _
          rw [x.fields_append, x.fields_commandSubstitution]
          rfl
      | none =>
          refine ⟨x.fields_add s.pkgs h, ?_⟩
          show s.virtual = Function.update s.virtual pkg none
          rw [← hv, Function.update_eq_self]

/-- All rounds of the loop, for arguments that are named once. -/
theorem foldl_classify (installed : Str → Bool) (first : Str) {args : List Str}
    (names : ∀ a ∈ args, PackageName a) (distinct : args.Nodup) (s : Deleting) :
    x.fields (args.foldl (classify installed first) s).pkgs =
        x.fields s.pkgs ++ args.flatMap (addedPackages x (installed first) s.virtual) ∧
      (args.foldl (classify installed first) s).virtual = fun pkg =>
        if pkg ∈ args ∧ installed first = false then none else s.virtual pkg := by
  induction args generalizing s with
  | nil => simp
  | cons a args ih =>
      obtain ⟨ha, hargs⟩ := List.forall_mem_cons.mp names
      obtain ⟨fresh, rest⟩ := List.nodup_cons.mp distinct
      obtain ⟨pkgs, virtual⟩ := classify_spec (x := x) installed first s ha
      obtain ⟨morePkgs, moreVirtual⟩ := ih hargs rest (classify installed first s a)
      have others : args.flatMap
            (addedPackages x (installed first) (classify installed first s a).virtual) =
          args.flatMap (addedPackages x (installed first) s.virtual) := by
        refine List.flatMap_congr fun b hb => ?_
        have differs : b ≠ a := fun same => fresh (same ▸ hb)
        rw [virtual]
        cases installed first <;> simp [addedPackages, differs]
      rw [List.foldl_cons, List.flatMap_cons, morePkgs, pkgs, others, List.append_assoc,
        moreVirtual,
        virtual]
      refine ⟨rfl, funext fun b => ?_⟩
      cases installed first with
      | true => simp
      | false =>
          by_cases same : b = a
          · simp [same]
          · simp [same]

/-- What is purged, and which files are left. -/
theorem delPkgApt_spec (x : PathnameExpansion) (p : Packages) {args : List Str}
    (names : ∀ a ∈ args, PackageName a) (distinct : args.Nodup) :
    (delPkgApt x p args).purged.getD [] =
        args.flatMap (addedPackages x (p.installed (args.headD [])) p.virtual) ∧
      (delPkgApt x p args).virtual = fun pkg =>
        if pkg ∈ args ∧ p.installed (args.headD []) = false then none else p.virtual pkg := by
  obtain ⟨pkgs, virtual⟩ := foldl_classify (x := x) p.installed (args.headD []) names distinct
    { pkgs := [], virtual := p.virtual }
  have whole : x.fields (args.foldl (classify p.installed (args.headD []))
      { pkgs := [], virtual := p.virtual }).pkgs =
        args.flatMap (addedPackages x (p.installed (args.headD [])) p.virtual) := pkgs
  refine ⟨?_, virtual⟩
  rw [← whole]
  unfold delPkgApt
  dsimp only
  split
  · next nothing => rw [nothing]; rfl
  · rfl

theorem delPkgApt_asRecorded_iff (x : PathnameExpansion) (p : Packages) {args : List Str}
    (names : ∀ a ∈ args, PackageName a) (distinct : args.Nodup) :
    AsRecorded x p args (delPkgApt x p args) ↔ FirstDecides p args := by
  obtain ⟨purged, virtual⟩ := delPkgApt_spec x p names distinct
  constructor
  · intro recorded pkg member hasFile
    have left := congrFun (virtual.symm.trans recorded.virtual) pkg
    obtain ⟨content, hcontent⟩ := Option.ne_none_iff_exists'.mp hasFile
    rw [withoutFiles_eq, hcontent] at left
    cases hpkg : p.installed pkg <;> cases hfirst : p.installed (args.headD []) <;>
      simp_all
  · intro decides
    constructor
    · rw [purged]
      refine List.flatMap_congr fun pkg member => ?_
      unfold addedPackages ownPackages
      cases hv : p.virtual pkg with
      | none => simp
      | some content =>
          have same := decides pkg member (by rw [hv]; exact Option.some_ne_none content)
          rw [same]
    · rw [virtual]
      funext pkg
      rw [withoutFiles_eq]
      by_cases member : pkg ∈ args
      · cases hv : p.virtual pkg with
        | none => simp
        | some content =>
            rw [decides pkg member (by rw [hv]; exact Option.some_ne_none content)]
      · simp [member]

/-! ## Adding and deleting -/

theorem fields_foldl (x : PathnameExpansion) (installed : Str → Bool) {args : List Str}
    (names : ∀ a ∈ args, PackageName a) (text : Str) :
    x.fields (args.foldl
        (fun pkgs pkg => if !installed pkg then pkgs ++ ' ' :: pkg else pkgs) text) =
      x.fields text ++ args.filter fun a => !installed a := by
  induction args generalizing text with
  | nil => simp
  | cons a args ih =>
      obtain ⟨ha, hargs⟩ := List.forall_mem_cons.mp names
      rw [List.foldl_cons, ih hargs]
      cases hinstalled : installed a with
      | true => simp [hinstalled]
      | false => simp [hinstalled, x.fields_add text ha]

/-- A virtual package that was added records the packages that were not installed. -/
theorem addPkgVirtual_spec {aptGet : List Str → Option (Str → Bool)} {p p' : Packages} {name : Str}
    {args : List Str} (hname : PackageName name) (names : ∀ a ∈ args, PackageName a)
    (added : addPkgVirtual x aptGet p name args = (0, p')) :
    (p'.virtual name).map x.fields = some (args.filter fun a => !p.installed a) ∧
      ∀ other, other ≠ name → p'.virtual other = p.virtual other := by
  have fields := fields_foldl x p.installed names name
  rw [x.fields_name hname] at fields
  unfold addPkgVirtual at added
  rw [if_neg hname.ne_nil] at added
  dsimp only at added
  rw [fields, List.singleton_append, installPkgApt] at added
  have recorded : ∀ a ∈ args.filter (fun a => !p.installed a), PackageName a :=
    fun a ha => names a (List.mem_filter.mp ha).1
  have virtual : p'.virtual = Function.update p.virtual name
      (some (echo ([' '].intercalate (args.filter fun a => !p.installed a)))) := by
    split at added
    · cases added
    · dsimp only at added
      split at added
      · split at added
        · exact congrArg Packages.virtual (Prod.mk.inj added).2.symm
        · cases added
      · exact congrArg Packages.virtual (Prod.mk.inj added).2.symm
  rw [virtual]
  refine ⟨?_, fun other differs => Function.update_of_ne differs _ _⟩
  rw [Function.update_self, Option.map_some, x.fields_echo recorded]

/-- `del_pkg_apt` handles its arguments as they are recorded exactly if the first of them decides
what the others are. For a virtual package that was added, which is not an installed package, these
are the packages that were not installed before. -/
theorem delPkg_iff (x : PathnameExpansion) :
    (∀ (p : Packages) (args : List Str), (∀ a ∈ args, PackageName a) → args.Nodup →
      (AsRecorded x p args (delPkgApt x p args) ↔ FirstDecides p args)) ∧
    (∀ (aptGet : List Str → Option (Str → Bool)) (p p' : Packages) (name : Str) (added : List Str),
      PackageName name → (∀ a ∈ added, PackageName a) →
      addPkgVirtual x aptGet p name added = (0, p') → p'.installed name = false →
      ownPackages x p' name = added.filter (fun a => !p.installed a) ∧
      ∀ args : List Str, (∀ a ∈ args, PackageName a) → args.Nodup → FirstDecides p' args →
        (delPkgApt x p' args).purged.getD [] = args.flatMap fun a =>
          if a = name then added.filter (fun a => !p.installed a) else ownPackages x p' a) := by
  refine ⟨fun p args => delPkgApt_asRecorded_iff x p, ?_⟩
  intro aptGet p p' name added hname names success absent
  obtain ⟨record, -⟩ := addPkgVirtual_spec hname names success
  have own : ownPackages x p' name = added.filter fun a => !p.installed a := by
    rw [ownPackages, absent, record]
    rfl
  refine ⟨own, fun args hargs distinct decides => ?_⟩
  rw [((delPkgApt_asRecorded_iff x p' hargs distinct).mpr decides).purged]
  refine List.flatMap_congr fun a _ => ?_
  split
  · next same => rw [same, own]
  · rfl

/-! ## A package before a virtual one -/

def noExpansion : PathnameExpansion := { expand := fun w => [w], plain := fun _ => rfl }

theorem packageName_of_all {w : Str} (ne_nil : w ≠ [])
    (chars : w.all (fun c => !isIfs c && !isGlob c) = true) (head : w.head? ≠ some '-') :
    PackageName w :=
  { ne_nil := ne_nil, chars := by simpa using chars, head := head }

theorem names_curl_deps : ∀ a ∈ ["curl".toList, "deps".toList], PackageName a := by
  refine List.forall_mem_cons.mpr ⟨?_, List.forall_mem_singleton.mpr ?_⟩
  · exact packageName_of_all (by decide) (by decide) (by decide)
  · exact packageName_of_all (by decide) (by decide) (by decide)

/-- `curl` is installed, and the virtual package `deps` stands for `git`. -/
def somePackages : Packages where
  installed pkg := pkg == "curl".toList || pkg == "git".toList
  virtual pkg := if pkg = "deps".toList then some "git\n".toList else none

/-- `curl` is installed, and nothing else. -/
def onlyCurl : Packages where
  installed pkg := pkg == "curl".toList
  virtual _ := none

/-- `apt-get install` without a failure. -/
def install (pkgs : List Str) : Option (Str → Bool) :=
  some fun pkg => pkg == "curl".toList || pkgs.contains pkg

/-- The virtual package `deps` was added for `curl` and `git`. -/
def withDeps : Packages :=
  (addPkgVirtual noExpansion install onlyCurl "deps".toList ["curl".toList, "git".toList]).2

/-- `del-pkg deps curl` does what is recorded, and `del-pkg deps` behind `add-pkg --virtual` purges
what was not installed before. -/
theorem delPkg_iff_deps :
    AsRecorded noExpansion somePackages ["deps".toList, "curl".toList]
        (delPkgApt noExpansion somePackages ["deps".toList, "curl".toList]) ∧
      (delPkgApt noExpansion withDeps ["deps".toList]).purged.getD [] = ["git".toList] := by
  have names : ∀ a ∈ ["deps".toList, "curl".toList], PackageName a := by
    intro a member
    exact names_curl_deps a (List.mem_pair.mpr (List.mem_pair.mp member).symm)
  have decides : FirstDecides somePackages ["deps".toList, "curl".toList] := by
    intro pkg member hasFile
    obtain rfl | rfl := List.mem_pair.mp member
    · rfl
    · exact absurd rfl hasFile
  have git : PackageName "git".toList :=
    packageName_of_all (by decide) (by decide) (by decide)
  have added : ∀ a ∈ ["curl".toList, "git".toList], PackageName a :=
    List.forall_mem_cons.mpr ⟨names_curl_deps _ List.mem_cons_self,
      List.forall_mem_singleton.mpr git⟩
  have deps : PackageName "deps".toList := names _ List.mem_cons_self
  have single : FirstDecides withDeps ["deps".toList] := by
    intro pkg member _
    rw [List.mem_singleton.mp member]
    rfl
  refine ⟨((delPkg_iff noExpansion).1 somePackages _ names (by decide)).mpr decides, ?_⟩
  exact ((delPkg_iff noExpansion).2 install onlyCurl withDeps "deps".toList
    ["curl".toList, "git".toList] deps added (by rfl) (by decide)).2 ["deps".toList]
    (List.forall_mem_singleton.mpr deps) (by decide) single

/-- Behind an installed package, a virtual one is not recognized: its name is purged, and its file
is left. -/
theorem delPkg_behind_installed :
    ¬ ∀ (x : PathnameExpansion) (p : Packages) (args : List Str), (∀ a ∈ args, PackageName a) →
      args.Nodup → AsRecorded x p args (delPkgApt x p args) := by
  intro claim
  have recorded := claim noExpansion somePackages ["curl".toList, "deps".toList]
    names_curl_deps (by decide)
  exact absurd recorded.purged (by decide)

end Baseimage.Helpers
