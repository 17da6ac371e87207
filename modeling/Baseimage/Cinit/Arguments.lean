import Baseimage.Cinit.SupplementaryGroups
import Baseimage.Run.Getopt

/-!
# The arguments of the supervisor

`parse_args` goes over its options with `getopt_long`. The last option of a kind decides, but the
groups of all options `-s` are put together. An option whose value is refused, one that is not
known and an operand end the program before anything is done.
-/

namespace Baseimage.Cinit

open Getopt

/-- `long_options` -/
def longOptions : List Getopt.Long :=
  [ { name := "debug".toList, hasArg := false, val := 'd' },
    { name := "progname".toList, hasArg := true, val := 'p' },
    { name := "root-directory".toList, hasArg := true, val := 'r' },
    { name := "services-gracetime".toList, hasArg := true, val := 'g' },
    { name := "default-service-ready-timeout".toList, hasArg := true, val := 't' },
    { name := "default-service-uid".toList, hasArg := true, val := 'u' },
    { name := "default-service-gid".toList, hasArg := true, val := 'i' },
    { name := "default-service-sgid-list".toList, hasArg := true, val := 's' },
    { name := "default-service-umask".toList, hasArg := true, val := 'm' },
    { name := "help".toList, hasArg := false, val := 'h' } ]

/-- The options of `parse_args`. -/
def options : Getopt.Table where
  short := Getopt.shortOptions "dhr:g:t:p:u:i:m:s:".toList
  long := longOptions
  short_hyphen := by decide

/-- What the arguments set in the context. -/
structure ContextArgs where
  progname : Str := "cinit".toList
  servicesRoot : Str := "/etc/services.d".toList
  debug : Bool := false
  servicesGracetime : Nat := 5000
  defaults : ServiceDefaults := {}

/-- An exception of `parse_args`. -/
def refuse {α : Type} (message : Str) : Outcome Fault α := inBounds (throwMessage message)

/-- A value that is converted between `Try` and `Catch`. -/
def convertArg (what : String) (convert : Str → Outcome Str Nat) (optarg : Str) :
    Outcome Fault Nat :=
  catchMessage (inBounds (convert optarg)) fun message =>
    refuse ("Invalid ".toList ++ what.toList ++ " value '".toList ++ optarg ++ "': ".toList ++
      message ++ ".".toList)

/-- `parse_args`, for what `getopt_long` returns. -/
def parseArg (sys : System) (ctx : ContextArgs) : Item → Outcome Fault ContextArgs
  | .invalid => refuse "help".toList
  | .option n optarg =>
      let optarg := optarg.getD []
      match n with
      | 'd' => .ok { ctx with debug := true }
      | 'p' =>
          if optarg.length ≥ 256 then refuse "Programme name too long.".toList
          else .ok { ctx with progname := optarg }
      | 'r' =>
          if optarg.length ≥ 256 then refuse "Root directory path too long.".toList
          else if optarg.head? ≠ some '/' then
            refuse "Root directory path must be absolute.".toList
          else .ok { ctx with servicesRoot := optarg }
      | 'g' => do
          let gracetime ← convertArg "gracetime" stringToUint optarg
          .ok { ctx with servicesGracetime := gracetime }
      | 't' => do
          let timeout ← convertArg "default service ready timeout" stringToUint optarg
          .ok { ctx with defaults := { ctx.defaults with readyTimeout := timeout } }
      | 'u' => do
          let uid ← convertArg "default service UID" (stringToUid sys) optarg
          .ok { ctx with defaults := { ctx.defaults with uid := uid } }
      | 'i' => do
          let gid ← convertArg "default service GID" (stringToGid sys) optarg
          .ok { ctx with defaults := { ctx.defaults with gid := gid } }
      | 's' => do
          let groups ← parseSgidList sys optarg ctx.defaults.sgidList
          .ok { ctx with defaults := { ctx.defaults with sgidList := groups } }
      | 'm' => do
          let umask ← convertArg "default service umask" stringToMode optarg
          .ok { ctx with defaults := { ctx.defaults with umask := umask } }
      | 'h' => refuse "help".toList
      | _ => .ok ctx

/-- The options one after the other. -/
def parseItems (sys : System) : List Item → ContextArgs → Outcome Fault ContextArgs
  | [], ctx => .ok ctx
  | item :: items, ctx => parseArg sys ctx item >>= parseItems sys items

/-- `parse_args` -/
def parseArgs (sys : System) (args : List Str) (ctx : ContextArgs) : Outcome Fault ContextArgs := do
  let ctx ← parseItems sys (options.getopt none args).1 ctx
  match (options.getopt none args).2 with
  | [] => .ok ctx
  | arg :: _ => refuse ("Unexpected argument: '".toList ++ arg ++ "'.".toList)

/-! ## What the options declare -/

/-- The arguments of the options of a kind. -/
def argsOf (val : Char) : List Item → List Str
  | [] => []
  | .invalid :: items => argsOf val items
  | .option n optarg :: items =>
      if n = val then optarg.getD [] :: argsOf val items else argsOf val items

/-- All arguments are accepted, and the value is that of the last one, if there is one. -/
def LastOf {α : Type} (accept : Str → Option α) (args : List Str) (preset value : α) : Prop :=
  ∃ values, args.mapM accept = some values ∧ value = values.getLastD preset

/-- A name that fits into the context. -/
def acceptName (name : Str) : Option Str := if name.length < 256 then some name else none

/-- An absolute path that fits into the context. -/
def acceptRoot (path : Str) : Option Str :=
  if path.length < 256 ∧ path.head? = some '/' then some path else none

/-- The context that the options declare, from what it was before. -/
structure Declares (sys : System) (items : List Item) (preset ctx : ContextArgs) : Prop where
  help : argsOf 'h' items = []
  debug : ctx.debug = (preset.debug || !(argsOf 'd' items).isEmpty)
  progname : LastOf acceptName (argsOf 'p' items) preset.progname ctx.progname
  servicesRoot : LastOf acceptRoot (argsOf 'r' items) preset.servicesRoot ctx.servicesRoot
  gracetime : LastOf (fun arg => (stringToUint arg).toOption) (argsOf 'g' items)
    preset.servicesGracetime ctx.servicesGracetime
  readyTimeout : LastOf (fun arg => (stringToUint arg).toOption) (argsOf 't' items)
    preset.defaults.readyTimeout ctx.defaults.readyTimeout
  uid : LastOf (fun arg => (stringToUid sys arg).toOption) (argsOf 'u' items)
    preset.defaults.uid ctx.defaults.uid
  gid : LastOf (fun arg => (stringToGid sys arg).toOption) (argsOf 'i' items)
    preset.defaults.gid ctx.defaults.gid
  sgidList : parseSgidLists sys (argsOf 's' items) preset.defaults.sgidList =
    .ok ctx.defaults.sgidList
  umask : LastOf (fun arg => (stringToMode arg).toOption) (argsOf 'm' items)
    preset.defaults.umask ctx.defaults.umask

section LastOf

variable {α : Type} {accept : Str → Option α} {arg : Str} {args : List Str} {preset value : α}

theorem lastOf_nil : LastOf accept [] preset preset := ⟨[], rfl, rfl⟩

theorem lastOf_cons :
    LastOf accept (arg :: args) preset value ↔
      ∃ x, accept arg = some x ∧ LastOf accept args x value := by
  constructor
  · rintro ⟨values, all, rfl⟩
    rw [List.mapM_cons] at all
    obtain ⟨x, hx, rest⟩ := Option.bind_eq_some_iff.mp all
    obtain ⟨xs, hxs, same⟩ := Option.bind_eq_some_iff.mp rest
    obtain rfl := Option.some.inj same
    exact ⟨x, hx, xs, hxs, List.getLastD_cons ..⟩
  · rintro ⟨x, hx, xs, hxs, rfl⟩
    refine ⟨x :: xs, ?_, (List.getLastD_cons ..).symm⟩
    rw [List.mapM_cons, hx, hxs]
    rfl

theorem lastOf_nil_iff : LastOf accept [] preset value ↔ value = preset := by
  constructor
  · rintro ⟨values, all, rfl⟩
    obtain rfl := Option.some.inj all
    rfl
  · rintro rfl
    exact lastOf_nil

end LastOf

section Declares

variable {sys : System} {preset ctx : ContextArgs} {items : List Item}

theorem refuse_ne_ok {α : Type} (message : Str) (a : α) : refuse message ≠ .ok a :=
  fun same => throwMessage_ne_ok _ _ (inBounds_eq_ok.mp same)

theorem convertArg_eq_ok_iff {what : String} {convert : Str → Outcome Str Nat} {optarg : Str}
    {value : Nat} :
    convertArg what convert optarg = .ok value ↔ (convert optarg).toOption = some value := by
  rw [convertArg]
  cases convert optarg with
  | ok n => simp [inBounds, catchMessage, Outcome.toOption]
  | threw message => simp [inBounds, catchMessage, Outcome.toOption, refuse_ne_ok]
  | aborted => simp [inBounds, catchMessage, Outcome.toOption]

theorem exists_converted {what : String} {convert : Str → Outcome Str Nat} {optarg : Str}
    {update : Nat → ContextArgs} {P : ContextArgs → Prop} :
    (∃ next, (convertArg what convert optarg >>= fun value => Outcome.ok (update value)) =
        .ok next ∧ P next) ↔
      ∃ value, (convert optarg).toOption = some value ∧ P (update value) := by
  constructor
  · rintro ⟨next, parsed, holds⟩
    obtain ⟨value, converted, ⟨⟩⟩ := Outcome.bind_eq_ok_iff.mp parsed
    exact ⟨value, convertArg_eq_ok_iff.mp converted, holds⟩
  · rintro ⟨value, accepted, holds⟩
    exact ⟨_, Outcome.bind_eq_ok_iff.mpr ⟨value, convertArg_eq_ok_iff.mpr accepted, rfl⟩, holds⟩

/-- The options of the supervisor. -/
def kinds : List Char := ['d', 'p', 'r', 'g', 't', 'u', 'i', 's', 'm', 'h']

/-- Only the arguments of these options matter. -/
theorem Declares.of_same {others : List Item} (h : Declares sys items preset ctx)
    (same : ∀ val ∈ kinds, argsOf val items = argsOf val others) :
    Declares sys others preset ctx where
  help := same 'h' (by decide) ▸ h.help
  debug := same 'd' (by decide) ▸ h.debug
  progname := same 'p' (by decide) ▸ h.progname
  servicesRoot := same 'r' (by decide) ▸ h.servicesRoot
  gracetime := same 'g' (by decide) ▸ h.gracetime
  readyTimeout := same 't' (by decide) ▸ h.readyTimeout
  uid := same 'u' (by decide) ▸ h.uid
  gid := same 'i' (by decide) ▸ h.gid
  sgidList := same 's' (by decide) ▸ h.sgidList
  umask := same 'm' (by decide) ▸ h.umask

/-- In front of others, an option declares what `parse_args` does with it. -/
def InFront (sys : System) (items : List Item) (preset ctx : ContextArgs) (item : Item) : Prop :=
  Declares sys (item :: items) preset ctx ↔
    ∃ next, parseArg sys preset item = .ok next ∧ Declares sys items next ctx

theorem inFront_debug (optarg : Option Str) : InFront sys items preset ctx (.option 'd' optarg) := by
  constructor
  · intro h
    exact ⟨_, rfl, { h with debug := by simpa [argsOf] using h.debug }⟩
  · rintro ⟨_, ⟨⟩, h⟩
    exact { h with debug := by simpa [argsOf] using h.debug }

theorem inFront_progname (optarg : Option Str) :
    InFront sys items preset ctx (.option 'p' optarg) := by
  constructor
  · intro h
    obtain ⟨x, accepted, rest⟩ := lastOf_cons.mp h.progname
    obtain ⟨short, ⟨⟩⟩ := Option.ite_none_right_eq_some.mp accepted
    exact ⟨_, if_neg (Nat.not_le.mpr short), { h with progname := rest }⟩
  · rintro ⟨next, parsed, h⟩
    change (if _ then _ else _) = _ at parsed
    split at parsed
    · exact absurd parsed (refuse_ne_ok _ _)
    · next short =>
        obtain rfl := Outcome.ok.inj parsed
        have accepted : acceptName (optarg.getD []) = some (optarg.getD []) :=
          if_pos (Nat.not_le.mp short)
        exact { h with progname := lastOf_cons.mpr ⟨_, accepted, h.progname⟩ }

theorem inFront_servicesRoot (optarg : Option Str) :
    InFront sys items preset ctx (.option 'r' optarg) := by
  constructor
  · intro h
    obtain ⟨x, accepted, rest⟩ := lastOf_cons.mp h.servicesRoot
    obtain ⟨⟨short, absolute⟩, ⟨⟩⟩ := Option.ite_none_right_eq_some.mp accepted
    exact ⟨_, (if_neg (Nat.not_le.mpr short)).trans (if_neg (not_not.mpr absolute)),
      { h with servicesRoot := rest }⟩
  · rintro ⟨next, parsed, h⟩
    change (if _ then _ else _) = _ at parsed
    split at parsed
    · exact absurd parsed (refuse_ne_ok _ _)
    · next short =>
        split at parsed
        · exact absurd parsed (refuse_ne_ok _ _)
        · next absolute =>
            obtain rfl := Outcome.ok.inj parsed
            have accepted : acceptRoot (optarg.getD []) = some (optarg.getD []) :=
              if_pos ⟨Nat.not_le.mp short, not_not.mp absolute⟩
            exact { h with servicesRoot := lastOf_cons.mpr ⟨_, accepted, h.servicesRoot⟩ }

theorem inFront_gracetime (optarg : Option Str) :
    InFront sys items preset ctx (.option 'g' optarg) := by
  refine Iff.trans ?_ exists_converted.symm
  constructor
  · intro h
    obtain ⟨x, accepted, rest⟩ := lastOf_cons.mp h.gracetime
    exact ⟨x, accepted, { h with gracetime := rest }⟩
  · rintro ⟨x, accepted, h⟩
    exact { h with gracetime := lastOf_cons.mpr ⟨x, accepted, h.gracetime⟩ }

theorem inFront_readyTimeout (optarg : Option Str) :
    InFront sys items preset ctx (.option 't' optarg) := by
  refine Iff.trans ?_ exists_converted.symm
  constructor
  · intro h
    obtain ⟨x, accepted, rest⟩ := lastOf_cons.mp h.readyTimeout
    exact ⟨x, accepted, { h with readyTimeout := rest }⟩
  · rintro ⟨x, accepted, h⟩
    exact { h with readyTimeout := lastOf_cons.mpr ⟨x, accepted, h.readyTimeout⟩ }

theorem inFront_uid (optarg : Option Str) :
    InFront sys items preset ctx (.option 'u' optarg) := by
  refine Iff.trans ?_ exists_converted.symm
  constructor
  · intro h
    obtain ⟨x, accepted, rest⟩ := lastOf_cons.mp h.uid
    exact ⟨x, accepted, { h with uid := rest }⟩
  · rintro ⟨x, accepted, h⟩
    exact { h with uid := lastOf_cons.mpr ⟨x, accepted, h.uid⟩ }

theorem inFront_gid (optarg : Option Str) :
    InFront sys items preset ctx (.option 'i' optarg) := by
  refine Iff.trans ?_ exists_converted.symm
  constructor
  · intro h
    obtain ⟨x, accepted, rest⟩ := lastOf_cons.mp h.gid
    exact ⟨x, accepted, { h with gid := rest }⟩
  · rintro ⟨x, accepted, h⟩
    exact { h with gid := lastOf_cons.mpr ⟨x, accepted, h.gid⟩ }

theorem inFront_umask (optarg : Option Str) :
    InFront sys items preset ctx (.option 'm' optarg) := by
  refine Iff.trans ?_ exists_converted.symm
  constructor
  · intro h
    obtain ⟨x, accepted, rest⟩ := lastOf_cons.mp h.umask
    exact ⟨x, accepted, { h with umask := rest }⟩
  · rintro ⟨x, accepted, h⟩
    exact { h with umask := lastOf_cons.mpr ⟨x, accepted, h.umask⟩ }

theorem inFront_sgidList (optarg : Option Str) :
    InFront sys items preset ctx (.option 's' optarg) := by
  constructor
  · intro h
    obtain ⟨groups, stored, rest⟩ := Outcome.bind_eq_ok_iff.mp h.sgidList
    have parsed : ∀ next : List Nat → ContextArgs,
        (parseSgidList sys (optarg.getD []) preset.defaults.sgidList >>= fun groups =>
          Outcome.ok (next groups)) = .ok (next groups) :=
      fun next => Outcome.bind_eq_ok_iff.mpr ⟨groups, stored, rfl⟩
    exact ⟨_, parsed _, { h with sgidList := rest }⟩
  · rintro ⟨next, parsed, h⟩
    obtain ⟨groups, stored, ⟨⟩⟩ := Outcome.bind_eq_ok_iff.mp parsed
    exact { h with sgidList := Outcome.bind_eq_ok_iff.mpr ⟨groups, stored, h.sgidList⟩ }

theorem inFront_help (optarg : Option Str) : InFront sys items preset ctx (.option 'h' optarg) := by
  constructor
  · intro h
    exact absurd h.help (List.cons_ne_nil _ _)
  · rintro ⟨next, parsed, -⟩
    exact absurd parsed (refuse_ne_ok _ _)

/-- `getopt_long` returns no other option, and `parse_args` would do nothing for it. -/
theorem inFront_unknown {n : Char} (unknown : n ∉ kinds) (optarg : Option Str) :
    InFront sys items preset ctx (.option n optarg) := by
  have same : ∀ val ∈ kinds, argsOf val (.option n optarg :: items) = argsOf val items :=
    fun val member => if_neg (ne_of_mem_of_not_mem member unknown).symm
  have ignored : parseArg sys preset (.option n optarg) = .ok preset := by
    simp only [kinds, List.mem_cons, List.not_mem_nil, or_false, not_or] at unknown
    obtain ⟨d, p, r, g, t, u, i, s, m, h⟩ := unknown
    simp only [parseArg]
  constructor
  · exact fun declared => ⟨preset, ignored, declared.of_same same⟩
  · rintro ⟨next, parsed, declared⟩
    rw [ignored] at parsed
    obtain rfl := Outcome.ok.inj parsed
    exact declared.of_same fun val member => (same val member).symm

theorem declares_cons (n : Char) (optarg : Option Str) :
    Declares sys (.option n optarg :: items) preset ctx ↔
      ∃ next, parseArg sys preset (.option n optarg) = .ok next ∧ Declares sys items next ctx := by
  by_cases known : n ∈ kinds
  · simp only [kinds, List.mem_cons, List.not_mem_nil, or_false] at known
    obtain rfl | rfl | rfl | rfl | rfl | rfl | rfl | rfl | rfl | rfl := known
    exacts [inFront_debug optarg, inFront_progname optarg, inFront_servicesRoot optarg,
      inFront_gracetime optarg, inFront_readyTimeout optarg, inFront_uid optarg,
      inFront_gid optarg, inFront_sgidList optarg, inFront_umask optarg, inFront_help optarg]
  · exact inFront_unknown known optarg

theorem declares_nil : Declares sys [] preset ctx ↔ ctx = preset := by
  constructor
  · intro h
    obtain ⟨progname, root, debug, gracetime, uid, gid, sgidList, umask, readyTimeout⟩ := ctx
    obtain ⟨progname', root', debug', gracetime', uid', gid', sgidList', umask', readyTimeout'⟩ :=
      preset
    have flag : debug = debug' := by simpa [argsOf] using h.debug
    have groups : sgidList' = sgidList := Outcome.ok.inj h.sgidList
    simp only [ContextArgs.mk.injEq, ServiceDefaults.mk.injEq]
    exact ⟨lastOf_nil_iff.mp h.progname, lastOf_nil_iff.mp h.servicesRoot, flag,
      lastOf_nil_iff.mp h.gracetime, lastOf_nil_iff.mp h.uid, lastOf_nil_iff.mp h.gid, groups.symm,
      lastOf_nil_iff.mp h.umask, lastOf_nil_iff.mp h.readyTimeout⟩
  · rintro rfl
    exact
      { help := rfl
        debug := by simp [argsOf]
        progname := lastOf_nil
        servicesRoot := lastOf_nil
        gracetime := lastOf_nil
        readyTimeout := lastOf_nil
        uid := lastOf_nil
        gid := lastOf_nil
        sgidList := rfl
        umask := lastOf_nil }

theorem parseItems_eq_ok_iff (valid : Table.Valid items) :
    parseItems sys items preset = .ok ctx ↔ Declares sys items preset ctx := by
  induction items generalizing preset with
  | nil =>
      rw [parseItems, Outcome.ok.injEq, declares_nil]
      exact eq_comm
  | cons item items ih =>
      obtain ⟨first, others⟩ := List.forall_mem_cons.mp valid
      cases item with
      | invalid => exact absurd rfl first
      | option n optarg =>
          rw [declares_cons, parseItems, Outcome.bind_eq_ok_iff]
          exact exists_congr fun next => and_congr_right fun _ => ih others

/-- Where nothing is refused, there is no fault in the options. -/
theorem parseItems_valid (parsed : parseItems sys items preset = .ok ctx) : Table.Valid items := by
  induction items generalizing preset with
  | nil => simp [Table.Valid]
  | cons item items ih =>
      obtain ⟨next, first, rest⟩ := Outcome.bind_eq_ok_iff.mp parsed
      refine List.forall_mem_cons.mpr ⟨?_, ih rest⟩
      rintro rfl
      exact absurd first (refuse_ne_ok _ _)

end Declares

/-- The arguments that `parse_args` accepts are the spellings of options that declare a context, and
this context is what it leaves. -/
theorem parseArgs_eq_ok_iff (sys : System) (args : List Str) (preset ctx : ContextArgs) :
    parseArgs sys args preset = .ok ctx ↔
      ∃ items, options.Spelling items args ∧ Declares sys items preset ctx := by
  rw [parseArgs, Outcome.bind_eq_ok_iff]
  constructor
  · rintro ⟨next, parsed, rest⟩
    split at rest
    · next operands =>
        obtain rfl := Outcome.ok.inj rest
        have valid := parseItems_valid parsed
        exact ⟨_, Table.getopt_iff.mp ⟨Prod.ext rfl operands, valid⟩,
          (parseItems_eq_ok_iff valid).mp parsed⟩
    · exact absurd rest (refuse_ne_ok _ _)
  · rintro ⟨items, spelled, declared⟩
    obtain ⟨read, valid⟩ := Table.getopt_iff.mpr spelled
    rw [read]
    exact ⟨ctx, (parseItems_eq_ok_iff valid).mpr declared, rfl⟩

end Baseimage.Cinit
