import Baseimage.Accounts.BooleanFiles
import Baseimage.Cinit.Arguments
import Baseimage.Startup.Environment

/-!
# From the container to the defaults of its services

`/init` passes the values of some variables to the supervisor as arguments. Each of them stands
behind a long option that takes an argument, so the supervisor reads it as a value, whatever text it
is. The user and the group become the defaults of the services.
-/

namespace Baseimage.Startup

open Accounts Cinit Getopt Shell Variables

/-- `${NAME:-DEFAULT}` -/
def valueOr (vars : Variables) (name default : String) : Str :=
  orDefault (vars.value name.toList) default.toList

/-- The arguments that `/init` executes the supervisor with. -/
def supervisorArguments (echo : Echo) (vars : Variables) : List Str :=
  ["--progname".toList, "supervisor".toList,
    "--services-gracetime".toList, valueOr vars "SERVICES_GRACETIME" "5000",
    "--default-service-uid".toList, vars.value "USER_ID".toList,
    "--default-service-gid".toList, vars.value "GROUP_ID".toList] ++
  if isBoolValTrueBy echo (valueOr vars "CONTAINER_DEBUG" "0") then ["--debug".toList] else []

/-- The options that these arguments are. -/
def supervisorItems (echo : Echo) (vars : Variables) : List Item :=
  [.option 'p' (some "supervisor".toList),
    .option 'g' (some (valueOr vars "SERVICES_GRACETIME" "5000")),
    .option 'u' (some (vars.value "USER_ID".toList)),
    .option 'i' (some (vars.value "GROUP_ID".toList))] ++
  if isBoolValTrueBy echo (valueOr vars "CONTAINER_DEBUG" "0") then [.option 'd' none] else []

/-- No value is taken for an option. -/
theorem spelling_supervisor (echo : Echo) (vars : Variables) :
    options.Spelling (supervisorItems echo vars) (supervisorArguments echo vars) := by
  have last : options.Spelling
      (if isBoolValTrueBy echo (valueOr vars "CONTAINER_DEBUG" "0") then [.option 'd' none] else [])
      (if isBoolValTrueBy echo (valueOr vars "CONTAINER_DEBUG" "0") then ["--debug".toList]
        else []) := by
    split
    · exact .longFlag (l := longOptions[0]) (by decide) (by decide) (by decide) (by decide) .nil
    · exact .nil
  refine .longSeparate (l := longOptions[1]) (by decide) (by decide) (by decide) (by decide) ?_
  refine .longSeparate (l := longOptions[3]) (by decide) (by decide) (by decide) (by decide) ?_
  refine .longSeparate (l := longOptions[5]) (by decide) (by decide) (by decide) (by decide) ?_
  exact .longSeparate (l := longOptions[6]) (by decide) (by decide) (by decide) (by decide) last

/-- What the supervisor reads is what `/init` passes. -/
theorem getopt_supervisor (echo : Echo) (vars : Variables) :
    options.getopt none (supervisorArguments echo vars) = (supervisorItems echo vars, []) :=
  (Table.getopt_iff.mpr (spelling_supervisor echo vars)).1

theorem parseItems_debug (sys : System) (ctx : ContextArgs) (debug : Bool) :
    parseItems sys (if debug then [.option 'd' none] else []) ctx =
      .ok { ctx with debug := ctx.debug || debug } := by
  cases debug with
  | true => simp [parseItems, parseArg]
  | false => simp [parseItems]

/-- What the supervisor takes from its arguments. -/
def supervisorContext (echo : Echo) (vars : Variables) (preset : ContextArgs)
    (gracetime uid gid : Nat) : ContextArgs :=
  { preset with
    progname := "supervisor".toList
    debug := preset.debug || isBoolValTrueBy echo (valueOr vars "CONTAINER_DEBUG" "0")
    servicesGracetime := gracetime
    defaults := { preset.defaults with uid := uid, gid := gid } }

theorem parseArgs_supervisor (sys : System) (echo : Echo) (vars : Variables)
    (preset ctx : ContextArgs) :
    parseArgs sys (supervisorArguments echo vars) preset = .ok ctx ↔
      ∃ gracetime uid gid,
        (stringToUint (valueOr vars "SERVICES_GRACETIME" "5000")).toOption = some gracetime ∧
        (stringToUid sys (vars.value "USER_ID".toList)).toOption = some uid ∧
        (stringToGid sys (vars.value "GROUP_ID".toList)).toOption = some gid ∧
        ctx = supervisorContext echo vars preset gracetime uid gid := by
  have short : ¬ "supervisor".toList.length ≥ 256 := by decide
  rw [parseArgs, getopt_supervisor, Outcome.bind_eq_ok_iff]
  simp only [supervisorItems, List.cons_append, List.nil_append, parseItems, Outcome.bind_eq_ok_iff,
    parseArg, Option.getD_some, if_neg short, Outcome.ok.injEq, exists_eq_right, exists_eq_left',
    convertArg_eq_ok_iff, parseItems_debug]
  constructor
  · rintro ⟨_, ⟨gracetime, accepted, rfl⟩, _, ⟨uid, user, rfl⟩, _, ⟨gid, group, rfl⟩, rfl⟩
    exact ⟨gracetime, uid, gid, accepted, user, group, rfl⟩
  · rintro ⟨gracetime, uid, gid, accepted, user, group, rfl⟩
    exact ⟨_, ⟨gracetime, accepted, rfl⟩, _, ⟨uid, user, rfl⟩, _, ⟨gid, group, rfl⟩, rfl⟩

/-! ## From the container -/

/-- The variables that are passed on. -/
def passedVariables : List Str :=
  ["SERVICES_GRACETIME".toList, "USER_ID".toList, "GROUP_ID".toList, "CONTAINER_DEBUG".toList]

/-- The variables as they should be. -/
def Container.resolved (c : Container) : Variables := fun v => (resolve c v).map Variable.ofEnv

section Container

variable {shell : Beginning} {c : Container} {v : Str}

theorem passed_unassigned (passed : v ∈ passedVariables) :
    v ≠ "PATH".toList ∧ ¬ c.Assigns v := by
  have apart : ∀ v ∈ passedVariables, v ≠ "PATH".toList ∧ v ∉ scriptVariables := by decide
  exact ⟨(apart v passed).1, not_assigns (apart v passed).2⟩

/-- A variable that the script does not assign to has the value it should have. -/
theorem leaves_value (named : c.Named) (other : v ≠ "PATH".toList) (unassigned : ¬ c.Assigns v)
    (begun : shell.vars c.env v = (c.env v).map Variable.ofEnv) :
    (c.leaves shell).value v = c.resolved.value v := by
  cases should : resolve c v with
  | some value =>
      have kept := kept_of_unassigned named unassigned begun
      have given := (environment_eq_iff_kept named other should).mpr kept
      rw [value_of_environment given, Variables.value, Container.resolved, should]
      rfl
  | none =>
      obtain ⟨secret, ungiven, internal⟩ := ungiven_of_resolve should
      have leaves : c.leaves shell v = reassign (shell.vars c.env v) (c.lastAssigned shell v) :=
        leaves_of_unloaded named other
          ((lineFor_eq_none_iff (EnvDir.list_nodup c.secrets)).mp secret)
          (behindContEnv_other ((lineFor_eq_none_iff (EnvDir.list_nodup c.contEnv)).mp internal))
      have last : c.lastAssigned shell v = none := by
        rwa [← Option.not_isSome_iff_eq_none, isSome_lastAssigned named]
      rw [begun, ungiven, last] at leaves
      rw [Variables.value, leaves, Variables.value, Container.resolved, should]
      rfl

end Container

/-- The supervisor gets the values that the variables should have. -/
theorem supervisorArguments_leaves (echo : Echo) {shell : Beginning} {c : Container}
    (named : c.Named)
    (begun : ∀ v ∈ passedVariables, shell.vars c.env v = (c.env v).map Variable.ofEnv) :
    supervisorArguments echo (c.leaves shell) = supervisorArguments echo c.resolved := by
  have same : ∀ v ∈ passedVariables, (c.leaves shell).value v = c.resolved.value v := by
    intro v passed
    obtain ⟨other, unassigned⟩ := passed_unassigned passed
    exact leaves_value named other unassigned (begun v passed)
  have gracetime := same "SERVICES_GRACETIME".toList (by decide)
  have user := same "USER_ID".toList (by decide)
  have group := same "GROUP_ID".toList (by decide)
  have debug := same "CONTAINER_DEBUG".toList (by decide)
  rw [supervisorArguments, valueOr, valueOr, gracetime, user, group, debug]
  rfl

/-- The supervisor accepts the arguments of a container exactly if the values of the grace time, the
user and the group convert, and it takes these values. -/
theorem handOver_accepted_iff (line : Str → Str) (echo : Echo) (sys : System) (shell : Beginning)
    (c : Container) (named : c.Named)
    (begun : ∀ v ∈ passedVariables, shell.vars c.env v = (c.env v).map Variable.ofEnv)
    (sh : InitShell) (run : init line shell c = some sh) (preset ctx : ContextArgs) :
    parseArgs sys (supervisorArguments echo sh.vars) preset = .ok ctx ↔
      ∃ gracetime uid gid,
        (stringToUint (valueOr c.resolved "SERVICES_GRACETIME" "5000")).toOption =
          some gracetime ∧
        (stringToUid sys (c.resolved.value "USER_ID".toList)).toOption = some uid ∧
        (stringToGid sys (c.resolved.value "GROUP_ID".toList)).toOption = some gid ∧
        ctx = supervisorContext echo c.resolved preset gracetime uid gid := by
  rw [init_vars run, supervisorArguments_leaves echo named begun]
  exact parseArgs_supervisor sys echo c.resolved preset ctx

/-- The user and the group are the public variables, and there is no grace time. -/
theorem handOver_accepted_iff_application :
    (init (fun s => s ++ ['\n']) ash application).isSome ∧
      ∀ sh, init (fun s => s ++ ['\n']) ash application = some sh →
        parseArgs plainSystem (supervisorArguments Echo.literal sh.vars) {} =
          .ok (supervisorContext Echo.literal application.resolved {} 5000 1000 1000) := by
  refine ⟨by rfl, fun sh run => ?_⟩
  rw [handOver_accepted_iff _ Echo.literal plainSystem ash application application_named
    (by decide) sh run]
  exact ⟨5000, 1000, 1000, by decide +kernel, by decide +kernel, by decide +kernel, rfl⟩

end Baseimage.Startup
