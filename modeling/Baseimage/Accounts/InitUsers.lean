import Baseimage.Startup.Init
import Baseimage.Text.Filters
import Baseimage.Text.Pattern

/-!
# The accounts of a container

`10-init-users.sh` writes the databases of users and groups anew at each start: from the definitions
in `/etc/cont-groups.d` and `/etc/cont-users.d`, for the user `app` of the container, and for its
supplementary groups. A database is the list of its lines. The loops run in subshells, but a failure
ends the script from there as well.

The text that `sed-patch` inserts and the names in patterns have none of the characters that `sed`
gives a meaning.
-/

namespace Baseimage.Accounts

open Filters Pattern Startup

/-- `echo`: the lines it prints. What it does from a backslash on is left to the implementation. -/
structure Echo where
  print : Str → List Str
  plain : ∀ {s : Str}, '\\' ∉ s → s.head? ≠ some '-' → print s = s.splitOn '\n'
  begins : ∀ {a b : Str}, '\\' ∉ a → '\n' ∉ a → a ≠ [] → a.head? ≠ some '-' →
    ∃ first rest, print (a ++ b) = (a ++ first) :: rest

/-- An `echo` that prints what it is given. -/
def Echo.literal : Echo where
  print s := s.splitOn '\n'
  plain _ _ := rfl
  begins {_ b} _ line _ _ := splitOn_append line b

/-- The programs that the script uses and the repository does not have. -/
structure Tools where
  echo : Echo
  sort : NumericSort
  /-- The hash of a password, if `mkpasswd` succeeds. -/
  mkpasswd : Str → Option Str

/-- A file of a definition. -/
inductive Attribute where
  | executable (output : Str) (rc : Nat)
  | regular (content : Str)
  | missing
  deriving DecidableEq, Repr

/-- `$(get_content FILE)`; `none` when it fails. -/
def getContent : Attribute → Option Str
  | .executable output rc => if rc = 0 then some (commandSubstitution output) else none
  | .regular content => some (commandSubstitution content)
  | .missing => some []

/-- `$(get_content FILE boolean)`: an empty file stands for true. -/
def getContentBoolean : Attribute → Option Str
  | .regular [] => some "1".toList
  | file => getContent file

/-- `is-bool-val-true` -/
def isBoolValTrue (value : Str) : Bool :=
  ["1", "true", "yes", "y", "enabled", "enable", "on"].any fun word =>
    word.toList == value.map Char.toLower

/-- `user_id_valid` -/
def userIdValid (id : Str) : Bool := isNumber id

/-- `group_id_valid` -/
def groupIdValid (id : Str) : Bool := userIdValid id

def isNameStart (c : Char) : Bool := ('a' ≤ c && c ≤ 'z') || c == '_'

def isNameChar (c : Char) : Bool := isNameStart c || c.isDigit || c == '-'

/-- `user_name_valid`. The `*` of the pattern stands for any text. -/
def userNameValid : Str → Bool
  | [] => true
  | [_] => false
  | c :: d :: _ => isNameStart c && isNameChar d

/-- `group_name_valid` -/
def groupNameValid (name : Str) : Bool := userNameValid name

structure Databases where
  passwd : List Str := []
  group : List Str := []
  shadow : List Str := []
  /-- `none` where `/etc/gshadow` is no symbolic link. -/
  gshadow : Option (List Str) := none
  deriving DecidableEq, Repr

/-- `cut -d':' -fK < FILE | grep -q "^TEXT$"` -/
def hasField (k : Nat) (text : Str) (lines : List Str) : Bool :=
  (lines.map (cut ':' k)).any (isMatch ('^' :: (text ++ ['$'])))

namespace Databases

/-- `user_id_exists` -/
def userIdExists (db : Databases) (uid : Str) : Bool := hasField 3 uid db.passwd

/-- `user_name_exists` -/
def userNameExists (db : Databases) (name : Str) : Bool := hasField 1 name db.passwd

/-- `group_id_exists` -/
def groupIdExists (db : Databases) (gid : Str) : Bool := hasField 3 gid db.group

/-- `group_name_exists` -/
def groupNameExists (db : Databases) (name : Str) : Bool := hasField 1 name db.group

/-- `get_group_name_from_group_id` -/
def getGroupNameFromGroupId (db : Databases) (gid : Str) : Str :=
  ((db.group.find? (isMatch (":x:".toList ++ gid ++ ":".toList))).map (cut ':' 1)).getD []

end Databases

/-- The line of `/etc/group` that `add_group` appends. -/
def groupLine (name gid : Str) : Str := name ++ ":x:".toList ++ gid ++ ":".toList

/-- The line of `/etc/passwd` that `add_user` appends. -/
def passwdLine (name uid gid homedir : Str) : Str :=
  name ++ ":x:".toList ++ uid ++ ":".toList ++ gid ++ "::".toList ++ homedir ++
    ":/sbin/nologin".toList

/-- `${value:-default}` -/
def orDefault (value default : Str) : Str := if value = [] then default else value

/-- `add_group`; `none` when the script exits. -/
def addGroup (echo : Echo) (duplicateCheck : Bool) (name gid : Str) (db : Databases) :
    Option Databases :=
  if duplicateCheck && db.groupIdExists gid then none
  else if duplicateCheck && db.groupNameExists name then none
  else some { db with
    group := db.group ++ echo.print (groupLine name gid)
    gshadow := db.gshadow.map fun lines => lines ++ echo.print (name ++ ":*::".toList) }

/-- `add_user` -/
def addUser (echo : Echo) (duplicateCheck : Bool) (name uid gid home passwordHash : Str)
    (db : Databases) : Option Databases :=
  let homedir := orDefault home "/dev/null".toList
  let passwordHash := orDefault passwordHash "!".toList
  if duplicateCheck && db.userIdExists uid then none
  else if duplicateCheck && db.userNameExists name then none
  else if !db.groupIdExists gid then none
  else some { db with
    passwd := db.passwd ++ echo.print (passwdLine name uid gid homedir)
    shadow := db.shadow ++
      echo.print (name ++ ":".toList ++ passwordHash ++ "::0:::::".toList) }

/-- `sed-patch "/ADDRESS/ s/$/TEXT/"`: it fails when no line is changed. -/
def sedPatch (address text : Str) (lines : List Str) : Option (List Str) :=
  let patched := lines.map fun line => if isMatch address line then line ++ text else line
  if patched = lines then none else some patched

/-- `add_user_to_group` -/
def addUserToGroup (uname gname : Str) (db : Databases) : Option Databases :=
  if !db.userNameExists uname then none
  else if !db.groupNameExists gname then none
  else
    let patched :=
      if db.group.any (isMatch ('^' :: (gname ++ ":.*:$".toList))) then
        sedPatch ('^' :: (gname ++ ":".toList)) uname db.group
      else sedPatch ('^' :: (gname ++ ":".toList)) (',' :: uname) db.group
    patched.map fun group => { db with group := group }

/-- A directory of `/etc/cont-groups.d`. -/
structure GroupDir where
  basename : Str
  name : Attribute := .missing
  disabled : Attribute := .missing
  id : Attribute := .missing
  deriving DecidableEq, Repr

/-- A group that is defined. -/
structure Group where
  name : Str
  id : Str
  deriving DecidableEq, Repr

/-- The attributes of a group; `some none` for a disabled one. -/
def GroupDir.read (d : GroupDir) : Option (Option Group) := do
  let name ← getContent d.name
  let disabled ← getContentBoolean d.disabled
  let id ← getContent d.id
  if isBoolValTrue (orDefault disabled "0".toList) then return none
  return some { name := orDefault name d.basename, id := id }

/-- The loop over the defined groups, for one of them. -/
def addDefinedGroup (tools : Tools) (db : Databases) (d : GroupDir) : Option Databases := do
  match ← d.read with
  | none => return db
  | some group =>
      if !groupNameValid group.name then none
      else if !groupIdValid group.id then none
      else addGroup tools.echo true group.name group.id db

/-- A directory of `/etc/cont-users.d`. -/
structure UserDir where
  basename : Str
  name : Attribute := .missing
  disabled : Attribute := .missing
  id : Attribute := .missing
  gid : Attribute := .missing
  home : Attribute := .missing
  grps : Attribute := .missing
  password : Attribute := .missing
  passwordHash : Attribute := .missing
  deriving DecidableEq, Repr

/-- A user that is defined. -/
structure User where
  name : Str
  uid : Str
  gid : Str
  home : Str
  grps : Str
  password : Str
  passwordHash : Str
  deriving DecidableEq, Repr

/-- The attributes of a user; `some none` for a disabled one. -/
def UserDir.read (d : UserDir) : Option (Option User) := do
  let name ← getContent d.name
  let disabled ← getContentBoolean d.disabled
  let uid ← getContent d.id
  let gid ← getContent d.gid
  let home ← getContent d.home
  let grps ← getContent d.grps
  let password ← getContent d.password
  let passwordHash ← getContent d.passwordHash
  if isBoolValTrue (orDefault disabled "0".toList) then return none
  return some {
    name := orDefault name d.basename, uid := uid, gid := gid, home := home, grps := grps
    password := password, passwordHash := passwordHash }

def isBlank (c : Char) : Bool := c == ' ' || c == '\t'

/-- `read -r`: the blanks around a line are dropped. -/
def readLine (line : Str) : Str := (line.dropWhile isBlank).rdropWhile isBlank

/-- The groups that a user is to be a member of. -/
def User.groups (user : User) : List Str :=
  ((user.grps.splitOn '\n').map readLine).filter fun grp => grp ≠ []

/-- The hash of the password; a password that is given is hashed. -/
def User.hash (tools : Tools) (user : User) : Option Str :=
  if user.password ≠ [] then tools.mkpasswd user.password else some user.passwordHash

/-- The loop over the groups of a user. An invalid name is reported, and looked up as well. -/
def addToGroups (uname : Str) : List Str → Databases → Option Databases
  | [], db => some db
  | grp :: grps, db => (addUserToGroup uname grp db).bind (addToGroups uname grps)

/-- The loop over the defined users, for one of them. -/
def addDefinedUser (tools : Tools) (db : Databases) (d : UserDir) : Option Databases := do
  match ← d.read with
  | none => return db
  | some user =>
      if !userNameValid user.name then none
      else if !userIdValid user.uid then none
      else if !groupIdValid user.gid then none
      else
        let passwordHash ← user.hash tools
        let db ← addUser tools.echo true user.name user.uid user.gid user.home passwordHash db
        addToGroups user.name user.groups db

/-- A variable that may be unset. -/
def valueOf (env : Str → Option Str) (name : String) : Str := (env name.toList).getD []

/-- `echo LIST | tr ',' '\n' | grep -v '^$' | grep -v '^0$'` -/
def listedIds (echo : Echo) (list : Str) : List Str :=
  let lines := (echo.print list).flatMap fun line => (tr ',' '\n' line).splitOn '\n'
  (lines.filter fun line => !isMatch "^$".toList line).filter fun line =>
    !isMatch "^0$".toList line

/-- The supplementary groups of `app` in the order they are handled. -/
def supGroupIds (tools : Tools) (env : Str → Option Str) (groupId : Str) : List Str :=
  let list := valueOf env "SUP_GROUP_IDS" ++ ",".toList ++ valueOf env "SUP_GROUP_IDS_INTERNAL"
  tools.sort.sort ((listedIds tools.echo list).filter fun line => !hasWord groupId false line)

def app : Str := "app".toList

/-- The loop over the supplementary groups, for one of them. -/
def addSupGroup (tools : Tools) (db : Databases) (line : Str) : Option Databases :=
  let gid := readLine line
  if !isNumber gid then none
  else if !db.groupIdExists gid then do
    let db ← addGroup tools.echo true ("grp".toList ++ gid) gid db
    addUserToGroup app ("grp".toList ++ gid) db
  else addUserToGroup app (commandSubstitution (db.getGroupNameFromGroupId gid)) db

/-- The directories of definitions, in the order `find` lists them. -/
structure Definitions where
  groups : List GroupDir
  users : List UserDir

/-- `10-init-users.sh`; `none` when it fails. -/
def initUsers (tools : Tools) (gshadowLinked : Bool) (defs : Definitions)
    (env : Str → Option Str) : Option Databases := do
  let db : Databases := { gshadow := if gshadowLinked then some [] else none }
  let db ← defs.groups.foldlM (addDefinedGroup tools) db
  let db ← defs.users.foldlM (addDefinedUser tools) db
  let groupId ← env "GROUP_ID".toList
  let db ← addGroup tools.echo false app groupId db
  let userId ← env "USER_ID".toList
  let home := orDefault (valueOf env "HOME") "/config".toList
  let db ← addUser tools.echo false app userId groupId home [] db
  let db ← addUserToGroup app app db
  (supGroupIds tools env groupId).foldlM (addSupGroup tools) db

end Baseimage.Accounts
