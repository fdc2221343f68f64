import PackageScaffold.Failure
import PackageScaffold.Settings.Basic
import PackageScaffold.Text.Case

/-!
# Settings from the environment

Variables of the environment override single settings.  An empty variable counts as unset.

## Main definitions

* `Environment`: variables and their values;
* `Settings.ofEnvironment`: the settings of a base, overridden by the environment.
-/

namespace PackageScaffold

/-- The variables of a process. -/
abbrev Environment := List (String × String)

/-- The value of a variable, if it has one that is not empty. -/
def Environment.value? (environment : Environment) (name : String) : Option String :=
  (environment.lookup name).filter (!·.isEmpty)

namespace Settings

/-- The words for true in the environment, in lower case; all others stand for false. -/
def trueWords : List String := ["1", "true", "yes", "on"]

/-- Whether a variable says yes.  Blanks around it and its case do not count. -/
def saysYes (value : String) : Bool :=
  trueWords.contains (Text.lower (Text.trim value))

/-- The settings that variables of the environment ask for, each with the name of its field. -/
def overrides (environment : Environment) : List (String × Value) :=
  let setting (name field : String) (value : String → Value) : Option (String × Value) :=
    (environment.value? name).map fun text => (field, value text)
  [setting "FPD_AUTHOR" "default_author" .text,
   setting "FPD_ORGANIZATION" "default_organization" .text,
   setting "FPD_PLATFORMS" "default_platforms" .text,
   setting "FPD_MAX_WORKERS" "max_workers" fun text => .text (Text.trim text),
   setting "FPD_STRICT_TEMPLATES" "strict_templates" fun text => .bool (saysYes text),
   setting "FPD_FAIL_ON_ERROR" "fail_on_error" fun text => .bool (saysYes text)].filterMap id

/-- The given settings, or the standard ones, overridden by the environment. -/
def ofEnvironment (environment : Environment) (base : Option Settings) :
    Except Misconfiguration Settings :=
  let entries := (base.map toEntries).getD []
  let overridden := (overrides environment).foldl
    (fun entries (field, value) => Entries.put entries (.text field) value) entries
  (ofEntries overridden).mapError .invalidEnvironment

end Settings

end PackageScaffold
