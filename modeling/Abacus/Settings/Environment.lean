import Abacus.Settings

/-!
# Settings from the environment

Five variables of the environment give settings. A variable that is empty counts as not set.

* `Environment`, `Environment.known`: the environment and the variables that matter.
* `Settings.ofEnvironment`: the settings that an environment gives.
-/

namespace Abacus

/-- The names and values of environment variables. -/
abbrev Environment := List (Text × Text)

namespace Environment

/-- The settings that variables give, and the names of the variables. -/
def known : List (String × String) :=
  [("host", "ARITHMETIC_HOST"), ("port", "PORT"), ("static_dir", "ARITHMETIC_STATIC_DIR"),
    ("max_depth", "ARITHMETIC_MAX_DEPTH"), ("log_level", "ARITHMETIC_LOG_LEVEL")]

/-- The value of a variable, unless it is empty. -/
def value? (env : Environment) (name : Text) : Option Text :=
  (env.lookup name).filter fun value => !value.isEmpty

/-- The variables that are set, as members named for the settings. -/
def members (env : Environment) : Json.Members :=
  known.filterMap fun v =>
    (value? env (Text.ofString v.2)).map fun value => (Text.ofString v.1, .text value)

end Environment

/-- The settings that an environment gives. -/
def Settings.ofEnvironment (files : Files) (env : Environment) :
    Except AccessError (Checked Settings) :=
  Settings.ofData files (Environment.members env)

end Abacus
