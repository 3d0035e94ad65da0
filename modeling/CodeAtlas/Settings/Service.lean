import CodeAtlas.Settings.Assignment
import CodeAtlas.Text.Case
import CodeAtlas.Text.Integer
import CodeAtlas.Text.Quoted

/-! # Settings of the service

What the service takes from its environment. A file of settings gives way to the environment,
and the local file beside it wins over both. -/

namespace CodeAtlas.Settings

structure Service where
  dbPath : String
  maxFileSize : Int
  maxDepth : Int
  logLevel : String
  deriving Repr, DecidableEq

def defaultMaxFileSize : Int := 10485760

def defaultMaxDepth : Int := 10

/-- A setting that should be an integer. -/
structure NotAnInteger where
  name : String
  value : String
  deriving Repr, DecidableEq

def NotAnInteger.message (e : NotAnInteger) : String :=
  s!"{e.name} must be an integer, got {Text.quoted e.value}"

/-- An integer of the environment; one that is absent or blank is the default. -/
def integer (env : Keyed String) (name : String) (default : Int) : Except NotAnInteger Int :=
  match env.get? name with
  | none => .ok default
  | some value =>
    if value.toList.all Text.isBlank then .ok default
    else match Text.integer? value with
      | some n => .ok n
      | none => .error ⟨name, value⟩

def Service.ofEnvironment (env : Keyed String) : Except NotAnInteger Service := do
  let maxFileSize ← integer env "CODE_INTEL_MAX_FILE_SIZE" defaultMaxFileSize
  let maxDepth ← integer env "CODE_INTEL_MAX_DEPTH" defaultMaxDepth
  return {
    dbPath := (env.get? "CODE_INTEL_DB_PATH").getD "code-intel.db"
    maxFileSize, maxDepth
    logLevel := Text.upper ((env.get? "CODE_INTEL_LOG_LEVEL").getD "INFO") }

/-- The environment with the settings file and the local one, where they are there. -/
def withFiles (env : Keyed String) (file? localFile? : Option String) : Keyed String :=
  let env := match file? with
    | some text => load env false text
    | none => env
  match localFile? with
  | some text => load env true text
  | none => env

end CodeAtlas.Settings
