import ChartFeed.Configuration.Layer
import ChartFeed.Host.Basic

/-!
# Loading a configuration

Two files make a configuration: that of the profile in the home directory, and over it the one in
the current directory or the one that the command line names.  A file that is named has to exist;
the others may be missing.
-/

set_option autoImplicit false

namespace ChartFeed

/-- Why there is no configuration. -/
inductive ConfigurationFault where
  /-- The file that was named does not exist. -/
  | notFound (path : String)
  | unreadable (path : String)
  | malformed (path : String)
deriving DecidableEq

/-- The wording of a configuration fault. -/
def ConfigurationFault.message : ConfigurationFault → String
  | .notFound path => "Config file not found: " ++ path
  | .unreadable path => "Failed to read config file: " ++ path
  | .malformed path => "Failed to parse config file: " ++ path

namespace Configuration

/-- The name of configuration files. -/
def fileName : String := "chartquery.json"

/-- The folder of the profile in the home directory. -/
def profileFolder : String := ".chartquery"

section

variable {m : Type → Type} [Monad m]

/-- The layer of a file. -/
def loadLayer (h : Host m) (path : String) : m (Except ConfigurationFault Layer) := do
  match ← h.read path with
  | .error _ => return .error (.unreadable path)
  | .ok text =>
    match Layer.ofText? text with
    | some layer => return .ok layer
    | none => return .error (.malformed path)

/-- The layer of a file that may be missing. -/
def loadIfExists (h : Host m) (path : String) : m (Except ConfigurationFault Layer) := do
  if ← h.exists? path then loadLayer h path else return .ok .empty

/-- The layer of the profile. -/
def loadProfile (h : Host m) : m (Except ConfigurationFault Layer) := do
  match ← h.home? with
  | some home => loadIfExists h (Path.join (Path.join home profileFolder) fileName)
  | none => return .ok .empty

/-- The layer over that of the profile. -/
def loadOverlay (h : Host m) (file : Option String) : m (Except ConfigurationFault Layer) := do
  match file with
  | none => loadIfExists h fileName
  | some file =>
    let path ← h.expand file
    if ← h.exists? path then loadLayer h path else return .error (.notFound path)

/-- The configuration that a command line and the files make. -/
def load (h : Host m) (overrides : Overrides) : m (Except ConfigurationFault Configuration) := do
  match ← loadProfile h with
  | .error fault => return .error fault
  | .ok profile =>
    match ← loadOverlay h overrides.file with
    | .error fault => return .error fault
    | .ok overlay =>
      return .ok (resolve overrides ((Layer.empty.merge profile).merge overlay))

end

end Configuration

end ChartFeed
