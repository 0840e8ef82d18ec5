import Lexicon.Script
import Lexicon.Settings
import Lexicon.Surroundings

/-!
# Settings on the machine

The settings of a user are in a file of a fixed name.  `load` reads them from a
given path, which must exist.  `discover` looks for the file in the working
directory, then in the directories of the user, and takes the first one there
is.  Without any, the settings are the default ones.

`setup` saves a file with the default settings in a directory, and refuses to
replace one unless it is forced to.
-/

namespace Lexicon.Task

/-- The name of a file of settings. -/
def settingsName : Path := "larkt.toml".toList

/-- The directory of this program among those of other programs. -/
def programName : Path := "larkt".toList

/-! ## Reading settings -/

/-- The settings at a path. -/
def load (s : Surroundings) (path : Path) : Except Failure Settings :=
  if (s.sight path).isPresent then
    match s.readText path with
    | .ok text => Settings.ofDocument text
    | .error cause => .error (.device cause)
  else .error (.settingsMissing (Path.toString path))

/-- The paths at which settings are looked for, in order. -/
def settingsPaths (s : Surroundings) : List Path :=
  let inHome (home : Path) : Path := Path.join home ".config".toList
  let inDirectory (directory : Path) : Path :=
    Path.join (Path.join directory programName) settingsName
  let others := (s.settingsHome.filter (Path.isAbsolute ·)).or (s.home.map inHome)
  settingsName :: (s.home.map (inDirectory ∘ inHome)).toList ++ (others.map inDirectory).toList

/-- The settings of the first path that has any. -/
def discover (s : Surroundings) : Except Failure Settings :=
  match (settingsPaths s).find? fun path => (s.sight path).isPresent with
  | some path => load s path
  | none => .ok {}

/-! ## Saving settings -/

/-- The path of the settings in a directory. -/
def settingsIn (directory? : Option Path) : Path :=
  Path.join (directory?.getD ['.']) settingsName

/-- Saves settings at a path. -/
def saving (path : Path) (settings : Settings) : Act := .save path settings.document.toList

/-- Saves the default settings in a directory.  The outcome is their path. -/
def setup (s : Surroundings) (directory? : Option Path) (force : Bool) : Script Path :=
  let path := settingsIn directory?
  if (s.sight path).isPresent && !force then
    Script.failing (.settingsPresent (Path.toString path))
  else
    ⟨[saving path {}, .write ("Created ".toList ++ path ++ ['\n'])], .ok path⟩

end Lexicon.Task
