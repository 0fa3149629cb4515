import FrameSorter.Disk
import FrameSorter.Json.Reader
import FrameSorter.Ron.Reader
import FrameSorter.Toml.Reader

/-!
# Loading a configuration

A configuration is loaded from a file, whose extension says in which format it is written
(`detectFormat`), or from a directory, which has to hold exactly one file with the default name and
one of the known extensions (`findConfigFile`, `requireConfigFile`). Whatever keeps a configuration
from being loaded is a `LoadError`.
-/

set_option autoImplicit false
set_option relaxedAutoImplicit false

namespace FrameSorter

/-! ### Errors -/

/-- Why no configuration was loaded. -/
inductive LoadError
  | missingConfig (baseName : String) (directory : Path)
  | unsupportedFormat (file : Path)
  | conflictingFormats (first second : Path)
  | parse (file : Path) (format : Format) (fault : Fault)
  | io (failure : IoFailure)
  deriving DecidableEq, Repr

/-- The wording of an error. What a format says of a fault in its own words is given as `detail`. -/
def LoadError.message (detail : String) : LoadError → String
  | .missingConfig baseName directory =>
    "no '" ++ baseName ++ "' config file (ron, toml or json) in " ++ directory.text
  | .unsupportedFormat file => "unsupported format for file: " ++ file.text
  | .conflictingFormats first second =>
    "conflicting formats: " ++ first.text ++ " and " ++ second.text
  | .parse file format fault =>
    "parse error in " ++ file.text ++ ": " ++ (fault.reason format).getD detail
  | .io failure => failure.message

/-! ### Formats -/

/-- The formats, in the order in which files are looked for. -/
def Format.all : List Format := [.ron, .toml, .json]

/-- The extension of the files in a format. -/
def Format.extension : Format → String
  | .ron => "ron"
  | .toml => "toml"
  | .json => "json"

/-- The format that the extension of a path names. -/
def Format.ofPath? (path : Path) : Option Format :=
  path.extension?.bind fun extension ↦ Format.all.find? (·.extension == extension)

/-- The format of a file. -/
def detectFormat (path : Path) : Except LoadError Format :=
  match Format.ofPath? path with
  | none => .error (.unsupportedFormat path)
  | some format => .ok format

/-- The configuration that a text in some format is. -/
def readConfiguration : Format → String → Except Fault Configuration
  | .ron => Ron.readConfiguration
  | .toml => Toml.readConfiguration
  | .json => Json.readConfiguration

/-- The configuration that the text of a file is. -/
def parseConfig (content : String) (format : Format) (file : Path) :
    Except LoadError Configuration :=
  match readConfiguration format content with
  | .error fault => .error (.parse file format fault)
  | .ok config => .ok config

/-! ### Files -/

variable {m : Type → Type} [Monad m]

/-- The file in a directory that holds a configuration in this format. -/
def candidate (directory : Path) (baseName : String) (format : Format) : Path :=
  directory.join ⟨baseName ++ "." ++ format.extension⟩

/-- Those of the paths that name something, in their order. -/
def presentPaths (disk : Disk m) : List Path → m (List Path)
  | [] => return []
  | path :: rest => do
    let isPresent ← disk.isPresent path
    let others ← presentPaths disk rest
    return if isPresent then path :: others else others

/-- The one file in a directory with a base name and a known extension, if there is any. -/
def findConfigFile (disk : Disk m) (directory : Path) (baseName : String) :
    m (Except LoadError (Option Path)) := do
  match ← presentPaths disk (Format.all.map (candidate directory baseName)) with
  | [] => return .ok none
  | [only] => return .ok (some only)
  | first :: second :: _ => return .error (.conflictingFormats first second)

/-- The one file in a directory with a base name and a known extension. -/
def requireConfigFile (disk : Disk m) (directory : Path) (baseName : String) :
    m (Except LoadError Path) := do
  match ← findConfigFile disk directory baseName with
  | .error error => return .error error
  | .ok none => return .error (.missingConfig baseName directory)
  | .ok (some file) => return .ok file

/-- The base name of the file that is looked for in a directory. -/
def defaultConfigName : String := "sorter"

/-- The file that a path stands for: the path itself, or the file in it if it is a directory. -/
def configFile (disk : Disk m) (path : Path) : m (Except LoadError Path) := do
  if ← disk.isDirectory path then requireConfigFile disk path defaultConfigName
  else return .ok path

/-- The configuration in a file. -/
def loadFile (disk : Disk m) (file : Path) : m (Except LoadError Configuration) := do
  match detectFormat file with
  | .error error => return .error error
  | .ok format =>
    match ← disk.readText file with
    | .error failure => return .error (.io failure)
    | .ok content => return parseConfig content format file

/-- The configuration in a file, or in the one file of a directory. -/
def loadConfig (disk : Disk m) (path : Path) : m (Except LoadError Configuration) := do
  match ← configFile disk path with
  | .error error => return .error error
  | .ok file => loadFile disk file

end FrameSorter
