import FrameSorter.Pack.Building

/-!
# The command line

The program takes the path of a configuration and builds its pack in a directory. It may be asked to
stop at validation errors, and to check the configuration without writing anything.

The words of a command line are read one after the other (`WordsRead.step`), and the first that is
wrong decides the complaint (`UsageError`). A value is looked at no sooner than the next word is read
(`WordsRead.settle`), since an option's value may still be missing. `run` does what the arguments ask
for.
-/

set_option autoImplicit false
set_option relaxedAutoImplicit false

namespace FrameSorter.CommandLine

/-! ### Arguments -/

/-- What the program is asked to do. -/
structure Arguments where
  config : Path
  outDir : Path
  check : Bool
  strict : Bool
  deriving DecidableEq, Repr

/-- Why a command line asks for nothing that can be done. -/
inductive UsageError
  | missingArgument
  | unknownArgument
  | repeatedArgument
  | invalidValue
  | unexpectedValue
  | helpRequested
  deriving DecidableEq, Repr

/-- The directory that a pack is written to if no other is named. -/
def defaultOutDir : String := "build/sorter_pack"

/-- A value that was not looked at yet; an option may still wait for its value. -/
inductive Pending
  | nothing
  | config (value : String)
  | outDir (value : Option String)
  deriving DecidableEq, Repr

/-- What the words so far say. After two dashes by themselves no word is an option any more. -/
structure WordsRead where
  config : Option String := none
  outDir : Option String := none
  check : Bool := false
  strict : Bool := false
  pending : Pending := .nothing
  onlyValues : Bool := false
  deriving DecidableEq, Repr

namespace WordsRead

/-- Sets the directory, which may be done once and not to an empty path. -/
def setOutDir (words : WordsRead) (value : String) : Except UsageError WordsRead :=
  if words.outDir.isSome then .error .repeatedArgument
  else if value = "" then .error .invalidValue
  else .ok { words with outDir := some value, pending := .nothing }

/-- Looks at the value that was put off. -/
def settle (words : WordsRead) : Except UsageError WordsRead :=
  match words.pending with
  | .nothing => .ok words
  | .config value =>
    if value = "" then .error .invalidValue
    else .ok { words with config := some value, pending := .nothing }
  | .outDir none => .error .invalidValue
  | .outDir (some value) => words.setOutDir value

/-- Whether the path of the configuration was given. -/
def hasConfig (words : WordsRead) : Bool :=
  words.config.isSome ||
    match words.pending with
    | .config _ => true
    | _ => false

/-- Takes a word that is no option. There is one place for it. -/
def takeValue (words : WordsRead) (value : String) : Except UsageError WordsRead :=
  if words.hasConfig then .error .unknownArgument
  else do return { ← words.settle with pending := .config value }

/-- Takes an option by its long name, with the value that an equals sign attaches to it. -/
def takeLong (words : WordsRead) (name : String) (attached : Option String) :
    Except UsageError WordsRead :=
  if name = "out-dir" then do
    let words ← words.settle
    match attached with
    | some value => words.setOutDir value
    | none => return { words with pending := .outDir none }
  else if name = "check" ∨ name = "strict" ∨ name = "help" then
    if attached.isSome then .error .unexpectedValue
    else do
      let words ← words.settle
      if name = "check" then
        if words.check then throw .repeatedArgument else return { words with check := true }
      else if name = "strict" then
        if words.strict then throw .repeatedArgument else return { words with strict := true }
      else throw .helpRequested
  else .error .unknownArgument

/-- Takes options by their short names. -/
def takeShort (words : WordsRead) (name : Char) : Except UsageError WordsRead :=
  if name = 'h' then do
    let _ ← words.settle
    throw .helpRequested
  else .error .unknownArgument

/-- Takes the next word. -/
def step (words : WordsRead) (word : String) : Except UsageError WordsRead :=
  if words.onlyValues then words.takeValue word
  else
    match word.toList with
    | ['-', '-'] => .ok { words with onlyValues := true }
    | '-' :: '-' :: long =>
      let name := String.ofList (long.takeWhile (· != '='))
      match long.dropWhile (· != '=') with
      | [] => words.takeLong name none
      | _ :: value => words.takeLong name (some (String.ofList value))
    | '-' :: short :: _ => words.takeShort short
    | _ =>
      match words.pending with
      | .outDir none => .ok { words with pending := .outDir (some word) }
      | _ => words.takeValue word

/-- The arguments that the words give. -/
def finish (words : WordsRead) : Except UsageError Arguments := do
  let words ← words.settle
  match words.config with
  | none => throw .missingArgument
  | some config =>
    return {
      config := ⟨config⟩
      outDir := ⟨words.outDir.getD defaultOutDir⟩
      check := words.check
      strict := words.strict }

end WordsRead

/-- The arguments that a command line gives. -/
def Arguments.ofWords (words : List String) : Except UsageError Arguments := do
  (← words.foldlM WordsRead.step {}).finish

/-! ### Running -/

/-- Why a run ends without a pack. -/
inductive RunError
  | pack (error : PackError)
  | strict (count : Nat)
  deriving DecidableEq, Repr

/-- The wording of an error. -/
def RunError.message (detail : String) : RunError → String
  | .pack error => error.message detail
  | .strict count => toString count ++ " validation error(s) with --strict"

variable {m : Type → Type} [Monad m]

/-- Builds the pack that the arguments ask for, or only checks whether it could be built. Validation
errors end a strict run before anything is written. -/
def run (disk : Disk m) (arguments : Arguments) : m (Except RunError PackSummary) := do
  match ← loadConfig disk arguments.config with
  | .error cause => return .error (.pack (.configUnavailable cause))
  | .ok config =>
    let compilation := compile config
    if arguments.strict && compilation.hasErrors then
      return .error (.strict compilation.errors.length)
    else
      let result ←
        if arguments.check then
          pure ((Pack.write compilation config.pack MemorySink.sink).run {}).1
        else
          Pack.write compilation config.pack (disk.directorySink arguments.outDir)
      match result with
      | .error failure => return .error (.pack (.persistenceFailure failure))
      | .ok summary => return .ok summary

end FrameSorter.CommandLine
