import BoardConsole.Numeral.Literal
import BoardConsole.Text.Plain

/-!
# The program's options

What the words after the program's name mean.  There are two places, options that take a value
(after an equals sign or as the next word), and flags.  An option's value is only looked at when the
next word has been understood, so a word that is no option at all is reported first.

* `Options.parse`: the options of a list of words, or the fault that is reported.
-/

namespace BoardConsole

/-- What the program is asked to do. -/
structure Options where
  /-- The console's device. -/
  console : String
  /-- The debug monitor's device. -/
  debug : Option String := none
  /-- Speed of the console's device. -/
  consoleSpeed : Nat := 9600
  /-- Speed of the debug monitor's device. -/
  debugSpeed : Nat := 57600
  /-- Whether debug commands are discarded. -/
  noDebug : Bool := false
  /-- How much is logged. -/
  verbose : Nat := 0
  /-- The file that is logged to. -/
  logFile : Option String := none
  deriving DecidableEq, Repr

namespace Options

/-- The device that stands for a console without a target. -/
def testDevice : String := "test"

/-- Whether there is no target. -/
def testMode (o : Options) : Bool := o.console = testDevice

/-- The name of the log file in a directory for temporary files. -/
def defaultLog (directory : String) : String :=
  if directory.endsWith "/" then directory ++ "nico.log" else directory ++ "/nico.log"

/-- The file that is logged to, given the directory for temporary files. -/
def logPath (o : Options) (directory : String) : String := o.logFile.getD (defaultLog directory)

/-- What the program says about its version. -/
def versionText : String := "nico 0.1.0\n"

/-! ## Options that take a value -/

/-- An option that takes a value. -/
inductive Setting
  /-- Speed of the console's device. -/
  | consoleSpeed
  /-- Speed of the debug monitor's device. -/
  | debugSpeed
  /-- The log file. -/
  | logFile
  deriving DecidableEq, Repr

/-- A setting as it is explained. -/
def Setting.usage : Setting → String
  | .consoleSpeed => "--console-speed <CONSOLE_SPEED>"
  | .debugSpeed => "--debug-speed <DEBUG_SPEED>"
  | .logFile => "--log-file <LOG_FILE>"

/-- A flag. -/
inductive Flag
  /-- Discard debug commands. -/
  | noDebug
  /-- Log more. -/
  | verbose
  /-- Explain the options. -/
  | help
  /-- Say which version it is. -/
  | version
  deriving DecidableEq, Repr

/-- What a long option is. -/
inductive Long
  /-- It takes a value. -/
  | setting (setting : Setting)
  /-- It takes none. -/
  | flag (flag : Flag)
  deriving DecidableEq, Repr

/-- The long option of a name. -/
def Long.ofName? : List Char → Option Long
  | name => match String.ofList name with
    | "console-speed" => some (.setting .consoleSpeed)
    | "debug-speed" => some (.setting .debugSpeed)
    | "log-file" => some (.setting .logFile)
    | "no-debug" => some (.flag .noDebug)
    | "verbose" => some (.flag .verbose)
    | "help" => some (.flag .help)
    | "version" => some (.flag .version)
    | _ => none

/-- The flag of a letter. -/
def Flag.ofLetter? : Char → Option Flag
  | 'v' => some .verbose
  | 'h' => some .help
  | 'V' => some .version
  | _ => none

/-! ## Faults -/

/-- Why the words are not followed. -/
inductive Stop
  /-- There is no console device. -/
  | missingArgument
  /-- A word is no option, or there are too many words. -/
  | unknownArgument
  /-- An option has no value, or a value that is no file name. -/
  | missingValue
  /-- An option is given twice. -/
  | repeated
  /-- A flag is given a value. -/
  | unwantedValue
  /-- An option's value makes no sense. -/
  | badValue (setting : Setting) (value reason : String)
  /-- The options are to be explained. -/
  | help
  /-- The version is to be said. -/
  | version
  deriving DecidableEq, Repr

/-- What is said about a value that makes no sense.  Of the value only the plain part is shown. -/
def badValueText (setting : Setting) (value reason : String) : String :=
  let shown := String.ofList (Text.plain value.toList)
  s!"error: invalid value '{shown}' for '{setting.usage}': {reason}\n\nFor more information, try '--help'.\n"

/-- A speed as typed, in decimal or after `0x` in hexadecimal. -/
def parseSpeed (text : List Char) : Except String Nat :=
  let hexadecimal (digits : List Char) : Except String Nat :=
    (Numeral.parseWord 16 digits).mapError fun r => s!"Invalid hex value: {r.message}"
  match text with
  | '0' :: 'x' :: digits => hexadecimal digits
  | '0' :: 'X' :: digits => hexadecimal digits
  | digits => (Numeral.parseWord 10 digits).mapError fun r => s!"Invalid number: {r.message}"

/-! ## Reading words -/

/-- What has been read so far. -/
structure Reading where
  /-- The words in the two places, first to last. -/
  places : List String := []
  /-- Speed of the console's device. -/
  consoleSpeed : Option Nat := none
  /-- Speed of the debug monitor's device. -/
  debugSpeed : Option Nat := none
  /-- The log file. -/
  logFile : Option String := none
  /-- Whether debug commands are discarded. -/
  noDebug : Bool := false
  /-- How much is logged, up to 255. -/
  verbose : Nat := 0
  /-- The last option that takes a value, and its value once there is one. -/
  pending : Option (Setting × Option String) := none
  deriving DecidableEq, Repr

namespace Reading

/-- Whether a setting has been made. -/
def has (r : Reading) : Setting → Bool
  | .consoleSpeed => r.consoleSpeed.isSome
  | .debugSpeed => r.debugSpeed.isSome
  | .logFile => r.logFile.isSome

/-- A setting made. -/
def set (r : Reading) (setting : Setting) (value : String) : Except Stop Reading :=
  if r.has setting then .error .repeated
  else match setting with
    | .logFile => if value.isEmpty then .error .missingValue else .ok { r with logFile := value }
    | .consoleSpeed =>
      match parseSpeed value.toList with
      | .error reason => .error (.badValue setting value reason)
      | .ok speed => .ok { r with consoleSpeed := speed }
    | .debugSpeed =>
      match parseSpeed value.toList with
      | .error reason => .error (.badValue setting value reason)
      | .ok speed => .ok { r with debugSpeed := speed }

/-- The last option settled. -/
def settle (r : Reading) : Except Stop Reading :=
  match r.pending with
  | none => .ok r
  | some (_, none) => .error .missingValue
  | some (setting, some value) => ({ r with pending := none } : Reading).set setting value

/-- A flag. -/
def raise (r : Reading) (flag : Flag) : Except Stop Reading := do
  let r ← r.settle
  match flag with
  | .noDebug => if r.noDebug then .error .repeated else .ok { r with noDebug := true }
  | .verbose => .ok { r with verbose := min (r.verbose + 1) 255 }
  | .help => .error .help
  | .version => .error .version

/-- A long option, with a value if there was an equals sign. -/
def long (r : Reading) (name : List Char) (value : Option String) : Except Stop Reading :=
  match Long.ofName? name, value with
  | none, _ => .error .unknownArgument
  | some (.setting setting), some value => do (← r.settle).set setting value
  | some (.setting setting), none => do .ok { ← r.settle with pending := some (setting, none) }
  | some (.flag _), some _ => .error .unwantedValue
  | some (.flag flag), none => r.raise flag

/-- Letters after a hyphen. -/
def letters (r : Reading) : List Char → Except Stop Reading
  | [] => .ok r
  | c :: cs =>
    match Flag.ofLetter? c with
    | none => .error .unknownArgument
    | some flag => do (← r.raise flag).letters cs

/-- A word for the next place. -/
def place (r : Reading) (word : String) : Except Stop Reading :=
  if r.places.length < 2 then do
    let r ← r.settle
    .ok { r with places := r.places ++ [word] }
  else .error .unknownArgument

/-- A word that is no option: the value of the last one, or a word for the next place. -/
def plain (r : Reading) (word : String) : Except Stop Reading :=
  match r.pending with
  | some (setting, none) => .ok { r with pending := some (setting, some word) }
  | _ => r.place word

/-- A word that may be an option. -/
def word (r : Reading) (text : String) : Except Stop Reading :=
  match text.toList with
  | '-' :: '-' :: rest =>
    let name := rest.takeWhile (· ≠ '=')
    r.long name ((rest.dropWhile (· ≠ '=')).tail?.map String.ofList)
  | '-' :: c :: cs => r.letters (c :: cs)
  | _ => r.plain text

/-- Words one after another.  After two hyphens alone, no word is an option. -/
def words (r : Reading) : List String → Except Stop Reading
  | [] => .ok r
  | text :: rest =>
    if text = "--" then rest.foldlM place r else do (← r.word text).words rest

/-- The options that have been read. -/
def finish (r : Reading) : Except Stop Options := do
  let r ← r.settle
  match r.places with
  | [] => .error .missingArgument
  | console :: rest =>
    .ok { console, debug := rest.head?, consoleSpeed := r.consoleSpeed.getD 9600,
          debugSpeed := r.debugSpeed.getD 57600, noDebug := r.noDebug, verbose := r.verbose,
          logFile := r.logFile }

end Reading

/-- The options of the words after the program's name. -/
def parse (words : List String) : Except Stop Options := do
  (← ({} : Reading).words words).finish

end Options

end BoardConsole
