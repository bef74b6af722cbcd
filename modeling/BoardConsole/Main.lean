import BoardConsole.Interface.Desk

/-!
# The program

The command line: options, and the console without a target on the terminal that the program was
started from.
-/

open BoardConsole BoardConsole.Interface

/-- What the program says about its options. -/
def usageText : String :=
  "Usage: nico [OPTIONS] <CONSOLE> [DEBUG]\n\nOptions:\n"
    ++ "      --console-speed <CONSOLE_SPEED>  Console serial speed (hex or decimal)\n"
    ++ "      --debug-speed <DEBUG_SPEED>      Debug serial speed (hex or decimal)\n"
    ++ "      --no-debug                       Disable the debug interface\n"
    ++ "  -v, --verbose...                     Verbosity level (-v, -vv)\n"
    ++ "      --log-file <LOG_FILE>            Log file\n"
    ++ "  -h, --help                           Print help\n"
    ++ "  -V, --version                        Print version\n"

/-- What is said about options that are not followed. -/
def stopText : Options.Stop → String
  | .missingArgument => "error: the console device is missing\n"
  | .unknownArgument => "error: unexpected argument\n"
  | .missingValue => "error: a value is required\n"
  | .repeated => "error: an argument cannot be used multiple times\n"
  | .unwantedValue => "error: unexpected value\n"
  | .badValue setting value reason => Options.badValueText setting value reason
  | .help => usageText
  | .version => Options.versionText

/-- A size of the terminal from the environment. -/
def sizeFrom (name : String) (standard : Nat) : IO Nat := do
  return ((← IO.getEnv name).bind String.toNat?).getD standard

/-- Characters typed until the end is asked for or there are no more, and the reason for the
end. -/
partial def typeAll (input output : IO.FS.Stream) (d : Desk) : IO String := do
  match d.app.quit with
  | some reason => return reason
  | none =>
    let bytes ← input.read 1
    match bytes.toList with
    | [] => return ""
    | b :: _ =>
      let (text, d) := d.type (Bytes.toChar b)
      output.putStr (String.ofList text)
      output.flush
      typeAll input output d

/-- The console without a target, and the code the program ends with. -/
def runDesk (options : Options) : IO UInt32 := do
  let output ← IO.getStdout
  let (text, d) := Desk.start options (← sizeFrom "COLUMNS" 80) (← sizeFrom "LINES" 24)
  output.putStr (String.ofList text)
  output.flush
  let reason ← typeAll (← IO.getStdin) output d
  output.putStr (String.ofList App.leaveScreen)
  output.flush
  if reason.isEmpty then return 0
  IO.eprintln reason
  return 1

/-- The program. -/
def main (args : List String) : IO UInt32 := do
  match Options.parse args with
  | .ok options =>
    if options.testMode then runDesk options
    else
      IO.eprintln s!"Failed to open console device {options.console}: no drivers for ports here"
      return 1
  | .error .help =>
    IO.print usageText
    return 0
  | .error .version =>
    IO.print Options.versionText
    return 0
  | .error stop =>
    IO.eprint (stopText stop)
    return 2
