/-!
# Layout

How the screen is shared: the console on top, a divider, the debug pane, and the command line at
the bottom.
-/

namespace BoardConsole.Interface

/-- Where each part of the screen is. -/
structure Layout where
  /-- Width of everything. -/
  cols : Nat
  /-- Height of the console, which starts at row zero. -/
  consoleRows : Nat
  /-- Row of the divider. -/
  divider : Nat
  /-- First row of the debug pane. -/
  debugTop : Nat
  /-- Height of the debug pane. -/
  debugRows : Nat
  /-- Row of the command line. -/
  commandRow : Nat
  deriving DecidableEq, Repr

/-- Height of the console on a screen with room for it. -/
def fullConsole : Nat := 25

/-- Rows that are left to the rest. -/
def reservedRows : Nat := 5

/-- The layout of a screen of a size.  The console gets its full height, or all but the reserved
rows of a small screen; no part is smaller than one. -/
def Layout.ofSize (rows cols : Nat) : Layout :=
  let consoleRows := if rows < fullConsole + reservedRows then max (rows - reservedRows) 1 else fullConsole
  { cols := max cols 1
    consoleRows
    divider := consoleRows
    debugTop := consoleRows + 1
    debugRows := max (rows - (consoleRows + 2)) 1
    commandRow := max (rows - 1) (consoleRows + 2) }

end BoardConsole.Interface
