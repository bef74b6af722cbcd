import BoardConsole.Interface.App

/-!
# What keys do

A key does some things to the application, one after another.  Which things they are is decided by
the key, by the command line and by what keys are for at the moment, and by nothing else.  So all
that a key can change, and all that it depends on, is seen from the single acts.

- `Act`: one thing that a key does.
- `App.acts`: what a key does, first to last.
- `App.press_acts`: **a key does just that**.
- `App.consoleOutput_acts`: what bytes from the target do besides.
- `App.acts_marks`: the keys that ask for the end and those that clear the console.
- `App.act_shown`: what an act can do to the two panes.
- `App.press_quit`, `App.press_console`: what follows for the state after a key.
-/

namespace BoardConsole.Interface

open Console (Request)

/-- One thing that is done to the application. -/
inductive Act
  /-- A line in the debug pane. -/
  | say (text : List Char)
  /-- The console is asked for something. -/
  | askConsole (request : Request)
  /-- The debugger is asked for something. -/
  | askDebugger (words : List String)
  /-- Something is done to the command line. -/
  | edit (f : CommandLine → CommandLine)
  /-- Keys are for the other pane. -/
  | swapFocus
  /-- The end of the program is asked for. -/
  | leave
  /-- The debug pane is cleared. -/
  | clearDebug
  /-- The console is cleared. -/
  | clearConsole
  /-- The bell is rung. -/
  | ring
  /-- Whether the next key is a command is settled. -/
  | await (command : Bool)

/-- The keys are explained. -/
def Act.help : List Act := App.helpLines.map fun text => .say text.toList

namespace App

/-- The application after an act. -/
def act (a : App) : Act → App
  | .say text => a.say text
  | .askConsole request => a.askConsole request
  | .askDebugger words => a.askDebugger words
  | .edit f => a.edit f
  | .swapFocus => a.swapFocus
  | .leave => a.leave
  | .clearDebug => a.clearDebug
  | .clearConsole => a.clearConsole
  | .ring => { a with bell := true }
  | .await command => { a with awaitsCommand := command }

/-- The application after some acts, first to last. -/
def actAll (a : App) (acts : List Act) : App := acts.foldl act a

/-! ## The acts of a key -/

/-- What a key does after the one that announces a command. -/
def commandActs (a : App) (k : Key) : List Act :=
  if k.isCommand then
    match a.focus with
    | .console => [.askConsole (.keys [0x1D])]
    | .command => []
  else match k.code with
    | .tab => [.swapFocus]
    | .char 'c' | .char 'C' => [.clearConsole]
    | .char 'd' | .char 'D' => [.clearDebug]
    | .char 'h' | .char 'H' => Act.help
    | .char 'q' | .char 'Q' => [.leave]
    | .esc => []
    | _ => [.ring]

theorem commandKey_acts (a : App) (k : Key) : a.commandKey k = a.actAll (a.commandActs k) := by
  unfold commandKey
  -- the cases of the acts decide those of the key, in its own match as well
  fun_cases commandActs a k <;> simp only [*] <;> rfl

/-- What a key for the target does. -/
def consoleActs (k : Key) : List Act :=
  match k.bytes? with
  | none => []
  | some bytes =>
    if k.alt then
      (match k.code with
        | .char c => [.say ("[Alt+".toList ++ [c, ']'])]
        | _ => []) ++ [.askConsole (.keys (0x1B :: bytes))]
    else [.askConsole (.keys bytes)]

theorem consoleKey_acts (a : App) (k : Key) : a.consoleKey k = a.actAll (consoleActs k) := by
  unfold consoleKey consoleActs
  cases k.bytes? with
  | none => rfl
  | some bytes =>
    dsimp only
    split
    · cases k.code <;> rfl
    · rfl

/-- What a submitted line does, by where it goes. -/
def followActs : Route → List Act
  | .nothing => []
  | .quit => [.leave]
  | .help => Act.help
  | .send protocol file => [.askConsole (.send protocol file)]
  | .cancel => [.askConsole .cancel]
  | .debug words => [.askDebugger words]
  | .error message => [.say message.toList]

theorem follow_acts (a : App) (route : Route) : a.follow route = a.actAll (followActs route) := by
  cases route <;> rfl

/-- What submitting the command line does. -/
def submitActs (a : App) : List Act :=
  let line := Text.trim a.command.text
  .edit (fun _ => {}) ::
    if line.isEmpty then []
    else .say ("> ".toList ++ line) :: followActs (Route.ofLine line)

theorem submit_acts (a : App) : a.submit = a.actAll a.submitActs := by
  unfold submit submitActs
  dsimp only
  split
  · rfl
  · exact follow_acts _ _

/-- What sending the command line to the target and emptying it does. -/
def yankActs (a : App) : List Act :=
  [.edit fun _ => {}, .askConsole (.keys (Utf8.encode a.command.text))]

/-- What a character typed together with control does on the command line. -/
def controlActs (a : App) (c : Char) : List Act :=
  match c.toLower with
  | 'a' => [.edit .home]
  | 'b' => [.edit .left]
  | 'd' => [.edit .delete]
  | 'e' => [.edit .toEnd]
  | 'f' => [.edit .right]
  | 'h' => [.edit .backspace]
  | 'k' => [.edit .killRight]
  | 'l' => [.clearDebug]
  | 'x' => [.edit .clear]
  | 'y' => a.yankActs
  | other => [.say ['[', '^', other.toUpper, ']']]

theorem controlKey_acts (a : App) (c : Char) : a.controlKey c = a.actAll (a.controlActs c) := by
  unfold controlKey
  fun_cases controlActs a c <;> simp only [*] <;> rfl

/-- What a character typed together with alt does on the command line, if it does anything. -/
def altActs? (a : App) (c : Char) : Option (List Act) :=
  match c with
  | 'b' => some [.edit .wordLeft]
  | 'f' => some [.edit .wordRight]
  | 'y' => some [.askConsole (.keys (Utf8.encode a.command.text))]
  | _ => none

theorem altKey?_acts (a : App) (c : Char) : a.altKey? c = (a.altActs? c).map a.actAll := by
  unfold altKey?
  fun_cases altActs? a c <;> simp only [*] <;> rfl

/-- What a character typed on the command line does. -/
def typeActs (a : App) (k : Key) (c : Char) : List Act :=
  match if k.alt then a.altActs? c else none with
  | some acts => acts
  | none =>
    if k.control then a.controlActs c
    else if k.alt then []
    else [.edit (·.insert c)]

theorem typeKey_acts (a : App) (k : Key) (c : Char) :
    a.typeKey k c = a.actAll (a.typeActs k c) := by
  have halt : (if k.alt then a.altKey? c else none)
      = (if k.alt then a.altActs? c else none).map a.actAll := by
    rw [altKey?_acts]
    split <;> rfl
  unfold typeKey typeActs
  rw [halt]
  cases (if k.alt then a.altActs? c else none) with
  | some acts => rfl
  | none =>
    dsimp only [Option.map_none]
    rw [controlKey_acts]
    split
    · rfl
    · split <;> rfl

/-- What a key does on the command line. -/
def lineActs (a : App) (k : Key) : List Act :=
  match k.code with
  | .char c => a.typeActs k c
  | .backspace => [.edit .backspace]
  | .delete => [.edit .delete]
  | .left => [.edit .left]
  | .right => [.edit .right]
  | .home => [.edit .home]
  | .toEnd => [.edit .toEnd]
  | .enter => if k.alt then a.yankActs else a.submitActs
  | _ => []

theorem lineKey_acts (a : App) (k : Key) : a.lineKey k = a.actAll (a.lineActs k) := by
  unfold lineKey lineActs
  cases k.code with
  | char c => exact a.typeKey_acts k c
  | enter =>
    dsimp only
    split
    · rfl
    · exact a.submit_acts
  | _ => rfl

/-- What a key does in every pane, if it does anything there. -/
def globalActs? (k : Key) : Option (List Act) :=
  match k.code with
  | .function 1 => some Act.help
  | .function 2 => some [.swapFocus]
  | .function 10 => some [.leave]
  | .tab => if k.alt then some [.swapFocus] else none
  | .char 's' => if k.alt then some [.askDebugger ["stop"]] else none
  | .char 'g' => if k.alt then some [.askDebugger ["cont"]] else none
  | .char 'r' => if k.alt then some [.askDebugger ["run"]] else none
  | .char ' ' => if k.alt then some [.askDebugger ["step"]] else none
  | .char '\x60' => if k.alt then some [.askDebugger ["reset"]] else none
  | _ => none

theorem globalKey?_acts (a : App) (k : Key) : a.globalKey? k = (globalActs? k).map a.actAll := by
  unfold globalKey?
  fun_cases globalActs? k <;> simp only [*] <;> rfl

/-- What a key does, first to last. -/
def acts (a : App) (k : Key) : List Act :=
  if a.awaitsCommand then .await false :: a.commandActs k
  else if k.isCommand then [.await true]
  else match globalActs? k with
    | some acts => acts
    | none =>
      match a.focus with
      | .console => consoleActs k
      | .command => a.lineActs k

/-- **A key does what its acts do**, one after another. -/
theorem press_acts (a : App) (k : Key) : a.press k = a.actAll (a.acts k) := by
  unfold press acts
  split
  · exact commandKey_acts _ k
  · split
    · rfl
    · rw [globalKey?_acts]
      cases globalActs? k with
      | some acts => rfl
      | none =>
        cases a.focus with
        | console => exact a.consoleKey_acts k
        | command => exact a.lineKey_acts k

/-- What is done about the answers of the terminal. -/
def replyActs (replies : Bytes) : List Act :=
  if replies.isEmpty then [] else [.askConsole (.keys replies)]

/-- Bytes from the target change the terminal; the rest of what they do are acts. -/
theorem consoleOutput_acts (a : App) (bytes : Bytes) :
    a.consoleOutput bytes = ({ a with console := (a.console.feedAll bytes).1 } : App).actAll
      (replyActs (a.console.feedAll bytes).2) := by
  unfold consoleOutput replyActs
  dsimp only
  split <;> rfl

/-! ## Acts that ask for the end or clear the console -/

end App

namespace Act

/-- The act asks for the end. -/
def ends : Act → Bool
  | .leave => true
  | _ => false

/-- The act clears the console. -/
def clears : Act → Bool
  | .clearConsole => true
  | _ => false

/-- The act neither asks for the end nor clears the console. -/
def isMinor (x : Act) : Bool := !x.ends && !x.clears

theorem marks_of_minor {acts : List Act} (h : acts.all isMinor = true) :
    acts.any ends = false ∧ acts.any clears = false := by
  rw [List.any_eq_false, List.any_eq_false]
  constructor
  · intro x hx hends
    have hminor := List.all_eq_true.mp h x hx
    simp [isMinor, hends] at hminor
  · intro x hx hclears
    have hminor := List.all_eq_true.mp h x hx
    simp [isMinor, hclears] at hminor

end Act

namespace App

theorem minor_replyActs (replies : Bytes) : (replyActs replies).all Act.isMinor = true := by
  unfold replyActs
  split <;> rfl

theorem minor_consoleActs (k : Key) : (consoleActs k).all Act.isMinor = true := by
  unfold consoleActs
  cases k.bytes? with
  | none => rfl
  | some bytes =>
    dsimp only
    split
    · cases k.code <;> rfl
    · rfl

theorem minor_controlActs (a : App) (c : Char) : (a.controlActs c).all Act.isMinor = true := by
  unfold controlActs
  split <;> rfl

theorem minor_altActs? (a : App) (c : Char) {acts : List Act} (h : a.altActs? c = some acts) :
    acts.all Act.isMinor = true := by
  unfold altActs? at h
  split at h <;> cases h <;> rfl

theorem minor_typeActs (a : App) (k : Key) (c : Char) :
    (a.typeActs k c).all Act.isMinor = true := by
  unfold typeActs
  split
  · rename_i acts hacts
    split at hacts
    · exact a.minor_altActs? c hacts
    · cases hacts
  · split
    · exact a.minor_controlActs c
    · split <;> rfl

/-- The key submits the command line, and the line says that the program ends. -/
def submitsQuit (a : App) (k : Key) : Bool :=
  k.code = .enter && !k.alt && Route.ofLine (Text.trim a.command.text) = .quit

theorem followActs_marks (route : Route) :
    (followActs route).any Act.ends = decide (route = .quit) ∧
      (followActs route).any Act.clears = false := by
  cases route <;> exact ⟨rfl, rfl⟩

/-- A blank line does not say that the program ends. -/
theorem submitActs_marks (a : App) :
    a.submitActs.any Act.ends = decide (Route.ofLine (Text.trim a.command.text) = .quit) ∧
      a.submitActs.any Act.clears = false := by
  unfold submitActs
  dsimp only
  split
  · rename_i hempty
    rw [List.isEmpty_iff.mp hempty]
    exact ⟨rfl, rfl⟩
  · exact followActs_marks _

theorem lineActs_marks (a : App) (k : Key) :
    (a.lineActs k).any Act.ends = a.submitsQuit k ∧ (a.lineActs k).any Act.clears = false := by
  unfold lineActs submitsQuit
  cases k.code with
  | char c => exact Act.marks_of_minor (a.minor_typeActs k c)
  | enter =>
    cases k.alt with
    | true => exact ⟨rfl, rfl⟩
    | false => exact a.submitActs_marks
  | _ => exact ⟨rfl, rfl⟩

theorem code_of_isCommand {k : Key} (h : k.isCommand = true) :
    k.code = .char ']' ∨ k.code = .char '5' := by
  simp only [Key.isCommand, Bool.and_eq_true, Bool.or_eq_true, decide_eq_true_eq] at h
  exact h.2

theorem commandActs_marks (a : App) (k : Key) :
    (a.commandActs k).any Act.ends = (k.code = .char 'q' || k.code = .char 'Q' : Bool) ∧
      (a.commandActs k).any Act.clears = (k.code = .char 'c' || k.code = .char 'C' : Bool) := by
  unfold commandActs
  split
  · rename_i hcommand
    rcases code_of_isCommand hcommand with hcode | hcode
    · rw [hcode]
      cases a.focus <;> exact ⟨rfl, rfl⟩
    · rw [hcode]
      cases a.focus <;> exact ⟨rfl, rfl⟩
  · generalize k.code = code
    split
    case h_11 => simp_all [Act.ends, Act.clears]
    all_goals exact ⟨rfl, rfl⟩

/-- Of the keys that do the same in every pane one asks for the end. -/
theorem globalActs?_marks {k : Key} {acts : List Act} (h : globalActs? k = some acts) :
    acts.any Act.ends = decide (k.code = .function 10) ∧ acts.any Act.clears = false ∧
      k.code ≠ .enter := by
  unfold globalActs? at h
  generalize k.code = code at h ⊢
  split at h
  case h_1 | h_2 | h_3 =>
    cases h
    exact ⟨rfl, rfl, nofun⟩
  case h_10 => cases h
  -- the others mean something only together with alt
  all_goals
    split at h
    · cases h
      exact ⟨rfl, rfl, nofun⟩
    · cases h

/-- The key asks for the end of the program. -/
def ends (a : App) (k : Key) : Bool :=
  if a.awaitsCommand then k.code = .char 'q' || k.code = .char 'Q'
  else k.code = .function 10 || (a.focus = .command && a.submitsQuit k)

/-- The key clears the console. -/
def clears (a : App) (k : Key) : Bool :=
  a.awaitsCommand && (k.code = .char 'c' || k.code = .char 'C')

/-- **Which keys ask for the end, and which clear the console.** -/
theorem acts_marks (a : App) (k : Key) :
    (a.acts k).any Act.ends = a.ends k ∧ (a.acts k).any Act.clears = a.clears k := by
  unfold acts ends clears
  cases a.awaitsCommand with
  | true => exact a.commandActs_marks k
  | false =>
    rw [if_neg Bool.false_ne_true, if_neg Bool.false_ne_true, Bool.false_and]
    split
    · rename_i hcommand
      rcases code_of_isCommand hcommand with hcode | hcode
      · simp [submitsQuit, hcode, Act.ends, Act.clears]
      · simp [submitsQuit, hcode, Act.ends, Act.clears]
    · split
      · rename_i acts hacts
        obtain ⟨hends, hclears, hcode⟩ := globalActs?_marks hacts
        simp [submitsQuit, hends, hclears, hcode]
      · rename_i hnone
        have hcode : k.code ≠ .function 10 := by
          intro hcode
          rw [globalActs?, hcode] at hnone
          cases hnone
        rw [decide_eq_false hcode, Bool.false_or]
        cases a.focus with
        | console => exact Act.marks_of_minor (minor_consoleActs k)
        | command => exact a.lineActs_marks k

/-! ## What acts change -/

theorem askConsole_keeps (a : App) (request : Request) :
    (a.askConsole request).console = a.console ∧ (a.askConsole request).quit = a.quit := by
  unfold askConsole
  split <;> exact ⟨rfl, rfl⟩

theorem askDebugger_keeps (a : App) (words : List String) :
    (a.askDebugger words).console = a.console ∧ (a.askDebugger words).quit = a.quit := by
  unfold askDebugger
  split <;> exact ⟨rfl, rfl⟩

/-- **What an act does to what is shown**: the layout stays, either pane may be cleared, and a line may
be added to the debug pane. -/
theorem act_shown (a : App) (x : Act) :
    (a.act x).layout = a.layout ∧
      ((a.act x).console = a.console ∨ (a.act x).console = a.clearConsole.console) ∧
      ((a.act x).debug = a.debug ∨ (∃ text, (a.act x).debug = DebugPane.line a.debug text) ∨
        (a.act x).debug = clearGrid a.debug) := by
  cases x with
  | say text => exact ⟨rfl, .inl rfl, .inr (.inl ⟨text, rfl⟩)⟩
  | askConsole request =>
    rw [act, askConsole]
    split
    · exact ⟨rfl, .inl rfl, .inl rfl⟩
    · exact ⟨rfl, .inl rfl, .inr (.inl ⟨_, rfl⟩)⟩
  | askDebugger words =>
    rw [act, askDebugger]
    split
    · exact ⟨rfl, .inl rfl, .inl rfl⟩
    · exact ⟨rfl, .inl rfl, .inr (.inl ⟨_, rfl⟩)⟩
  | clearDebug => exact ⟨rfl, .inl rfl, .inr (.inr rfl)⟩
  | clearConsole => exact ⟨rfl, .inr rfl, .inl rfl⟩
  | _ => exact ⟨rfl, .inl rfl, .inl rfl⟩

theorem act_quit (a : App) (x : Act) : (a.act x).quit = if x.ends then some "" else a.quit := by
  cases x with
  | askConsole request => exact (a.askConsole_keeps request).2
  | askDebugger words => exact (a.askDebugger_keeps words).2
  | _ => rfl

theorem actAll_quit (a : App) (acts : List Act) :
    (a.actAll acts).quit = if acts.any Act.ends then some "" else a.quit := by
  induction acts generalizing a with
  | nil => rfl
  | cons x acts ih =>
    show ((a.act x).actAll acts).quit = _
    rw [ih, act_quit, List.any_cons]
    cases x.ends <;> cases acts.any Act.ends <;> rfl

/-- **When a key asks for the end**, and it never takes back what was asked before. -/
theorem press_quit (a : App) (k : Key) :
    (a.press k).quit = if a.ends k then some "" else a.quit := by
  rw [press_acts, actAll_quit, (a.acts_marks k).1]

theorem act_console (a : App) {x : Act} (h : x.clears = false) : (a.act x).console = a.console := by
  cases x with
  | askConsole request => exact (a.askConsole_keeps request).1
  | askDebugger words => exact (a.askDebugger_keeps words).1
  | clearConsole => cases h
  | _ => rfl

theorem actAll_console (a : App) {acts : List Act} (h : acts.any Act.clears = false) :
    (a.actAll acts).console = a.console := by
  induction acts generalizing a with
  | nil => rfl
  | cons x acts ih =>
    rw [List.any_cons, Bool.or_eq_false_iff] at h
    exact (ih (a.act x) h.2).trans (a.act_console h.1)

theorem acts_of_clears {a : App} {k : Key} (h : a.clears k = true) :
    a.acts k = [.await false, .clearConsole] := by
  simp only [clears, Bool.and_eq_true, Bool.or_eq_true, decide_eq_true_eq] at h
  obtain ⟨hawaits, hcode⟩ := h
  rw [acts, if_pos hawaits, commandActs]
  rcases hcode with hcode | hcode
  · simp [Key.isCommand, hcode]
  · simp [Key.isCommand, hcode]

/-- **What a key does to the console**: it clears it or leaves it as it is. -/
theorem press_console (a : App) (k : Key) :
    (a.press k).console = if a.clears k then a.clearConsole.console else a.console := by
  rw [press_acts]
  cases hclears : a.clears k with
  | true =>
    rw [acts_of_clears hclears]
    rfl
  | false =>
    rw [a.actAll_console ((a.acts_marks k).2.trans hclears)]
    rfl

end App

end BoardConsole.Interface
