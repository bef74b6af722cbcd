import BoardConsole.Proofs.Exchanges

/-!
# Failures never change the plan

A command that does not compare anything asks the link for the same things, one after another,
whatever it gets for an answer: a failed reply counts as a zero and a string that was cut short is
not repeated.  So two links see the same strings, replies and waits, and the user is told about
every failure once.

- `Procedure.Steady`: a procedure asks for the same things whatever the answers.
- `Steady.bind`: **steadiness composes**, along with what is known about values.
- `Command.isSteady_procedure`: every command is steady that does not compare an object file.
- `Session.perform_failures`: the failures that are told are the complaints of the exchanges.
- `Session.dispatch_steadfast`: **the plan of a command does not depend on the link**, and no failure
  is silent.
-/

namespace BoardConsole.Debugger

open ObjectFile (Segment)

/-! ## Steady procedures -/

/-- The intent is about the link. -/
def Intent.isExchange : Intent → Bool
  | .send _ | .reply | .drain | .settle _ => true
  | .tell _ | .note _ => false

/-- The intent is not about the link, and tells of no failure. -/
def Intent.IsAside : Intent → Prop
  | .tell entry => entry.isFailure = false
  | .note _ => True
  | _ => False

theorem Intent.intents_exchange {σ : Type} [Link σ] (s : Session σ) {intent : Intent}
    (h : intent.isExchange = true) : (intent.exchange s).map Exchange.intent = [intent] := by
  cases intent with
  | tell entry => cases h
  | note record => cases h
  | _ => rfl

theorem Intent.IsAside.exchange_eq {σ : Type} [Link σ] (s : Session σ) {intent : Intent}
    (h : intent.IsAside) : intent.exchange s = [] := by
  cases intent with
  | tell entry => rfl
  | note record => rfl
  | _ => cases h

namespace Procedure

variable {α β : Type} {V : α → Prop} {W : β → Prop} {asked rest : List Intent}

/-- Whatever the answers, the procedure asks the link for certain things, one after another, tells
of no failure and ends with a value that has a property. -/
inductive Steady (V : α → Prop) : List Intent → Procedure α → Prop
  /-- Nothing more is asked for. -/
  | done {a : α} (ha : V a) : Steady V [] (.done a)
  /-- Something is asked for. -/
  | exchange {intent : Intent} {next : intent.Answer → Procedure α} {asked : List Intent}
    (hintent : intent.isExchange = true) (hnext : ∀ answer, Steady V asked (next answer)) :
    Steady V (intent :: asked) (.step intent next)
  /-- Something is told or remarked. -/
  | aside {intent : Intent} {next : intent.Answer → Procedure α} {asked : List Intent}
    (hintent : intent.IsAside) (hnext : ∀ answer, Steady V asked (next answer)) :
    Steady V asked (.step intent next)

/-- **Steadiness composes.** -/
theorem Steady.bind {p : Procedure α} {f : α → Procedure β} (hp : Steady V asked p)
    (hf : ∀ a, V a → Steady W rest (f a)) : Steady W (asked ++ rest) (p >>= f) := by
  induction hp with
  | done ha => exact hf _ ha
  | exchange hintent _ ih => exact .exchange hintent ih
  | aside hintent _ ih => exact .aside hintent ih

variable (V) in
/-- The procedure asks for the same things whatever the answers. -/
def IsSteady (p : Procedure α) : Prop := ∃ asked, Steady V asked p

/-- What comes next may depend on a value, but not what it asks for. -/
theorem IsSteady.bind {p : Procedure α} {f : α → Procedure β} (hp : IsSteady V p)
    (hf : ∀ a, V a → Steady W rest (f a)) : IsSteady W (p >>= f) := by
  obtain ⟨asked, hasked⟩ := hp
  exact ⟨asked ++ rest, hasked.bind hf⟩

theorem IsSteady.andThen {p : Procedure α} {q : Procedure β} (hp : IsSteady V p)
    (hq : IsSteady W q) : IsSteady W (p >>= fun _ => q) := by
  obtain ⟨rest, hrest⟩ := hq
  exact hp.bind fun _ _ => hrest

/-- Nothing is known about a value. -/
def Anything (_a : α) : Prop := True

theorem steady_pure {a : α} (ha : V a) : Steady V [] (pure a) := .done ha

theorem steady_ask (intent : Intent) (h : intent.isExchange = true) :
    Steady Anything [intent] (Plan.ask intent) :=
  .exchange h fun _ => .done trivial

theorem steady_aside (intent : Intent) (h : intent.IsAside) :
    Steady Anything [] (Plan.ask intent) :=
  .aside h fun _ => .done trivial

theorem steady_note (level : Log.Level) (text : String) : Steady Anything [] (note level text) :=
  steady_aside (.note ⟨level, text⟩) trivial

/-- A line that does not begin like a failure. -/
theorem steady_say {text : String} {n : Nat} {start : List Char}
    (htake : text.toList.take n = start)
    (hne : ∀ opening ∈ failureOpenings, opening.toList.take n ≠ start)
    (hlength : ∀ opening ∈ failureOpenings, n ≤ opening.toList.length) :
    Steady Anything [] (say text) :=
  steady_aside (.tell (.line text)) (Entry.not_isFailure_of_take htake hne hlength)

/-- A line known from its first three characters. -/
theorem isSteady_say {text : String} (start : List Char) (htake : text.toList.take 3 = start)
    (hne : start ≠ ['E', 'r', 'r']) : IsSteady Anything (say text) := by
  refine ⟨[], steady_say htake (fun opening hmem heq => hne ?_) (by decide)⟩
  have hopenings : ∀ opening ∈ failureOpenings, opening.toList.take 3 = ['E', 'r', 'r'] := by decide
  exact heq.symm.trans (hopenings opening hmem)

theorem isSteady_pure {a : α} (ha : V a) : IsSteady V (pure a) := ⟨[], steady_pure ha⟩

theorem isSteady_send (text : List Char) : IsSteady Anything (send text) :=
  ⟨_, steady_ask (.send text) rfl⟩

theorem isSteady_reply : IsSteady Anything reply := ⟨_, steady_ask .reply rfl⟩

theorem isSteady_settle (micros : Nat) : IsSteady Anything (settle micros) :=
  ⟨_, steady_ask (.settle micros) rfl⟩

theorem isSteady_progress (text : String) : IsSteady Anything (progress text) :=
  ⟨_, steady_aside (.tell (.progress text)) rfl⟩

/-! ### Wire primitives -/

theorem isSteady_selectBank (bank : Nat) : IsSteady Anything (selectBank bank) :=
  (isSteady_send _).andThen (isSteady_send _)

theorem isSteady_setOffset (offset : Nat) : IsSteady Anything (setOffset offset) :=
  (isSteady_send _).andThen (isSteady_send _)

theorem isSteady_setAddress (address : Nat) : IsSteady Anything (setAddress address) :=
  (isSteady_selectBank _).andThen (isSteady_setOffset _)

theorem isSteady_storeByte (b : UInt8) : IsSteady Anything (storeByte b) :=
  (isSteady_send _).andThen (isSteady_send _)

theorem isSteady_sendCommand (offset : Nat) (b : UInt8) : IsSteady Anything (sendCommand offset b) :=
  (isSteady_setOffset _).andThen (isSteady_storeByte _)

theorem isSteady_fetchByte : IsSteady Anything fetchByte :=
  (isSteady_send _).andThen isSteady_reply

theorem isSteady_fetchBytes (n : Nat) : IsSteady Anything (fetchBytes n) := by
  induction n with
  | zero => exact isSteady_pure trivial
  | succ n ih =>
    obtain ⟨rest, hrest⟩ := ih
    exact isSteady_fetchByte.bind fun b _ => hrest.bind fun bs _ => steady_pure trivial

/-! ### Sequences on the chip -/

theorem isSteady_unlock : IsSteady Anything unlock :=
  (isSteady_sendCommand _ _).andThen (isSteady_sendCommand _ _)

theorem isSteady_eraseSetup : IsSteady Anything eraseSetup :=
  isSteady_unlock.andThen <| (isSteady_sendCommand _ _).andThen isSteady_unlock

theorem isSteady_eraseChip (bank : Nat) : IsSteady Anything (eraseChip bank) :=
  (isSteady_send _).andThen <| (isSteady_selectBank _).andThen <| isSteady_eraseSetup.andThen <|
    (isSteady_sendCommand _ _).andThen (isSteady_settle _)

theorem isSteady_eraseSector (address : Nat) : IsSteady Anything (eraseSector address) :=
  (isSteady_send _).andThen <| (isSteady_selectBank _).andThen <| isSteady_eraseSetup.andThen <|
    (isSteady_selectBank _).andThen <| (isSteady_sendCommand _ _).andThen (isSteady_settle _)

theorem isSteady_programByte (offset : Nat) (b : UInt8) : IsSteady Anything (programByte offset b) :=
  isSteady_unlock.andThen <| (isSteady_sendCommand _ _).andThen (isSteady_sendCommand _ _)

theorem isSteady_chipIdentity (bank : Nat) : IsSteady Anything (chipIdentity bank) := by
  obtain ⟨fetch, hfetch⟩ := isSteady_fetchByte
  obtain ⟨open', hopen⟩ := isSteady_unlock
  obtain ⟨leave, hleave⟩ := isSteady_sendCommand 0x5555 0xF0
  -- what is asked for after the two replies is named first, so that it cannot depend on them
  refine (isSteady_send _).andThen <| (isSteady_selectBank _).andThen <| isSteady_unlock.andThen <|
    (isSteady_sendCommand _ _).andThen <| (isSteady_setOffset _).andThen ?_
  exact isSteady_fetchByte.bind fun manufacturer _ => hfetch.bind fun device _ =>
    hopen.bind fun _ _ => hleave.bind fun _ _ => steady_pure trivial

theorem isSteady_mapPairs (i n : Nat) : IsSteady Anything (mapPairs i n) := by
  induction n generalizing i with
  | zero => exact isSteady_pure trivial
  | succ n ih => exact (isSteady_sendCommand _ _).andThen ((isSteady_sendCommand _ _).andThen (ih _))

/-! ### Memory shown and written -/

/-- A row of memory begins with two digits, of which the second is no letter of a failure. -/
theorem steady_say_dumpRow (address : Nat) (bs : Bytes) :
    Steady Anything [] (say (dumpRow address bs)) := by
  have hdigit : ∀ d < 16, Hex.digit d ≠ 'r' := by decide
  have htake : (dumpRow address bs).toList.take 2
      = [Hex.digit (address / 0x10000000 % 16), Hex.digit (address / 0x1000000 % 16)] := by
    have hdigits : Hex.digits address 8
        = [Hex.digit (address / 0x10000000 % 16), Hex.digit (address / 0x1000000 % 16)]
          ++ Hex.digits address 6 := by
      simp only [Hex.digits_succ, Hex.digits_zero, Nat.div_div_eq_div_mul, List.nil_append,
        List.cons_append]
    rw [dumpRow, String.toList_ofList, hdigits]
    rfl
  have hopenings : ∀ opening ∈ failureOpenings, opening.toList.take 2 = ['E', 'r'] := by decide
  refine steady_say htake (fun opening hmem heq => ?_) (by decide)
  rw [hopenings opening hmem] at heq
  exact hdigit _ (Nat.mod_lt _ (by decide)) (List.cons.inj (List.cons.inj heq).2).1.symm

theorem isSteady_dump (address n : Nat) : IsSteady Anything (dump address n) := by
  induction n generalizing address with
  | zero => exact isSteady_pure trivial
  | succ n ih =>
    -- a row shows what was read, but the rows after it are asked for all the same
    obtain ⟨rest, hrest⟩ := ih (address + rowBytes)
    exact (isSteady_fetchBytes rowBytes).bind fun row _ =>
      (steady_say_dumpRow address row).bind fun _ _ => hrest

theorem isSteady_say_badAddress (token : String) :
    IsSteady Anything (say s!"Bad address: {token}") := by
  refine isSteady_say ['B', 'a', 'd'] ?_ (by decide)
  rw [String.toList_append]
  rfl

theorem isSteady_readMemory (addresses : List Number) : IsSteady Anything (readMemory addresses) := by
  induction addresses with
  | nil => exact isSteady_pure trivial
  | cons address rest ih =>
    cases address with
    | valid address =>
      exact (isSteady_setAddress _).andThen ((isSteady_dump _ _).andThen ih)
    | invalid token => exact (isSteady_say_badAddress token).andThen ih

theorem isSteady_storeBytes (bs : Bytes) : IsSteady Anything (storeBytes bs) := by
  induction bs with
  | nil => exact isSteady_pure trivial
  | cons b bs ih => exact (isSteady_storeByte b).andThen ih

theorem isSteady_writeMemory (args : Option WriteArgs) : IsSteady Anything (writeMemory args) := by
  match args with
  | none => exact isSteady_pure trivial
  | some ⟨.invalid token, _, _⟩ =>
    exact (isSteady_say_badAddress token).andThen (isSteady_pure trivial)
  | some ⟨.valid address, data, none⟩ =>
    exact (isSteady_setAddress _).andThen <| (isSteady_storeBytes _).andThen <|
      (isSteady_pure trivial : IsSteady Anything (pure ())).andThen (isSteady_pure trivial)
  | some ⟨.valid address, data, some token⟩ =>
    have hsay : IsSteady Anything (say s!"Bad data: {token}") := by
      refine isSteady_say ['B', 'a', 'd'] ?_ (by decide)
      rw [String.toList_append]
      rfl
    exact (isSteady_setAddress _).andThen <| (isSteady_storeBytes _).andThen <|
      hsay.andThen (isSteady_pure trivial)

/-! ### What is never called off -/

/-- It goes on. -/
def Onward (flow : Flow) : Prop := flow = .onward

theorem IsSteady.onward {q : Procedure Flow} {f : Flow → Procedure β} (hq : IsSteady Onward q)
    (hf : IsSteady W (f .onward)) : IsSteady W (q >>= f) := by
  obtain ⟨rest, hrest⟩ := hf
  have hnext : ∀ flow, Onward flow → Steady W rest (f flow) := by
    rintro flow rfl
    exact hrest
  exact hq.bind hnext

end Procedure

/-! ## Object files written -/

namespace Purpose

open Procedure

variable (p : Purpose)

theorem isSteady_point (address : Nat) : IsSteady Anything (p.point address) := by
  cases p with
  | flash => exact isSteady_selectBank _
  | _ => exact isSteady_setAddress _

theorem isSteady_aim (base index : Nat) : IsSteady Anything (p.aim base index) := by
  rw [aim]
  split
  · exact p.isSteady_point _
  · exact isSteady_pure trivial

theorem isSteady_report (index total : Nat) : IsSteady Anything (p.report index total) := by
  rw [report]
  split
  · exact isSteady_progress _
  · exact isSteady_pure trivial

theorem isSteady_announcement (number : Nat) (s : Segment) :
    IsSteady Anything (say (p.announcement number s)) := by
  rw [announcement]
  split
  · refine isSteady_say ['V', 'e', 'r'] ?_ (by decide)
    simp only [String.toList_append, List.append_assoc]
    rfl
  · refine isSteady_say ['P', 'r', 'o'] ?_ (by decide)
    simp only [String.toList_append, List.append_assoc]
    rfl

variable {p} (hp : p.compares = false)
include hp

theorem isSteady_byte (address : Nat) (b : UInt8) : IsSteady Onward (p.byte address b) := by
  cases p with
  | program => exact (isSteady_storeByte b).andThen (isSteady_pure rfl)
  | flash =>
    rw [byte]
    by_cases hff : b = 0xFF
    · -- an erased byte needs no programming, which the file alone decides
      rw [if_pos hff]
      exact (isSteady_pure trivial : IsSteady Anything (pure ())).andThen (isSteady_pure rfl)
    · rw [if_neg hff]
      exact (isSteady_programByte address b).andThen (isSteady_pure rfl)
  | verify => cases hp
  | verifyRom => cases hp

/-- Bytes are written steadily, by induction on what is left of them. -/
theorem isSteady_bytes (base total : Nat) (data : Bytes) (index : Nat) :
    IsSteady Onward (p.bytes base total index data) := by
  induction data generalizing index with
  | nil => exact isSteady_pure rfl
  | cons b rest ih =>
    rw [bytes_cons]
    exact (p.isSteady_report _ _).andThen <| (p.isSteady_aim _ _).andThen <|
      (isSteady_byte hp _ b).onward (ih (index + 1))

theorem isSteady_segments (segments : List Segment) (number : Nat) :
    IsSteady Onward (p.segments number segments) := by
  have hsay : IsSteady Anything (say "Segment complete!") := isSteady_say _ rfl (by decide)
  induction segments generalizing number with
  | nil => exact isSteady_pure rfl
  | cons s rest ih =>
    rw [segments_cons]
    refine (p.isSteady_announcement number s).andThen (IsSteady.onward ?_ ?_)
    · exact (p.isSteady_point _).andThen (isSteady_bytes hp _ _ s.data 0)
    · exact hsay.andThen (ih (number + 1))

theorem isSteady_prepare : IsSteady Anything p.prepare := by
  cases p with
  | program => exact isSteady_pure trivial
  | flash =>
    exact (isSteady_say ['E', 'r', 'a'] rfl (by decide)).andThen <|
      (isSteady_eraseChip _).andThen (isSteady_say _ rfl (by decide))
  | verify => cases hp
  | verifyRom => cases hp

theorem isSteady_transfer (segments : List Segment) : IsSteady Anything (p.transfer segments) := by
  have hsay : IsSteady Anything (say p.completion) := by
    cases p with
    | program => exact isSteady_say _ rfl (by decide)
    | flash => exact isSteady_say _ rfl (by decide)
    | verify => cases hp
    | verifyRom => cases hp
  rw [transfer_eq]
  exact (isSteady_send _).andThen <| (isSteady_prepare hp).andThen <|
    (isSteady_segments hp segments 0).onward hsay

end Purpose

/-! ## Commands -/

namespace Procedure

theorem isSteady_notes (records : List Log.Record) : IsSteady Anything (notes records) := by
  induction records with
  | nil => exact isSteady_pure trivial
  | cons record rest ih => exact IsSteady.andThen ⟨[], steady_note _ _⟩ ih

/-- A file that cannot be used is no failure of the link. -/
theorem take_loadFault (file : String) (fault : LoadFault) :
    (fault.message file).toList.take 3 = ['C', 'o', 'u'] := by
  cases fault with
  | unreadable fault =>
    show (s!"Could not open {file}: {fault.message}").toList.take 3 = _
    simp only [String.toList_append, List.append_assoc]
    rfl
  | malformed fault =>
    show (s!"Could not parse {file}: {fault.message}").toList.take 3 = _
    simp only [String.toList_append, List.append_assoc]
    rfl

theorem isSteady_transferFile (loader : Loader) {p : Purpose} (hp : p.compares = false)
    (file : Option String) : IsSteady Anything (transferFile loader p file) := by
  cases file with
  | none => exact isSteady_say _ rfl (by decide)
  | some file =>
    refine (isSteady_notes _).andThen ?_
    cases loader.load file with
    | error fault => exact isSteady_say _ (take_loadFault file fault) (by decide)
    | ok segments => exact Purpose.isSteady_transfer hp segments

theorem isSteady_control (text : List Char) {message : String} {start : List Char}
    (htake : message.toList.take 3 = start) (hne : start ≠ ['E', 'r', 'r']) :
    IsSteady Anything (control text message) :=
  (isSteady_send text).andThen (isSteady_say start htake hne)

/-- A chip is described from its identities, which begins alike for all of them. -/
theorem take_describeChip (manufacturer device : UInt8) :
    (describeChip manufacturer device).toList.take 3 = ['M', 'a', 'n'] := by
  rw [describeChip]
  split
  · rw [String.toList_append]
    rfl
  · simp only [String.toList_append, List.append_assoc]
    rfl

/-- Whatever the identities are, nothing more is asked for. -/
theorem steady_describe (identity : UInt8 × UInt8) :
    Steady Anything ([] ++ [])
      (note .debug s!"chip id {Hex.byte identity.1} {Hex.byte identity.2}" >>= fun _ =>
        say (describeChip identity.1 identity.2)) := by
  have hopenings : ∀ opening ∈ failureOpenings, opening.toList.take 3 ≠ ['M', 'a', 'n'] := by decide
  exact (steady_note _ _).bind fun _ _ =>
    steady_say (take_describeChip identity.1 identity.2) hopenings (by decide)

/-- However many bytes were written, nothing more is asked for. -/
theorem steady_wrote (count : Nat) :
    Steady Anything [] (say s!"Wrote {count} byte{plural count}!") := by
  have htake : (s!"Wrote {count} byte{plural count}!").toList.take 3 = ['W', 'r', 'o'] := by
    simp only [String.toList_append, List.append_assoc]
    rfl
  exact steady_say htake (by decide) (by decide)

end Procedure

namespace Command

open Procedure

/-- The command compares an object file with memory. -/
def compares : Command → Bool
  | .transfer p _ => p.compares
  | _ => false

/-- **Every command is steady that does not compare.** -/
theorem isSteady_procedure (loader : Loader) {command : Command} (h : command.compares = false) :
    IsSteady Anything (command.procedure loader) := by
  cases command with
  | stop => exact isSteady_control _ rfl (by decide)
  | go => exact isSteady_control _ rfl (by decide)
  | reset => exact isSteady_control _ rfl (by decide)
  | step => exact isSteady_control _ rfl (by decide)
  | run => exact isSteady_control _ rfl (by decide)
  | read addresses => exact isSteady_readMemory addresses
  | write args => exact (isSteady_writeMemory args).bind fun count _ => steady_wrote count
  | transfer p file => exact isSteady_transferFile loader h file
  | mapRam =>
    exact (isSteady_send _).andThen <| (isSteady_selectBank _).andThen <|
      (isSteady_mapPairs 0 16).andThen (isSteady_say _ rfl (by decide))
  | erase => exact (isSteady_eraseChip _).andThen (isSteady_say _ rfl (by decide))
  | eraseSector address =>
    match address with
    | none => exact isSteady_say _ rfl (by decide)
    | some (.invalid token) => exact isSteady_say_badAddress token
    | some (.valid address) =>
      refine (isSteady_eraseSector address).andThen (isSteady_say ['S', 'e', 'c'] ?_
        (by decide))
      simp only [String.toList_append, List.append_assoc]
      rfl
  | chipId => exact (isSteady_chipIdentity flashBank).bind fun identity _ => steady_describe identity
  | resync => exact IsSteady.andThen ⟨_, steady_ask .drain rfl⟩ (isSteady_pure trivial)
  | unknown name =>
    refine isSteady_say ['U', 'n', 'k'] ?_ (by decide)
    simp only [String.toList_append, List.append_assoc]
    rfl

end Command

/-! ## The plan and the link -/

namespace Session

variable {σ : Type} [Link σ] {α : Type} {V : α → Prop} {asked : List Intent}

/-- Carried out over any link, a steady procedure asks for what it asks for, and the failures that
are told are the complaints of the exchanges. -/
theorem perform_failures {p : Procedure α} (hp : Procedure.Steady V asked p) (s : Session σ) :
    (p.exchanges s).map Exchange.intent = asked ∧
      ∃ told, (s.perform p).2.transcript.toList = s.transcript.toList ++ told ∧
        told.filter Entry.isFailure = (p.exchanges s).filterMap Exchange.complaint := by
  -- the induction is on the steadiness, so that every answer leads to the same intents
  induction hp generalizing s with
  | done ha => exact ⟨rfl, [], (List.append_nil _).symm, rfl⟩
  | @exchange intent next asked hintent _ ih =>
    obtain ⟨hasked, told₂, htranscript₂, hfailures₂⟩ :=
      ih (s.carryOut intent).1 (s.carryOut intent).2
    have htell : ∀ entry, intent = .tell entry → entry.isFailure = false := by
      rintro entry rfl
      cases hintent
    obtain ⟨told₁, htranscript₁, hfailures₁⟩ := s.carryOut_failures htell
    rw [perform_step, Procedure.exchanges_step]
    refine ⟨?_, told₁ ++ told₂, ?_, ?_⟩
    · rw [List.map_append, Intent.intents_exchange s hintent, hasked]
      rfl
    · rw [htranscript₂, htranscript₁, List.append_assoc]
    · rw [List.filter_append, List.filterMap_append, hfailures₁, hfailures₂]
  | @aside intent next asked hintent _ ih =>
    obtain ⟨hasked, told₂, htranscript₂, hfailures₂⟩ :=
      ih (s.carryOut intent).1 (s.carryOut intent).2
    have htell : ∀ entry, intent = .tell entry → entry.isFailure = false := by
      rintro entry rfl
      exact hintent
    obtain ⟨told₁, htranscript₁, hfailures₁⟩ := s.carryOut_failures htell
    rw [perform_step, Procedure.exchanges_step]
    rw [hintent.exchange_eq s] at hfailures₁ ⊢
    refine ⟨hasked, told₁ ++ told₂, ?_, ?_⟩
    · rw [htranscript₂, htranscript₁, List.append_assoc]
    · rw [List.filter_append, hfailures₁, hfailures₂]
      rfl

variable {loader : Loader} {words : List String} {command : Command}

/-- **Failures are never silent and never change the plan.**  Over any two links a command that does
not compare asks for the same strings, replies and waits, one after another.  Every string reaches
the wire up to the first byte of it that is refused, and every reply is awaited, as the traffic on
the link shows.  The failures that the user is told about are those of the strings that were cut
short and of the replies that were no two digits, each told once and in order. -/
theorem dispatch_steadfast (s : Session (Tap σ)) (hwords : Command.parse words = some command)
    (hcommand : command.compares = false) :
    (∀ {τ : Type} [Link τ] (t : Session τ),
      (s.exchanges loader words).map Exchange.intent
        = (t.exchanges loader words).map Exchange.intent) ∧
      (s.dispatch loader words).link.traffic.toList
        = s.link.traffic.toList
          ++ (s.exchanges loader words).flatMap (Exchange.operations s.pacing) ∧
      (∀ x ∈ s.exchanges loader words, x.Genuine) ∧
      ∃ told, (s.dispatch loader words).transcript.toList = s.transcript.toList ++ told ∧
        told.filter Entry.isFailure
          = (s.exchanges loader words).filterMap Exchange.complaint := by
  obtain ⟨asked, hsteady⟩ := Command.isSteady_procedure loader hcommand
  have hexchanges : ∀ {τ : Type} [Link τ] (t : Session τ), t.exchanges loader words
      = (command.procedure loader).exchanges
          (t.note .info fun _ => s!"debug command: {command.describe}") := by
    intro τ _ t
    rw [exchanges, hwords]
  have hdispatch : s.dispatch loader words = s.execute loader command := by
    rw [dispatch, hwords]
  refine ⟨fun t => ?_, s.dispatch_traffic loader words, s.genuine_exchanges loader words, ?_⟩
  · rw [hexchanges, hexchanges, (perform_failures hsteady _).1, (perform_failures hsteady _).1]
  · rw [hexchanges, hdispatch]
    exact (perform_failures hsteady _).2

/-- A chip is asked for its identity although its bank could not be selected, and both replies are
bad, each in its own way. -/
theorem dispatch_steadfast_chipId :
    let s : Session (Tap Script) :=
      ⟨⟨{ reads := [.ok [0x7A, 0x7A], .ok [0x30]], failing := (1, 1) }, #[]⟩, ⟨9600⟩, #[], .quiet⟩
    Command.parse ["chipid"] = some .chipId ∧ Command.chipId.compares = false ∧
      (∀ {τ : Type} [Link τ] (t : Session τ),
        (s.exchanges (.fixed []) ["chipid"]).map Exchange.intent
          = (t.exchanges (.fixed []) ["chipid"]).map Exchange.intent) ∧
      ∃ told, (s.dispatch (.fixed []) ["chipid"]).transcript.toList = [] ++ told ∧
        told.filter Entry.isFailure =
          [.line "Error writing to debug device: link down",
            .line "Error parsing data from debug device: invalid reply \"zz\"",
            .line "Error reading from debug device: timed out waiting for data"] := by
  intro s
  have hwords : Command.parse ["chipid"] = some .chipId := by decide +kernel
  have hcomplaints : (s.exchanges (.fixed []) ["chipid"]).filterMap Exchange.complaint
      = [.line "Error writing to debug device: link down",
        .line "Error parsing data from debug device: invalid reply \"zz\"",
        .line "Error reading from debug device: timed out waiting for data"] := by
    decide +kernel
  obtain ⟨hplan, -, -, told, htranscript, hfailures⟩ :=
    @dispatch_steadfast Script _ (.fixed []) _ _ s hwords rfl
  exact ⟨hwords, rfl, hplan, told, htranscript, hfailures.trans hcomplaints⟩

end Session

end BoardConsole.Debugger
