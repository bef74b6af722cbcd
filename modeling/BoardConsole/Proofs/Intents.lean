import BoardConsole.Proofs.Replies

/-!
# What commands ask for

Whatever its arguments and the answers it gets, a command sends, asks for replies, tells and
remarks.  Only the commands that erase give the target time, and only one command throws stale bytes
away.  So a property of the common intents is one of all the intents of most commands.

- `Intent.Common`: a property of the intents that any command may have.
- `Command.erases`: the commands that give the target time.
- `Intent.Common.only_procedure`: **it is a property of all the intents of a command**, as far as
  giving time and throwing bytes away have it too.
-/

namespace BoardConsole.Debugger

open ObjectFile (Segment)
open Procedure

/-- Sending, asking for replies, telling and remarking all have a property. -/
structure Intent.Common (P : Intent → Prop) : Prop where
  send : ∀ text, P (.send text)
  reply : P .reply
  tell : ∀ entry, P (.tell entry)
  note : ∀ record, P (.note record)

/-- The command erases flash memory, and gives the target time for it. -/
def Command.erases : Command → Bool
  | .erase => true
  | .eraseSector (some (.valid _)) => true
  | .transfer .flash (some _) => true
  | _ => false

namespace Intent.Common

variable {P : Intent → Prop} (hP : Intent.Common P)
include hP

/-! ## Memory -/

theorem only_say (text : String) : Only P (say text) := only_ask (hP.tell (.line text))

theorem only_send (text : List Char) : Only P (Procedure.send text) := only_ask (hP.send text)

theorem only_fetchByte : Only P fetchByte :=
  (hP.only_send _).bind fun _ => only_ask hP.reply

theorem only_fetchBytes (n : Nat) : Only P (fetchBytes n) := by
  induction n with
  | zero => exact only_pure _
  | succ n ih => exact hP.only_fetchByte.bind fun _ => ih.bind fun _ => only_pure _

theorem only_dump (address n : Nat) : Only P (dump address n) := by
  induction n generalizing address with
  | zero => exact only_pure _
  | succ n ih =>
    exact (hP.only_fetchBytes _).bind fun _ => (hP.only_say _).bind fun _ => ih _

theorem only_readMemory (addresses : List Number) : Only P (readMemory addresses) := by
  induction addresses with
  | nil => exact only_pure _
  | cons address rest ih =>
    cases address with
    | valid address =>
      exact (only_setAddress hP.send _).bind fun _ => (hP.only_dump _ _).bind fun _ => ih
    | invalid token => exact (hP.only_say _).bind fun _ => ih

theorem only_storeByte (b : UInt8) : Only P (storeByte b) :=
  (hP.only_send _).bind fun _ => hP.only_send _

theorem only_storeBytes (bs : Bytes) : Only P (storeBytes bs) := by
  induction bs with
  | nil => exact only_pure _
  | cons b bs ih => exact (hP.only_storeByte b).bind fun _ => ih

theorem only_writeMemory (args : Option WriteArgs) : Only P (writeMemory args) := by
  rcases args with _ | ⟨address | token, data, rejected⟩
  · exact only_pure _
  · refine (only_setAddress hP.send _).bind fun _ => (hP.only_storeBytes _).bind fun _ => ?_
    cases rejected with
    | none => exact only_pure _
    | some token => exact (hP.only_say _).bind fun _ => only_pure _
  · exact (hP.only_say _).bind fun _ => only_pure _

/-! ## Commands of the chip -/

theorem only_sendCommand (offset : Nat) (b : UInt8) : Only P (sendCommand offset b) := by
  refine Only.bind ?_ fun _ => hP.only_storeByte b
  exact (hP.only_send _).bind fun _ => hP.only_send _

theorem only_unlock : Only P unlock :=
  (hP.only_sendCommand _ _).bind fun _ => hP.only_sendCommand _ _

theorem only_eraseSetup : Only P eraseSetup :=
  hP.only_unlock.bind fun _ => (hP.only_sendCommand _ _).bind fun _ => hP.only_unlock

theorem only_programByte (offset : Nat) (b : UInt8) : Only P (programByte offset b) :=
  hP.only_unlock.bind fun _ => (hP.only_sendCommand _ _).bind fun _ => hP.only_sendCommand _ _

theorem only_chipIdentity (bank : Nat) : Only P (chipIdentity bank) := by
  refine (hP.only_send _).bind fun _ => (only_selectBank hP.send bank).bind fun _ => ?_
  refine hP.only_unlock.bind fun _ => (hP.only_sendCommand _ _).bind fun _ => ?_
  refine Only.bind ((hP.only_send _).bind fun _ => hP.only_send _) fun _ => ?_
  refine hP.only_fetchByte.bind fun _ => hP.only_fetchByte.bind fun _ => ?_
  exact hP.only_unlock.bind fun _ => (hP.only_sendCommand _ _).bind fun _ => only_pure _

theorem only_mapPairs (i n : Nat) : Only P (mapPairs i n) := by
  induction n generalizing i with
  | zero => exact only_pure _
  | succ n ih =>
    exact (hP.only_sendCommand _ _).bind fun _ => (hP.only_sendCommand _ _).bind fun _ => ih _

section

variable (hsettle : ∀ micros, P (.settle micros))
include hsettle

theorem only_eraseChip (bank : Nat) : Only P (eraseChip bank) := by
  refine (hP.only_send _).bind fun _ => (only_selectBank hP.send _).bind fun _ => ?_
  refine hP.only_eraseSetup.bind fun _ => (hP.only_sendCommand _ _).bind fun _ => ?_
  exact only_ask (hsettle _)

theorem only_eraseSector (address : Nat) : Only P (eraseSector address) := by
  refine (hP.only_send _).bind fun _ => (only_selectBank hP.send _).bind fun _ => ?_
  refine hP.only_eraseSetup.bind fun _ => (only_selectBank hP.send _).bind fun _ => ?_
  exact (hP.only_sendCommand _ _).bind fun _ => only_ask (hsettle _)

end

/-! ## Object files -/

theorem only_byte (p : Purpose) (address : Nat) (b : UInt8) : Only P (p.byte address b) := by
  have hcheck : Only P (Purpose.check address b) := by
    refine hP.only_fetchByte.bind fun actual => ?_
    split
    · exact only_pure _
    · refine Only.bind (only_ask (hP.note _)) fun _ => ?_
      exact (hP.only_say _).bind fun _ => only_pure _
  cases p with
  | program => exact (hP.only_storeByte b).bind fun _ => only_pure _
  | flash =>
    rw [Purpose.byte]
    split
    · exact only_pure _
    · exact (hP.only_programByte _ _).bind fun _ => only_pure _
  | verify => exact hcheck
  | verifyRom => exact hcheck

theorem only_bytes (p : Purpose) (base total : Nat) (data : Bytes) (index : Nat) :
    Only P (p.bytes base total index data) := by
  induction data generalizing index with
  | nil => exact only_pure _
  | cons b rest ih =>
    rw [Purpose.bytes_cons]
    refine (only_report (fun _ => hP.tell _) p _ _).bind fun _ => ?_
    refine (only_aim hP.send p _ _).bind fun _ => ?_
    exact Purpose.only_proceed (hP.only_byte p _ b) (ih (index + 1))

theorem only_segments (p : Purpose) (segments : List Segment) (number : Nat) :
    Only P (p.segments number segments) := by
  induction segments generalizing number with
  | nil => exact only_pure _
  | cons seg rest ih =>
    rw [Purpose.segments_cons]
    refine (hP.only_say _).bind fun _ => Purpose.only_proceed ?_ ?_
    · exact (only_point hP.send p _).bind fun _ => hP.only_bytes p _ _ seg.data 0
    · exact (hP.only_say _).bind fun _ => ih (number + 1)

/-- What is done with an object file after the chip has been erased, or without that. -/
theorem only_conclude (p : Purpose) (segments : List Segment) :
    Only P (p.segments 0 segments >>= p.conclude) := by
  refine (hP.only_segments p segments 0).bind fun flow => ?_
  cases flow with
  | onward => exact hP.only_say _
  | abort => exact only_pure _

/-! ## Commands -/

variable (loader : Loader)

theorem only_transferFile (purpose : Purpose) (hprepare : Only P purpose.prepare)
    (file : Option String) : Only P (transferFile loader purpose file) := by
  cases file with
  | none => exact hP.only_say _
  | some file =>
    refine (Purpose.only_notes hP.note _).bind fun _ => ?_
    cases loader.load file with
    | error fault => exact hP.only_say _
    | ok found =>
      dsimp only
      rw [Purpose.transfer_eq]
      exact (hP.only_send _).bind fun _ => hprepare.bind fun _ => hP.only_conclude purpose found

/-- **All the intents of a command have the property**, if giving the target time and throwing stale
bytes away have it too as far as the command does so. -/
theorem only_procedure {command : Command}
    (hsettle : command.erases = true → ∀ micros, P (.settle micros))
    (hdrain : command = .resync → P .drain) : Only P (command.procedure loader) := by
  cases command with
  | stop => exact (hP.only_send _).bind fun _ => hP.only_say _
  | go => exact (hP.only_send _).bind fun _ => hP.only_say _
  | reset => exact (hP.only_send _).bind fun _ => hP.only_say _
  | step => exact (hP.only_send _).bind fun _ => hP.only_say _
  | run => exact (hP.only_send _).bind fun _ => hP.only_say _
  | read addresses => exact hP.only_readMemory addresses
  | write args => exact (hP.only_writeMemory args).bind fun _ => hP.only_say _
  | transfer purpose file =>
    cases purpose with
    | program => exact hP.only_transferFile loader .program (only_pure _) file
    | verify => exact hP.only_transferFile loader .verify (only_pure _) file
    | verifyRom => exact hP.only_transferFile loader .verifyRom (hP.only_say _) file
    | flash =>
      cases file with
      | none => exact hP.only_say _
      | some file =>
        refine hP.only_transferFile loader .flash ?_ (some file)
        refine (hP.only_say _).bind fun _ => ?_
        exact (hP.only_eraseChip (hsettle rfl) _).bind fun _ => hP.only_say _
  | mapRam =>
    refine (hP.only_send _).bind fun _ => (only_selectBank hP.send _).bind fun _ => ?_
    exact (hP.only_mapPairs 0 16).bind fun _ => hP.only_say _
  | erase => exact (hP.only_eraseChip (hsettle rfl) _).bind fun _ => hP.only_say _
  | eraseSector address =>
    rcases address with _ | address | token
    · exact hP.only_say _
    · exact (hP.only_eraseSector (hsettle rfl) _).bind fun _ => hP.only_say _
    · exact hP.only_say _
  | chipId =>
    refine (hP.only_chipIdentity _).bind fun identity => ?_
    exact Only.bind (only_ask (hP.note _)) fun _ => hP.only_say _
  | resync => exact Only.bind (only_ask (hdrain rfl)) fun _ => only_pure _
  | unknown name => exact hP.only_say _

end Intent.Common

end BoardConsole.Debugger
