import BoardConsole.Proofs.Streaming

/-!
# The end of a bank

On a board whose pointer goes around in its bank a running pointer never leaves the bank that it was
pointed into.  Writing bytes and showing memory point the target once for each address, so what lies
beyond the end of the bank is neither written nor shown: the bank begins anew instead.

- `Session.write_read_in_bank`: where bytes are written and which ones are shown on such a board,
  and **when these are the ones that were asked for**.
- `Session.bank_end_missed`: two bytes over the end of a bank.
-/

namespace BoardConsole.Debugger

open Monitor (inBank space)

/-- What is told about an argument depends on the bytes at places after addresses of the board. -/
theorem readout_congr {f g : Nat → Nat → UInt8}
    (h : ∀ a < 0x1000000, ∀ place, f a place = g a place) (token : String) :
    readout f token = readout g token := by
  rw [readout, readout]
  cases htoken : numberBelow? 0x1000000 token with
  | none => rfl
  | some a =>
    have ha : a < 0x1000000 := lt_of_numberBelow? htoken
    show rows (f a) a 4 = rows (g a) a 4
    rw [funext (h a ha)]

namespace Session

/-- **Beyond the end of a bank, bytes are written and shown at its beginning.**  On a board whose
pointer goes around in its bank, the i-th byte written is stored at the place of the i-th address in
the bank of the first, and memory is shown from the same places.  So bytes are written where they
should be exactly if they end in the bank, and four rows are the right ones exactly if they do. -/
theorem write_read_in_bank (loader : Loader) (s : Session (Tap Monitor))
    (hbanked : s.link.link.advance = .banked) :
    (∀ (name token : String) (a : Nat) (args : List String), name.toLower = "write" →
      numberBelow? 0x1000000 token = some a →
      ∃ sent, (s.dispatch loader (name :: token :: args)).link.sent = s.link.sent ++ sent ∧
        s.link.link.accesses sent = (dataBytes args).mapIdx
          (fun i b => .store (inBank (a / Monitor.bankSize) (a + i)) b) ∧
        ((∀ i < (dataBytes args).length,
            inBank (a / Monitor.bankSize) (a + i) = (a + i) % 0x1000000) ↔
          a % 0x10000 + (dataBytes args).length ≤ 0x10000)) ∧
    (∀ (name : String) (args : List String), name.toLower = "read" → s.link.link.replies = [] →
      (s.dispatch loader (name :: args)).transcript.toList = s.transcript.toList
        ++ (args.filter (· ≠ "")).flatMap (readout fun a place =>
          s.link.link.load (inBank (a / Monitor.bankSize) (a + place)))) ∧
    (∀ a < 0x1000000,
      (∀ place < 64, inBank (a / Monitor.bankSize) (a + place) = (a + place) % 0x1000000) ↔
        a % 0x10000 + 64 ≤ 0x10000) := by
  have hahead : ∀ a < 0x1000000, ∀ i, Monitor.Advance.banked.ahead a i
      = inBank (a / Monitor.bankSize) (a + i) := by
    intro a ha i
    rw [Monitor.Advance.ahead, Nat.mod_eq_of_lt (show a < Monitor.space from ha)]
  have hright : ∀ a < 0x1000000, ∀ n,
      (∀ i < n, inBank (a / Monitor.bankSize) (a + i) = (a + i) % 0x1000000) ↔
        a % 0x10000 + n ≤ 0x10000 := by
    intro a ha n
    simp only [← hahead a ha]
    exact Monitor.Advance.ahead_eq_iff ha n
  refine ⟨fun name token a args hname htoken => ?_, fun name args hname hreplies => ?_,
    fun a ha => hright a ha 64⟩
  · have ha : a < 0x1000000 := lt_of_numberBelow? htoken
    obtain ⟨sent, hrun, haccesses⟩ :=
      run_write loader s.link.link a (dataBytes args) (rejectedArgument? args)
    have hfollows := @dispatch_run loader _ _ s (Command.parse_write hname htoken args)
    rw [hrun] at hfollows
    rw [hbanked, Monitor.Advance.map_ofCycle_cells] at haccesses
    simp only [hahead a ha] at haccesses
    exact ⟨sent, hfollows.sent, haccesses, hright a ha _⟩
  · obtain ⟨m', sent, hrun, -⟩ := run_read loader hreplies args
    have hfollows := @dispatch_run loader _ _ s (Command.parse_read hname args)
    rw [hrun, hbanked] at hfollows
    rw [hfollows.transcript]
    refine congrArg (_ ++ ·) (List.flatMap_congr fun token _ => ?_)
    exact readout_congr (fun a ha place => congrArg _ (hahead a ha place)) token

/-- Two bytes up to the end of a bank and its last row, with the beginning of the bank after it. -/
theorem write_read_in_bank_last :
    let s : Session (Tap Monitor) :=
      ⟨⟨{ ram := ({} : Std.TreeMap Nat UInt8).insert 0x10000 0x41, advance := .banked }, #[]⟩,
        ⟨0⟩, #[], .quiet⟩
    s.link.link.advance = .banked ∧ numberBelow? 0x1000000 "0x1fffe" = some 0x1FFFE ∧
      (∃ sent, (s.dispatch (.fixed []) ["write", "0x1fffe", "7", "8"]).link.sent
          = s.link.sent ++ sent ∧
        s.link.link.accesses sent = [.store 0x1FFFE 7, .store 0x1FFFF 8]) ∧
      ((s.dispatch (.fixed []) ["read", "0x1fff0"]).transcript.toList)[1]?
        = some (.line
          "00020000  41 00 00 00 00 00 00 00  00 00 00 00 00 00 00 00 [A               ]") := by
  intro s
  have htoken : numberBelow? 0x1000000 "0x1fffe" = some 0x1FFFE := by decide +kernel
  have hbytes : dataBytes ["7", "8"] = [7, 8] := by decide +kernel
  obtain ⟨hwrite, hread, -⟩ := s.write_read_in_bank (.fixed []) rfl
  obtain ⟨sent, hsent, haccesses, -⟩ :=
    hwrite "write" "0x1fffe" 0x1FFFE ["7", "8"] (by decide +kernel) htoken
  refine ⟨rfl, htoken, ⟨sent, hsent, ?_⟩, ?_⟩
  · rw [haccesses, hbytes]
    rfl
  · rw [hread "read" ["0x1fff0"] (by decide +kernel) rfl]
    decide +kernel

/-- Two bytes over the end of a bank: the second is stored at the beginning of the bank, where it is
shown as well, and the byte behind the bank is left as it was. -/
theorem bank_end_missed :
    let s : Session Monitor := ⟨{ ram := ({} : Std.TreeMap Nat UInt8).insert 0x10000 0xBB,
                                  advance := .banked }, ⟨0⟩, #[], .quiet⟩
    let written := s.dispatch (.fixed []) ["write", "0xFFFF", "1", "2"]
    let shown := written.dispatch (.fixed []) ["read", "0xFFFF"]
    written.link.load 0 = 2 ∧ written.link.load ((0xFFFF + 1) % 0x1000000) = 0xBB ∧
      shown.transcript.toList[1]? = some (.line
        "0000FFFF  01 02 00 00 00 00 00 00  00 00 00 00 00 00 00 00 [                ]") := by
  decide +kernel

end Session

end BoardConsole.Debugger
