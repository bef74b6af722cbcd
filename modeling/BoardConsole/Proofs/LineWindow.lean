import BoardConsole.Interface.CommandLine
import BoardConsole.Proofs.Checked

/-!
# The command line through a window

A line that is longer than the screen is wide is seen through a window that goes with the cursor.
How many characters it has on either side of the cursor is found by differences, none of which is
ever taken below zero, and the two sides are sliced where they have that many characters.

- `CommandLine.around`: the line around its cursor, and `text_eq_around`, what is left out of it.
- `CommandLine.shown`: how many characters are shown on either side, with its bounds.
- `CommandLine.viewChecked`: the view with differences and slices that check.
- `CommandLine.view_window`: **the view is a window on the line that has the cursor in it**, and no
  check fails.
-/

namespace BoardConsole.Interface

namespace CommandLine

open Terminal (Checked.sub Checked.sub_of_le)

variable (c : CommandLine)

/-! ## A slice around the cursor -/

/-- Some of the characters before the cursor, and some of those after it. -/
def around (left right : Nat) : List Char := (c.before.take left).reverse ++ c.after.take right

/-- The line is what is shown of it between what is not. -/
theorem text_eq_around (left right : Nat) :
    c.text = (c.before.drop left).reverse ++ c.around left right ++ c.after.drop right := by
  have hbefore :
      c.before.reverse = (c.before.drop left).reverse ++ (c.before.take left).reverse := by
    rw [← List.reverse_append, List.take_append_drop]
  rw [text, around, hbefore]
  simp only [List.append_assoc, List.take_append_drop]

variable {left right : Nat}

theorem length_around (hleft : left ≤ c.before.length) (hright : right ≤ c.after.length) :
    (c.around left right).length = left + right := by
  rw [around, List.length_append, List.length_reverse, List.length_take_of_le hleft,
    List.length_take_of_le hright]

theorem around_length : c.around c.before.length c.after.length = c.text := by
  rw [around, text, List.take_length, List.take_length]

theorem length_text : c.text.length = c.before.length + c.after.length := by
  rw [text, List.length_append, List.length_reverse]

/-! ## How much is shown -/

/-- How many characters are shown before the cursor and after it. -/
def shown (width : Nat) : Nat × Nat :=
  let before := c.before.length
  let after := c.after.length
  let margin := width / 8
  if before + after < width then (before, after)
  else if before < width - margin then (before, min (width - before) after)
  else (width - min margin after - 1, min margin after)

/-- There are as many characters as are shown. -/
theorem shown_le (width : Nat) :
    (c.shown width).1 ≤ c.before.length ∧ (c.shown width).2 ≤ c.after.length := by
  unfold shown
  grind

variable {width : Nat}

theorem view_eq_around (h : 0 < width) :
    c.view width = (c.around (c.shown width).1 (c.shown width).2, (c.shown width).1) := by
  unfold view shown
  dsimp only
  rw [if_neg (by omega)]
  by_cases hwhole : c.before.length + c.after.length < width
  · rw [if_pos hwhole, if_pos hwhole, around_length]
  · rw [if_neg hwhole, if_neg hwhole]
    by_cases hroom : c.before.length < width - width / 8
    · rw [if_pos hroom]
      rfl
    · rw [if_neg hroom]
      rfl

/-- There is room for them, and for the cursor. -/
theorem shown_fits (h : 0 < width) :
    (c.shown width).1 < width ∧ (c.shown width).1 + (c.shown width).2 ≤ width := by
  unfold shown
  grind

/-- All of them are shown if that leaves a column free. -/
theorem shown_whole (h : c.before.length + c.after.length < width) :
    c.shown width = (c.before.length, c.after.length) := by
  unfold shown
  rw [if_pos h]

/-- Eight columns are enough to see what comes next. -/
theorem shown_ahead (h : 8 ≤ width) (hafter : 0 < c.after.length) : 0 < (c.shown width).2 := by
  unfold shown
  grind

/-! ## The view that checks -/

/-- The members from one index up to another. -/
def slice {α : Type} (first last : Nat) (xs : List α) : Option (List α) :=
  if first ≤ last ∧ last ≤ xs.length then some ((xs.drop first).take (last - first)) else none

theorem slice_reverse {α : Type} {n : Nat} {xs : List α} (h : n ≤ xs.length) :
    slice (xs.length - n) xs.length xs.reverse = some (xs.take n).reverse := by
  have hlength : (xs.take n).reverse.length = n := by
    rw [List.length_reverse, List.length_take_of_le h]
  rw [slice, if_pos ⟨Nat.sub_le _ _, Nat.le_of_eq List.length_reverse.symm⟩, List.drop_reverse,
    Nat.sub_sub_self h, List.take_of_length_le (Nat.le_of_eq hlength)]

theorem slice_zero {α : Type} {n : Nat} {xs : List α} (h : n ≤ xs.length) :
    slice 0 n xs = some (xs.take n) := by
  rw [slice, if_pos ⟨Nat.zero_le _, h⟩, List.drop_zero, Nat.sub_zero]

/-- How many characters a long line shows on either side, unless a difference is below zero; of
those after the cursor there may be fewer. -/
def shownChecked (width : Nat) : Option (Nat × Nat) := do
  let margin := width / 8
  let room ← Checked.sub width margin
  if c.before.length < room then
    let right ← Checked.sub width c.before.length
    some (c.before.length, right)
  else
    let right := min margin c.after.length
    let left ← Checked.sub width right
    let left ← Checked.sub left 1
    some (left, right)

/-- The view, unless a difference is below zero or a slice reaches beyond its list. -/
def viewChecked (width : Nat) : Option (List Char × Nat) :=
  if width = 0 then some ([], 0)
  else if c.before.length + c.after.length < width then some (c.text, c.before.length)
  else do
    let (left, right) ← c.shownChecked width
    let right := min right c.after.length
    let first ← Checked.sub c.before.length left
    let before ← slice first c.before.length c.before.reverse
    let after ← slice 0 right c.after
    some (before ++ after, left)

/-- The conditions of the earlier cases keep the differences of the later ones from going below
zero. -/
theorem shownChecked_eq (h : 0 < width) (hlong : ¬c.before.length + c.after.length < width) :
    ∃ right, c.shownChecked width = some ((c.shown width).1, right) ∧
      min right c.after.length = (c.shown width).2 := by
  unfold shownChecked shown
  dsimp only
  rw [if_neg hlong, Checked.sub_of_le (Nat.div_le_self width 8), Option.bind_eq_bind,
    Option.bind_some]
  by_cases hroom : c.before.length < width - width / 8
  · have hbefore : c.before.length ≤ width := by omega
    rw [if_pos hroom, if_pos hroom, Checked.sub_of_le hbefore]
    exact ⟨_, rfl, rfl⟩
  · have hmargin : min (width / 8) c.after.length ≤ width := by omega
    have hcursor : 1 ≤ width - min (width / 8) c.after.length := by omega
    rw [if_neg hroom, if_neg hroom, Checked.sub_of_le hmargin, Option.bind_some,
      Checked.sub_of_le hcursor]
    exact ⟨_, rfl, Nat.min_eq_left (Nat.min_le_right _ _)⟩

/-- No check fails. -/
theorem viewChecked_eq (h : 0 < width) : c.viewChecked width = some (c.view width) := by
  obtain ⟨hleft, hright⟩ := c.shown_le width
  rw [c.view_eq_around h, viewChecked, if_neg (by omega)]
  by_cases hwhole : c.before.length + c.after.length < width
  · rw [if_pos hwhole, c.shown_whole hwhole, around_length]
  · obtain ⟨right, hshown, hmin⟩ := c.shownChecked_eq h hwhole
    rw [if_neg hwhole, hshown]
    simp only [Option.bind_eq_bind, Option.bind_some]
    rw [hmin, Checked.sub_of_le hleft, Option.bind_some, slice_reverse hleft, Option.bind_some,
      slice_zero hright]
    rfl

/-! ## The window -/

/-- The text is a window on the line, some columns wide and with the cursor in a column of it. -/
structure IsWindow (width : Nat) (text : List Char) (col : Nat) : Prop where
  /-- There is a column for every character. -/
  fits : text.length ≤ width
  /-- There is a column for the cursor. -/
  col_lt : col < width
  /-- The cursor is at a character or right behind the last one. -/
  col_le : col ≤ text.length
  /-- The text is a slice of the line, and the cursor is where it is in the line. -/
  slice : ∃ before after, c.text = before ++ text ++ after ∧ before.length + col = c.cursor
  /-- A line that is shorter than the window is all in it. -/
  whole : c.text.length < width → text = c.text
  /-- A window of eight columns has the character after the cursor, if there is one. -/
  ahead : 8 ≤ width → c.cursor < c.text.length → col < text.length

/-- What is shown around the cursor is a window on the line. -/
theorem isWindow_around (h : 0 < width) :
    c.IsWindow width (c.around (c.shown width).1 (c.shown width).2) (c.shown width).1 := by
  obtain ⟨hleft, hright⟩ := c.shown_le width
  obtain ⟨hcol, hfits⟩ := c.shown_fits h
  have hlength := c.length_around hleft hright
  refine ⟨?_, hcol, ?_, ?_, ?_, ?_⟩
  · rw [hlength]
    exact hfits
  · rw [hlength]
    exact Nat.le_add_right _ _
  · refine ⟨_, _, c.text_eq_around _ _, ?_⟩
    rw [List.length_reverse, List.length_drop, cursor, Nat.sub_add_cancel hleft]
  · intro hshort
    rw [length_text] at hshort
    rw [c.shown_whole hshort, around_length]
  · intro hwidth hcursor
    rw [length_text, cursor] at hcursor
    rw [hlength]
    exact Nat.lt_add_of_pos_right (c.shown_ahead hwidth (by omega))

/-- **The view is a window on the line that has the cursor in it**, whatever the line and however
wide the window, and no difference goes below zero and no slice beyond its list on the way to it. -/
theorem view_window (h : 0 < width) :
    c.viewChecked width = some (c.view width) ∧
      c.IsWindow width (c.view width).1 (c.view width).2 := by
  refine ⟨c.viewChecked_eq h, ?_⟩
  rw [c.view_eq_around h]
  exact c.isWindow_around h

/-- A line of twenty characters with one of them after the cursor, in sixteen columns: the window
has gone with the cursor, and of the two characters that it keeps room for one is there. -/
theorem view_window_scrolled :
    let c : CommandLine := ⟨"0123456789abcdefghi".toList.reverse, ['j']⟩
    c.viewChecked 16 = some ("56789abcdefghij".toList, 14) ∧
      c.IsWindow 16 "56789abcdefghij".toList 14 := by
  intro c
  have hview : c.view 16 = ("56789abcdefghij".toList, 14) := by decide
  obtain ⟨hchecked, hwindow⟩ := view_window c (show 0 < 16 by decide)
  rw [hview] at hchecked hwindow
  exact ⟨hchecked, hwindow⟩

end CommandLine

end BoardConsole.Interface
