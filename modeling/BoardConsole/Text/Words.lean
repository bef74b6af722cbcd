/-!
# Splitting a line into words

Words are separated by spaces, tabs and line ends.  Apostrophes hold text literally, double
quotation marks let a backslash escape a few characters, and outside both a backslash escapes the
character after it; pieces that touch form one word.  A word that would begin with a number sign
begins a comment instead, up to the end of the line.
-/

namespace BoardConsole.Text

/-- Where the splitter stands between two characters. -/
inductive Splitter
  /-- Between words. -/
  | outside
  /-- In a comment. -/
  | comment
  /-- In a word, outside quotation marks. -/
  | plain
  /-- Between apostrophes. -/
  | single
  /-- Between double quotation marks. -/
  | double
  /-- After a backslash that would start a word. -/
  | outsideEscape
  /-- After a backslash in a word. -/
  | plainEscape
  /-- After a backslash between double quotation marks. -/
  | doubleEscape
  deriving DecidableEq, Repr

/-- Whether a character separates words. -/
def isSeparator (c : Char) : Bool := c = ' ' || c = '\t' || c = '\n'

/-- Whether a backslash between double quotation marks escapes a character. -/
def isEscapable (c : Char) : Bool := c = '$' || c = '\x60' || c = '\x22' || c = '\\'

/-- How the splitter goes on after a character that is part of no word: the new state. -/
def Splitter.enter (c : Char) : Splitter :=
  if c = '\x27' then .single else if c = '\x22' then .double else .plain

/-- The words of a text, given the state, the word begun so far and the words before it, both
latest first.  `none` when a quotation mark is left open. -/
def splitFrom : Splitter → List Char → List (List Char) → List Char → Option (List (List Char))
  | .outside, _, words, [] => some words.reverse
  | .comment, _, words, [] => some words.reverse
  | .plain, word, words, [] => some (word.reverse :: words).reverse
  | .outsideEscape, word, words, [] => some (('\\' :: word).reverse :: words).reverse
  | .plainEscape, word, words, [] => some (('\\' :: word).reverse :: words).reverse
  | .single, _, _, [] => none
  | .double, _, _, [] => none
  | .doubleEscape, _, _, [] => none
  | .outside, word, words, c :: cs =>
    if isSeparator c then splitFrom .outside word words cs
    else if c = '#' then splitFrom .comment word words cs
    else if c = '\\' then splitFrom .outsideEscape word words cs
    else if c = '\x27' || c = '\x22' then splitFrom (.enter c) word words cs
    else splitFrom .plain (c :: word) words cs
  | .comment, word, words, c :: cs =>
    if c = '\n' then splitFrom .outside word words cs else splitFrom .comment word words cs
  | .plain, word, words, c :: cs =>
    if isSeparator c then splitFrom .outside [] (word.reverse :: words) cs
    else if c = '\\' then splitFrom .plainEscape word words cs
    else if c = '\x27' || c = '\x22' then splitFrom (.enter c) word words cs
    else splitFrom .plain (c :: word) words cs
  | .single, word, words, c :: cs =>
    if c = '\x27' then splitFrom .plain word words cs else splitFrom .single (c :: word) words cs
  | .double, word, words, c :: cs =>
    if c = '\x22' then splitFrom .plain word words cs
    else if c = '\\' then splitFrom .doubleEscape word words cs
    else splitFrom .double (c :: word) words cs
  | .outsideEscape, word, words, c :: cs =>
    if c = '\n' then splitFrom .outside word words cs else splitFrom .plain (c :: word) words cs
  | .plainEscape, word, words, c :: cs =>
    if c = '\n' then splitFrom .plain word words cs else splitFrom .plain (c :: word) words cs
  | .doubleEscape, word, words, c :: cs =>
    if c = '\n' then splitFrom .double word words cs
    else if isEscapable c then splitFrom .double (c :: word) words cs
    else splitFrom .double (c :: '\\' :: word) words cs

/-- The words of a line; `none` when a quotation mark is left open. -/
def splitWords (line : List Char) : Option (List (List Char)) := splitFrom .outside [] [] line

end BoardConsole.Text
