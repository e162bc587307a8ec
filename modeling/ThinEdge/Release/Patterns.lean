import Mathlib.Data.Nat.Notation

/-!
# Texts of the release scripts

The regular expressions and text functions of `scripts/release/matrix.py`: which texts they match,
and what they capture. What Python's own tables say about a character is `PyText`.
-/

namespace ThinEdge.Release

/-- Python's `str`: the tables of characters that the script depends on. -/
structure PyText where
  /-- `\w`. -/
  isWord : Char → Bool
  /-- `\s`, and what `str.strip` takes away. -/
  isSpace : Char → Bool
  /-- `str.lower`. -/
  lower : List Char → List Char
  /-- `repr`. -/
  repr : String → String

/-- The tables for texts in ASCII without quotes and control characters. -/
def PyText.ascii : PyText where
  isWord c := c.isAlphanum || c == '_'
  isSpace c := c.isWhitespace
  lower s := s.map Char.toLower
  repr s := "'" ++ s ++ "'"

/-- What is left for the pattern in front of a `$`, which also matches before a line feed that ends
the text. -/
def beforeDollar (s : List Char) : List Char :=
  if s.getLast? = some '\n' then s.dropLast else s

/-- `ID_RE`. -/
def idRe (s : String) : Bool :=
  ((beforeDollar s.toList).splitOn '-').all fun word ↦
    !word.isEmpty && word.all fun c ↦ c.isLower || c.isDigit

/-- `FLASH_RE`. -/
def flashRe (s : String) : Bool :=
  ["1MB", "2MB", "4MB", "8MB", "16MB", "32MB"].contains (String.ofList (beforeDollar s.toList))

/-- `PROJECT_REF`: the project, and the path in it. -/
def projectRef (py : PyText) (rel : String) : Option (String × String) :=
  match rel.toList with
  | '\x7b' :: cs =>
    let name := cs.takeWhile fun c ↦ py.isWord c || c == '.' || c == '-'
    match cs.drop name.length with
    | '\x7d' :: '/' :: rest =>
      let path := beforeDollar rest
      if name ≠ [] ∧ path ≠ [] ∧ '\n' ∉ path then some (String.ofList name, String.ofList path)
      else none
    | _ => none
  | _ => none

/-- `board_dir_name`. -/
def boardDirName (board : String) : String :=
  String.ofList (board.toList.map fun c ↦ if c = '/' then '_' else c)

/-- `str.strip`. -/
def strip (py : PyText) (s : List Char) : List Char :=
  ((s.dropWhile py.isSpace).reverse.dropWhile py.isSpace).reverse

/-- `slug`. -/
def slug (py : PyText) (heading : List Char) : String :=
  let kept := (py.lower (strip py heading)).filter fun c ↦ py.isWord c || c == '-' || c == ' '
  String.ofList (kept.map fun c ↦ if c = ' ' then '-' else c)

/-- A heading of `anchors` at the start of a line: its text, and the length of the match. The white
space behind the marks may take the match to a later line. -/
def headingAt (py : PyText) (cs : List Char) : Option (List Char × ℕ) :=
  let marks := (cs.takeWhile (· == '#')).length
  let space := ((cs.drop marks).takeWhile py.isSpace).length
  let text := (cs.drop (marks + space)).takeWhile (· != '\n')
  if 1 ≤ marks ∧ marks ≤ 6 ∧ 1 ≤ space then some (text, marks + space + text.length) else none

/-- The headings of a text. The search knows whether it is at the start of a line, and goes on
behind a match. -/
def headings (py : PyText) (lineStart : Bool) : ℕ → List Char → List (List Char)
  | _, [] => []
  | skip + 1, c :: cs => headings py (c == '\n') skip cs
  | 0, c :: cs =>
    match if lineStart then headingAt py (c :: cs) else none with
    | some (text, length) => text :: headings py (c == '\n') (length - 1) cs
    | none => headings py (c == '\n') 0 cs

/-- `anchors`, of a text. -/
def anchors (py : PyText) (text : String) : List String :=
  (headings py true 0 text.toList).map (slug py)

/-- What stands before the name of a board in `sysbuild/provisioning.cmake`. -/
def boardTest : List Char := "_board STREQUAL \x22".toList

/-- A board at this place: its name. -/
def boardAt (cs : List Char) : Option (List Char) :=
  let name := (cs.drop boardTest.length).takeWhile (· != '\x22')
  let rest := cs.drop (boardTest.length + name.length)
  if boardTest.isPrefixOf cs ∧ name ≠ [] ∧ rest.head? = some '\x22' then some name else none

/-- The boards with a provisioner layout. The search goes on behind a match. -/
def layoutBoards : ℕ → List Char → List String
  | _, [] => []
  | skip + 1, _ :: cs => layoutBoards skip cs
  | 0, c :: cs =>
    match boardAt (c :: cs) with
    | some name => String.ofList name :: layoutBoards (boardTest.length + name.length) cs
    | none => layoutBoards 0 cs

/-- `str.partition("#")`, without the separator. -/
def partitionAnchor (measured : String) : String × String :=
  let doc := measured.toList.takeWhile (· != '#')
  (String.ofList doc, String.ofList (measured.toList.drop (doc.length + 1)))

end ThinEdge.Release
