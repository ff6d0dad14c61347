/-!
# White space and lines

The characters with the Unicode property `White_Space`, and the ways of cutting text at them and at
line ends.
-/
namespace CrashDump.Text

/-- The characters that have the property `White_Space`. -/
def isBlank (c : Char) : Bool :=
  let n := c.toNat
  (0x9 ≤ n && n ≤ 0xd) || n == 0x20 || n == 0x85 || n == 0xa0 || n == 0x1680 ||
    (0x2000 ≤ n && n ≤ 0x200a) || n == 0x2028 || n == 0x2029 || n == 0x202f || n == 0x205f ||
    n == 0x3000

def dropEndWhile (p : Char → Bool) (text : List Char) : List Char :=
  (text.reverse.dropWhile p).reverse

/-- Text without the blanks around it. -/
def trim (text : List Char) : List Char := dropEndWhile isBlank (text.dropWhile isBlank)

/-- The pieces between blanks, none of them empty. -/
def words (text : List Char) : List (List Char) :=
  (text.splitOnP isBlank).filter fun piece => !piece.isEmpty

/-- A line ended by a line feed loses the one carriage return before it. -/
def dropCarriage (line : List Char) : List Char :=
  if line.getLast? = some '\r' then line.dropLast else line

/-- Every piece but the last was ended by a line feed; nothing after the last one is no line. -/
def endLines : List (List Char) → List (List Char)
  | [] => []
  | [last] => if last.isEmpty then [] else [last]
  | line :: rest => dropCarriage line :: endLines rest

def lines (text : List Char) : List (List Char) := endLines (text.splitOn '\n')

/-- Drops `skip` characters, then takes out each occurrence of the phrase, from the left. -/
def withoutFrom (phrase : List Char) : Nat → List Char → List Char
  | _, [] => []
  | skip + 1, _ :: rest => withoutFrom phrase skip rest
  | 0, c :: rest =>
    if phrase.isPrefixOf (c :: rest) then withoutFrom phrase (phrase.length - 1) rest
    else c :: withoutFrom phrase 0 rest

def without (phrase text : List Char) : List Char := withoutFrom phrase 0 text

end CrashDump.Text
