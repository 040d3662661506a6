/-!
# Blank characters, words and lines

The text formats of this library separate their tokens by blanks in the Unicode sense: the
property `White_Space`, which also holds of the no-break space, the line separators and the
fixed-width spaces.  Core's `Char.isWhitespace` knows four of its members, so the class is a
table here, and trimming, words and lines are list functions over it.

Everything works on `List Char`: a cut of a text is then `takeWhile`, `dropWhile` or a split,
and never an offset.
-/

namespace Shading.Text

/-- The Unicode property `White_Space`. -/
def isBlank (c : Char) : Bool :=
  let n := c.toNat
  (9 ≤ n && n ≤ 13) || n == 0x20 || n == 0x85 || n == 0xA0 || n == 0x1680
    || (0x2000 ≤ n && n ≤ 0x200A) || n == 0x2028 || n == 0x2029 || n == 0x202F || n == 0x205F
    || n == 0x3000

def trimStart (s : List Char) : List Char := s.dropWhile isBlank

def trimEnd (s : List Char) : List Char := (s.reverse.dropWhile isBlank).reverse

def trim (s : List Char) : List Char := trimEnd (trimStart s)

/-- The pieces of `s` between the characters that satisfy `p`; there is always at least one. -/
def pieces (p : Char → Bool) : List Char → List (List Char)
  | [] => [[]]
  | c :: s =>
    if p c then [] :: pieces p s
    else
      match pieces p s with
      | [] => [[c]]
      | w :: ws => (c :: w) :: ws

/-- The maximal runs of non-blank characters. -/
def words (s : List Char) : List (List Char) :=
  (pieces isBlank s).filter (fun w => !w.isEmpty)

/-- Removes one carriage return from the end. -/
def dropReturn (s : List Char) : List Char :=
  if s.getLast? = some '\r' then s.dropLast else s

/-- The lines of `s`.  A line ends at a line feed, which takes a carriage return before it along;
the text after the last line feed is a line only if it is not empty. -/
def lines (s : List Char) : List (List Char) :=
  let parts := pieces (· == '\n') s
  let ended := parts.dropLast.map dropReturn
  match parts.getLast? with
  | some [] => ended
  | some last => ended ++ [last]
  | none => ended

/-- The part of `s` before the first `c` and the part after it, if `c` occurs. -/
def splitOnce (c : Char) : List Char → Option (List Char × List Char)
  | [] => none
  | d :: s => if d = c then some ([], s) else (splitOnce c s).map fun (a, b) => (d :: a, b)

/-- Whether `w` occurs in `s` as a contiguous part. -/
def occursIn (w : List Char) : List Char → Bool
  | [] => w.isEmpty
  | c :: s => w.isPrefixOf (c :: s) || occursIn w s

/-- What follows `w` in `s`, if `s` starts with `w`. -/
def after? (w s : List Char) : Option (List Char) :=
  if w.isPrefixOf s then some (s.drop w.length) else none

/-- Lower case for the 26 basic Latin letters; every other character stays. -/
def lowerAscii (s : String) : String := s.map Char.toLower

end Shading.Text
