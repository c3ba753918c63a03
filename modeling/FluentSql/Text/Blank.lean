/-!
Blank characters: where text is trimmed and where words end. The set is wider than the ASCII
blanks: it holds the information separators, the no-break space and the other spaces of Unicode.
-/

namespace FluentSql.Text

def isBlank (c : Char) : Bool :=
  let n := c.toNat
  (9 ≤ n && n ≤ 13) || (28 ≤ n && n ≤ 32) || n == 0x85 || n == 0xa0 || n == 0x1680 ||
    (0x2000 ≤ n && n ≤ 0x200a) || n == 0x2028 || n == 0x2029 || n == 0x202f || n == 0x205f ||
    n == 0x3000

/-- The characters without the blanks at either end. -/
def trimChars (cs : List Char) : List Char :=
  ((cs.dropWhile isBlank).reverse.dropWhile isBlank).reverse

def trim (s : String) : String := String.ofList (trimChars s.toList)

/-- The maximal runs of characters that are not blank, in order. -/
def wordChars : List Char → List (List Char)
  | [] => []
  | c :: cs =>
    if isBlank c then wordChars cs
    else if cs.head?.all isBlank then [c] :: wordChars cs
    else match wordChars cs with
      | word :: words => (c :: word) :: words
      | [] => [[c]]

def words (s : String) : List String := (wordChars s.toList).map String.ofList

end FluentSql.Text
