/-!
# Blank characters

Linter output and payload text are trimmed of blank characters before they are looked at, and
numbers written as text of white space. `isSpace` is the Unicode notion of white space; `isBlank`
adds the four information separators U+001C to U+001F.
-/
namespace LintRun.Text

/-- The white space of Unicode. -/
def isSpace (c : Char) : Bool :=
  let n := c.toNat
  (0x09 ≤ n && n ≤ 0x0D) || n == 0x20 || n == 0x85 || n == 0xA0 || n == 0x1680
    || (0x2000 ≤ n && n ≤ 0x200A) || n == 0x2028 || n == 0x2029 || n == 0x202F || n == 0x205F
    || n == 0x3000

/-- White space, or one of the four information separators. -/
def isBlank (c : Char) : Bool := isSpace c || (0x1C ≤ c.toNat && c.toNat ≤ 0x1F)

/-- The characters left when those of a class are taken off both ends. -/
def trimChars (drops : Char → Bool) (cs : List Char) : List Char :=
  ((cs.dropWhile drops).reverse.dropWhile drops).reverse

/-- A text without the blanks at its two ends. -/
def trim (s : String) : String := String.ofList (trimChars isBlank s.toList)

def isBlankText (s : String) : Bool := s.toList.all isBlank

example : trim "\u2003 [] \x1f\u00a0" = "[]" := by decide +kernel
example : isBlankText "\u0085\n" = true := by decide +kernel
example : isBlank '\ufeff' = false := by decide +kernel

end LintRun.Text
