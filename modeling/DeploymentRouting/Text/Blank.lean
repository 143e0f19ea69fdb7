/-!
White space, as the character property of that name: tab to carriage return, the
space, next line, the no-break space, and the spaces and separators of the
general punctuation and ideographic blocks. A zero-width space is not one.
-/
namespace DeploymentRouting.Text

/-- The white space beyond the space and the controls from tab to carriage return. -/
def wideBlanks : List Nat :=
  [0x85, 0xA0, 0x1680, 0x2000, 0x2001, 0x2002, 0x2003, 0x2004, 0x2005, 0x2006, 0x2007, 0x2008,
    0x2009, 0x200A, 0x2028, 0x2029, 0x202F, 0x205F, 0x3000]

def isBlank (c : Char) : Bool :=
  c == ' ' || (9 ≤ c.toNat && c.toNat ≤ 13) || wideBlanks.contains c.toNat

/-- Text holding nothing but white space; the empty text is blank. -/
def isBlankText (text : String) : Bool := text.toList.all isBlank

/-- The text between its first and its last character that are not white space. -/
def trim (text : String) : String :=
  String.ofList ((text.toList.dropWhile isBlank).reverse.dropWhile isBlank).reverse

/-- The text up to its last character that is not white space. -/
def trimEnd (text : String) : String :=
  String.ofList (text.toList.reverse.dropWhile isBlank).reverse

/-- Lower case for the letters A to Z; every other character stays as it is. -/
def lowerAscii (text : String) : String := String.ofList (text.toList.map Char.toLower)

/-- Text filled up with spaces on its right to a count of characters. -/
def padRight (text : String) (width : Nat) : String :=
  text ++ String.ofList (List.replicate (width - text.length) ' ')

end DeploymentRouting.Text
