import DeploymentRouting.Text.Digits
/-!
The characters of YAML text and the scalars among them. Scalars may go over several
lines: the blanks around a line break are dropped, a single break becomes a space,
and of several breaks the first one is dropped.
-/
namespace DeploymentRouting.Yaml

/-- Line breaks, once the text is normalized. -/
def isBreak (c : Char) : Bool := c == '\n' || c.toNat == 0x2028 || c.toNat == 0x2029

def isGap (c : Char) : Bool := c == ' ' || c == '\t'

/-- Whether a text is at its end or goes on with a blank or a break. -/
def endsWord : List Char → Bool
  | [] => true
  | c :: _ => isGap c || isBreak c

/-- Characters that may stand in a document. -/
def isPrintable (c : Char) : Bool :=
  c == '\t' || c == '\n' || c == '\r' || (0x20 ≤ c.toNat && c.toNat ≤ 0x7E) || c.toNat == 0x85
    || (0xA0 ≤ c.toNat && c.toNat ≤ 0xFFFD && c.toNat != 0xFEFF) || 0x10000 ≤ c.toNat

/-- Writes the line breaks of other systems as line feeds. -/
def normalizeBreaks : List Char → List Char
  | '\r' :: '\n' :: rest => '\n' :: normalizeBreaks rest
  | c :: rest => (if c == '\r' || c.toNat == 0x85 then '\n' else c) :: normalizeBreaks rest
  | [] => []

/-- The characters of a text, without a byte order mark at its beginning. A character that may not
stand in a document makes the whole text unreadable. -/
def characters? (text : String) : Option (List Char) :=
  let characters := match text.toList with
    | '\uFEFF' :: rest => rest
    | characters => characters
  if characters.all isPrintable then some (normalizeBreaks characters) else none

/-- A place in a text: what is still to be read, and where it is. -/
structure Cursor where
  rest : List Char
  line : Nat := 0
  column : Nat := 0

namespace Cursor

/-- Goes on by some characters of the same line. -/
def skip (cursor : Cursor) (count : Nat) : Cursor :=
  { cursor with rest := cursor.rest.drop count, column := cursor.column + count }

/-- The document mark at the beginning of a line, if there is one. -/
def documentMark? (cursor : Cursor) : Option Char :=
  if cursor.column = 0 then
    match cursor.rest with
    | '-' :: '-' :: '-' :: rest => if endsWord rest then some '-' else none
    | '.' :: '.' :: '.' :: rest => if endsWord rest then some '.' else none
    | _ => none
  else none

end Cursor

/-- The blanks and line breaks between two words of a scalar. -/
structure Gap where
  /-- Blanks before the first break, the last one first. -/
  blanks : List Char := []
  /-- Whether there is a break, or an escape in its place. -/
  crossed : Bool := false
  first : Option Char := none
  /-- Breaks after the first, the last one first. -/
  others : List Char := []

namespace Gap

def addBlank (gap : Gap) (c : Char) : Gap :=
  if gap.crossed then gap else { gap with blanks := c :: gap.blanks }

def addBreak (gap : Gap) (c : Char) : Gap :=
  if gap.crossed then { gap with others := c :: gap.others }
  else { gap with crossed := true, first := some c }

/-- What a gap contributes to the scalar. -/
def text (gap : Gap) : List Char :=
  if !gap.crossed then gap.blanks.reverse
  else match gap.first with
    | some '\n' => if gap.others.isEmpty then [' '] else gap.others.reverse
    | some c => c :: gap.others.reverse
    | none => gap.others.reverse

/-- Reads on to the next character that is neither blank nor break. A tab to the left of the
indentation is refused. -/
def read (indent : Nat) (gap : Gap) (line column : Nat) : List Char → Option (Gap × Cursor)
  | [] => some (gap, ⟨[], line, column⟩)
  | c :: rest =>
      if isGap c then
        if gap.crossed && c == '\t' && column < indent then none
        else read indent (gap.addBlank c) line (column + 1) rest
      else if isBreak c then read indent (gap.addBreak c) (line + 1) 0 rest
      else some (gap, ⟨c :: rest, line, column⟩)

def readFrom (indent : Nat) (gap : Gap) (cursor : Cursor) : Option (Gap × Cursor) :=
  gap.read indent cursor.line cursor.column cursor.rest

end Gap

/-- Characters that end a plain scalar inside of brackets. -/
def isFlowMark (c : Char) : Bool := [',', '[', ']', '\x7b', '\x7d'].contains c

/-- The characters of a plain scalar up to the next blank or to its end. Inside of brackets a
colon right before a bracket or a comma is refused. -/
def plainWord (flow : Bool) : List Char → Option (List Char)
  | [] => some []
  | c :: rest =>
      if endsWord (c :: rest) then some []
      else if flow && c == ':' && rest.head?.any (fun c => isFlowMark c || c == '?') then none
      else if (c == ':' && endsWord rest) || (flow && isFlowMark c) then some []
      else (plainWord flow rest).map (c :: ·)

/-- A plain scalar: its text, the place after it and the gap that follows it, and whether that
gap goes over a line break. Outside of brackets it ends where a line is indented too little. -/
def plainScalar? (flow : Bool) (indent : Nat) :
    Nat → List Char → Gap → Cursor → Option (List Char × Bool × Cursor)
  | 0, _, _, _ => none
  | fuel + 1, done, gap, cursor =>
      if cursor.documentMark?.isSome || cursor.rest.head? == some '#' then
        some (done, gap.crossed, cursor)
      else do
        let word ← plainWord flow cursor.rest
        let (done, gap) := if word.isEmpty then (done, gap) else (done ++ gap.text ++ word, {})
        let cursor := cursor.skip word.length
        if cursor.rest.isEmpty || !endsWord cursor.rest then some (done, gap.crossed, cursor)
        else
          let (gap, cursor) ← gap.readFrom indent cursor
          if !flow && cursor.column < indent then some (done, gap.crossed, cursor)
          else plainScalar? flow indent fuel done gap cursor

/-- The character of a number that is one. -/
def character? (code : Nat) : Option Char :=
  if h : code.isValidChar then some (Char.ofNatAux code h) else none

/-- The characters that one letter after a backslash stands for. -/
def escapes : List (Char × Nat) :=
  [('0', 0x0), ('a', 0x7), ('b', 0x8), ('t', 0x9), ('\t', 0x9), ('n', 0xA), ('v', 0xB), ('f', 0xC),
    ('r', 0xD), ('e', 0x1B), (' ', 0x20), ('"', 0x22), ('/', 0x2F), ('\\', 0x5C), ('N', 0x85),
    ('_', 0xA0), ('L', 0x2028), ('P', 0x2029)]

/-- The number of hexadecimal digits after a letter that starts a numbered escape. -/
def escapeWidth : List (Char × Nat) := [('x', 2), ('u', 4), ('U', 8)]

/-- The character of an escape, and the number of characters after the backslash. -/
def escape? : List Char → Option (Char × Nat)
  | [] => none
  | letter :: rest =>
      match escapeWidth.lookup letter with
      | some width => do
          let digits := rest.take width
          if digits.length < width then failure
          return ((← character? (← Text.digits? 16 digits)), width + 1)
      | none => do return ((← character? (← escapes.lookup letter)), 1)

/-- A quoted scalar after its opening quote: its text, the last character first, and the place
after its closing quote. -/
def quotedScalar? (quote : Char) : Nat → List Char → Cursor → Option (List Char × Cursor)
  | 0, _, _ => none
  | fuel + 1, done, cursor =>
      if cursor.documentMark?.isSome then none
      else match cursor.rest with
        | [] => none
        | c :: rest =>
            if c == quote then
              if quote == '\'' && rest.head? == some quote then
                quotedScalar? quote fuel (quote :: done) (cursor.skip 2)
              else some (done, cursor.skip 1)
            else if isGap c || isBreak c then do
              let (gap, cursor) ← Gap.readFrom 0 {} cursor
              quotedScalar? quote fuel (gap.text.reverse ++ done) cursor
            else if c == '\\' && quote == '"' then
              if rest.head?.any isBreak then do
                let (gap, cursor) ← Gap.readFrom 0 { crossed := true }
                  { rest := rest.drop 1, line := cursor.line + 1, column := 0 }
                quotedScalar? quote fuel (gap.text.reverse ++ done) cursor
              else do
                let (character, count) ← escape? rest
                quotedScalar? quote fuel (character :: done) (cursor.skip (count + 1))
            else quotedScalar? quote fuel (c :: done) (cursor.skip 1)

end DeploymentRouting.Yaml
