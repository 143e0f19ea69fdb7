import DeploymentRouting.Document.Basic
import DeploymentRouting.Yaml.Characters
/-!
YAML text as a list of tokens. Indentation shows in the tokens: a deeper column
starts a block, and a lesser one ends it. That a scalar or a bracket was the start
of a key shows only at the colon after it, so its place is kept in mind until then,
and the tokens that say so are put in before it. Keys without a question mark are
on one line and not longer than 1024 characters.

Anchors, aliases, tags, directives and block scalars are not read.
-/
namespace DeploymentRouting.Yaml

inductive Token where
  | documentStart
  | documentEnd
  | sequenceStart
  | mappingStart
  | blockEnd
  | bracketOpen
  | bracketClose
  | braceOpen
  | braceClose
  | entry
  | comma
  | key
  | value
  | scalar (scalar : Scalar)

/-- A place at which a key may have begun. -/
structure KeyMark where
  /-- Whether nothing but a key may begin there. -/
  required : Bool
  /-- The number of tokens before it. -/
  position : Nat
  line : Nat
  column : Nat

/-- A text that is read up to some place. -/
structure Lexing where
  cursor : Cursor
  /-- The tokens so far, the last one first. -/
  tokens : List Token := []
  /-- Columns of the open blocks, the innermost one first. -/
  columns : List Nat := []
  /-- The place of a possible key outside of all brackets. -/
  blockMark : Option KeyMark := none
  /-- The places of possible keys inside of the open brackets, the innermost one first. -/
  flowMarks : List (Option KeyMark) := []
  /-- Whether a key may begin at the next token. -/
  keyAllowed : Bool := true

namespace Lexing

/-- Whether a bracket is open. -/
def inFlow (lexing : Lexing) : Bool := !lexing.flowMarks.isEmpty

def mark (lexing : Lexing) : Option KeyMark :=
  match lexing.flowMarks with
  | [] => lexing.blockMark
  | mark :: _ => mark

def setMark (lexing : Lexing) (mark : Option KeyMark) : Lexing :=
  match lexing.flowMarks with
  | [] => { lexing with blockMark := mark }
  | _ :: rest => { lexing with flowMarks := mark :: rest }

def push (lexing : Lexing) (token : Token) : Lexing :=
  { lexing with tokens := token :: lexing.tokens }

/-- Puts a token after the first `position` ones. -/
def insert (lexing : Lexing) (position : Nat) (token : Token) : Lexing :=
  let later := lexing.tokens.length - position
  { lexing with tokens := lexing.tokens.take later ++ token :: lexing.tokens.drop later }

def skip (lexing : Lexing) (count : Nat) : Lexing :=
  { lexing with cursor := lexing.cursor.skip count }

/-- Gives up a possible key. One that is required cannot be given up. -/
def dropMark (lexing : Lexing) : Option Lexing :=
  if lexing.mark.any (·.required) then none else some (lexing.setMark none)

/-- Keeps the present place in mind, if a key may begin there. -/
def saveMark (lexing : Lexing) : Option Lexing :=
  if lexing.keyAllowed then do
    let column := lexing.cursor.column
    let required := !lexing.inFlow && lexing.columns.head? == some column
    let lexing ← lexing.dropMark
    return lexing.setMark
      (some { required, position := lexing.tokens.length, line := lexing.cursor.line, column })
  else some lexing

/-- Forgets the keys that can no longer be any, since the line has ended or is too long. -/
def dropStaleMarks (lexing : Lexing) : Option Lexing :=
  let stale (mark : KeyMark) : Bool :=
    mark.line != lexing.cursor.line || mark.column + 1024 < lexing.cursor.column
  let keep (mark : Option KeyMark) : Option KeyMark := mark.filter (!stale ·)
  if (lexing.blockMark :: lexing.flowMarks).any (·.any fun mark => stale mark && mark.required) then
    none
  else
    some { lexing with
      blockMark := keep lexing.blockMark
      flowMarks := lexing.flowMarks.map keep }

/-- Whether the innermost block begins to the left of a column. -/
def isDeeper (lexing : Lexing) (column : Nat) : Bool := lexing.columns.head?.all (· < column)

/-- Opens a block at a column, if it is deeper than those that are open. -/
def openBlock (lexing : Lexing) (column position : Nat) (token : Token) : Lexing :=
  if !lexing.inFlow && lexing.isDeeper column then
    { lexing with columns := column :: lexing.columns }.insert position token
  else lexing

/-- Closes the blocks that a test calls for, from the innermost one on. -/
def closeBlocks (isPast : Nat → Bool) (lexing : Lexing) : Lexing :=
  if lexing.inFlow then lexing
  else
    let closed := lexing.columns.takeWhile isPast
    { lexing with
      columns := lexing.columns.dropWhile isPast
      tokens := closed.map (fun _ => Token.blockEnd) ++ lexing.tokens }

/-- Closes all blocks, as the end of a document does. -/
def closeAll (lexing : Lexing) : Option Lexing := do
  let lexing ← (lexing.closeBlocks fun _ => true).dropMark
  return { lexing with keyAllowed := false }

/-- Reads on to the next token, over blanks, comments and line breaks. A tab is no blank where a
key may begin. -/
def skipGaps (flow keyAllowed : Bool) (line column : Nat) : List Char → Bool × Cursor
  | [] => (keyAllowed, ⟨[], line, column⟩)
  | c :: rest =>
      if c == ' ' || (c == '\t' && (flow || !keyAllowed)) then
        skipGaps flow keyAllowed line (column + 1) rest
      else if isBreak c then skipGaps flow (keyAllowed || !flow) (line + 1) 0 rest
      else if c == '#' then
        let comment := rest.takeWhile (!isBreak ·)
        skipGaps flow keyAllowed line (column + 1 + comment.length) (rest.drop comment.length)
      else (keyAllowed, ⟨c :: rest, line, column⟩)
termination_by text => text.length
decreasing_by all_goals simp; try omega

def toNextToken (lexing : Lexing) : Option Lexing := do
  let cursor := lexing.cursor
  let (keyAllowed, cursor) :=
    skipGaps lexing.inFlow lexing.keyAllowed cursor.line cursor.column cursor.rest
  let lexing ← { lexing with cursor, keyAllowed }.dropStaleMarks
  return lexing.closeBlocks (cursor.column < ·)

/-- An opening bracket, which may begin a key. -/
def openBracket (token : Token) (lexing : Lexing) : Option Lexing := do
  let lexing ← lexing.saveMark
  let lexing := { lexing with flowMarks := none :: lexing.flowMarks, keyAllowed := true }
  return lexing.push token |>.skip 1

def closeBracket (token : Token) (lexing : Lexing) : Option Lexing := do
  let lexing ← lexing.dropMark
  let lexing := { lexing with flowMarks := lexing.flowMarks.drop 1, keyAllowed := false }
  return lexing.push token |>.skip 1

def comma (lexing : Lexing) : Option Lexing := do
  let lexing ← lexing.dropMark
  return { lexing with keyAllowed := true }.push .comma |>.skip 1

/-- Opens a block for an item or a key that says so by its mark. -/
def openMarked (token : Token) (lexing : Lexing) : Option Lexing :=
  if lexing.inFlow then some lexing
  else if lexing.keyAllowed then
    some (lexing.openBlock lexing.cursor.column lexing.tokens.length token)
  else none

/-- The mark of an item of a sequence. -/
def entry (lexing : Lexing) : Option Lexing := do
  let lexing ← (← lexing.openMarked .sequenceStart).dropMark
  return { lexing with keyAllowed := true }.push .entry |>.skip 1

/-- The mark of a key that may be of any form. -/
def explicitKey (lexing : Lexing) : Option Lexing := do
  let lexing ← (← lexing.openMarked .mappingStart).dropMark
  return { lexing with keyAllowed := !lexing.inFlow }.push .key |>.skip 1

/-- A colon. If a key may have begun before, it has. -/
def value (lexing : Lexing) : Option Lexing :=
  match lexing.mark with
  | some mark =>
      let lexing := lexing.insert mark.position .key
      let lexing := lexing.openBlock mark.column mark.position .mappingStart
      some ({ lexing.setMark none with keyAllowed := false }.push .value |>.skip 1)
  | none => do
      let lexing ← lexing.openMarked .mappingStart
      return { lexing with keyAllowed := !lexing.inFlow }.push .value |>.skip 1

def documentMark (mark : Char) (lexing : Lexing) : Option Lexing := do
  let lexing ← lexing.closeAll
  return lexing.push (if mark == '-' then .documentStart else .documentEnd) |>.skip 3

def quoted (quote : Char) (lexing : Lexing) : Option Lexing := do
  let lexing ← lexing.saveMark
  let (text, cursor) ← quotedScalar? quote lexing.cursor.rest.length [] (lexing.cursor.skip 1)
  return { lexing with cursor, keyAllowed := false }.push
    (.scalar (.text (String.ofList text.reverse)))

def plain (lexing : Lexing) : Option Lexing := do
  let lexing ← lexing.saveMark
  let indent := lexing.columns.head?.elim 0 (· + 1)
  let (text, crossed, cursor) ←
    plainScalar? lexing.inFlow indent (lexing.cursor.rest.length + 1) [] {} lexing.cursor
  return { lexing with cursor, keyAllowed := crossed }.push (.scalar (.plain (String.ofList text)))

/-- Characters that cannot begin a plain scalar. -/
def isIndicator (c : Char) : Bool :=
  ['-', '?', ':', ',', '[', ']', '\x7b', '\x7d', '#', '&', '*', '!', '|', '>', '\'', '"', '%', '@',
    '\x60'].contains c

/-- Whether a plain scalar begins with a character that has that text after it. -/
def beginsPlain (flow : Bool) (c : Char) (rest : List Char) : Bool :=
  (!isIndicator c && !isGap c) || (c == '-' && !rest.head?.any isGap)
    || (!flow && (c == '?' || c == ':') && !endsWord rest)

/-- The token that begins with a character. -/
def token (c : Char) (rest : List Char) (lexing : Lexing) : Option Lexing :=
  match lexing.cursor.documentMark?, c with
  | some mark, _ => lexing.documentMark mark
  | none, '[' => lexing.openBracket .bracketOpen
  | none, '\x7b' => lexing.openBracket .braceOpen
  | none, ']' => lexing.closeBracket .bracketClose
  | none, '\x7d' => lexing.closeBracket .braceClose
  | none, ',' => lexing.comma
  | none, '\'' => lexing.quoted '\''
  | none, '"' => lexing.quoted '"'
  | none, c =>
      if c == '-' && endsWord rest then lexing.entry
      else if c == '?' && (lexing.inFlow || endsWord rest) then lexing.explicitKey
      else if c == ':' && (lexing.inFlow || endsWord rest) then lexing.value
      else if beginsPlain lexing.inFlow c rest then lexing.plain
      else none

/-- The rest of the tokens. Every one takes a character at least. -/
def run : Nat → Lexing → Option (List Token)
  | 0, _ => none
  | fuel + 1, lexing => do
      let lexing ← lexing.toNextToken
      match lexing.cursor.rest with
      | [] => return (← lexing.closeAll).tokens.reverse
      | c :: rest => run fuel (← lexing.token c rest)

end Lexing

/-- The tokens of a text, if it can be cut into tokens. -/
def tokens? (text : String) : Option (List Token) := do
  let characters ← characters? text
  Lexing.run (characters.length + 1) { cursor := { rest := characters } }

end DeploymentRouting.Yaml
