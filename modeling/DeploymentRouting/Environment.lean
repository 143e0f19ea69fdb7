import DeploymentRouting.Table
import DeploymentRouting.Text.Blank
/-!
The environment of a program: texts by name. A file of assignments can add to it; a
name that is there already keeps its text.

An assignment usually takes one line of its file, and more if a quote is open at the
end of a line. Its value may refer to names of the environment, those included that
the lines before it have added. The first assignment that cannot be read ends the
reading of the file, and what came before it stays.
-/
namespace DeploymentRouting

abbrev Environment := Table String

namespace Environment

/-- Where the reading of a value is. -/
inductive ValuePhase where
  | bare
  | single
  | double
  /-- After a backslash, in double quotes or outside of quotes. -/
  | escape (quoted : Bool)
  /-- In a reference to a name, whose characters are listed from the last one on. -/
  | reference (quoted : Bool) (name : List Char)
  /-- In a reference with braces around its name. -/
  | braced (quoted : Bool) (name : List Char)
  /-- After the value. Only blanks and a comment may follow. -/
  | done

/-- Where the reading goes on after an escape or a reference. -/
def ValuePhase.around (quoted : Bool) : ValuePhase := if quoted then .double else .bare

/-- The character that a backslash and the one after it stand for. -/
def escaped? : Char → Option Char
  | 'n' => some '\n'
  | c => if ['\\', '\'', '"', '$', ' '].contains c then some c else none

/-- The text of a name that is listed from its last character on, empty if it has none. -/
def refer (environment : Environment) (name : List Char) : List Char :=
  ((environment.get? (String.ofList name.reverse)).getD "").toList

/-- The text of a value, which ends at the first blank outside of quotes. Single quotes keep all
that is between them. Elsewhere a backslash escapes the next character, and a dollar sign refers to
a name. The character that ends a reference without braces is taken as it stands, even if it is a
quote. -/
def readValue (environment : Environment) : ValuePhase → List Char → Option (List Char)
  | .bare, [] | .done, [] | .escape false, [] => some []
  | .reference false name, [] => some (environment.refer name)
  | _, [] => none
  | .done, c :: rest =>
      if c == ' ' || c == '\t' then environment.readValue .done rest
      else if c == '#' then some []
      else none
  | .escape quoted, c :: rest => do
      return (← escaped? c) :: (← environment.readValue (.around quoted) rest)
  | .single, c :: rest =>
      if c == '\'' then environment.readValue .bare rest
      else (environment.readValue .single rest).map (c :: ·)
  | .reference quoted name, c :: rest =>
      if c.isAlphanum then environment.readValue (.reference quoted (c :: name)) rest
      else if c == '\x7b' && name.isEmpty then environment.readValue (.braced quoted []) rest
      else
        let value := environment.refer name
        if c == '$' then (environment.readValue (.reference quoted []) rest).map (value ++ ·)
        else (environment.readValue (.around quoted) rest).map (value ++ c :: ·)
  | .braced quoted name, c :: rest =>
      if c == '\x7d' then
        (environment.readValue (.around quoted) rest).map (environment.refer name ++ ·)
      else environment.readValue (.braced quoted (c :: name)) rest
  | .double, c :: rest =>
      if c == '$' then environment.readValue (.reference true []) rest
      else if c == '"' then environment.readValue .bare rest
      else if c == '\\' then environment.readValue (.escape true) rest
      else (environment.readValue .double rest).map (c :: ·)
  | .bare, c :: rest =>
      if c == '$' then environment.readValue (.reference false []) rest
      else if c == '\'' then environment.readValue .single rest
      else if c == '"' then environment.readValue .double rest
      else if c == '\\' then environment.readValue (.escape false) rest
      else if c == ' ' || c == '\t' then environment.readValue .done rest
      else (environment.readValue .bare rest).map (c :: ·)

def isNameStart (c : Char) : Bool := c.isAlpha || c == '_'

def isNamePart (c : Char) : Bool := c.isAlphanum || c == '_' || c == '.'

/-- A name, and what follows it beyond blanks. -/
def readName (text : List Char) : Option (List Char × List Char) :=
  if text.head?.any isNameStart then
    some (text.takeWhile isNamePart, (text.dropWhile isNamePart).dropWhile Text.isBlank)
  else none

/-- The name and the text of an assignment. The word that exports a name may stand before it. -/
def readAssignment (environment : Environment) (text : List Char) : Option (String × String) := do
  let (word, afterWord) ← readName text
  let (name, rest) ←
    if word = "export".toList ∧ afterWord.head? ≠ some '=' then readName afterWord
    else some (word, afterWord)
  match rest with
  | '=' :: rest =>
      let rest := rest.dropWhile Text.isBlank
      let value ← if rest.head? = some '#' then some [] else environment.readValue .bare rest
      return (String.ofList name, String.ofList value)
  | _ => none

/-- Adds the assignment of an entry, if there is one in it. An entry that cannot be read adds
nothing. -/
def addEntry (environment : Environment) (entry : List Char) : Option Environment :=
  match (Text.trim (String.ofList entry)).toList with
  | [] | '#' :: _ => some environment
  | text => do
      let (name, value) ← environment.readAssignment text
      return if environment.contains name then environment else environment.insert name value

/-- Where the search for the end of an entry is. -/
inductive EntryPhase where
  | plain
  /-- After a single blank, where a comment may begin. -/
  | blank
  | escape
  | single
  | singleEscape
  | double
  | doubleEscape
deriving DecidableEq

/-- One character further. A second blank, too, is no place for a comment. -/
def EntryPhase.next : EntryPhase → Char → EntryPhase
  | .single, c => if c == '\\' then .singleEscape else if c == '\'' then .plain else .single
  | .double, c => if c == '\\' then .doubleEscape else if c == '"' then .plain else .double
  | .singleEscape, _ => .single
  | .doubleEscape, _ => .double
  | .escape, _ => .plain
  | phase, c =>
      if c == '\\' then .escape
      else if c == '"' then .double
      else if c == '\'' then .single
      else if phase == .plain && Text.isBlank c && c != '\n' && c != '\r' then .blank
      else .plain

/-- Goes through a line. Tells the characters of the entry in it, and the phase at the end of the
line. A comment ends the entry, so that the phase after it is plain. -/
def scanLine : EntryPhase → List Char → List Char × EntryPhase
  | phase, [] => ([], phase)
  | phase, c :: rest =>
      if phase = .blank ∧ c = '#' then ([], .plain)
      else
        let (entry, final) := scanLine (phase.next c) rest
        (c :: entry, final)

/-- Adds the assignments of some lines, the first of which go on with an entry. A line that begins
with a hash is passed over. An entry that is unfinished at the end of the file adds nothing. -/
def addLines (environment : Environment) (phase : EntryPhase) (entry : List Char) :
    List (List Char) → Environment
  | [] => environment
  | line :: rest =>
      let (more, final) := scanLine phase line
      if entry.isEmpty && (line.dropWhile Text.isBlank).head? == some '#' then
        environment.addLines .plain [] rest
      else if final = .plain then
        match environment.addEntry (entry ++ more) with
        | some environment => environment.addLines .plain [] rest
        | none => environment
      else environment.addLines final (entry ++ more) rest

/-- The lines of a text, each with the character that ends it. -/
def linesOf : List Char → List (List Char)
  | [] => []
  | c :: rest =>
      if c == '\n' then [c] :: linesOf rest
      else match linesOf rest with
        | [] => [[c]]
        | line :: lines => (c :: line) :: lines

/-- Adds the assignments of a file. A mark of the byte order at its beginning does not count. -/
def addFile (environment : Environment) (text : String) : Environment :=
  let characters := match text.toList with
    | '\uFEFF' :: rest => rest
    | characters => characters
  environment.addLines .plain [] (linesOf characters)

end Environment

end DeploymentRouting
