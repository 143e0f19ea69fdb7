import DeploymentRouting.Yaml.Token
/-!
The document that a list of tokens spells. A text holds one document. Where a key,
an item or a value is left out, an empty plain scalar stands for it, and so does one
for a whole text without any content.
-/
namespace DeploymentRouting.Yaml

/-- What stands for something left out. -/
def absent : Document := .scalar (.plain "")

/-- Whether a block goes on right away, so that the node before was left out. -/
def leavesOut : List Token → Bool
  | .key :: _ | .value :: _ | .blockEnd :: _ => true
  | _ => false

/-- Whether an item of a block ends right away. -/
def leavesOutItem : List Token → Bool
  | .entry :: _ | .blockEnd :: _ => true
  | _ => false

/-- Whether a node inside of brackets ends right away. -/
def leavesOutInFlow : List Token → Bool
  | .value :: _ | .comma :: _ | .bracketClose :: _ | .braceClose :: _ => true
  | _ => false

mutual

/-- A node that may be a block. -/
def readNode : Nat → List Token → Option (Document × List Token)
  | 0, _ => none
  | fuel + 1, .sequenceStart :: rest => do
      let (items, rest) ← readItems fuel rest
      return (.sequence items, rest)
  | fuel + 1, .mappingStart :: rest => do
      let (entries, rest) ← readEntries fuel rest
      return (.mapping entries, rest)
  | fuel + 1, tokens => readFlowNode fuel tokens

/-- A scalar, or a node in brackets. -/
def readFlowNode : Nat → List Token → Option (Document × List Token)
  | 0, _ => none
  | _ + 1, .scalar scalar :: rest => some (.scalar scalar, rest)
  | fuel + 1, .bracketOpen :: rest => do
      let (items, rest) ← readFlowItems fuel true rest
      return (.sequence items, rest)
  | fuel + 1, .braceOpen :: rest => do
      let (entries, rest) ← readFlowEntries fuel true rest
      return (.mapping entries, rest)
  | _, _ => none

/-- The items of a sequence up to the end of its block. -/
def readItems : Nat → List Token → Option (List Document × List Token)
  | 0, _ => none
  | _ + 1, .blockEnd :: rest => some ([], rest)
  | fuel + 1, .entry :: rest => do
      let (item, rest) ← if leavesOutItem rest then some (absent, rest) else readNode fuel rest
      let (items, rest) ← readItems fuel rest
      return (item :: items, rest)
  | _, _ => none

/-- The items of a sequence that stands at the column of its key, and so has no block. -/
def readLooseItems : Nat → List Token → Option (List Document × List Token)
  | 0, _ => none
  | fuel + 1, .entry :: rest => do
      let (item, rest) ←
        if leavesOutItem rest || leavesOut rest then some (absent, rest) else readNode fuel rest
      let (items, rest) ← readLooseItems fuel rest
      return (item :: items, rest)
  | _ + 1, rest => some ([], rest)

/-- A key or a value of a block. -/
def readMember : Nat → List Token → Option (Document × List Token)
  | 0, _ => none
  | fuel + 1, tokens =>
      if leavesOut tokens then some (absent, tokens)
      else match tokens with
        | .entry :: _ => do
            let (items, rest) ← readLooseItems fuel tokens
            return (.sequence items, rest)
        | _ => readNode fuel tokens

/-- The entries of a mapping up to the end of its block. -/
def readEntries : Nat → List Token → Option (List (Document × Document) × List Token)
  | 0, _ => none
  | _ + 1, .blockEnd :: rest => some ([], rest)
  | fuel + 1, .key :: rest => do
      let (key, rest) ← readMember fuel rest
      let (value, rest) ← match rest with
        | .value :: rest => readMember fuel rest
        | rest => some (absent, rest)
      let (entries, rest) ← readEntries fuel rest
      return ((key, value) :: entries, rest)
  | _, _ => none

/-- The value of a key inside of brackets. -/
def readFlowValue : Nat → List Token → Option (Document × List Token)
  | 0, _ => none
  | fuel + 1, .value :: rest =>
      if leavesOutInFlow rest then some (absent, rest) else readFlowNode fuel rest
  | _ + 1, rest => some (absent, rest)

/-- A key and its value inside of brackets, after the token that announces them. -/
def readFlowPair : Nat → List Token → Option ((Document × Document) × List Token)
  | 0, _ => none
  | fuel + 1, tokens => do
      let (key, rest) ←
        if leavesOutInFlow tokens then some (absent, tokens) else readFlowNode fuel tokens
      let (value, rest) ← readFlowValue fuel rest
      return ((key, value), rest)

/-- The items of a sequence up to its closing bracket. All but the first follow a comma, a comma
may stand after the last, and a pair is a mapping of its own. -/
def readFlowItems : Nat → Bool → List Token → Option (List Document × List Token)
  | 0, _, _ => none
  | _ + 1, _, .bracketClose :: rest => some ([], rest)
  | fuel + 1, false, .comma :: rest => readFlowItems fuel true rest
  | _ + 1, false, _ => none
  | fuel + 1, true, .key :: rest => do
      let (pair, rest) ← readFlowPair fuel rest
      let (items, rest) ← readFlowItems fuel false rest
      return (.mapping [pair] :: items, rest)
  | fuel + 1, true, tokens => do
      let (item, rest) ← readFlowNode fuel tokens
      let (items, rest) ← readFlowItems fuel false rest
      return (item :: items, rest)

/-- The entries of a mapping up to its closing brace. A node that is no key has an empty value. -/
def readFlowEntries : Nat → Bool → List Token → Option (List (Document × Document) × List Token)
  | 0, _, _ => none
  | _ + 1, _, .braceClose :: rest => some ([], rest)
  | fuel + 1, false, .comma :: rest => readFlowEntries fuel true rest
  | _ + 1, false, _ => none
  | fuel + 1, true, .key :: rest => do
      let (pair, rest) ← readFlowPair fuel rest
      let (entries, rest) ← readFlowEntries fuel false rest
      return (pair :: entries, rest)
  | fuel + 1, true, tokens => do
      let (key, rest) ← readFlowNode fuel tokens
      let (entries, rest) ← readFlowEntries fuel false rest
      return ((key, absent) :: entries, rest)

end

/-- Whether the content of a document ends right away. -/
def endsDocument : List Token → Bool
  | [] | .documentStart :: _ | .documentEnd :: _ => true
  | _ => false

/-- The document that some tokens spell, if they spell one and no more. A token takes no more
than four steps. -/
def ofTokens? (tokens : List Token) : Option Document := do
  let fuel := 4 * tokens.length + 4
  let (document, rest) ← match tokens with
    | [] => some (absent, [])
    | .documentStart :: rest =>
        if endsDocument rest then some (absent, rest) else readNode fuel rest
    | tokens => readNode fuel tokens
  let isEnd : Token → Bool
    | .documentEnd => true
    | _ => false
  if rest.all isEnd then some document else none

/-- The document that a text holds. -/
def read? (text : String) : Option Document := (tokens? text).bind ofTokens?

end DeploymentRouting.Yaml
