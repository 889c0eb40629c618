import LuaTidy.Entries
import LuaTidy.Yaml.Tag
import LuaTidy.Yaml.Token.Scan
/-!
Nodes from tokens: the tree of a document, with every tag resolved and every alias replaced by the
node that it stands for. A document is the whole input; an empty input has no node.
-/
namespace LuaTidy.Yaml

inductive Node where
  | scalar (tag : Tag) (text : Text)
  | sequence (tag : Tag) (items : List Node)
  | mapping (tag : Tag) (entries : List (Node × Node))
  deriving Repr

/-- What is left of the tokens, and what was defined before. -/
structure Feed where
  tokens : List Token
  /-- What is wrong with the document after the last token, if anything is. -/
  ending : Option Error
  /-- The stems of tag handles. -/
  handles : Entries Text Text := []
  /-- The anchored nodes; a node that is not complete yet is missing. -/
  anchors : Entries Text (Option Node) := []

namespace Feed

/-- The next token; none at the end of the document. -/
def peek (f : Feed) : Except Error (Option Token) :=
  match f.tokens, f.ending with
  | t :: _, _ => .ok (some t)
  | [], none => .ok none
  | [], some e => .error e

def next (f : Feed) : Feed := { f with tokens := f.tokens.tail }

/-- The feed after its next token, which must be `t`. -/
def expect (f : Feed) (t : Token) : Except Error Feed := do
  if (← f.peek) = some t then .ok f.next else malformed

end Feed

structure Properties where
  anchor : Option Text := none
  tag : Option Text := none

def fullTag (f : Feed) (handle : Option Text) (suffix : Text) : Except Error Text :=
  match handle with
  | none => .ok suffix
  | some h =>
    match f.handles.get? h with
    | some stem => .ok (stem ++ suffix)
    | none => malformed

/-- An anchor and a tag, in either order and each at most once. -/
def readProperties (f : Feed) : Except Error (Properties × Feed) := do
  match ← f.peek with
  | some (.anchor a) =>
    match ← f.next.peek with
    | some (.tag h s) => .ok ({ anchor := some a, tag := some (← fullTag f h s) }, f.next.next)
    | _ => .ok ({ anchor := some a }, f.next)
  | some (.tag h s) =>
    match ← f.next.peek with
    | some (.anchor a) => .ok ({ anchor := some a, tag := some (← fullTag f h s) }, f.next.next)
    | _ => .ok ({ tag := some (← fullTag f h s) }, f.next)
  | _ => .ok ({}, f)

/-- A tag that leaves the choice to the form of the node. -/
def Properties.leavesOpen (p : Properties) : Bool := p.tag = none ∨ p.tag = some ['!']

def Properties.scalarTag (p : Properties) (plain : Bool) (s : Text) : Tag :=
  match p.tag with
  | none => if plain then Tag.ofForm s else .text
  | some name => if name = ['!'] then Tag.ofForm s else Tag.ofName name

def Properties.collectionTag (p : Properties) (standard : Tag) : Tag :=
  match p.tag with
  | none => standard
  | some name => if name = ['!'] then standard else Tag.ofName name

def emptyNode : Node := .scalar .null []

/-- Take up an anchor whose node is still to be read. -/
def Feed.declare (f : Feed) (p : Properties) : Except Error Feed :=
  match p.anchor with
  | none => .ok f
  | some a =>
    if (f.anchors.get? a).isSome then malformed
    else .ok { f with anchors := f.anchors.insert a none }

def Feed.define (f : Feed) (p : Properties) (n : Node) : Feed :=
  match p.anchor with
  | none => f
  | some a => { f with anchors := f.anchors.insert a (some n) }

mutual

/-- A node. In a block, collections by indentation are allowed; `bare` allows entries with dashes
at the column of the mapping around them. -/
def readNode (fuel : Nat) (inBlock bare : Bool) (f : Feed) : Except Error (Node × Feed) :=
  match fuel with
  | 0 => malformed
  | fuel + 1 => do
    match ← f.peek with
    | some (.alias a) =>
      match f.anchors.get? a with
      | some (some n) => .ok (n, f.next)
      | _ => malformed
    | _ => do
      let (p, f) ← readProperties f
      let (n, f) ←
        match ← f.peek with
        | some (.scalar plain s) => do
          let f ← f.declare p
          .ok (Node.scalar (p.scalarTag plain s) s, f.next)
        | some .flowSequenceStart => do
          let f ← f.declare p
          let (ns, f) ← readFlowItems fuel true f.next
          .ok (Node.sequence (p.collectionTag .sequence) ns, f)
        | some .flowMappingStart => do
          let f ← f.declare p
          let (es, f) ← readFlowEntries fuel true f.next
          .ok (Node.mapping (p.collectionTag .mapping) es, f)
        | t => do
          if bare && t = some .blockEntry then do
            let f ← f.declare p
            let (ns, f) ← readBareItems fuel f
            .ok (Node.sequence (p.collectionTag .sequence) ns, f)
          else if inBlock && t = some .blockSequenceStart then do
            let f ← f.declare p
            let (ns, f) ← readBlockItems fuel f.next
            .ok (Node.sequence (p.collectionTag .sequence) ns, f)
          else if inBlock && t = some .blockMappingStart then do
            let f ← f.declare p
            let (es, f) ← readBlockEntries fuel f.next
            .ok (Node.mapping (p.collectionTag .mapping) es, f)
          else if p.anchor.isSome || p.tag.isSome then do
            let f ← f.declare p
            let tag : Tag := if p.leavesOpen then .null else p.scalarTag false []
            .ok (Node.scalar tag [], f)
          else malformed
      .ok (n, f.define p n)

def readBlockItems (fuel : Nat) (f : Feed) : Except Error (List Node × Feed) :=
  match fuel with
  | 0 => malformed
  | fuel + 1 => do
    match ← f.peek with
    | some .blockEntry => do
      let f := f.next
      let t ← f.peek
      let (n, f) ←
        if t = some .blockEntry ∨ t = some .blockEnd then .ok (emptyNode, f)
        else readNode fuel true false f
      let (ns, f) ← readBlockItems fuel f
      .ok (n :: ns, f)
    | some .blockEnd => .ok ([], f.next)
    | _ => malformed

/-- The items with dashes at the column of the mapping around them. -/
def readBareItems (fuel : Nat) (f : Feed) : Except Error (List Node × Feed) :=
  match fuel with
  | 0 => malformed
  | fuel + 1 => do
    match ← f.peek with
    | some .blockEntry => do
      let f := f.next
      let t ← f.peek
      let (n, f) ←
        if t = some .blockEntry ∨ t = some .key ∨ t = some .value ∨ t = some .blockEnd then
          .ok (emptyNode, f)
        else readNode fuel true false f
      let (ns, f) ← readBareItems fuel f
      .ok (n :: ns, f)
    | _ => .ok ([], f)

/-- A key or a value of a block mapping, after its indicator. -/
def readBlockPart (fuel : Nat) (f : Feed) : Except Error (Node × Feed) :=
  match fuel with
  | 0 => malformed
  | fuel + 1 => do
    let t ← f.peek
    if t = some .key ∨ t = some .value ∨ t = some .blockEnd then .ok (emptyNode, f)
    else readNode fuel true true f

def readBlockEntries (fuel : Nat) (f : Feed) : Except Error (List (Node × Node) × Feed) :=
  match fuel with
  | 0 => malformed
  | fuel + 1 => do
    match ← f.peek with
    | some .key => do
      let (k, f) ← readBlockPart fuel f.next
      let (v, f) ←
        if (← f.peek) = some .value then readBlockPart fuel f.next else .ok (emptyNode, f)
      let (es, f) ← readBlockEntries fuel f
      .ok ((k, v) :: es, f)
    | some .blockEnd => .ok ([], f.next)
    | _ => malformed

/-- A key or a value inside brackets, after its indicator; `closing` ends the collection. -/
def readFlowPart (fuel : Nat) (closing : Token) (isKey : Bool) (f : Feed) :
    Except Error (Node × Feed) :=
  match fuel with
  | 0 => malformed
  | fuel + 1 => do
    let t ← f.peek
    if t = some .flowEntry ∨ t = some closing ∨ (isKey ∧ t = some .value) then .ok (emptyNode, f)
    else readNode fuel false false f

def readFlowValue (fuel : Nat) (closing : Token) (f : Feed) : Except Error (Node × Feed) :=
  match fuel with
  | 0 => malformed
  | fuel + 1 => do
    if (← f.peek) = some .value then readFlowPart fuel closing false f.next
    else .ok (emptyNode, f)

/-- The items of a sequence in brackets, to its end. A key makes an item a mapping of one entry. -/
def readFlowItems (fuel : Nat) (first : Bool) (f : Feed) : Except Error (List Node × Feed) :=
  match fuel with
  | 0 => malformed
  | fuel + 1 => do
    if (← f.peek) = some .flowSequenceEnd then .ok ([], f.next)
    else
      let f ← if first then .ok f else f.expect .flowEntry
      match ← f.peek with
      | some .key => do
        let (k, f) ← readFlowPart fuel .flowSequenceEnd true f.next
        let (v, f) ← readFlowValue fuel .flowSequenceEnd f
        let (ns, f) ← readFlowItems fuel false f
        .ok (.mapping .mapping [(k, v)] :: ns, f)
      | some .flowSequenceEnd => .ok ([], f.next)
      | _ => do
        let (n, f) ← readNode fuel false false f
        let (ns, f) ← readFlowItems fuel false f
        .ok (n :: ns, f)

/-- The entries of a mapping in braces, to its end. A node without a key sign has no value. -/
def readFlowEntries (fuel : Nat) (first : Bool) (f : Feed) :
    Except Error (List (Node × Node) × Feed) :=
  match fuel with
  | 0 => malformed
  | fuel + 1 => do
    if (← f.peek) = some .flowMappingEnd then .ok ([], f.next)
    else
      let f ← if first then .ok f else f.expect .flowEntry
      match ← f.peek with
      | some .key => do
        let (k, f) ← readFlowPart fuel .flowMappingEnd true f.next
        let (v, f) ← readFlowValue fuel .flowMappingEnd f
        let (es, f) ← readFlowEntries fuel false f
        .ok ((k, v) :: es, f)
      | some .flowMappingEnd => .ok ([], f.next)
      | _ => do
        let (n, f) ← readNode fuel false false f
        let (es, f) ← readFlowEntries fuel false f
        .ok ((n, emptyNode) :: es, f)

end

/-- The tag handles that every document knows. -/
def standardHandles : Entries Text Text := [("!", "!"), ("!!", "tag:yaml.org,2002:")]

/-- The directives before a document; the handles that they define come before the known ones. -/
def readDirectives (versioned : Bool) : Nat → Feed → Except Error Feed
  | 0, _ => malformed
  | fuel + 1, f => do
    match ← f.peek with
    | some (.versionDirective major) =>
      if versioned || major ≠ 1 then malformed else readDirectives true fuel f.next
    | some (.tagDirective handle stem) =>
      if (f.handles.get? handle).isSome then malformed
      else readDirectives versioned fuel { f.next with handles := f.handles.insert handle stem }
    | some .otherDirective => readDirectives versioned fuel f.next
    | _ => .ok { f with handles := f.handles ++ standardHandles }

/-- The feed after the marks at the end of a document. -/
def Feed.dropEnds (f : Feed) : Feed :=
  { f with tokens := f.tokens.dropWhile (· == .documentEnd) }

/-- The node of the only document in a text, if the text holds one. -/
def Node.read? (s : Text) : Except Error (Option Node) := do
  let (ts, ending) := tokens s
  let f : Feed := { tokens := ts, ending }
  let fuel := 3 * ts.length + 3
  let explicit (t : Token) : Bool :=
    match t with
    | .versionDirective _ | .tagDirective _ _ | .otherDirective | .documentStart => true
    | _ => false
  match ← f.peek with
  | none => .ok none
  | some t => do
    let (n, f) ←
      if explicit t then do
        let f ← readDirectives false fuel f
        let f ← f.expect .documentStart
        match ← f.peek with
        | none => .ok (emptyNode, f)
        | some t =>
          if explicit t || t == .documentEnd then .ok (emptyNode, f)
          else readNode fuel true false f
      else readNode fuel true false { f with handles := standardHandles }
    match ← f.dropEnds.peek with
    | none => .ok (some n)
    | some _ => malformed

end LuaTidy.Yaml
