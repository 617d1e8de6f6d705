import Settlement.Platform
import Settlement.Yaml.Resolve
import Settlement.Yaml.Token

/-!
The graph of a YAML document: scalars, sequences and mappings with their tags. An alias stands for the
very node that it names, which may be a collection around it.
-/

namespace Settlement.Yaml

inductive Content where
  | scalar (text : Bytes)
  | sequence (items : List Nat)
  | mapping (entries : List (Nat × Nat))
  deriving Inhabited

structure Node where
  tag : String
  content : Content
  deriving Inhabited

abbrev Nodes := Array Node

abbrev Handles := List (String × String)

structure Builder where
  lexer : Lexer
  handles : Handles := []
  nodes : Nodes := #[]
  anchors : List (String × Nat) := []

namespace Builder

abbrev Build := StateT Builder (Except Error)

def standardHandles : Handles :=
  [("!", "!"), ("!!", "tag:yaml.org,2002:")]

def liftScan {α : Type} (x : Lexer.Scan α) : Build α := do
  let s ← get
  let (a, lexer) ← x.run s.lexer
  set { s with lexer }
  pure a

def peek : Build Token := liftScan Lexer.peek

def next : Build Token := liftScan Lexer.next

def take : Build Unit := do
  let _ ← next

def addNode (n : Node) : Build Nat := do
  let s ← get
  set { s with nodes := s.nodes.push n }
  pure s.nodes.size

def setContent (id : Nat) (c : Content) : Build Unit :=
  modify fun s => { s with nodes := s.nodes.modify id fun n => { n with content := c } }

def empty : Build Nat := addNode ⟨Kind.null.tag, .scalar []⟩

structure Properties where
  anchor : Option String := none
  tag : Option (Option String × String) := none

def anchorHere : Build (Option String) := do
  match ← peek with
  | .anchor a => take; pure (some a)
  | _ => pure none

def tagHere : Build (Option (Option String × String)) := do
  match ← peek with
  | .tag h s => take; pure (some (h, s))
  | _ => pure none

def properties : Build Properties := do
  match ← anchorHere with
  | some a => pure ⟨some a, ← tagHere⟩
  | none =>
    match ← tagHere with
    | some t => pure ⟨← anchorHere, some t⟩
    | none => pure {}

def resolveTag : Option (Option String × String) → Build (Option String)
  | none => pure none
  | some (none, suffix) => pure (some suffix)
  | some (some handle, suffix) => do
    match (← get).handles.lookup handle with
    | some start => pure (some (start ++ suffix))
    | none => throw .syntaxError

def typeTag (tag : Option String) : Option String :=
  tag.filter (· != "!")

def scalarTag (tag : Option String) (plain : Bool) (text : Bytes) : String :=
  match typeTag tag, String.fromUTF8? ⟨text.toArray⟩ with
  | some t, _ => t
  | none, some s => if plain && tag.isNone || tag == some "!" then (kindOf s).tag else Kind.text.tag
  | none, none => Kind.text.tag

def checkAnchor (anchor : Option String) : Build Unit := do
  match anchor with
  | some a => if ((← get).anchors.lookup a).isSome then throw .composition
  | none => pure ()

def bind (anchor : Option String) (id : Nat) : Build Unit := do
  match anchor with
  | some a => modify fun s => { s with anchors := (a, id) :: s.anchors }
  | none => pure ()

def scalar (anchor tag : Option String) (plain : Bool) (text : Bytes) : Build Nat := do
  checkAnchor anchor
  let id ← addNode ⟨scalarTag tag plain text, .scalar text⟩
  bind anchor id
  pure id

def collection (anchor tag : Option String) (kind : String) (parts : Build Content) : Build Nat := do
  checkAnchor anchor
  let id ← addNode ⟨(typeTag tag).getD (standardTag kind), .sequence []⟩
  bind anchor id
  let c ← parts
  setContent id c
  pure id

def isOneOf (ts : List Token) : Build Bool := do
  pure (ts.contains (← peek))

def flowComma : Build Unit := do
  match ← peek with
  | .flowEntry => take
  | _ => throw .syntaxError

mutual

/-- A node in which so many more collections may be opened, of block collections only if `block`; with
`indentless`, entries without indentation of their own make a sequence. -/
def node : Nat → Nat → Bool → Bool → Build Nat
  | 0, _, _, _ => throw .syntaxError
  | fuel + 1, depth, block, indentless => do
    match ← peek with
    | .alias name =>
      take
      match (← get).anchors.lookup name with
      | some id => pure id
      | none => throw .composition
    | _ =>
      let props ← properties
      let tag ← resolveTag props.tag
      match ← peek with
      | .scalar plain text =>
        take
        scalar props.anchor tag plain text
      | .flowSequenceStart => take; collection props.anchor tag "seq" (inside fuel depth .flowSequenceStart)
      | .flowMappingStart => take; collection props.anchor tag "map" (inside fuel depth .flowMappingStart)
      | t =>
        if indentless && t == .blockEntry then
          collection props.anchor tag "seq" (inside fuel depth .blockEntry)
        else if block && t == .blockSequenceStart then
          take
          collection props.anchor tag "seq" (inside fuel depth .blockSequenceStart)
        else if block && t == .blockMappingStart then
          take
          collection props.anchor tag "map" (inside fuel depth .blockMappingStart)
        else if props.anchor.isSome || tag.isSome then
          scalar props.anchor tag true []
        else throw .syntaxError

def inside : Nat → Nat → Token → Build Content
  | 0, _, _ => throw .syntaxError
  | _, 0, _ => throw .tooDeep
  | fuel + 1, depth + 1, start => do
    match start with
    | .flowSequenceStart => do pure (.sequence (← flowItems fuel depth true []))
    | .flowMappingStart => do pure (.mapping (← flowEntries fuel depth true []))
    | .blockEntry => do pure (.sequence (← indentlessItems fuel depth []))
    | .blockSequenceStart => do pure (.sequence (← blockItems fuel depth []))
    | _ => do pure (.mapping (← blockEntries fuel depth []))

def blockItems : Nat → Nat → List Nat → Build (List Nat)
  | 0, _, _ => throw .syntaxError
  | fuel + 1, depth, acc => do
    match ← next with
    | .blockEntry =>
      let id ← if ← isOneOf [.blockEntry, .blockEnd] then empty else node fuel depth true false
      blockItems fuel depth (id :: acc)
    | .blockEnd => pure acc.reverse
    | _ => throw .syntaxError

def indentlessItems : Nat → Nat → List Nat → Build (List Nat)
  | 0, _, _ => throw .syntaxError
  | fuel + 1, depth, acc => do
    match ← peek with
    | .blockEntry =>
      take
      let id ← if ← isOneOf [.blockEntry, .key, .value, .blockEnd] then empty else node fuel depth true false
      indentlessItems fuel depth (id :: acc)
    | _ => pure acc.reverse

def blockEntries : Nat → Nat → List (Nat × Nat) → Build (List (Nat × Nat))
  | 0, _, _ => throw .syntaxError
  | fuel + 1, depth, acc => do
    match ← peek with
    | .key =>
      take
      let k ← if ← isOneOf [.key, .value, .blockEnd] then empty else node fuel depth true true
      let v ← blockValue fuel depth
      blockEntries fuel depth ((k, v) :: acc)
    | .blockEnd => take; pure acc.reverse
    | _ => throw .syntaxError

def blockValue : Nat → Nat → Build Nat
  | 0, _ => throw .syntaxError
  | fuel + 1, depth => do
    match ← peek with
    | .value =>
      take
      if ← isOneOf [.key, .value, .blockEnd] then empty else node fuel depth true true
    | _ => empty

def flowItems : Nat → Nat → Bool → List Nat → Build (List Nat)
  | 0, _, _, _ => throw .syntaxError
  | fuel + 1, depth, first, acc => do
    if ← isOneOf [.flowSequenceEnd] then take; return acc.reverse
    if ¬ first then flowComma
    match ← peek with
    | .key =>
      take
      let id ← collection none none "map" (flowPair fuel depth)
      flowItems fuel depth false (id :: acc)
    | .flowSequenceEnd => take; pure acc.reverse
    | _ =>
      let id ← node fuel depth false false
      flowItems fuel depth false (id :: acc)

def flowPair : Nat → Nat → Build Content
  | 0, _ => throw .syntaxError
  | _, 0 => throw .tooDeep
  | fuel + 1, depth + 1 => do
    let k ← if ← isOneOf [.value, .flowEntry, .flowSequenceEnd] then empty else node fuel depth false false
    let v ← flowValue fuel depth .flowSequenceEnd
    pure (.mapping [(k, v)])

def flowEntries : Nat → Nat → Bool → List (Nat × Nat) → Build (List (Nat × Nat))
  | 0, _, _, _ => throw .syntaxError
  | fuel + 1, depth, first, acc => do
    if ← isOneOf [.flowMappingEnd] then take; return acc.reverse
    if ¬ first then flowComma
    match ← peek with
    | .key =>
      take
      let k ← if ← isOneOf [.value, .flowEntry, .flowMappingEnd] then empty else node fuel depth false false
      let v ← flowValue fuel depth .flowMappingEnd
      flowEntries fuel depth false ((k, v) :: acc)
    | .flowMappingEnd => take; pure acc.reverse
    | _ =>
      let k ← node fuel depth false false
      let v ← empty
      flowEntries fuel depth false ((k, v) :: acc)

def flowValue : Nat → Nat → Token → Build Nat
  | 0, _, _ => throw .syntaxError
  | fuel + 1, depth, close => do
    match ← peek with
    | .value =>
      take
      if ← isOneOf [.flowEntry, close] then empty else node fuel depth false false
    | _ => empty

end

def directives : Nat → Bool → Handles → Build Handles
  | 0, _, _ => throw .syntaxError
  | fuel + 1, versioned, handles => do
    match ← peek with
    | .directive d =>
      take
      match d with
      | .version major =>
        if versioned || major != 1 then throw .syntaxError
        directives fuel true handles
      | .tag h p =>
        if (handles.lookup h).isSome then throw .syntaxError
        directives fuel versioned ((h, p) :: handles)
      | .other => directives fuel versioned handles
    | _ => pure (handles ++ standardHandles)

def dropDocumentEnds : Nat → Build Unit
  | 0 => pure ()
  | fuel + 1 => do
    if ← isOneOf [.documentEnd] then
      take
      dropDocumentEnds fuel

def isDirective : Token → Bool
  | .directive _ => true
  | _ => false

def explicitStart (fuel : Nat) : Build Bool := do
  dropDocumentEnds fuel
  if ← isOneOf [.streamEnd] then pure false
  else
    let handles ← directives fuel false []
    match ← peek with
    | .documentStart =>
      take
      modify fun s => { s with handles }
      pure true
    | _ => throw .syntaxError

def document [Platform] (fuel : Nat) : Build (Option Nat) := do
  let t ← peek
  let root ←
    if isDirective t || t == .documentStart || t == .streamEnd then do
      if ← explicitStart fuel then
        let t ← peek
        if isDirective t || [Token.documentStart, .documentEnd, .streamEnd].contains t then
          some <$> empty
        else some <$> node fuel Platform.yamlDepth true false
      else pure none
    else do
      modify fun s => { s with handles := standardHandles }
      some <$> node fuel Platform.yamlDepth true false
  if root.isSome then
    if ← isOneOf [.documentEnd] then take
    if ← explicitStart fuel then throw .composition
  pure root

end Builder

def compose [Platform] (text : String) : Except Error (Option Nat × Nodes) := do
  if ¬ text.toList.all isAllowed then throw .character
  let (root, s) ← (Builder.document (8 * text.length + 16)).run { lexer := .ofString text }
  pure (root, s.nodes)

end Settlement.Yaml
