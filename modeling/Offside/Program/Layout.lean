import Offside.Doctype
import Offside.Program
import Offside.Program.Interpolation
import Offside.Program.Tag

/-!
# Layout: from tokens to a program

Indentation decides which line belongs to which scope. While the lines are read one after the
other, the layout keeps what is still pending, innermost first: for every line its depth, and for
every open scope its depth again, marked as a scope. A line closes everything that is pending at
its depth or deeper. A tag with its text on the same line becomes one entry when nothing deeper
follows.
-/

namespace Offside

/-- Something that a less indented line ends: a line, or an open scope. -/
structure Pending where
  depth : Nat
  scope : Bool
deriving DecidableEq, Repr

/-- The state of laying out a token list. -/
structure Layout where
  /-- The tokens still to be read. -/
  rest : List Token
  /-- The instructions so far, the newest first. -/
  emitted : List Instruction := []
  /-- What is pending, innermost first. -/
  pending : List Pending := []
deriving Repr

/-- The number of scopes that may be open at once unless a limit is given. -/
def defaultMaxDepth : Int := 100

namespace Layout

/-- The depth of the current line. -/
def depth (s : Layout) : Nat :=
  match s.pending with
  | [] => 0
  | p :: _ => p.depth

/-- The number of open scopes. -/
def scopes (s : Layout) : Nat := s.pending.countP (·.scope)

/-- Whether the next line is deeper than the current one. -/
def nextIsDeeper (s : Layout) : Bool :=
  match s.rest with
  | [] => false
  | t :: _ => t.kind == .indent && s.depth < t.depth

/-- Whether the line ends here and the next one, if any, is not deeper. -/
def nextCloses (s : Layout) : Bool :=
  match s.rest with
  | [] => true
  | t :: _ => t.kind == .indent && t.depth ≤ s.depth

/-- Adds an instruction. -/
def emit (s : Layout) (i : Instruction) : Layout := { s with emitted := i :: s.emitted }

/-- Ends everything that is pending at depth `d` or deeper: the scopes among it are closed, the
innermost first. -/
def closePending (d : Nat) : List Instruction → List Pending → List Instruction × List Pending
  | emitted, [] => (emitted, [])
  | emitted, p :: ps =>
    if d ≤ p.depth then
      closePending d (if p.scope then .close :: emitted else emitted) ps
    else (emitted, p :: ps)

/-- Ends everything that is pending at depth `d` or deeper. -/
def closeTo (s : Layout) (d : Nat) : Layout :=
  let (emitted, pending) := closePending d s.emitted s.pending
  { s with emitted, pending }

/-- Opens a scope at the current depth, if the limit allows one more. -/
def openScope (limit : Int) (s : Layout) (i : Instruction) : Reading Layout :=
  if limit ≤ s.scopes then .error ⟨.tooDeep, i.pos⟩
  else .ok { s with
    emitted := i :: s.emitted
    pending := ⟨s.depth, true⟩ :: s.pending }

/-! ## The parts of a line -/

/-- The doctype line, which can only stand at the very start. -/
def readDoctype (s : Layout) : Reading Layout :=
  match s.rest with
  | [] => .ok s
  | mark :: ts =>
    if mark.kind ≠ .doctypeMark then .ok s
    else
      let words := (ts.takeWhile (·.kind == .doctypeWord)).take 2
      let keyword := (words.map (·.contents))[0]?.getD []
      let encoding := (words.map (·.contents))[1]?.getD []
      match Doctype.lines? keyword encoding with
      | none => .error ⟨.unknownDoctype keyword, mark.start⟩
      | some lines =>
        .ok { s with
          rest := ts.drop words.length
          emitted := (lines.map fun l => .literal mark.start l 0).reverse ++ s.emitted }

/-- The indentation of a line ends what is pending there and becomes the current depth. -/
def readIndent (s : Layout) : Layout :=
  match s.rest with
  | [] => s
  | t :: ts =>
    if t.kind = .indent then
      let s := closeTo { s with rest := ts } t.depth
      { s with pending := ⟨t.depth, false⟩ :: s.pending }
    else s

/-- The text of a filter block and the tokens after it. The block's lines are deeper than
`current`; its first line is indented by `base`, which is taken off every line. Blank lines have no
tokens: `line`, the number of the last line read, tells how many to put back. -/
def readBlock (current base : Nat) (line : Nat) : List Token → Reading (Text × List Token)
  | [] => .ok ([], [])
  | t :: ts =>
    if t.kind = .indent then
      if t.depth ≤ current then .ok ([], t :: ts)
      else if t.depth < base then .error ⟨.shallowFilterLine, t.start⟩
      else do
        let (text, rest) ← readBlock current base t.start.line ts
        .ok (List.replicate (t.start.line - line) '\n' ++ Text.dropBytes base t.contents ++ text,
          rest)
    else do
      let (text, rest) ← readBlock current base line ts
      .ok (t.contents ++ text, rest)

/-- The name in a filter mark. -/
def filterName (contents : Text) : Text :=
  Text.trimBoth (fun c => c == ':' || c == ' ') contents

/-- A filter with its text: the indented block after it if it stands alone, and otherwise the rest
of its line. -/
def readFilter (alone : Bool) (s : Layout) : Reading (Bool × Layout) :=
  match s.rest with
  | [] => .ok (false, s)
  | mark :: ts =>
    if mark.kind ≠ .filterMark then .ok (false, s)
    else do
      let (text, rest) ← match alone && nextIsDeeper { s with rest := ts }, ts with
        | true, t :: ts => readBlock s.depth t.depth t.start.line ts
        | _, ts =>
          .ok ((ts.takeWhile (·.kind != .indent)).flatMap (·.contents),
            ts.dropWhile (·.kind != .indent))
      .ok (true,
        emit { s with rest } (.filtered mark.start (filterName mark.contents) text s.depth))

/-- A tag. If nothing follows on its line and nothing deeper after it, the element is one entry;
otherwise its scope is opened. -/
def readTag (limit : Int) (stop : Location) (s : Layout) : Reading (Bool × Layout) := do
  let start := match s.rest with
    | [] => {}
    | t :: _ => t.start
  let (tag?, rest) ← Tag.read stop s.rest
  let s := { s with rest }
  match tag? with
  | none => .ok (false, s)
  | some tag =>
    if s.nextCloses then
      .ok (true, s.emit (.ofFragments start (Fragments.join [tag.opening, tag.closing]) s.depth))
    else do
      let s ← s.openScope limit (.openTag start tag.opening tag.closing s.depth 0)
      .ok (true, s)

/-- The expression of a code line with its lambda variables. -/
def readCodeBody (stop : Location) (ts : List Token) :
    Reading ((Token × List Text) × List Token) := do
  let (code, ts) ← takeOne stop [.code] ts
  match ts with
  | t :: ts =>
    if t.kind = .arrow then
      let (vars, ts) ← takeOne stop [.vars] ts
      .ok ((code, (Text.splitAt ',' vars.contents).map Text.trim), ts)
    else .ok ((code, []), t :: ts)
  | [] => .ok ((code, []), [])

/-- A code line. It opens a control block if a deeper line follows; `leaf` is what it is
otherwise. -/
def readCode (limit : Int) (stop : Location) (capture : Bool)
    (leaf : Location → Text → Nat → Instruction) (s : Layout) (ts : List Token) :
    Reading Layout := do
  let ((code, vars), rest) ← readCodeBody stop ts
  let s := { s with rest }
  if s.nextIsDeeper then
    s.openScope limit
      (.openControl code.start { source := code.contents, vars, capture } s.depth 0)
  else if vars.isEmpty then .ok (s.emit (leaf code.start code.contents s.depth))
  else .error ⟨.variablesWithoutBlock, code.start⟩

/-- What a line puts out after its tag, if anything. -/
def readOutput (limit : Int) (stop : Location) (s : Layout) : Reading (Bool × Layout) :=
  match s.rest with
  | [] => .ok (false, s)
  | mark :: ts =>
    match mark.kind with
    | .filterMark => readFilter false s
    | .outputMark => do
      let s ← readCode limit stop true
        (fun pos source depth =>
          .output pos [.expression source (mark.contents == ['='])] depth) s ts
      .ok (true, s)
    | .silentMark => do
      let s ← readCode limit stop false (fun pos source _ => .exec pos source) s ts
      .ok (true, s)
    | .commentMark => do
      let (comment, rest) ← takeOne stop [.comment] ts
      .ok (true, emit { s with rest }
        (.literal mark.start ("<!-- ".toList ++ comment.contents ++ " -->".toList) s.depth))
    | .text =>
      .ok (true, emit { s with rest := ts }
        (.ofFragments mark.start (interpolate mark.contents) s.depth))
    | _ => .ok (false, s)

/-- The line that an instruction puts out, if it is one that a tag can take in. -/
def contentOf? : Instruction → Option Fragments
  | .literal _ text _ => some (Fragments.ofLiteral text)
  | .output _ value _ => some value
  | .filtered _ filter text _ => some [.filter filter text]
  | _ => none

/-- Joins a tag with the output on its line: into one entry if the element is complete, and into
the opening text if a deeper line follows. -/
def fuse (s : Layout) : Layout :=
  match s.emitted with
  | content :: .openTag pos opening closing depth stop :: emitted =>
    match contentOf? content with
    | none => s
    | some v =>
      if s.nextCloses then
        { s with
          emitted := .ofFragments pos (Fragments.join [opening, v, closing]) depth :: emitted
          pending := s.pending.tail }
      else if s.nextIsDeeper then
        { s with
          emitted := .openTag pos (Fragments.join [opening, v]) closing depth stop :: emitted }
      else s
  | _ => s

/-! ## The whole -/

/-- Reads one line. -/
def readLine (limit : Int) (stop : Location) (s : Layout) : Reading Layout := do
  let s := s.readIndent
  let (_, s) ← s.readFilter true
  let (tagged, s) ← s.readTag limit stop
  let (output, s) ← s.readOutput limit stop
  .ok (if tagged && output then s.fuse else s)

/-- Reads line after line. A line that starts with a token that nothing can start with is a
problem. -/
def readLines (limit : Int) (stop : Location) (s : Layout) : Reading Layout :=
  match s.rest with
  | [] => .ok s
  | t :: _ => do
    let s' ← s.readLine limit stop
    if _h : s'.rest.length < s.rest.length then readLines limit stop s'
    else .error ⟨.unexpectedToken t, t.start⟩
termination_by s.rest.length

/-- Where a token list ends: just after its last token. -/
def endOf (tokens : List Token) : Location :=
  match tokens.getLast? with
  | none => {}
  | some t => { t.start with column := t.start.column + t.contents.length }

end Layout

/-- The instructions of a token list. `maxDepth` limits how many scopes may be open at once; zero
means the default limit. -/
def layOut (maxDepth : Int) (tokens : List Token) :
    Reading (List Instruction) := do
  let limit := if maxDepth = 0 then defaultMaxDepth else maxDepth
  let s ← Layout.readDoctype { rest := tokens }
  let s ← s.readLines limit (Layout.endOf tokens)
  .ok (matchScopes 0 (s.closeTo 0).emitted.reverse).1

namespace Program

/-- The program of a token list for contexts of the given type. -/
def ofTokens (contextType : Text) (maxDepth : Int) (tokens : List Token) :
    Reading Program :=
  (layOut maxDepth tokens).map fun code => { contextType, code := code.toArray }

end Program
end Offside
