import ApiDecl.Syntax.Lexer
import ApiDecl.Syntax.Parser.Peek

/-!
# Parsers of token sequences

A parser reads tokens from the front of one group, or of the whole text, and answers with a value or
with the first error. Beside its value it leaves a trace: the tokens of what it has read, as they
are printed, and the items it has come across. A construct of which only the spelling is known is
traced as it is written, without the items inside it.

A message about a missing thing is placed at the next token; where nothing is left, it is placed at
the end of the group and says so. Tokens that are left over in a group are an error too, but one
that is only reported if nothing else is wrong.
-/

namespace ApiDecl.Syntax

/-- What parsers have read, the latest first. -/
structure Trace where
  /-- The tokens that were read, in canonical spacing. -/
  printed : List Token
  /-- The items that were met. -/
  items : List Item

namespace Trace

/-- Nothing has been read. -/
def empty : Trace := ⟨[], []⟩

/-- A trace and a later one. -/
def append (earlier later : Trace) : Trace :=
  ⟨later.printed ++ earlier.printed, later.items ++ earlier.items⟩

/-- The trace of some tokens without items. -/
def ofTokens (tokens : List Token) : Trace := ⟨tokens.reverse, []⟩

/-- The tokens in the order in which they are printed. -/
def tokens (t : Trace) : List Token := t.printed.reverse

/-- The items of a trace without its tokens. -/
def unprinted (t : Trace) : Trace := ⟨[], t.items⟩

/-- The tokens of a trace without its items. -/
def withoutItems (t : Trace) : Trace := ⟨t.printed, []⟩

end Trace

/-- What a parser has still to read and what it has left behind. -/
structure ParseState where
  /-- The tokens left in the current group. -/
  tokens : List Token
  /-- Where the current group ends. -/
  groupEnd : Position
  /-- The delimiter of the current group, if it is not the whole text. -/
  enclosing : Option Delimiter
  /-- The first token found to be left over in a group. -/
  leftover : Option SyntaxError
  /-- What has been read in the current group. -/
  trace : Trace

/-- A parser that answers with a value. -/
abbrev Parser := StateT ParseState (Except SyntaxError)

namespace Parser

variable {α β : Type}

/-! ## Errors -/

/-- The position of the next token, or of the end of the group. -/
def here : Parser Position := do
  let s ← get
  return (s.tokens.head?.map Token.position).getD s.groupEnd

/-- Fails at the next token with exactly this message. -/
def failHere (message : String) : Parser α := do throw ⟨← here, message⟩

/-- Fails at the next token, and says so if nothing is left. -/
def fail (message : String) : Parser α := do
  let s ← get
  failHere (if s.tokens.isEmpty then "unexpected end of input, " ++ message else message)

/-- Fails where one of several things may stand; those that are there, but are not enough, are not
mentioned. -/
def failExpecting (expected : List Expectation) : Parser α := do
  let tokens := (← get).tokens
  match (expected.filter fun e => !e.test tokens).map (·.description) with
  | [] => failHere (if tokens.isEmpty then "unexpected end of input" else "unexpected token")
  | [a] => fail s!"expected {a}"
  | [a, b] => fail s!"expected {a} or {b}"
  | many => fail ("expected one of: " ++ ", ".intercalate many)

/-! ## Looking ahead -/

/-- Whether a test succeeds on the tokens that are left. -/
def peek (test : Peek) : Parser Bool := do return test (← get).tokens

/-- Whether nothing is left in the group. -/
def atEnd : Parser Bool := peek Peek.atEnd

/-- Whether a parser would succeed here; nothing is read. -/
def wouldSucceed (p : Parser α) : Parser Bool := do
  match p.run (← get) with
  | .ok _ => return true
  | .error _ => return false

/-- Runs a parser; where it fails, nothing is read. -/
def attempt (p : Parser α) : Parser (Option α) := do
  match p.run (← get) with
  | .ok (a, s) => set s; return some a
  | .error _ => return none

/-! ## Traces -/

/-- Leaves a trace. -/
def leave (t : Trace) : Parser Unit := modify fun s => { s with trace := s.trace.append t }

/-- Leaves tokens as read. -/
def emit (tokens : List Token) : Parser Unit := leave (.ofTokens tokens)

/-- Leaves an item as met. -/
def recordItem (i : Item) : Parser Unit := leave ⟨[], [i]⟩

/-- Runs a parser and hands over its trace beside its value, instead of leaving it. -/
def tracing (p : Parser α) : Parser (α × Trace) := do
  let before := (← get).trace
  modify ({ · with trace := .empty })
  let a ← p
  let t := (← get).trace
  modify ({ · with trace := before })
  return (a, t)

/-- The tokens that a parser reads, as they are printed, beside its value. -/
def printing (p : Parser α) : Parser (α × List Token) := do
  let (a, t) ← tracing p
  leave t
  return (a, t.tokens)

/-- Runs a parser and leaves given tokens as what it read. -/
def printedAs (tokens : α → List Token) (p : Parser α) : Parser α := do
  let (a, t) ← tracing p
  leave t.unprinted
  emit (tokens a)
  return a

/-- Runs a parser and prints nothing of what it reads. -/
def unprinted (p : Parser α) : Parser α := printedAs (fun _ => []) p

/-- The items that a parser comes across, beside its value; they are not left. -/
def nesting (p : Parser α) : Parser (α × List Item) := do
  let (a, t) ← tracing p
  leave t.withoutItems
  return (a, t.items.reverse)

/-- Runs a parser of several elements and leaves no trace of it if there are none. -/
def unlessEmpty (p : Parser (List α)) : Parser (List α) := do
  let (elements, t) ← tracing p
  unless elements.isEmpty do leave t
  return elements

/-- The tokens of the source that have been read since some tokens were left. -/
def sourceSince (tokens : List Token) : Parser (List Token) := do
  return tokens.take (tokens.length - (← get).tokens.length)

/-- Runs a parser, which answers with nothing if it cannot tell more of a construct than its
spelling. Such a construct is traced as it is written. -/
def asWrittenIfNone (p : Parser (Option α)) : Parser (Option α) := do
  let before := (← get).tokens
  let (answer, t) ← tracing p
  match answer with
  | some a => leave t; return some a
  | none => emit (← sourceSince before); return none

/-- Runs a parser whose construct is traced as it is written. -/
def asWritten (p : Parser Unit) : Parser Unit := discard <| asWrittenIfNone do
  p
  return (none : Option Unit)

/-- Runs a parser whose construct is traced as it is written unless it says that it is complete. -/
def asWrittenUnless (p : Parser Bool) : Parser Unit :=
  discard (asWrittenIfNone do return if ← p then some () else none)

/-! ## Reading tokens -/

/-- Drops the next tokens of the group. -/
def skip (count : Nat) : Parser Unit := modify fun s => { s with tokens := s.tokens.drop count }

/-- The marks of a symbol, glued to each other. -/
def symbolTokens : List Char → List Token
  | [] => []
  | [c] => [.mark c false default]
  | c :: rest => .mark c true default :: symbolTokens rest

/-- Reads a symbol. -/
def symbol (s : String) : Parser Unit := do
  if ← peek (Peek.symbol s) then
    skip s.length
    emit (symbolTokens s.toList)
  else failHere s!"expected {Expectation.ticked s}"

/-- Reads a symbol if it is there. -/
def optionalSymbol (s : String) : Parser Bool := do
  if ← peek (Peek.symbol s) then symbol s; return true else return false

/-- Reads a given word. -/
def keyword (w : String) : Parser Unit := do
  if ← peek (Peek.keyword w) then
    skip 1
    emit [.word w default]
  else fail s!"expected {Expectation.ticked w}"

/-- Reads a given word if it is there. -/
def optionalKeyword (w : String) : Parser Bool := do
  if ← peek (Peek.keyword w) then keyword w; return true else return false

/-- Reads any word. -/
def anyWord : Parser String := do
  match (← get).tokens with
  | .word v _ :: _ =>
    skip 1
    emit [.word v default]
    return v
  | _ => fail "expected ident"

/-- Reads a name. -/
def name : Parser String := do
  match (← get).tokens with
  | .word v _ :: _ =>
    if Peek.reservedWords.contains v then
      fail s!"expected identifier, found keyword {Expectation.ticked v}"
    else anyWord
  | _ => fail "expected identifier"

/-- Reads a name or one of some other words. -/
def nameOr (words : List String) : Parser String := do
  if ← peek (Peek.oneKeyword words) then anyWord else name

/-- Reads a lifetime and answers with its name. -/
def lifetime : Parser String := do
  match Peek.lifetime (← get).tokens, (← get).tokens with
  | true, _ :: .word v _ :: _ =>
    skip 2
    emit (TypeExpr.lifetimeTokens v)
    return v
  | _, _ => fail "expected lifetime"

/-- Reads a lifetime if it is there. -/
def optionalLifetime : Parser (Option String) := do
  if ← peek Peek.lifetime then return some (← lifetime) else return none

/-- Reads a literal and answers with its spelling; a minus sign is part of a negative number. -/
def literal : Parser String := do
  match Peek.literal (← get).tokens, (← get).tokens with
  | true, .literal text _ :: _ =>
    skip 1
    emit [.literal text default]
    return text
  | true, .word v _ :: _ =>
    skip 1
    emit [.word v default]
    return v
  | true, .mark .. :: .literal text _ :: _ =>
    skip 2
    emit [.literal ("-" ++ text) default]
    return "-" ++ text
  | _, _ => fail "expected literal"

/-- Reads a string literal and answers with its value. -/
def stringLiteral : Parser String := do
  match (← get).tokens with
  | .literal text p :: _ =>
    if Peek.stringLiteral [.literal text p] then
      discard literal
      return (StringLiteral.value? text).getD ""
    else fail "expected string literal"
  | _ => fail "expected string literal"

/-- The number of a field as a token. -/
def fieldNumberToken (n : Nat) : Token := .literal (toString n) default

/-- Reads the number of a field, which is printed in base ten. -/
def fieldNumber : Parser Nat := do
  let p ← here
  match Peek.number? (← get).tokens with
  | some (negative, .whole value suffix) =>
    match NumberLiteral.fieldNumber negative value suffix with
    | .ok n =>
      skip (if negative then 2 else 1)
      emit [fieldNumberToken n]
      return n
    | .error message => throw ⟨p, message⟩
  | _ => fail "expected integer literal"

/-- The error for tokens left over at the front of a group. -/
def unexpectedToken (enclosing : Option Delimiter) (p : Position) : SyntaxError :=
  match enclosing with
  | none => ⟨p, "unexpected token"⟩
  | some d => ⟨p, s!"unexpected token, expected {Expectation.ticked d.closing}"⟩

/-- Reads a group with a given delimiter, its content with a given parser, and then what follows it.
A token left over in the group is only reported if none is left over in what follows. -/
def groupThen (d : Delimiter) (p : Parser α) (next : α → Parser β) : Parser β := do
  let s ← get
  match s.tokens with
  | .group e content opening closing :: rest =>
    if d = e then
      let (a, t) ← p.run ⟨content, closing, some d, s.leftover, .empty⟩
      set { s with tokens := rest, leftover := t.leftover }
      leave ⟨[.group d t.trace.tokens opening closing], t.trace.items⟩
      let b ← next a
      let left := t.tokens.head?.map fun token => unexpectedToken (some d) token.position
      modify fun s => { s with leftover := s.leftover <|> left }
      return b
    else fail s!"expected {d.describe}"
  | _ => fail s!"expected {d.describe}"

/-- Reads a group with a given delimiter, its content with a given parser. -/
def group (d : Delimiter) (p : Parser α) : Parser α := groupThen d p pure

/-- Reads a group with any delimiter as it stands. -/
def anyGroup : Parser (Delimiter × List Token) := do
  match (← get).tokens with
  | .group d content opening closing :: _ =>
    skip 1
    emit [.group d content opening closing]
    return (d, content)
  | _ => fail "expected delimiter"

/-- Reads a group with a given delimiter as it stands. -/
def wholeGroup (d : Delimiter) : Parser Unit := do
  if ← peek (Peek.group d) then discard anyGroup else fail s!"expected {d.describe}"

/-! ## Repetition -/

/-- Runs a parser until it answers with nothing, at most `fuel` times. -/
def repeatWithin (p : Parser (Option α)) : Nat → Parser (List α)
  | 0 => return []
  | fuel + 1 => do
    match ← p with
    | none => return []
    | some a => return a :: (← repeatWithin p fuel)

/-- Runs a parser until it answers with nothing. Each run but the last has to read a token. -/
def many (p : Parser (Option α)) : Parser (List α) := do
  repeatWithin p ((← get).tokens.length + 1)

/-- Runs a parser as long as a test succeeds. -/
def manyWhile (test : Peek) (p : Parser α) : Parser (List α) :=
  many do if ← peek test then return some (← p) else return none

/-- Runs a parser until the end of the group. -/
def manyToEnd (p : Parser α) : Parser (List α) :=
  many do if ← atEnd then return none else return some (← p)

/-- Elements with a separator between them, up to the place where a test succeeds. A separator may
follow the last element; the answer says whether one does. -/
def separatedUntil (stop : Peek) (separator : String) (p : Parser α) : Parser (List α × Bool) := do
  let elements ← many do
    if ← peek stop then return none
    let a ← p
    if ← peek stop then return some (a, false)
    symbol separator
    return some (a, true)
  return (elements.map (·.1), (elements.getLast?.map (·.2)).getD false)

/-- Elements with commas between them, up to the end of the group. -/
def commaSeparated (p : Parser α) : Parser (List α × Bool) := separatedUntil Peek.atEnd "," p

/-- Elements up to the place where a test succeeds or where no separator follows an element. -/
def chainUntil (stop : Peek) (separator : String) (p : Parser α) : Parser (List α) := do
  if ← peek stop then return []
  let first ← p
  let others ← many do
    if ← optionalSymbol separator then
      if ← peek stop then return none
      return some (← p)
    else return none
  return first :: others

/-! ## Running a parser -/

/-- Runs a parser on a whole token sequence, nothing of which may be left over. -/
def runAll (p : Parser α) (tokens : List Token) : Except SyntaxError (α × List Item) := do
  let (a, s) ← p.run ⟨tokens, .start, none, none, .empty⟩
  match s.leftover, s.tokens with
  | some e, _ => throw e
  | none, t :: _ => throw (unexpectedToken none t.position)
  | none, [] => return (a, s.trace.items.reverse)

end Parser

end ApiDecl.Syntax
