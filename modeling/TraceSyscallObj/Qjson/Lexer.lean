import TraceSyscallObj.Lib.Transduce

/-!
# The JSON lexer and the message streamer

Model of `qobject/json-lexer.c` and `qobject/json-streamer.c`.  The lexer's callback only changes
the streamer, so a character takes the lexer to its next state and a list of tokens, and the
streamer then takes the tokens one by one.  Where the streamer hands a token list on, the model
also notes whether it did so because of its limits.

* `jsonLexer`: the transition table;
* `jsonLexerFeedChar`: one character;
* `processToken`: one token; what is handed to the parser is `some tokens`, or `none` for the null
  list;
* `jsonMessageParserFeed`, `jsonMessageParserFlush`: the message parser;
* `feedAll_eq`: all tokens of the calls may be made first, and then be handed on.
-/

namespace Qjson

abbrev Byte := BitVec 8

/-! ## the lexer -/

inductive State
  | inError
  | inDqUcode3
  | inDqUcode2
  | inDqUcode1
  | inDqUcode0
  | inDqStringEscape
  | inDqString
  | inSqUcode3
  | inSqUcode2
  | inSqUcode1
  | inSqUcode0
  | inSqStringEscape
  | inSqString
  | inZero
  | inDigits
  | inDigit
  | inExpE
  | inMantissa
  | inMantissaDigits
  | inNonzeroNumber
  | inNegNonzeroNumber
  | inKeyword
  | inEscape
  | inEscapeL
  | inEscapeLL
  | inEscapeI
  | inEscapeI6
  | inEscapeI64
  | inWhitespace
  | inStart
  deriving DecidableEq

inductive Terminal
  | operator
  | integer
  | float
  | keyword
  | string
  | escape
  | skip
  deriving DecidableEq

inductive Next
  | state (s : State)
  | terminal (t : Terminal)
  deriving DecidableEq

/-- the type of a token; an oversized token has the lexer's state as its type -/
inductive TokenType
  | terminal (t : Terminal)
  | error
  | state (s : State)
  deriving DecidableEq

abbrev Digit (n : Nat) : Prop := 0x30 ≤ n ∧ n ≤ 0x39
abbrev HexDigit (n : Nat) : Prop := Digit n ∨ (0x61 ≤ n ∧ n ≤ 0x66) ∨ (0x41 ≤ n ∧ n ≤ 0x46)
abbrev Lower (n : Nat) : Prop := 0x61 ≤ n ∧ n ≤ 0x7A
/-- blank, tab, carriage return, newline -/
abbrev White (n : Nat) : Prop := n = 0x20 ∨ n = 0x09 ∨ n = 0x0D ∨ n = 0x0A
/-- the characters of `TERMINAL` -/
abbrev Ascii (n : Nat) : Prop := n ≤ 0x7F

def ucode (next : State) (n : Nat) : Next :=
  if HexDigit n then .state next else .state .inError

/-- after a backslash: b f n r t ' " stay in the string, / and \ go to `slash`, u to `code` -/
def stringEscape (string slash code : State) (n : Nat) : Next :=
  if n = 0x62 ∨ n = 0x66 ∨ n = 0x6E ∨ n = 0x72 ∨ n = 0x74 ∨ n = 0x27 ∨ n = 0x22 then .state string
  else if n = 0x2F ∨ n = 0x5C then .state slash
  else if n = 0x75 then .state code
  else .state .inError

/-- the characters of a string that ends at `quote` -/
def stringChar (string escape : State) (quote n : Nat) : Next :=
  if n = quote then .terminal .string
  else if n = 0x5C then .state escape
  else if (1 ≤ n ∧ n ≤ 0xBF) ∨ (0xC2 ≤ n ∧ n ≤ 0xF4) then .state string
  else .state .inError

def jsonLexer (s : State) (c : Byte) : Next :=
  let n := c.toNat
  match s with
  | .inError => .state .inError
  | .inDqUcode3 => ucode .inDqString n
  | .inDqUcode2 => ucode .inDqUcode3 n
  | .inDqUcode1 => ucode .inDqUcode2 n
  | .inDqUcode0 => ucode .inDqUcode1 n
  | .inDqStringEscape => stringEscape .inDqString .inDqString .inDqUcode0 n
  | .inDqString => stringChar .inDqString .inDqStringEscape 0x22 n
  | .inSqUcode3 => ucode .inSqString n
  | .inSqUcode2 => ucode .inSqUcode3 n
  | .inSqUcode1 => ucode .inSqUcode2 n
  | .inSqUcode0 => ucode .inSqUcode1 n
  -- the table has `IN_DQ_STRING` for / and \ here
  | .inSqStringEscape => stringEscape .inSqString .inDqString .inSqUcode0 n
  | .inSqString => stringChar .inSqString .inSqStringEscape 0x27 n
  | .inZero =>
    if Digit n then .state .inError
    else if n = 0x2E then .state .inMantissa
    else if Ascii n then .terminal .integer
    else .state .inError
  | .inDigits =>
    if Digit n then .state .inDigits
    else if Ascii n then .terminal .float
    else .state .inError
  | .inDigit => if Digit n then .state .inDigits else .state .inError
  | .inExpE =>
    if n = 0x2D ∨ n = 0x2B then .state .inDigit
    else if Digit n then .state .inDigits
    else .state .inError
  | .inMantissaDigits =>
    if Digit n then .state .inMantissaDigits
    else if n = 0x65 ∨ n = 0x45 then .state .inExpE
    else if Ascii n then .terminal .float
    else .state .inError
  | .inMantissa => if Digit n then .state .inMantissaDigits else .state .inError
  | .inNonzeroNumber =>
    if Digit n then .state .inNonzeroNumber
    else if n = 0x65 ∨ n = 0x45 then .state .inExpE
    else if n = 0x2E then .state .inMantissa
    else if Ascii n then .terminal .integer
    else .state .inError
  | .inNegNonzeroNumber =>
    if n = 0x30 then .state .inZero
    else if Digit n then .state .inNonzeroNumber
    else .state .inError
  | .inKeyword =>
    if Lower n then .state .inKeyword
    else if Ascii n then .terminal .keyword
    else .state .inError
  | .inWhitespace =>
    if White n then .state .inWhitespace
    else if Ascii n then .terminal .skip
    else .state .inError
  | .inEscapeLL => if n = 0x64 then .terminal .escape else .state .inError
  | .inEscapeL =>
    if n = 0x64 then .terminal .escape
    else if n = 0x6C then .state .inEscapeLL
    else .state .inError
  | .inEscapeI64 => if n = 0x64 then .terminal .escape else .state .inError
  | .inEscapeI6 => if n = 0x34 then .state .inEscapeI64 else .state .inError
  | .inEscapeI => if n = 0x36 then .state .inEscapeI6 else .state .inError
  -- % then one of d i p s f, or l, or I
  | .inEscape =>
    if n = 0x64 ∨ n = 0x69 ∨ n = 0x70 ∨ n = 0x73 ∨ n = 0x66 then .terminal .escape
    else if n = 0x6C then .state .inEscapeL
    else if n = 0x49 then .state .inEscapeI
    else .state .inError
  | .inStart =>
    if n = 0x22 then .state .inDqString
    else if n = 0x27 then .state .inSqString
    else if n = 0x30 then .state .inZero
    else if Digit n then .state .inNonzeroNumber
    else if n = 0x2D then .state .inNegNonzeroNumber
    -- { } [ ] , :
    else if n = 0x7B ∨ n = 0x7D ∨ n = 0x5B ∨ n = 0x5D ∨ n = 0x2C ∨ n = 0x3A then
      .terminal .operator
    else if Lower n then .state .inKeyword
    else if n = 0x25 then .state .inEscape
    else if White n then .state .inWhitespace
    else .state .inError

structure Token where
  type : TokenType
  text : List Byte
  x : Nat
  y : Nat
  deriving DecidableEq

structure Lexer where
  state : State
  token : List Byte
  x : Nat
  y : Nat
  deriving DecidableEq

def maxTokenSize : Nat := 64 <<< 20

def jsonLexerInit : Lexer := { state := .inStart, token := [], x := 0, y := 0 }

def terminalNeededLookahead (oldState : State) (terminal : Next) : Bool :=
  jsonLexer oldState 0 == terminal

def Lexer.reset (lexer : Lexer) : Lexer := { lexer with state := .inStart, token := [] }

def Lexer.emit (lexer : Lexer) (type : TokenType) : Token :=
  { type := type, text := lexer.token, x := lexer.x, y := lexer.y }

/-- the `do` loop: the lexer, the tokens, and whether the function returned from inside -/
def feedLoop (ch : Byte) (flush : Bool) : Nat → Lexer → Lexer × List Token × Bool
  | 0, lexer => (lexer, [], false)
  | fuel + 1, lexer =>
    let newState := jsonLexer lexer.state ch
    let charConsumed := !terminalNeededLookahead lexer.state newState
    let lexer := { lexer with token := if charConsumed then lexer.token ++ [ch] else lexer.token }
    match newState with
    | .state .inError => (lexer.reset, [lexer.emit .error], true)
    | .state s =>
      let lexer := { lexer with state := s }
      if !charConsumed && !flush then feedLoop ch flush fuel lexer else (lexer, [], false)
    | .terminal t =>
      let out := if t = .skip then [] else [lexer.emit (.terminal t)]
      if !charConsumed && !flush then
        let (lexer, out', returned) := feedLoop ch flush fuel lexer.reset
        (lexer, out ++ out', returned)
      else (lexer.reset, out, false)

/-! ### the turns of the loop -/

section
variable {ch : Byte} {flush : Bool} {n : Nat} {l : Lexer} {s : State} {t : Terminal}

lemma eq_inError_of_lookahead {s' : State} (h : terminalNeededLookahead s (.state s') = true) :
    s' = .inError := by
  have h0 : jsonLexer s 0 = .state s' := beq_iff_eq.mp h
  cases s <;> cases h0 <;> rfl

lemma lookahead_start (t : Terminal) : terminalNeededLookahead .inStart (.terminal t) = false :=
  rfl

def Lexer.accept (l : Lexer) (t : Terminal) : List Token :=
  if t = .skip then [] else [l.emit (.terminal t)]

def Lexer.push (l : Lexer) (ch : Byte) : Lexer := { l with token := l.token ++ [ch] }

lemma feedLoop_goto (h : jsonLexer l.state ch = .state s) (hs : s ≠ .inError) :
    feedLoop ch flush (n + 1) l = ({ l.push ch with state := s }, [], false) := by
  have hl : terminalNeededLookahead l.state (.state s) = false := by
    cases hl : terminalNeededLookahead l.state (.state s) with
    | false => rfl
    | true => exact absurd (eq_inError_of_lookahead hl) hs
  unfold feedLoop
  simp only [h, hl]
  cases s <;> rfl

lemma feedLoop_accept (h : jsonLexer l.state ch = .terminal t)
    (hl : terminalNeededLookahead l.state (.terminal t) = false) :
    feedLoop ch flush (n + 1) l = (l.reset, (l.push ch).accept t, false) := by
  unfold feedLoop
  simp only [h, hl]
  rfl

section
variable (h : jsonLexer l.state ch = .terminal t)
  (hl : terminalNeededLookahead l.state (.terminal t) = true)
include h hl

lemma feedLoop_lookahead : feedLoop ch false (n + 1) l = ((feedLoop ch false n l.reset).1,
      l.accept t ++ (feedLoop ch false n l.reset).2.1, (feedLoop ch false n l.reset).2.2) := by
  unfold feedLoop
  simp only [h, hl]
  cases n <;> rfl

lemma feedLoop_flush : feedLoop ch true (n + 1) l = (l.reset, l.accept t, false) := by
  unfold feedLoop
  simp only [h, hl]
  rfl

end

/-- the lexer whose text is the text of an error token -/
def Lexer.bad (l : Lexer) (ch : Byte) : Lexer :=
  if terminalNeededLookahead l.state (.state .inError) then l else l.push ch

lemma feedLoop_error (h : jsonLexer l.state ch = .state .inError) :
    feedLoop ch flush (n + 1) l = (l.reset, [(l.bad ch).emit .error], true) := by
  unfold feedLoop Lexer.bad
  cases hl : terminalNeededLookahead l.state (.state .inError) with
  | false =>
    simp only [h, hl]
    rfl
  | true =>
    simp only [h, hl]
    rfl

end

/-- the second turn starts in `inStart` and is the last one -/
lemma feedLoop_start (ch : Byte) (flush : Bool) (n : Nat) {l : Lexer}
    (hs : l.state = .inStart) : feedLoop ch flush (n + 1) l = feedLoop ch flush 1 l := by
  cases h : jsonLexer l.state ch with
  | terminal t =>
    have hl : terminalNeededLookahead l.state (.terminal t) = false := hs ▸ lookahead_start t
    rw [feedLoop_accept h hl, feedLoop_accept h hl]
  | state s =>
    by_cases he : s = .inError
    · rw [feedLoop_error (he ▸ h), feedLoop_error (he ▸ h)]
    · rw [feedLoop_goto h he, feedLoop_goto h he]

/-- line and column after a character -/
def Lexer.advance (l : Lexer) (ch : Byte) : Lexer :=
  if ch = 0x0A then { l with x := 0, y := l.y + 1 } else { l with x := l.x + 1 }

/-- the check for an oversized token after the loop -/
def limitToken (r : Lexer × List Token × Bool) : Lexer × List Token :=
  if r.2.2 then (r.1, r.2.1)
  else if r.1.token.length > maxTokenSize then
    (r.1.reset, r.2.1 ++ [r.1.emit (.state r.1.state)])
  else (r.1, r.2.1)

/-- by `feedLoop_start` a third turn of the loop would change nothing -/
def jsonLexerFeedChar (l : Lexer) (ch : Byte) (flush : Bool) : Lexer × List Token :=
  limitToken (feedLoop ch flush 2 (l.advance ch))

/-! ## the streamer -/

def maxNesting : Int := 1024

structure Streamer where
  braceCount : Int
  bracketCount : Int
  tokens : List Token
  tokenSize : Nat

/-- what is handed to the parser; `limit` if it is because of the streamer's limits -/
structure Emitted where
  tokens : Option (List Token)
  limit : Bool

def Streamer.init : Streamer := { braceCount := 0, bracketCount := 0, tokens := [], tokenSize := 0 }

/-- how a token changes the number of open braces -/
def brace (token : Token) : Int :=
  if token.type = .terminal .operator then
    if token.text.head? = some 0x7B then 1 else if token.text.head? = some 0x7D then -1 else 0
  else 0

def bracket (token : Token) : Int :=
  if token.type = .terminal .operator then
    if token.text.head? = some 0x5B then 1 else if token.text.head? = some 0x5D then -1 else 0
  else 0

/-- `json_message_process_token` -/
def processToken (parser : Streamer) (token : Token) : Streamer × List Emitted :=
  let braceCount := parser.braceCount + brace token
  let bracketCount := parser.bracketCount + bracket token
  let tokenSize := parser.tokenSize + token.text.length
  let tokens := parser.tokens ++ [token]
  if token.type = .error then
    (.init, [{ tokens := none, limit := false }])
  else if braceCount < 0 ∨ bracketCount < 0 ∨ (braceCount = 0 ∧ bracketCount = 0) then
    (.init, [{ tokens := some tokens, limit := false }])
  else if tokenSize > maxTokenSize ∨ bracketCount > maxNesting ∨ braceCount > maxNesting then
    (.init, [{ tokens := some tokens, limit := true }])
  else
    ({ braceCount := braceCount, bracketCount := bracketCount, tokens := tokens,
       tokenSize := tokenSize }, [])

/-! ## the message parser -/

structure MessageParser where
  lexer : Lexer
  streamer : Streamer

def jsonMessageParserInit : MessageParser := { lexer := jsonLexerInit, streamer := .init }

def feedChar (parser : MessageParser) (ch : Byte) (flush : Bool) : MessageParser × List Emitted :=
  let (lexer, tokens) := jsonLexerFeedChar parser.lexer ch flush
  let (streamer, out) := Transduce.run processToken parser.streamer tokens
  ({ lexer := lexer, streamer := streamer }, out)

def jsonMessageParserFeed (parser : MessageParser) (buffer : List Byte) :
    MessageParser × List Emitted :=
  Transduce.run (feedChar · · false) parser buffer

def jsonMessageParserFlush (parser : MessageParser) : MessageParser × List Emitted :=
  if parser.lexer.state = .inStart then (parser, []) else feedChar parser 0 true

inductive Input
  | feed (buffer : List Byte)
  | flush

def Input.apply (parser : MessageParser) : Input → MessageParser × List Emitted
  | .feed buffer => jsonMessageParserFeed parser buffer
  | .flush => jsonMessageParserFlush parser

/-- a sequence of calls, and all that is handed to the parser -/
def feedAll (parser : MessageParser) (inputs : List Input) : MessageParser × List Emitted :=
  Transduce.run Input.apply parser inputs

/-! ## lexer and streamer in turn -/

def Input.lex (lexer : Lexer) : Input → Lexer × List Token
  | .feed buffer => Transduce.run (jsonLexerFeedChar · · false) lexer buffer
  | .flush => if lexer.state = .inStart then (lexer, []) else jsonLexerFeedChar lexer 0 true

def lexAll (inputs : List Input) : List Token :=
  (Transduce.run Input.lex jsonLexerInit inputs).2

def MessageParser.ofParts (parts : Lexer × Streamer) : MessageParser :=
  { lexer := parts.1, streamer := parts.2 }

lemma apply_parts (parts : Lexer × Streamer) (input : Input) :
    input.apply (.ofParts parts) = (.ofParts (Transduce.comp Input.lex processToken parts input).1,
      (Transduce.comp Input.lex processToken parts input).2) := by
  cases input with
  | feed buffer =>
    have h : Transduce.run (feedChar · · false) (.ofParts parts) buffer =
        (.ofParts (Transduce.run (Transduce.comp (jsonLexerFeedChar · · false) processToken)
            parts buffer).1,
          (Transduce.run (Transduce.comp (jsonLexerFeedChar · · false) processToken)
            parts buffer).2) :=
      Transduce.run_map (fun _ _ => rfl) parts buffer
    rw [Transduce.run_comp] at h
    exact h
  | flush =>
    show jsonMessageParserFlush _ = _
    unfold jsonMessageParserFlush
    by_cases hs : parts.1.state = .inStart
    · rw [if_pos (show (MessageParser.ofParts parts).lexer.state = .inStart from hs)]
      unfold Transduce.comp Input.lex
      simp only [if_pos hs, Transduce.run_nil]
    · rw [if_neg (show (MessageParser.ofParts parts).lexer.state ≠ .inStart from hs)]
      unfold Transduce.comp Input.lex
      simp only [if_neg hs]
      rfl

lemma feedAll_eq (inputs : List Input) : (feedAll jsonMessageParserInit inputs).2 =
    (Transduce.run processToken .init (lexAll inputs)).2 := by
  have h := Transduce.run_map apply_parts (jsonLexerInit, Streamer.init) inputs
  rw [Transduce.run_comp] at h
  exact congrArg Prod.snd h

end Qjson
