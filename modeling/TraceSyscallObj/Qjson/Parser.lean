import TraceSyscallObj.Qjson.Lexer

/-!
# The JSON parser

Model of `qobject/json-parser.c` and of the dictionary of `qobject/qdict.c`.  A context is what is
left of the token list; saving and restoring it is keeping that list.  The functions that parse
composite values take `parse_value` as an argument, and `parseValue` ties the knot, with the
nesting depth it may still go down to as fuel.

* `QObject`: the values; a dictionary is its entries in the order of `qdict_iter`;
* `qdictPutObj`: replaces the value of a key or puts a new entry at the head of its bucket;
* `unescape`: `qstring_from_escaped_str`;
* `parsePair`, `parseObject`, `parseArray`, `parseKeyword`, `parseEscape`, `parseLiteral`;
* `jsonParserParse`: `json_parser_parse`.
-/

namespace Qjson

/-! ## objects -/

/-- a double, kept as the text it was read from -/
structure Double where
  text : List Byte

inductive QObject
  | int (value : BitVec 64)
  | float (value : Double)
  | bool (value : Bool)
  | string (value : List Byte)
  | list (items : List QObject)
  | dict (entries : List (List Byte × QObject))

abbrev Entries := List (List Byte × QObject)

/-- the sum of the characters, each shifted by `i * 5 % 24` -/
def tdbHashLoop : List Byte → Nat → BitVec 32 → BitVec 32
  | [], _, value => value
  | c :: name, i, value => tdbHashLoop name (i + 1) (value + c.setWidth 32 <<< (i * 5 % 24))

def tdbHash (name : List Byte) : BitVec 32 :=
  1103515243#32 * tdbHashLoop name 0 (0x238F13AF#32 * BitVec.ofNat 32 name.length) + 12345#32

/-- the bucket of a key, of `QDICT_BUCKET_MAX` -/
def bucket (key : List Byte) : Nat := (tdbHash key).toNat % 512

/-- a new entry goes before the entries of its own and of later buckets -/
def insertEntry (key : List Byte) (value : QObject) : Entries → Entries
  | [] => [(key, value)]
  | e :: es =>
    if bucket key ≤ bucket e.1 then (key, value) :: e :: es else e :: insertEntry key value es

def replaceEntry (key : List Byte) (value : QObject) : Entries → Entries
  | [] => []
  | e :: es => if e.1 = key then (e.1, value) :: es else e :: replaceEntry key value es

def qdictPutObj (entries : Entries) (key : List Byte) (value : QObject) : Entries :=
  if key ∈ entries.map Prod.fst then replaceEntry key value entries
  else insertEntry key value entries

/-! ## the context -/

inductive Fault
  /-- `g_assert(pos < count)` -/
  | assertion
  | fuel
  deriving DecidableEq

inductive ParseError
  | keyNotString
  | missingColon
  | missingValue
  | separatorInDict
  | expectingValue
  | separatorInList
  | invalidKeyword (value : List Byte)
  | invalidHex
  | invalidEscape

structure Ctx where
  tokens : List Token
  /-- number of arguments taken from the `va_list` -/
  taken : Nat
  err : Option ParseError

def parserContextPopToken (c : Ctx) : Except Fault (Token × Ctx) :=
  match c.tokens with
  | [] => .error .assertion
  | token :: tokens => .ok (token, { c with tokens := tokens })

def parserContextPeekToken (c : Ctx) : Except Fault Token :=
  match c.tokens with
  | [] => .error .assertion
  | token :: _ => .ok token

def Ctx.restore (c : Ctx) (saved : Ctx) : Ctx := { c with tokens := saved.tokens }

def Ctx.parseError (c : Ctx) (e : ParseError) : Ctx := { c with err := some e }

/-- `val[0] == op && val[1] == 0` -/
def tokenIsOperator (token : Token) (op : Byte) : Bool :=
  token.type == .terminal .operator && token.text.getD 0 0 == op && token.text.getD 1 0 == 0

def tokenIsKeyword (token : Token) (value : List Byte) : Bool :=
  token.type == .terminal .keyword && token.text == value

def tokenIsEscape (token : Token) (value : List Byte) : Bool :=
  token.type == .terminal .escape && token.text == value

/-! ## strings and numbers -/

def bytes (s : String) : List Byte := s.toList.map fun c => BitVec.ofNat 8 c.toNat

def wcharToUtf8 (wchar : Nat) : List Byte :=
  if wchar ≤ 0x007F then [BitVec.ofNat 8 (wchar &&& 0x7F)]
  else if wchar ≤ 0x07FF then
    [BitVec.ofNat 8 (0xC0 ||| ((wchar >>> 6) &&& 0x1F)), BitVec.ofNat 8 (0x80 ||| (wchar &&& 0x3F))]
  else
    [BitVec.ofNat 8 (0xE0 ||| ((wchar >>> 12) &&& 0x0F)),
     BitVec.ofNat 8 (0x80 ||| ((wchar >>> 6) &&& 0x3F)), BitVec.ofNat 8 (0x80 ||| (wchar &&& 0x3F))]

def hex2decimal (ch : Byte) : Nat :=
  let n := ch.toNat
  if Digit n then n - 0x30
  else if 0x61 ≤ n ∧ n ≤ 0x66 then 10 + (n - 0x61)
  else 10 + (n - 0x41)

/-- the character for a one-letter escape: " ' \ / b f n r t -/
def simpleEscape (n : Nat) : Option Nat :=
  if n = 0x22 ∨ n = 0x27 ∨ n = 0x5C ∨ n = 0x2F then some n
  else if n = 0x62 then some 0x08
  else if n = 0x66 then some 0x0C
  else if n = 0x6E then some 0x0A
  else if n = 0x72 then some 0x0D
  else if n = 0x74 then some 0x09
  else none

/-- the loop of `qstring_from_escaped_str` up to the quote; the end of the list is the NUL -/
def unescapeLoop (quote : Nat) : List Byte → List Byte → Except ParseError (List Byte)
  | [], str => .ok str
  | c :: ptr, str =>
    if c.toNat = 0 ∨ c.toNat = quote then .ok str
    else if c.toNat = 0x5C then
      match ptr with
      | [] => .error .invalidEscape
      | e :: ptr =>
        match simpleEscape e.toNat with
        | some n => unescapeLoop quote ptr (str ++ [BitVec.ofNat 8 n])
        | none =>
          if e.toNat = 0x75 then
            match ptr with
            | h3 :: h2 :: h1 :: h0 :: ptr =>
              if HexDigit h3.toNat ∧ HexDigit h2.toNat ∧ HexDigit h1.toNat ∧ HexDigit h0.toNat then
                let unicodeChar := hex2decimal h3 <<< 12 ||| hex2decimal h2 <<< 8 |||
                  hex2decimal h1 <<< 4 ||| hex2decimal h0
                -- U+0000 is written as a NUL, so nothing is appended for it
                unescapeLoop quote ptr (str ++ (wcharToUtf8 unicodeChar).takeWhile (· ≠ 0))
              else .error .invalidHex
            | _ => .error .invalidHex
          else .error .invalidEscape
    else unescapeLoop quote ptr (str ++ [c])

def unescape (text : List Byte) : Except ParseError (List Byte) :=
  unescapeLoop (if (text.getD 0 0).toNat = 0x22 then 0x22 else 0x27) text.tail []

def digitsValue (text : List Byte) : Nat :=
  (text.takeWhile fun c => decide (Digit c.toNat)).foldl (fun v c => v * 10 + (c.toNat - 0x30)) 0

/-- `strtoll` on the text of an integer token; `none` for `ERANGE` -/
def strtoll (text : List Byte) : Option Int :=
  let v : Int := if (text.getD 0 0).toNat = 0x2D then -(digitsValue text.tail : Int)
    else (digitsValue text : Int)
  if -9223372036854775808 ≤ v ∧ v ≤ 9223372036854775807 then some v else none

/-! ## the grammar -/

/-- an argument of the `va_list`, as it is read at each type -/
structure Arg where
  pointer : Option QObject
  int : BitVec 32
  long : BitVec 64
  string : List Byte
  double : Double

section
variable (ap : Option (Nat → Arg)) (parseValue : Ctx → Except Fault (Option QObject × Ctx))

def parsePair (dict : Entries) (c : Ctx) : Except Fault (Option Entries × Ctx) := do
  let saved := c
  let _ ← parserContextPeekToken c
  let (key, c) ← parseValue c
  match key with
  | some (.string key) =>
    let (token, c) ← parserContextPopToken c
    if tokenIsOperator token 0x3A then
      let (value, c) ← parseValue c
      match value with
      | some value => return (some (qdictPutObj dict key value), c)
      | none => return (none, (c.parseError .missingValue).restore saved)
    else
      return (none, (c.parseError .missingColon).restore saved)
  | _ => return (none, (c.parseError .keyNotString).restore saved)

/-- the pairs after the first one; `token` follows a pair -/
def pairLoop : Nat → Token → Entries → Ctx → Except Fault (Option Entries × Ctx)
  | 0, _, _, _ => .error .fuel
  | fuel + 1, token, dict, c =>
    if tokenIsOperator token 0x7D then .ok (some dict, c)
    else if tokenIsOperator token 0x2C then do
      let (pair, c) ← parsePair parseValue dict c
      match pair with
      | some dict =>
        let (token, c) ← parserContextPopToken c
        pairLoop fuel token dict c
      | none => return (none, c)
    else .ok (none, c.parseError .separatorInDict)

def parseObject (c : Ctx) : Except Fault (Option QObject × Ctx) := do
  let saved := c
  let (token, c) ← parserContextPopToken c
  if tokenIsOperator token 0x7B then
    let peek ← parserContextPeekToken c
    if tokenIsOperator peek 0x7D then
      let (_, c) ← parserContextPopToken c
      return (some (.dict []), c)
    else
      let (pair, c) ← parsePair parseValue [] c
      match pair with
      | some dict =>
        let (token, c) ← parserContextPopToken c
        let (dict, c) ← pairLoop parseValue (c.tokens.length + 1) token dict c
        match dict with
        | some dict => return (some (.dict dict), c)
        | none => return (none, c.restore saved)
      | none => return (none, c.restore saved)
  else
    return (none, c.restore saved)

/-- the items after the first one; `token` follows an item -/
def itemLoop : Nat → Token → List QObject → Ctx → Except Fault (Option (List QObject) × Ctx)
  | 0, _, _, _ => .error .fuel
  | fuel + 1, token, list, c =>
    if tokenIsOperator token 0x5D then .ok (some list, c)
    else if tokenIsOperator token 0x2C then do
      let (obj, c) ← parseValue c
      match obj with
      | some obj =>
        let (token, c) ← parserContextPopToken c
        itemLoop fuel token (list ++ [obj]) c
      | none => return (none, c.parseError .expectingValue)
    else .ok (none, c.parseError .separatorInList)

def parseArray (c : Ctx) : Except Fault (Option QObject × Ctx) := do
  let saved := c
  let (token, c) ← parserContextPopToken c
  if tokenIsOperator token 0x5B then
    let peek ← parserContextPeekToken c
    if tokenIsOperator peek 0x5D then
      let (_, c) ← parserContextPopToken c
      return (some (.list []), c)
    else
      let (obj, c) ← parseValue c
      match obj with
      | some obj =>
        let (token, c) ← parserContextPopToken c
        let (list, c) ← itemLoop parseValue (c.tokens.length + 1) token [obj] c
        match list with
        | some list => return (some (.list list), c)
        | none => return (none, c.restore saved)
      | none => return (none, (c.parseError .expectingValue).restore saved)
  else
    return (none, c.restore saved)

def parseKeyword (c : Ctx) : Except Fault (Option QObject × Ctx) := do
  let saved := c
  let (token, c) ← parserContextPopToken c
  if token.type = .terminal .keyword then
    if tokenIsKeyword token (bytes "true") then return (some (.bool true), c)
    else if tokenIsKeyword token (bytes "false") then return (some (.bool false), c)
    else return (none, (c.parseError (.invalidKeyword token.text)).restore saved)
  else
    return (none, c.restore saved)

/-- the object that an escape makes of the next argument; `none` if the escape is not known -/
def escapeObject (token : Token) (arg : Arg) : Option (Option QObject) :=
  if tokenIsEscape token (bytes "%p") then some arg.pointer
  else if tokenIsEscape token (bytes "%i") then some (some (.bool (arg.int != 0)))
  else if tokenIsEscape token (bytes "%d") then some (some (.int (arg.int.signExtend 64)))
  else if tokenIsEscape token (bytes "%ld") then some (some (.int arg.long))
  else if tokenIsEscape token (bytes "%lld") || tokenIsEscape token (bytes "%I64d") then
    some (some (.int arg.long))
  else if tokenIsEscape token (bytes "%s") then some (some (.string arg.string))
  else if tokenIsEscape token (bytes "%f") then some (some (.float arg.double))
  else none

def parseEscape (c : Ctx) : Except Fault (Option QObject × Ctx) :=
  match ap with
  | none => .ok (none, c)
  | some args => do
    let saved := c
    let (token, c) ← parserContextPopToken c
    match escapeObject token (args c.taken) with
    | some obj => return (obj, { c with taken := c.taken + 1 })
    | none => return (none, c.restore saved)

def parseLiteral (c : Ctx) : Except Fault (Option QObject × Ctx) := do
  let saved := c
  let (token, c) ← parserContextPopToken c
  match token.type with
  | .terminal .string =>
    match unescape token.text with
    | .ok str => return (some (.string str), c)
    -- the context is not restored here
    | .error e => return (none, c.parseError e)
  | .terminal .integer =>
    match strtoll token.text with
    | some value => return (some (.int (BitVec.ofInt 64 value)), c)
    | none => return (some (.float ⟨token.text⟩), c)
  | .terminal .float => return (some (.float ⟨token.text⟩), c)
  | _ => return (none, c.restore saved)

/-- the alternatives of `parse_value`, tried in order -/
def parseAlternatives (c : Ctx) : Except Fault (Option QObject × Ctx) := do
  let (obj, c) ← parseObject parseValue c
  if obj.isSome then return (obj, c)
  let (obj, c) ← parseArray parseValue c
  if obj.isSome then return (obj, c)
  let (obj, c) ← parseEscape ap c
  if obj.isSome then return (obj, c)
  let (obj, c) ← parseKeyword c
  if obj.isSome then return (obj, c)
  parseLiteral c

end

def parseValue (ap : Option (Nat → Arg)) : Nat → Ctx → Except Fault (Option QObject × Ctx)
  | 0, _ => .error .fuel
  | depth + 1, c => parseAlternatives ap (parseValue ap depth) c

def jsonParserParseErr (tokens : Option (List Token)) (ap : Option (Nat → Arg)) :
    Except Fault (Option QObject × Option ParseError) :=
  match tokens with
  | none => .ok (none, none)
  | some [] => .ok (none, none)
  | some (t :: ts) => do
    let (result, c) ← parseValue ap (ts.length + 2) { tokens := t :: ts, taken := 0, err := none }
    return (result, c.err)

def jsonParserParse (tokens : Option (List Token)) (ap : Option (Nat → Arg)) :
    Except Fault (Option QObject) := do
  let (result, _) ← jsonParserParseErr tokens ap
  return result

/-! ## alternatives that do not apply -/

section
variable {c : Ctx} {t : Token} {ts : List Token}
  {parseValue : Ctx → Except Fault (Option QObject × Ctx)}

lemma popToken_cons (h : c.tokens = t :: ts) :
    parserContextPopToken c = .ok (t, { c with tokens := ts }) := by
  unfold parserContextPopToken
  rw [h]

section
variable (h : c.tokens = t :: ts)
include h

lemma peekToken_cons : parserContextPeekToken c = .ok t := by
  unfold parserContextPeekToken
  rw [h]

lemma parseObject_pass (ht : tokenIsOperator t 0x7B = false) :
    parseObject parseValue c = .ok (none, c) := by
  unfold parseObject
  rw [popToken_cons h]
  show (if tokenIsOperator t 0x7B then _ else _) = _
  rw [ht]
  rfl

lemma parseArray_pass (ht : tokenIsOperator t 0x5B = false) :
    parseArray parseValue c = .ok (none, c) := by
  unfold parseArray
  rw [popToken_cons h]
  show (if tokenIsOperator t 0x5B then _ else _) = _
  rw [ht]
  rfl

lemma parseKeyword_pass (ht : t.type ≠ .terminal .keyword) : parseKeyword c = .ok (none, c) := by
  unfold parseKeyword
  rw [popToken_cons h]
  show (if t.type = .terminal .keyword then _ else _) = _
  rw [if_neg ht]
  rfl

end

end

end Qjson
