import TraceSyscallObj.Qjson.Parser

/-!
# The JSON printer

Model of `to_json` in `qobject/qjson.c`, of `util/unicode.c`, and of `qobject_from_json`.  Strings
are the bytes before the NUL.  How `snprintf` writes a double is a parameter.

* `modUtf8Codepoint`: the code point at the start of a string, `none` for -1, and the rest;
* `toJson`: with the indent, and the iterators `toJsonListIter` and `toJsonDictIter`;
* `qobjectToJson`, `qobjectToJsonPretty`, `qobjectFromJson`.
-/

namespace Qjson

/-! ## code points -/

/-- the loop over the leading ones of the first byte: `mask` and `len` -/
def leadLoop (byte : Nat) : Nat → Nat → Nat → Nat × Nat
  | 0, mask, len => (mask, len)
  | fuel + 1, mask, len =>
    if byte &&& mask ≠ 0 then leadLoop byte fuel (mask >>> 1) (len + 1) else (mask, len)

/-- the loop over the continuation bytes; `none` if one is missing -/
def continuationLoop (n : Nat) : Nat → Nat → Nat → List Byte → Option Nat × List Byte
  | 0, _, cp, p => (some cp, p)
  | k + 1, i, cp, p =>
    let byte := if i < n then (p.getD 0 0).toNat else 0
    if byte &&& 0xC0 ≠ 0x80 then (none, p)
    else continuationLoop n k (i + 1) (cp <<< 6 ||| (byte &&& 0x3F)) p.tail

def minCp (len : Nat) : Nat := [0x80, 0x800, 0x10000, 0x200000, 0x4000000].getD (len - 2) 0

/-- the checks on a well-formed multi-byte sequence -/
def validCp (len cp : Nat) : Option Nat :=
  if cp > 0x10FFFF then none
  else if (cp ≥ 0xFDD0 ∧ cp ≤ 0xFDEF) ∨ cp &&& 0xFFFE = 0xFFFE then none
  else if cp ≥ 0xD800 ∧ cp ≤ 0xDFFF then none
  else if cp < minCp len ∧ ¬ (cp = 0 ∧ len = 2) then none
  else some cp

def modUtf8Codepoint (n : Nat) : List Byte → Option Nat × List Byte
  | [] => (none, [])
  | c :: p =>
    if n = 0 ∨ c.toNat = 0 then (none, c :: p)
    else if c.toNat < 0x80 then (some c.toNat, p)
    else if c.toNat ≥ 0xFE then (none, p)
    else if c.toNat &&& 0x40 = 0 then (none, p)
    else
      -- after eight turns `mask` is zero
      let (mask, len) := leadLoop c.toNat 8 0x80 0
      match continuationLoop n (len - 1) 1 (c.toNat &&& (mask - 1)) p with
      | (some cp, p) => (validCp len cp, p)
      | (none, p) => (none, p)

/-! ## strings and numbers -/

def hexDigit (n : Nat) : Byte := if n < 10 then BitVec.ofNat 8 (0x30 + n) else BitVec.ofNat 8 (0x37 + n)

/-- `\u%04X` -/
def ucodeEscape (n : Nat) : List Byte :=
  [0x5C, 0x75, hexDigit (n / 4096 % 16), hexDigit (n / 256 % 16), hexDigit (n / 16 % 16),
   hexDigit (n % 16)]

def escapeCp (cp : Option Nat) : List Byte :=
  let cp := cp.getD 0xFFFD
  if cp = 0x22 then [0x5C, 0x22]
  else if cp = 0x5C then [0x5C, 0x5C]
  else if cp = 0x08 then [0x5C, 0x62]
  else if cp = 0x0C then [0x5C, 0x66]
  else if cp = 0x0A then [0x5C, 0x6E]
  else if cp = 0x0D then [0x5C, 0x72]
  else if cp = 0x09 then [0x5C, 0x74]
  else if cp > 0xFFFF then
    ucodeEscape (0xD800 + ((cp - 0x10000) >>> 10)) ++ ucodeEscape (0xDC00 + ((cp - 0x10000) &&& 0x3FF))
  else if cp < 0x20 ∨ cp ≥ 0x7F then ucodeEscape cp
  else [BitVec.ofNat 8 cp]

/-- the loop over a string; every turn takes at least one byte -/
def escapeLoop : Nat → List Byte → List Byte
  | 0, _ => []
  | fuel + 1, ptr =>
    if (ptr.getD 0 0).toNat = 0 then []
    else escapeCp (modUtf8Codepoint 6 ptr).1 ++ escapeLoop fuel (modUtf8Codepoint 6 ptr).2

def quoted (str : List Byte) : List Byte := [0x22] ++ escapeLoop str.length str ++ [0x22]

def decimalLoop : Nat → Nat → List Byte
  | 0, _ => []
  | fuel + 1, n =>
    if n < 10 then [BitVec.ofNat 8 (0x30 + n)]
    else decimalLoop fuel (n / 10) ++ [BitVec.ofNat 8 (0x30 + n % 10)]

/-- `PRId64`; nineteen digits are enough -/
def decimal (value : BitVec 64) : List Byte :=
  if value.toInt < 0 then 0x2D :: decimalLoop 19 value.toInt.natAbs
  else decimalLoop 19 value.toInt.natAbs

/-- the digits of `%f` without trailing zeros and without a trailing point -/
def trimZeros (buffer : List Byte) : List Byte :=
  let kept := (buffer.reverse.dropWhile (· = 0x30)).reverse
  if kept.getLast? = some 0x2E then kept.dropLast else kept

/-! ## objects -/

/-- with `pretty`, a new line and the indent -/
def newline (pretty : Bool) (indent : Nat) : List Byte :=
  if pretty then 0x0A :: List.replicate (4 * indent) 0x20 else []

/-- the comma before every element but the first -/
def comma (count : Nat) : List Byte := if count ≠ 0 then [0x2C, 0x20] else []

section
variable (snprintfF : Double → List Byte)

mutual

def toJson (pretty : Bool) : QObject → Nat → List Byte
  | .int value, _ => decimal value
  | .string str, _ => quoted str
  | .dict entries, indent =>
    [0x7B] ++ toJsonDictIter pretty entries (indent + 1) 0 ++ newline pretty indent ++ [0x7D]
  | .list items, indent =>
    [0x5B] ++ toJsonListIter pretty items (indent + 1) 0 ++ newline pretty indent ++ [0x5D]
  | .float value, _ => trimZeros (snprintfF value)
  | .bool value, _ => if value then bytes "true" else bytes "false"

def toJsonDictIter (pretty : Bool) : List (List Byte × QObject) → Nat → Nat → List Byte
  | [], _, _ => []
  | (key, obj) :: entries, indent, count =>
    comma count ++ newline pretty indent ++ quoted key ++ [0x3A, 0x20] ++ toJson pretty obj indent ++
      toJsonDictIter pretty entries indent (count + 1)

def toJsonListIter (pretty : Bool) : List QObject → Nat → Nat → List Byte
  | [], _, _ => []
  | obj :: items, indent, count =>
    comma count ++ newline pretty indent ++ toJson pretty obj indent ++
      toJsonListIter pretty items indent (count + 1)

end

def qobjectToJson (obj : QObject) : List Byte := toJson snprintfF false obj 0

def qobjectToJsonPretty (obj : QObject) : List Byte := toJson snprintfF true obj 0

end

/-- every list handed on is parsed, and the last result stays -/
def qobjectFromJson (string : List Byte) : Except Fault (Option QObject) :=
  let (parser, out) := jsonMessageParserFeed jsonMessageParserInit string
  let (_, out') := jsonMessageParserFlush parser
  (out ++ out').foldlM (fun _ e => jsonParserParse e.tokens none) none

end Qjson
